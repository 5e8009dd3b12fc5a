/-
  Flowprint.Command.Grammar
  ────────────────────────────────
  The commands and how they are given on a command line.

  Options that hold for every command may stand before the name of the command or behind it.  The
  option for the version of the program stands before, and what comes behind it does not matter.
  Paths are not empty.  Numbers of functions, addresses and bytes may be hexadecimal.
-/
import Flowprint.Command.Arguments
import Flowprint.Hasher
import Flowprint.Text.Number

namespace Flowprint

/-! ## §1. Commands as values. -/

/-- Changes to the hasher settings. -/
structure Tuning where
  weights : Option String := none
  /-- Hash graphlets only. -/
  noMnemonics : Bool := false
  /-- Count each distinct feature once. -/
  once : Bool := false
  deriving Repr, DecidableEq

/-- The settings with changes. -/
def Tuning.apply (tuning : Tuning) (config : HasherConfig) : HasherConfig :=
  { config with
    weightsPath := tuning.weights.or config.weightsPath
    disableMnemonics := tuning.noMnemonics || config.disableMnemonics
    multiplicity := if tuning.once then .once else config.multiplicity }

/-- What the command line can do. -/
inductive Command where
  /-- Print the hashes of graphs. -/
  | hash (graphs : List String) (tuning : Tuning) (json : Bool)
  /-- List the features of a graph with their weights. -/
  | features (graph : String) (tuning : Tuning) (json : Bool)
  /-- Draw a graph. -/
  | dot (graph : String)
  /-- Print the number of an executable. -/
  | executable (file : String)
  /-- Create an index. -/
  | create (index : Option String) (bits permutations : Option UInt32)
  /-- Add the functions of graphs to an index. -/
  | add (index : Option String) (graphs : List String) (executable : Option UInt64)
      (binary : Option String) (address : Option UInt64) (minBranching : Option Nat)
      (tuning : Tuning)
  /-- Find the functions closest to a graph. -/
  | query (index : Option String) (graph : String) (count : Nat) (tuning : Tuning) (json : Bool)
  /-- Print the numbers about an index. -/
  | info (index : Option String) (json : Bool)
  /-- Add capacity to an index. -/
  | grow (index : Option String) (bytes : UInt64)
  /-- Print the entries of an index. -/
  | dump (index : Option String) (all json : Bool)
  /-- Say what is known about a function. -/
  | annotate (index : Option String) (executable address : UInt64)
      (fileName functionName : String) (vulnerable : Bool)
  deriving Repr, DecidableEq

namespace Command

/-- What a command line asks for. -/
inductive Invocation where
  /-- The version of the program. -/
  | version
  /-- A command with the settings of a file, or with the defaults. -/
  | call (config : Option String) (command : Command)
  deriving Repr, DecidableEq

/-! ## §2. Values. -/

/-- A path. -/
def path? (s : String) : Option String :=
  if s.isEmpty then none else some s

/-- A number of 64 bits. -/
def word64? (s : String) : Option UInt64 :=
  (Text.readNumber s).toOption

/-- A number of 32 bits, as decimal digits behind a sign. -/
def word32? (s : String) : Option UInt32 :=
  let digits := match s.toList with
    | '-' :: d :: rest => if d.isDigit && (d :: rest).all (· == '0') then ['0'] else s.toList
    | chars => chars
  (Text.Radix.read 10 UInt32.size digits).toOption.map .ofNat

/-- A count, as decimal digits. -/
def count? (s : String) : Option Nat :=
  (Text.Radix.read 10 UInt64.size s.toList).toOption

/-- The value of an option that may be left out. -/
def Arguments.optional? {α : Type} (arguments : Arguments) (name : String)
    (read : String → Option α) : Option (Option α) :=
  match arguments.value? name with
  | none => some none
  | some text => (read text).map some

/-- The value of an option that must be given. -/
def Arguments.required? {α : Type} (arguments : Arguments) (name : String)
    (read : String → Option α) : Option α :=
  (arguments.value? name).bind read

/-- One path and no more. -/
def Arguments.onePath? (arguments : Arguments) : Option String :=
  match arguments.operands with
  | [path] => path? path
  | _ => none

/-- One path or none. -/
def Arguments.optionalPath? (arguments : Arguments) : Option (Option String) :=
  match arguments.operands with
  | [] => some none
  | [path] => (path? path).map some
  | _ => none

/-- Paths, at least one. -/
def Arguments.paths? (arguments : Arguments) : Option (List String) := do
  guard (! arguments.operands.isEmpty)
  arguments.operands.mapM path?

/-- No argument other than options. -/
def Arguments.noOperands? (arguments : Arguments) : Option Unit :=
  guard arguments.operands.isEmpty

/-! ## §3. Options. -/

/-- The options of every command. -/
def commonForms : List OptionForm :=
  [ { name := "verbose", letter := some 'v', kind := .count }, { name := "config" } ]

/-- The options that change the hasher settings. -/
def tuningForms : List OptionForm :=
  [ { name := "weights" }, { name := "no-mnemonics", kind := .flag },
    { name := "once", kind := .flag } ]

/-- The option for documents instead of lines. -/
def jsonForm : OptionForm :=
  { name := "json", kind := .flag }

/-- The changes to the hasher settings. -/
def tuning? (arguments : Arguments) : Option Tuning :=
  return ⟨← arguments.optional? "weights" path?, arguments.has "no-mnemonics", arguments.has "once"⟩

/-! ## §4. Command lines. -/

/-- A command on the command line: its name, its own options, and how it is made of them. -/
structure CommandForm where
  name : String
  options : List OptionForm
  make : Arguments → Option Command

/-- The commands. -/
def commandForms : List CommandForm :=
  [ ⟨"hash", jsonForm :: tuningForms, fun a =>
      return .hash (← a.paths?) (← tuning? a) (a.has "json")⟩,
    ⟨"features", jsonForm :: tuningForms, fun a =>
      return .features (← a.onePath?) (← tuning? a) (a.has "json")⟩,
    ⟨"dot", [], fun a => return .dot (← a.onePath?)⟩,
    ⟨"exec-id", [], fun a => return .executable (← a.onePath?)⟩,
    ⟨"create-index", [{ name := "capacity-bits" }, { name := "permutations" }], fun a =>
      return .create (← a.optionalPath?) (← a.optional? "capacity-bits" word32?)
        (← a.optional? "permutations" word32?)⟩,
    ⟨"add", [{ name := "index" }, { name := "exec-id" }, { name := "binary" },
      { name := "address" }, { name := "min-branching" }] ++ tuningForms, fun a => do
      guard (! (a.has "exec-id" && a.has "binary"))
      return .add (← a.optional? "index" path?) (← a.paths?) (← a.optional? "exec-id" word64?)
        (← a.optional? "binary" path?) (← a.optional? "address" word64?)
        (← a.optional? "min-branching" count?) (← tuning? a)⟩,
    ⟨"query", [{ name := "index" }, { name := "count", letter := some 'n' }, jsonForm]
      ++ tuningForms, fun a =>
      return .query (← a.optional? "index" path?) (← a.onePath?)
        ((← a.optional? "count" count?).getD 5) (← tuning? a) (a.has "json")⟩,
    ⟨"index-info", [jsonForm], fun a => return .info (← a.optionalPath?) (a.has "json")⟩,
    ⟨"grow-index", [{ name := "bytes" }], fun a =>
      return .grow (← a.optionalPath?) (← a.required? "bytes" word64?)⟩,
    ⟨"dump-index", [{ name := "all", kind := .flag }, jsonForm], fun a =>
      return .dump (← a.optionalPath?) (a.has "all") (a.has "json")⟩,
    ⟨"annotate", [{ name := "index" }, { name := "exec-id" }, { name := "address" },
      { name := "file-name" }, { name := "function-name" },
      { name := "vulnerable", kind := .flag }], fun a => do
      a.noOperands?
      return .annotate (← a.optional? "index" path?) (← a.required? "exec-id" word64?)
        (← a.required? "address" word64?) (← a.required? "file-name" some)
        (← a.required? "function-name" some) (a.has "vulnerable")⟩ ]

/-- What a command line asks for, if it is one. -/
def Invocation.read? (arguments : List String) : Option Invocation := do
  let versionForm : OptionForm := { name := "version", letter := some 'V', kind := .ending }
  let (leading, rest) ← Arguments.readLeading (versionForm :: commonForms) arguments
  let before ← leading.optional? "config" path?
  if leading.has "version" then return .version
  match rest with
  | [] => none
  | name :: rest =>
    let form ← commandForms.find? (·.name = name)
    let own ← Arguments.read (commonForms ++ form.options) rest
    let behind ← own.optional? "config" path?
    return .call (behind.or before) (← form.make own)

end Command

end Flowprint
