/-
  Flowprint.Command.Arguments
  ────────────────────────────────
  Command line arguments: options by name or by letter, and the other arguments in order.

  An option with a value takes what follows its name behind an equals sign, or what follows its
  letter, or else the next argument, which then must not look like an option.  Letters may be joined
  behind one dash.  Behind a lone double dash no argument is an option.  An option is given at most
  once, unless it counts.  Behind an option that ends the reading nothing matters, not even what is
  joined to its letter.
-/
import Flowprint.Text.Cut

namespace Flowprint.Command

/-- What an option takes. -/
inductive OptionKind where
  /-- Nothing; it is there or not. -/
  | flag
  /-- Nothing; it may be repeated. -/
  | count
  /-- A value. -/
  | value
  /-- Nothing; what comes after it is not read. -/
  | ending
  deriving Repr, DecidableEq

/-- An option. -/
structure OptionForm where
  name : String
  letter : Option Char := none
  kind : OptionKind := .value
  deriving Repr, DecidableEq

/-- Arguments, told apart. -/
structure Arguments where
  /-- The options with their values, which are empty where none is taken. -/
  options : List (String × String) := []
  /-- The other arguments. -/
  operands : List String := []
  deriving Repr, DecidableEq

namespace Arguments

/-! ## §1. Options. -/

/-- One more option, unless it has been given. -/
def give (form : OptionForm) (value : String) (arguments : Arguments) : Option Arguments :=
  if form.kind ≠ .count ∧ (arguments.options.lookup form.name).isSome then none
  else some { arguments with options := (form.name, value) :: arguments.options }

/-- One more argument that is no option. -/
def operand (value : String) (arguments : Arguments) : Arguments :=
  { arguments with operands := arguments.operands ++ [value] }

/-- The value of an option. -/
def value? (arguments : Arguments) (name : String) : Option String :=
  arguments.options.lookup name

/-- Whether an option is given. -/
def has (arguments : Arguments) (name : String) : Bool :=
  (arguments.value? name).isSome

/-! ## §2. Reading. -/

/-- Whether an argument looks like an option. -/
def looksLikeOption (argument : String) : Bool :=
  match argument.toList with
  | '-' :: _ :: _ => true
  | _ => false

/-- How far arguments are read. -/
inductive Progress where
  /-- The next argument is read on its own. -/
  | ready (arguments : Arguments)
  /-- An option waits for its value. -/
  | awaiting (form : OptionForm) (arguments : Arguments)
  /-- The next arguments do not matter. -/
  | ended (arguments : Arguments)
  deriving Repr, DecidableEq

/-- Read an option by its name, behind the dashes. -/
def readName (forms : List OptionForm) (text : List Char) (arguments : Arguments) :
    Option Progress := do
  let (name, value) := match Text.cutFirst? '=' text with
    | some (name, value) => (name, some value)
    | none => (text, none)
  let form ← forms.find? (·.name.toList = name)
  match form.kind, value with
  | .value, some value => return .ready (← arguments.give form (.ofList value))
  | .value, none => return .awaiting form arguments
  | _, some _ => none
  | .ending, none => return .ended (← arguments.give form "")
  | _, none => return .ready (← arguments.give form "")

/-- Read options by their letters, behind the dash. -/
def readLetters (forms : List OptionForm) : List Char → Arguments → Option Progress
  | [], arguments => some (.ready arguments)
  | letter :: rest, arguments => do
    let form ← forms.find? (·.letter = some letter)
    match form.kind, rest with
    | .value, [] => return .awaiting form arguments
    | .value, '=' :: value => return .ready (← arguments.give form (.ofList value))
    | .value, value => return .ready (← arguments.give form (.ofList value))
    | .ending, _ => return .ended (← arguments.give form "")
    | _, rest => readLetters forms rest (← arguments.give form "")

/-- Read arguments.  If `leading` is set, reading stops at the first argument that is no option;
gives what is left. -/
def readFrom (forms : List OptionForm) (leading : Bool) :
    List String → Progress → Option (Arguments × List String)
  | rest, .ended arguments => some (arguments, rest)
  | [], .ready arguments => some (arguments, [])
  | [], .awaiting _ _ => none
  | argument :: rest, .awaiting form arguments => do
    guard (! looksLikeOption argument)
    readFrom forms leading rest (.ready (← arguments.give form argument))
  | argument :: rest, .ready arguments =>
    match argument.toList with
    | ['-', '-'] =>
      if leading then none else some (rest.foldl (fun a s => a.operand s) arguments, [])
    | '-' :: '-' :: name => do readFrom forms leading rest (← readName forms name arguments)
    | '-' :: letter :: letters => do
      readFrom forms leading rest (← readLetters forms (letter :: letters) arguments)
    | _ =>
      if leading then some (arguments, argument :: rest)
      else readFrom forms leading rest (.ready (arguments.operand argument))

/-- Read arguments to the end. -/
def read (forms : List OptionForm) (arguments : List String) : Option Arguments :=
  (readFrom forms false arguments (.ready {})).map Prod.fst

/-- Read the options before the first argument that is none; gives what is left from it on. -/
def readLeading (forms : List OptionForm) (arguments : List String) :
    Option (Arguments × List String) :=
  readFrom forms true arguments (.ready {})

end Arguments

end Flowprint.Command
