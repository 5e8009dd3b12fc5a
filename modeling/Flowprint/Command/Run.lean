/-
  Flowprint.Command.Run
  ────────────────────────────────
  Running commands: what each of them does to the disk, and what it prints.

  The settings are read before anything else.  A command that fails prints nothing.
-/
import Flowprint.Command.Grammar
import Flowprint.Command.Querying
import Flowprint.Config.File
import Flowprint.Executable
import Flowprint.Index.Document
import Flowprint.Version

namespace Flowprint.Command

/-! ## §1. Printed forms. -/

/-- A document on lines of its own. -/
def document (value : Json.Value) : String :=
  value.pretty ++ "\n"

/-- A new index as lines. -/
def createdLines (handle : Index.Handle) : String :=
  s!"Created index:\n  Path: {handle.path}\n  Capacity: {handle.capacity} bytes\n"
    ++ s!"  Permutations: {handle.permutations}\n  Bytes per record: {handle.bytesPerRecord}\n"

/-- The numbers about an index as lines. -/
def statsLines (path : String) (stats : Index.Stats) : String :=
  s!"Index: {path}\n  Schema version: {stats.schemaVersion}\n  Records: {stats.recordCount}\n"
    ++ s!"  Permutations: {stats.permutations}\n  Permuted entries: {stats.entryCount}\n"
    ++ s!"  Capacity: {stats.capacity} bytes\n  Used: {stats.used} bytes\n"
    ++ s!"  Free: {stats.free} bytes\n"

/-- An entry of an index as a line. -/
def entryLine (entry : Index.Entry) : String :=
  let permutation := Text.Radix.padLeft 3 (toString entry.permutation)
  s!"{permutation} {entry.permuted.text} {entry.record}\n"

/-! ## §2. Commands. -/

/-- The number of the executable in a file. -/
def executableOf (path : String) : DiskM Failure UInt64 :=
  (DiskM.reading (Executable.load path)).adapt (Failure.hashExecutable path)

/-- The executable that functions are added for. -/
def chosenExecutable (executable : Option UInt64) (binary : Option String) :
    DiskM Failure UInt64 :=
  match executable, binary with
  | some executable, _ => return executable
  | none, some path => executableOf path
  | none, none => throw .noExecutable

/-- Run a command; gives what it prints. -/
def run (config : SearchConfig) : Command → DiskM Failure String
  | .hash graphs tuning json => do
    let reports ← hashReports graphs (tuning.apply config.hasher)
    return if json then document (.list (reports.map HashReport.toJson))
      else String.join (reports.map HashReport.line)
  | .features graph tuning json => do
    let hasher ← Hasher.prepare (tuning.apply config.hasher)
    let features := hasher.features (← loadGraph graph)
    return if json then document (featureDocument hasher features)
      else featureLines hasher features
  | .dot graph => return (← loadGraph graph).toDot
  | .executable file => do
    let number ← executableOf file
    return s!"{Text.Radix.hexPadded 16 number.toNat}  {file}\n"
  | .create index bits permutations => do
    let path := index.getD config.indexPath
    let options : Index.Options :=
      ⟨bits.getD config.capacityBits, permutations.getD config.permutations⟩
    return createdLines (← (Index.File.create path options).adapt (Failure.createIndex path))
  | .add index graphs number binary address minBranching tuning => do
    let number ← chosenExecutable number binary
    let config := { config with
      hasher := tuning.apply config.hasher
      minBranching := minBranching.getD config.minBranching }
    let summary ← addFunctions (index.getD config.indexPath) graphs number address config
    return summary.lines
  | .query index graph count tuning json => do
    let config := { config with hasher := tuning.apply config.hasher }
    let rows ← queryRows (index.getD config.indexPath) graph count config
    return if json then document (.list (rows.map Row.toJson))
      else if rows.isEmpty then "(no matches)\n"
      else String.join (rows.map Row.line)
  | .info index json => do
    let path := index.getD config.indexPath
    let handle ← openIndex path
    let stats ← (DiskM.reading (Index.File.stats handle)).adapt Failure.readStats
    return if json then document stats.toJson else statsLines path stats
  | .grow index bytes => do
    let handle ← openIndex (index.getD config.indexPath)
    let handle ← (Index.File.grow handle bytes).adapt Failure.growIndex
    return s!"Capacity: {handle.capacity} bytes\nFree: {handle.free} bytes\n"
  | .dump index all json => do
    let handle ← openIndex (index.getD config.indexPath)
    let entries ← (DiskM.reading (Index.File.entries handle all)).adapt Failure.readEntries
    return if json then document (.list (entries.map Index.Entry.toJson))
      else String.join (entries.map entryLine)
  | .annotate index number address fileName functionName vulnerable => do
    let path ← annotateFunction (index.getD config.indexPath) config.metadataPath
      ⟨number, address⟩ ⟨fileName, functionName, vulnerable⟩
    let function :=
      s!"{Text.Radix.hexPadded 16 number.toNat}:{Text.Radix.hex address.toNat}"
    return s!"Annotated {function} as {functionName} in {path}\n"

/-! ## §3. Command lines. -/

/-- The settings of a command line. -/
def settings : Option String → DiskM Failure SearchConfig
  | none => return {}
  | some path => DiskM.reading (SearchConfig.load path)

/-- Do what a command line asks for; gives what is printed. -/
def Invocation.run : Invocation → DiskM Failure String
  | .version => return s!"simsearch {Flowprint.version}\n"
  | .call config command => do command.run (← settings config)

end Flowprint.Command
