/-
  Flowprint.Main
  ────────────────────────────────
  The command line program: it takes the files of a command into a disk, runs the command there, and
  puts back what has changed.
-/
import Flowprint.Command.Files

namespace Flowprint.Program

/-- The path of a place. -/
def pathOf : Place → String
  | "/" :: names => "/" ++ "/".intercalate names
  | names => "/".intercalate names

/-- What is at a path. -/
def readNode (path : String) : IO (Option FileNode) := do
  try
    if ← (← IO.FS.realPath path).isDir then return some .directory
    let content := (← IO.FS.readBinFile path).toList
    match Index.Storage.decode? content with
    | some database => return some (.database database)
    | none => return some (.file content)
  catch _ => return none

/-- Take what is at the places that a path spells into a disk. -/
def takePath (disk : Disk) (path : String) : IO Disk := do
  let mut disk := disk
  let mut place : Place := []
  for name in Place.steps path do
    match disk.spellStep place name with
    | .error _ => return disk
    | .ok next =>
      place := next
      unless (disk.lookup place).isSome do
        if let some node ← readNode (pathOf place) then
          disk := disk.put place node
  return disk

/-- Put a file in place, by way of a file beside it. -/
def storeNode (place : Place) (node : FileNode) : IO Unit := do
  let path := pathOf place
  let replace (content : List UInt8) : IO Unit := do
    let beside := path ++ ".new"
    IO.FS.writeBinFile beside ⟨content.toArray⟩
    IO.FS.rename beside path
  match node with
  | .directory => return
  | .file content => replace content
  | .database contents => replace (Index.Storage.encode contents)

/-- Put the files of a disk in place that are not as they were before. -/
def storeChanges (before after : Disk) : IO Unit :=
  for (place, node) in after.nodes.toList do
    unless before.lookup place = some node do storeNode place node

end Flowprint.Program

open Flowprint in
/-- Run a command line: the exit code tells whether the command succeeded (0), failed (1) or was no
command (2). -/
def main (arguments : List String) : IO UInt32 := do
  match Command.Invocation.read? arguments with
  | none =>
    IO.eprintln "usage: simsearch [-v] [--config FILE] COMMAND [ARGUMENTS]"
    return 2
  | some invocation =>
    let known ← invocation.configFiles.foldlM Program.takePath {}
    let before ← (invocation.files known).foldlM Program.takePath known
    let (result, after) := invocation.run.run before
    Program.storeChanges before after
    match result with
    | .ok text =>
      IO.print text
      return 0
    | .error failure =>
      IO.eprintln s!"Error: {failure.message}"
      return 1
