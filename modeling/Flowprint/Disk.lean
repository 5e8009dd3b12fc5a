/-
  Flowprint.Disk
  ────────────────────────────────
  The files of a working directory as a value.

  A path leads to a place step by step, and every step but the last must end at a directory.  A path
  also spells a place, whether there is anything on the way or not.

  Main statements:

      lookup_put        what was put at a place is found there
      lookup_put_ne     every other place is left alone
-/
import Flowprint.Index.Storage
import Flowprint.Place
import Std.Data.ExtTreeMap

namespace Flowprint

open Std

/-- What is at a place. -/
inductive FileNode where
  | directory
  /-- A file of bytes. -/
  | file (content : List UInt8)
  /-- A database file. -/
  | database (contents : Index.Database)
  deriving DecidableEq

/-- The places below a working directory with what is there. -/
structure Disk where
  nodes : ExtTreeMap Place FileNode := ∅
  deriving DecidableEq

/-- Why a file cannot be used. -/
inductive FileFault where
  /-- Nothing is there. -/
  | notFound
  /-- A directory is where a file should be. -/
  | isDirectory
  /-- A file is where a directory should be. -/
  | notADirectory
  /-- A file is where a directory is to be made. -/
  | alreadyExists
  /-- The bytes are no text. -/
  | notText
  /-- A name or the path is longer than it can be. -/
  | nameTooLong
  /-- The path has a character that no path can have. -/
  | invalidPath
  deriving Repr, DecidableEq

/-- What an action on a disk gives, or why it fails; a failing action may have changed the disk. -/
abbrev DiskM (ε α : Type) := ExceptT ε (StateM Disk) α

/-- What is read from a disk as it is. -/
def DiskM.reading {ε α : Type} (read : Disk → Except ε α) : DiskM ε α :=
  fun disk => (read disk, disk)

namespace Disk

/-! ## §1. Places. -/

/-- What is at a place.  The working directory and those above it are there. -/
def lookup (disk : Disk) (place : Place) : Option FileNode :=
  if Place.isAncestor place then some .directory else disk.nodes[place]?

/-- One step from a directory. -/
def step (disk : Disk) (place : Place) (name : String) : Except FileFault Place :=
  match disk.lookup place with
  | none => .error .notFound
  | some .directory =>
    if Place.isTooLong name then .error .nameTooLong else .ok (Place.step place name)
  | some _ => .error .notADirectory

/-- The place to which a path leads. -/
def locate (disk : Disk) (path : String) : Except FileFault Place :=
  if path.contains '\x00' then .error .invalidPath
  else if path.isEmpty then .error .notFound
  else if Place.maxPathBytes < Text.utf8Length path.toList then .error .nameTooLong
  else (Place.steps path).foldlM disk.step []

/-- One step of a path that is spelled: a step up takes back the step before it, and a step may go
to a name below a place where nothing is. -/
def spellStep (disk : Disk) (place : Place) (name : String) : Except FileFault Place :=
  if Place.isRelative name then .ok (Place.step place name)
  else
    match disk.step place name with
    | .error .notFound => .ok (Place.step place name)
    | result => result

/-- The place that a path spells. -/
def spelled (disk : Disk) (path : String) : Except FileFault Place :=
  (Place.steps path).foldlM disk.spellStep []

/-! ## §2. Reading. -/

/-- What a path leads to. -/
def node (disk : Disk) (path : String) : Except FileFault FileNode :=
  match disk.locate path with
  | .error fault => .error fault
  | .ok place =>
    match disk.lookup place with
    | none => .error .notFound
    | some node => .ok node

/-- Whether a path leads to something. -/
def holds (disk : Disk) (path : String) : Bool :=
  match disk.node path with
  | .ok _ => true
  | .error _ => false

/-- The bytes of a file. -/
def readBytes (disk : Disk) (path : String) : Except FileFault (List UInt8) :=
  match disk.node path with
  | .error fault => .error fault
  | .ok .directory => .error .isDirectory
  | .ok (.file content) => .ok content
  | .ok (.database contents) => .ok (Index.Storage.encode contents)

/-- The text of a file. -/
def readText (disk : Disk) (path : String) : Except FileFault String :=
  match disk.readBytes path with
  | .error fault => .error fault
  | .ok bytes =>
    match Text.ofBytes? bytes with
    | none => .error .notText
    | some text => .ok text

/-! ## §3. Writing. -/

/-- The disk with something at a place. -/
def put (disk : Disk) (place : Place) (node : FileNode) : Disk :=
  ⟨disk.nodes.insert place node⟩

/-- The disk with a file in place of what file there was. -/
def write (disk : Disk) (path : String) (node : FileNode) : Except FileFault Disk :=
  match disk.locate path with
  | .error fault => .error fault
  | .ok place =>
    if disk.lookup place = some .directory then .error .isDirectory
    else .ok (disk.put place node)

/-- The disk with an empty file at a place, unless a file is there. -/
def touch (disk : Disk) (place : Place) : Except FileFault Disk :=
  match disk.lookup place with
  | some .directory => .error .isDirectory
  | some _ => .ok disk
  | none =>
    if disk.lookup place.dropLast = some .directory then .ok (disk.put place (.file []))
    else .error .notFound

/-- The disk with a file of text. -/
def writeText (disk : Disk) (path : String) (text : String) : Except FileFault Disk :=
  disk.write path (.file (Text.bytesOf text))

/-- The disk with a file moved to another path. -/
def rename (disk : Disk) (source target : String) : Except FileFault Disk :=
  match disk.locate source, disk.node source with
  | .ok place, .ok node =>
    Disk.write ⟨disk.nodes.erase place⟩ target node
  | .error fault, _ => .error fault
  | _, .error fault => .error fault

/-- The disk with a directory at a place, if nothing is there. -/
def fillPlace (disk : Disk) (place : Place) : Disk :=
  if (disk.lookup place).isSome then disk else disk.put place .directory

/-- The disk with a directory, and with the directories above it. -/
def makeDirectory (disk : Disk) (path : String) : Except FileFault Disk := do
  let (disk, place) ← (Place.steps path).foldlM (fun (disk, place) name => do
    let place ← disk.step place name
    return (disk.fillPlace place, place)) (disk, [])
  if disk.lookup place = some .directory then return disk else throw .alreadyExists

/-! ## §4. Places that change and places that stay. -/

/-- What was put at a place below the working directory is found there. -/
theorem lookup_put (disk : Disk) {place : Place} (h : Place.isAncestor place = false)
    (node : FileNode) : (disk.put place node).lookup place = some node := by
  simp [lookup, put, h]

/-- Every other place is left alone. -/
theorem lookup_put_ne (disk : Disk) {place other : Place} (h : place ≠ other) (node : FileNode) :
    (disk.put place node).lookup other = disk.lookup other := by
  simp [lookup, put, ExtTreeMap.getElem?_insert, h]

end Disk

end Flowprint
