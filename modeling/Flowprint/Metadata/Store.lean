/-
  Flowprint.Metadata.Store
  ────────────────────────────────
  Annotations with a file of their own.

  A store reads its file when it is loaded and writes it when it is saved.  What others have written
  in the meantime stays, unless the store has an entry for the same function.  The file is written
  beside its place and then moved there, so that there is always a whole one.

  Main statements:

      insert_breaks        a file name of more than one line is refused
-/
import Flowprint.Metadata.Line

namespace Flowprint

/-- The sentence that names a fault. -/
def Metadata.Fault.message : Metadata.Fault → String
  | .file _ => "Metadata file cannot be used"
  | .malformed line content => s!"Malformed metadata entry on line {line}: {Text.quoted content}"
  | .fileNameBreaks name => s!"File name contains a line break: {Text.quoted name}"

/-- Annotations with the path of their file. -/
structure MetadataStore where
  path : String
  entries : Annotations := ∅
  deriving DecidableEq

namespace MetadataStore

/-- The annotations in a file; none where no file is. -/
def readFile (path : String) (disk : Disk) : Except Metadata.Fault Annotations :=
  match disk.readText path with
  | .ok text => Annotations.parse text
  | .error .notFound => .ok ∅
  | .error fault => .error (.file fault)

/-- The store of a file. -/
def load (path : String) (disk : Disk) : Except Metadata.Fault MetadataStore :=
  match readFile path disk with
  | .ok entries => .ok ⟨path, entries⟩
  | .error fault => .error fault

/-- Whether a text is more than one line. -/
def breaks (s : String) : Bool :=
  s.toList.any fun c => c == '\n' || c == '\r'

/-- The store with an entry. -/
def insert (store : MetadataStore) (key : FunctionKey) (metadata : Metadata) :
    Except Metadata.Fault MetadataStore :=
  if breaks metadata.fileName then .error (.fileNameBreaks metadata.fileName)
  else .ok { store with entries := store.entries.insert key metadata }

/-- What is known about a function. -/
def get? (store : MetadataStore) (key : FunctionKey) : Option Metadata :=
  store.entries[key]?

/-- Annotations, overridden by others. -/
def override (old new : Annotations) : Annotations :=
  new.toList.foldl (fun entries (key, metadata) => entries.insert key metadata) old

/-- The path of the file beside a file. -/
def beside (path : String) : String :=
  path ++ ".tmp"

/-- Put a text into a file by way of the file beside it. -/
def replaceFile (path text : String) (disk : Disk) : Except FileFault Unit × Disk :=
  match disk.writeText (beside path) text with
  | .error fault => (.error fault, disk)
  | .ok disk =>
    match disk.rename (beside path) path with
    | .error fault => (.error fault, disk)
    | .ok disk => (.ok (), disk)

/-- Save a store.  If its file cannot be read, nothing changes; if it cannot be written, the store
has taken over what was in it. -/
def save (store : MetadataStore) (disk : Disk) :
    Except Metadata.Fault Unit × MetadataStore × Disk :=
  match readFile store.path disk with
  | .error fault => (.error fault, store, disk)
  | .ok found =>
    let store := { store with entries := override found store.entries }
    match replaceFile store.path (Annotations.render store.entries) disk with
    | (.ok (), disk) => (.ok (), store, disk)
    | (.error fault, disk) => (.error (.file fault), store, disk)

/-- A file name of more than one line is refused. -/
theorem insert_breaks (store : MetadataStore) (key : FunctionKey) {metadata : Metadata}
    (h : breaks metadata.fileName = true) :
    store.insert key metadata = .error (.fileNameBreaks metadata.fileName) := by
  simp [insert, h]

end MetadataStore

end Flowprint
