/-
  Flowprint.Metadata.Device
  ────────────────────────────────
  Saving a store on a device that can fail.

  A disk refuses only what its places do not allow.  The device under it can fail besides, at any one
  step of a save, and what a step has written until then stays in the file beside.

  Main statements:

      saveOn_none      without trouble a save is the save on the disk alone
-/
import Flowprint.Metadata.Store

namespace Flowprint.MetadataStore

/-- The step of a save at which the device fails. -/
inductive Trouble where
  /-- The file of the store cannot be read. -/
  | reading
  /-- The file beside cannot be created. -/
  | creating
  /-- So many bytes are written to the file beside and no more, or they are all written and cannot be
  made to last. -/
  | writing (count : Nat)
  /-- The file beside cannot be moved. -/
  | moving
  deriving Repr, DecidableEq

/-- Why a save fails: by a fault of the store and its disk, or by the device. -/
inductive SaveFault where
  | fault (fault : Metadata.Fault)
  | device (trouble : Trouble)

/-- The annotations in a file of the device. -/
def readFileOn (trouble : Option Trouble) (path : String) (disk : Disk) :
    Except SaveFault Annotations :=
  match trouble with
  | some .reading => .error (.device .reading)
  | _ => (readFile path disk).mapError .fault

/-- Write the file beside a file, and find then that the device has failed. -/
def leaveBeside (trouble : Trouble) (path : String) (content : List UInt8) (disk : Disk) :
    Except SaveFault Unit × Disk :=
  match disk.write (beside path) (.file content) with
  | .error fault => (.error (.fault (.file fault)), disk)
  | .ok disk => (.error (.device trouble), disk)

/-- Put a text into a file of the device by way of the file beside it. -/
def replaceFileOn (trouble : Option Trouble) (path text : String) (disk : Disk) :
    Except SaveFault Unit × Disk :=
  match trouble with
  | some .creating => (.error (.device .creating), disk)
  | some (.writing count) =>
    leaveBeside (.writing count) path ((Text.bytesOf text).take count) disk
  | some .moving => leaveBeside .moving path (Text.bytesOf text) disk
  | _ =>
    let (outcome, disk) := replaceFile path text disk
    (outcome.mapError fun fault => .fault (.file fault), disk)

/-- Save a store on the device. -/
def saveOn (trouble : Option Trouble) (store : MetadataStore) (disk : Disk) :
    Except SaveFault Unit × MetadataStore × Disk :=
  match readFileOn trouble store.path disk with
  | .error fault => (.error fault, store, disk)
  | .ok found =>
    let store := { store with entries := override found store.entries }
    let (outcome, disk) := replaceFileOn trouble store.path (Annotations.render store.entries) disk
    (outcome, store, disk)

theorem readFileOn_none (path : String) (disk : Disk) :
    readFileOn none path disk = (readFile path disk).mapError .fault :=
  rfl

theorem replaceFileOn_none (path text : String) (disk : Disk) :
    replaceFileOn none path text disk
      = ((replaceFile path text disk).1.mapError fun fault => .fault (.file fault),
        (replaceFile path text disk).2) :=
  rfl

/-- Without trouble a save is the save on the disk alone. -/
theorem saveOn_none (store : MetadataStore) (disk : Disk) :
    store.saveOn none disk = ((store.save disk).1.mapError .fault, (store.save disk).2) := by
  rw [saveOn, save, readFileOn_none]
  cases readFile store.path disk with
  | error fault => rfl
  | ok found =>
    dsimp only [Except.mapError]
    rw [replaceFileOn_none]
    rcases replaceFile store.path _ disk with ⟨fault | _, after⟩
    · rfl
    · rfl

end Flowprint.MetadataStore
