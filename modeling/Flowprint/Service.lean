/-
  Flowprint.Service
  ────────────────────────────────
  Indexing and searching of flowgraphs: a hasher with an index, and when a function is worth its
  place in it.

  A function with few branching blocks looks like many others and is not indexed.  Before the index
  is full, a function is refused while there is still some space, so that the caller can add
  capacity in time.

  Main statements:

      offer_below       a function below the gate leaves the disk and the service alone
      offer_low         a function is refused when space is low
-/
import Flowprint.Confidence
import Flowprint.Hasher
import Flowprint.Index.File

namespace Flowprint

/-- What became of a function that was offered to an index. -/
inductive IndexOutcome where
  /-- It was stored under this hash. -/
  | indexed (hash : SimHash)
  /-- It has too few branching blocks, this many, and was not stored. -/
  | belowThreshold (branching : Nat)
  deriving Repr, DecidableEq

/-- A hit with how similar it is, and how unlikely by chance. -/
structure ScoredMatch where
  matching : UInt32
  executable : UInt64
  address : Address
  hash : SimHash
  similarity : Float
  odds : Float
  deriving Repr, DecidableEq

/-- The score of a hit in an index of a number of records. -/
def ScoredMatch.of (hit : Index.Hit) (population : UInt64) : ScoredMatch :=
  { matching := hit.matching
    executable := hit.executable
    address := hit.address
    hash := hit.hash
    similarity := Confidence.similarity hit.matching
    odds := Confidence.odds hit.matching population }

/-- A hasher with an index. -/
structure Service where
  hasher : Hasher
  index : Index.Handle
  /-- The number of branching blocks below which a function is not indexed. -/
  minBranching : Nat := 5
  /-- The number of free bytes below which indexing stops. -/
  lowSpace : UInt64 := 1024

namespace Service

/-- The free bytes without which no function is indexed. -/
def reserve (service : Service) : UInt64 :=
  max service.lowSpace service.index.bytesPerRecord

/-- Index a function that has enough branching blocks, if there is space. -/
def store (service : Service) (g : Flowgraph) (executable : UInt64) (address : Address) :
    DiskM Index.Fault (SimHash × Service) := do
  if service.index.free < service.reserve then
    throw (.exhausted service.index.free service.reserve)
  let hash := service.hasher.hash g
  let (_, index) ← Index.File.add service.index [⟨hash, executable, address⟩]
  return (hash, { service with index := index })

/-- Offer a function to the index. -/
def offer (service : Service) (g : Flowgraph) (executable : UInt64) (address : Address) :
    DiskM Index.Fault (IndexOutcome × Service) := do
  if g.branchingCount < service.minBranching then
    return (.belowThreshold g.branchingCount, service)
  let (hash, service) ← service.store g executable address
  return (.indexed hash, service)

/-- The best `n` matches for a hash. -/
def searchHash (service : Service) (hash : SimHash) (n : Nat) (disk : Disk) :
    Except Index.Fault (List ScoredMatch) :=
  (Index.File.query service.index hash n disk).map fun hits =>
    hits.map fun hit => .of hit service.index.count

/-- The best `n` matches for a graph. -/
def search (service : Service) (g : Flowgraph) (n : Nat) (disk : Disk) :
    Except Index.Fault (List ScoredMatch) :=
  service.searchHash (service.hasher.hash g) n disk

/-- A function below the gate leaves the disk and the service alone. -/
theorem offer_below {service : Service} {g : Flowgraph} {executable : UInt64} {address : Address}
    {disk : Disk} (h : g.branchingCount < service.minBranching) :
    (service.offer g executable address).run disk
      = (.ok (.belowThreshold g.branchingCount, service), disk) := by
  rw [offer, if_pos h]
  rfl

/-- A function is refused when space is low, with the space there is and the space there must be. -/
theorem offer_low {service : Service} {g : Flowgraph} {executable : UInt64} {address : Address}
    {disk : Disk} (h : ¬ g.branchingCount < service.minBranching)
    (hlow : service.index.free < service.reserve) :
    (service.offer g executable address).run disk
      = (.error (.exhausted service.index.free service.reserve), disk) := by
  rw [offer, if_neg h, store, if_pos hlow]
  rfl

end Service

end Flowprint
