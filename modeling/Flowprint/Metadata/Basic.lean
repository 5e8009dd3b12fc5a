/-
  Flowprint.Metadata.Basic
  ────────────────────────────────
  What people know about the functions of an index: the file and the name of a function, and whether
  it is known to be vulnerable.

  A function is known by its executable and its address.  A store keeps what was said about the
  functions it knows, ascending by executable, then by address.
-/
import Flowprint.Disk
import Flowprint.Graph.Basic
import Flowprint.Text.Quoted
import Std.Data.ExtTreeMap

namespace Flowprint

open Std

/-- A function of an executable. -/
structure FunctionKey where
  executable : UInt64
  address : Address
  deriving Repr, DecidableEq

namespace FunctionKey

/-- Functions in the order of their executables, then of their addresses. -/
def cmp : FunctionKey → FunctionKey → Ordering :=
  compareLex (compareOn FunctionKey.executable) (compareOn FunctionKey.address)

instance : Ord FunctionKey := ⟨cmp⟩

instance : TransOrd FunctionKey :=
  inferInstanceAs
    (TransCmp (compareLex (compareOn FunctionKey.executable) (compareOn FunctionKey.address)))

theorem cmp_eq_eq {a b : FunctionKey} : cmp a b = .eq ↔ a = b := by
  obtain ⟨x, s⟩ := a
  obtain ⟨y, t⟩ := b
  simp only [cmp, compareLex, Ordering.then_eq_eq, FunctionKey.mk.injEq]
  simp only [compareOn, Std.compare_eq_iff_eq]

instance : LawfulEqOrd FunctionKey where
  eq_of_compare h := cmp_eq_eq.mp h

end FunctionKey

/-- What is known about a function. -/
structure Metadata where
  fileName : String
  functionName : String
  vulnerable : Bool := false
  deriving Repr, DecidableEq

/-- What is known about some functions. -/
abbrev Annotations := ExtTreeMap FunctionKey Metadata

/-- Why an operation on annotations fails. -/
inductive Metadata.Fault where
  /-- The file cannot be used. -/
  | file (cause : FileFault)
  /-- A line, by its number from one and its text, is no entry. -/
  | malformed (line : Nat) (content : String)
  /-- A file name is more than one line. -/
  | fileNameBreaks (name : String)
  deriving Repr, DecidableEq

end Flowprint
