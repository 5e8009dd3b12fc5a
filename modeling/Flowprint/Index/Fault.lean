/-
  Flowprint.Index.Fault
  ────────────────────────────────
  Why an operation on an index fails.
-/
import Flowprint.Text.Radix

namespace Flowprint.Index

/-- What is wrong with the header of an index, or with a record that an entry names. -/
inductive HeaderFault where
  /-- The header has no such number. -/
  | missing (key : String)
  /-- The number is negative. -/
  | negative (key : String) (value : Int64)
  /-- There cannot be that many permutations. -/
  | permutationsOutOfRange (count : UInt64)
  /-- An entry names a record that is not there. -/
  | missingRecord (id : Int)
  deriving Repr, DecidableEq

/-- A fault of a header in words. -/
def HeaderFault.message : HeaderFault → String
  | .missing key => s!"missing {key}"
  | .negative key value => s!"negative {key}: {value.toInt}"
  | .permutationsOutOfRange count => s!"permutation count {count.toNat} out of range"
  | .missingRecord id => s!"permuted entry references missing record {id}"

/-- Why an operation on an index fails. -/
inductive Fault where
  /-- The file is no database, or lacks the tables of an index, or cannot be created. -/
  | storage
  /-- There is no file. -/
  | missing (path : String)
  /-- There is something at the path of a file to be created. -/
  | alreadyExists (path : String)
  /-- The file is a database of another application. -/
  | foreignFormat (found : Int32)
  /-- The tables have an unknown form. -/
  | unsupportedSchema (found : Int32)
  /-- The header does not make sense. -/
  | corruptHeader (cause : HeaderFault)
  /-- The capacity asked for is out of range. -/
  | invalidCapacity (bits : UInt32)
  /-- The number of permutations asked for is out of range. -/
  | invalidPermutations (count : UInt32)
  /-- The records do not fit. -/
  | exhausted (free required : UInt64)
  deriving Repr, DecidableEq

/-- The least and the greatest logarithm of a capacity. -/
def minCapacityBits : Nat := 10

/-- The greatest logarithm of a capacity. -/
def maxCapacityBits : Nat := 62

/-- The greatest number of permutations. -/
def maxPermutations : Nat := 128

/-- The oldest form of the tables that can be opened. -/
def oldestSchema : Int32 := 1

/-- The form of the tables that is written. -/
def currentSchema : Int32 := 2

/-- A fault in words. -/
def Fault.message : Fault → String
  | .storage => "storage error"
  | .missing path => s!"Index file does not exist: {path}"
  | .alreadyExists path => s!"Refusing to create index, file already exists: {path}"
  | .foreignFormat found =>
    s!"Not a search index (application id 0x{Text.Radix.hex found.toUInt32.toNat})"
  | .unsupportedSchema found =>
    s!"Unsupported schema version {found.toInt}; "
      ++ s!"supported range is {oldestSchema.toInt}..={currentSchema.toInt}"
  | .corruptHeader cause => s!"Corrupt index header: {cause.message}"
  | .invalidCapacity bits =>
    s!"Invalid capacity of {bits.toNat} bits; expected {minCapacityBits}..={maxCapacityBits}"
  | .invalidPermutations count =>
    s!"Invalid permutation count {count.toNat}; expected 1..={maxPermutations}"
  | .exhausted free required =>
    s!"Index capacity exhausted: {free.toNat} bytes free, {required.toNat} required"

end Flowprint.Index
