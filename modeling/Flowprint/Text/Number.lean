/-
  Flowprint.Text.Number
  ────────────────────────────────
  Numbers as a person types them: decimal digits, or hexadecimal digits behind `0x`, with blanks
  around them, below `2 ^ 64`.
-/
import Flowprint.Text.Blank
import Flowprint.Text.Quoted
import Flowprint.Text.Radix

namespace Flowprint.Text

/-- A text that is no number, and why. -/
structure NumberFault where
  text : String
  cause : Radix.Fault
  deriving Repr, DecidableEq

/-- The sentence that names a fault. -/
def NumberFault.message (fault : NumberFault) : String :=
  s!"invalid number {quoted fault.text}: {fault.cause.message}"

/-- The number that trimmed characters denote. -/
def readTrimmed : List Char → Except Radix.Fault Nat
  | '0' :: 'x' :: digits => Radix.read 16 UInt64.size digits
  | '0' :: 'X' :: digits => Radix.read 16 UInt64.size digits
  | digits => Radix.read 10 UInt64.size digits

/-- The number that a text denotes. -/
def readNumber (s : String) : Except NumberFault UInt64 :=
  let text := trim s.toList
  match readTrimmed text with
  | .ok n => .ok (.ofNat n)
  | .error cause => .error ⟨.ofList text, cause⟩

end Flowprint.Text
