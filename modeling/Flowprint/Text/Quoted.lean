/-
  Flowprint.Text.Quoted
  ────────────────────────────────
  Texts in double quotes for messages, so that a reader sees every character of an offending
  input.

  The quote, the backslash and four control characters have a two-character escape; a character
  without a printed form, and one that would attach to its neighbour, shows as its code point.
-/
import Flowprint.Text.Printable
import Flowprint.Text.Radix

namespace Flowprint.Text

/-- One character as it stands between quotes. -/
def quotedChar (c : Char) : List Char :=
  match c with
  | '\x00' => ['\\', '0']
  | '\t' => ['\\', 't']
  | '\r' => ['\\', 'r']
  | '\n' => ['\\', 'n']
  | '\\' => ['\\', '\\']
  | '"' => ['\\', '"']
  | _ =>
    if isExtender c || isUnprintable c then
      ['\\', 'u', '\x7b'] ++ Nat.toDigits 16 c.toNat ++ ['\x7d']
    else [c]

/-- A text in quotes. -/
def quoted (s : String) : String :=
  .ofList ('"' :: s.toList.flatMap quotedChar ++ ['"'])

end Flowprint.Text
