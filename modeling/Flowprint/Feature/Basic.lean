/-
  Flowprint.Feature.Basic
  ────────────────────────────────
  Features of a flowgraph: a kind and an identity of 128 bits.

  The identity is the leading part of a digest of the feature's key together with the number of
  times that key has come up before.  Its written form is 32 hexadecimal digits; a feature puts the
  tag of its kind and a dot in front of them.
-/
import Flowprint.Digest
import Flowprint.Text.Quoted
import Flowprint.Text.Radix
import Flowprint.Text.Utf8

namespace Flowprint

/-! ## §1. Kinds and identities. -/

/-- What a feature describes. -/
inductive FeatureKind where
  /-- The shape of the neighbourhood of a block. -/
  | graphlet
  /-- Three mnemonics in a row. -/
  | mnemonicTuple
  deriving Repr, DecidableEq

/-- The letter of a kind. -/
def FeatureKind.tag : FeatureKind → Char
  | .graphlet => 'G'
  | .mnemonicTuple => 'M'

/-- The byte with which the keys of a kind begin. -/
def FeatureKind.keyByte (kind : FeatureKind) : UInt8 :=
  kind.tag.toUInt8

/-- The identity of a feature. -/
abbrev FeatureId := BitVec 128

/-- A feature. -/
structure Feature where
  kind : FeatureKind
  id : FeatureId
  deriving Repr, DecidableEq

namespace FeatureId

/-- The four bytes of an occurrence number, most significant first. -/
def occurrenceBytes (occurrence : UInt32) : List UInt8 :=
  [(occurrence >>> 24).toUInt8, (occurrence >>> 16).toUInt8, (occurrence >>> 8).toUInt8,
    occurrence.toUInt8]

/-- The identity of an occurrence of a key, counted from zero. -/
def ofKey (key : List UInt8) (occurrence : UInt32) : FeatureId :=
  Digest.leading 128 (Digest.sha256 (key ++ occurrenceBytes occurrence))

/-- The sixteen bytes of an identity, most significant first. -/
def bytes (id : FeatureId) : List UInt8 :=
  (List.range 16).map fun i => .ofNat (id.toNat >>> (8 * (15 - i)))

/-- The pattern of ones with which a feature votes on the bits of a hash. -/
def projection (id : FeatureId) : BitVec 128 :=
  Digest.leading 128 (Digest.sha256 (Text.bytesOf "simhash-projection" ++ bytes id))

/-! ## §2. Written form. -/

/-- An identity as 32 hexadecimal digits. -/
def text (id : FeatureId) : String :=
  Text.Radix.hexPadded 32 id.toNat

/-- Why a text is no identity. -/
inductive ReadFault where
  /-- What stands before the dot is no tag of one or two bytes. -/
  | wrongTag (text : String)
  /-- There are not 32 bytes of digits. -/
  | wrongLength (text : String)
  /-- The digits are no number. -/
  | wrongDigits (text : String) (cause : Text.Radix.Fault)
  deriving Repr, DecidableEq

/-- The sentence that names a fault. -/
def ReadFault.message : ReadFault → String
  | .wrongTag text => s!"unexpected feature tag in {Text.quoted text}"
  | .wrongLength text => s!"feature id must be 32 hex digits, got {Text.quoted text}"
  | .wrongDigits text cause => s!"invalid feature id {Text.quoted text}: {cause.message}"

/-- The digits of a written identity: all of it, or what follows a tag and its dot. -/
def digitsOf? (s : List Char) : Option (List Char) :=
  match s.span (· != '.') with
  | (tag, _ :: digits) =>
    if Text.utf8Length tag = 1 ∨ Text.utf8Length tag = 2 then some digits else none
  | (digits, []) => some digits

/-- The identity that a text denotes. -/
def read (s : String) : Except ReadFault FeatureId :=
  match digitsOf? s.toList with
  | none => .error (.wrongTag s)
  | some digits =>
    if Text.utf8Length digits = 32 then
      match Text.Radix.read 16 Text.Radix.size128 digits with
      | .ok n => .ok (.ofNat 128 n)
      | .error cause => .error (.wrongDigits s cause)
    else .error (.wrongLength s)

end FeatureId

/-- A feature as the tag of its kind, a dot and its identity. -/
def Feature.text (feature : Feature) : String :=
  s!"{feature.kind.tag}.{feature.id.text}"

end Flowprint
