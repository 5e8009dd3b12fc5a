/-
  Flowprint.Proofs.Feature.Identity
  ────────────────────────────────
  Identities of features in writing.

  An identity is written as 32 digits, and a feature as a tag, a dot and the digits of its identity.
  No digit is a dot, so the tag is told from the digits.

  Main statements:

      read_text          the written form of an identity is read as the identity
      read_featureText   and so is the written form of a feature, whatever its kind
-/
import Flowprint.Feature.Basic
import Flowprint.Proofs.Text.Digits
import Mathlib.Data.List.TakeDrop
import Mathlib.Data.List.TakeWhile

namespace Flowprint

/-! ## §1. Digits. -/

namespace Text.Radix

theorem mem_hexDigits {width n : Nat} {c : Char} (h : c ∈ hexDigits width n) :
    ∃ d < 16, c = hexDigit d := by
  induction width generalizing n with
  | zero => exact absurd h List.not_mem_nil
  | succ width ih =>
    rcases List.mem_append.mp h with hfront | hlast
    · exact ih hfront
    · exact ⟨n % 16, Nat.mod_lt n (by decide), List.mem_singleton.mp hlast⟩

/-- A digit takes one byte. -/
theorem utf8Length_hexDigits (width n : Nat) : utf8Length (hexDigits width n) = width := by
  have hone : ∀ d < 16, utf8Length [hexDigit d] = 1 := by decide
  induction width generalizing n with
  | zero => rfl
  | succ width ih =>
    rw [hexDigits, utf8Length_append, ih, hone _ (Nat.mod_lt n (by decide))]

/-- Digits that are printed with a width are read as the number. -/
theorem read_hexDigits {bound width n : Nat} (hwidth : 0 < width) (hn : n < Nat.pow 16 width)
    (hb : n < bound) : read 16 bound (hexDigits width n) = .ok n := by
  have hsign : ∀ d < 16, hexDigit d ≠ '+' := by decide
  cases hdigits : hexDigits width n with
  | nil =>
    have hlength := length_hexDigits width n
    rw [hdigits] at hlength
    exact absurd hlength.symm (by simpa using Nat.pos_iff_ne_zero.mp hwidth)
  | cons c rest =>
    obtain ⟨d, hd, rfl⟩ : ∃ d < 16, c = hexDigit d :=
      mem_hexDigits (by rw [hdigits]; exact List.mem_cons_self)
    rw [read_cons (hsign d hd), ← hdigits, readHex_hexDigits hn hb]

end Text.Radix

/-! ## §2. Written forms. -/

namespace FeatureId

/-- The digits of an identity. -/
def digits (id : FeatureId) : List Char :=
  Text.Radix.hexDigits 32 id.toNat

theorem toList_text (id : FeatureId) : id.text.toList = id.digits :=
  String.toList_ofList

theorem mem_digits {id : FeatureId} {c : Char} (h : c ∈ id.digits) :
    ∃ d < 16, c = Text.Radix.hexDigit d :=
  Text.Radix.mem_hexDigits h

theorem length_digits (id : FeatureId) : id.digits.length = 32 :=
  Text.Radix.length_hexDigits 32 id.toNat

theorem not_dot (id : FeatureId) : '.' ∉ id.digits := by
  have hall : ∀ d < 16, Text.Radix.hexDigit d ≠ '.' := by decide
  intro hdot
  obtain ⟨d, hd, heq⟩ := mem_digits hdot
  exact hall d hd heq.symm

theorem ne_dot {s : List Char} (h : '.' ∉ s) : ∀ c ∈ s, (c != '.') = true := by
  intro c hc
  rw [bne_iff_ne]
  rintro rfl
  exact h hc

/-- A text without a dot has no tag. -/
theorem digitsOf?_bare {s : List Char} (h : '.' ∉ s) : digitsOf? s = some s := by
  have hspan : s.span (· != '.') = (s, []) := by
    rw [List.span_eq_takeWhile_dropWhile, List.takeWhile_eq_self_iff.mpr (ne_dot h),
      List.dropWhile_eq_nil_iff.mpr (ne_dot h)]
  simp only [digitsOf?, hspan]

/-- What is in front of the first dot is a tag if it takes one byte or two. -/
theorem digitsOf?_dotted {name : List Char} (h : '.' ∉ name) (digits : List Char) :
    digitsOf? (name ++ '.' :: digits)
      = if Text.utf8Length name = 1 ∨ Text.utf8Length name = 2 then some digits else none := by
  have hspan : (name ++ '.' :: digits).span (· != '.') = (name, '.' :: digits) := by
    rw [List.span_eq_takeWhile_dropWhile, List.takeWhile_append_of_pos (ne_dot h),
      List.dropWhile_append_of_pos (ne_dot h)]
    simp
  simp only [digitsOf?, hspan]

/-- Digits without a tag are the digits of the identity. -/
theorem digitsOf?_digits (id : FeatureId) : digitsOf? id.digits = some id.digits :=
  digitsOf?_bare id.not_dot

/-- Digits behind a tag and a dot are the digits of the identity. -/
theorem digitsOf?_tagged (id : FeatureId) (kind : FeatureKind) :
    digitsOf? (kind.tag :: '.' :: id.digits) = some id.digits := by
  cases kind with
  | graphlet => rfl
  | mnemonicTuple => rfl

theorem read_of_digitsOf? {s : String} {id : FeatureId} (h : digitsOf? s.toList = some id.digits) :
    read s = .ok id := by
  have hread : Text.Radix.read 16 Text.Radix.size128 id.digits = .ok id.toNat :=
    Text.Radix.read_hexDigits (by decide) (by have := id.isLt; omega) id.isLt
  have hlength : Text.utf8Length id.digits = 32 := Text.Radix.utf8Length_hexDigits 32 id.toNat
  simp only [read, h, hlength, if_true, hread, BitVec.ofNat_toNat, BitVec.setWidth_eq]

/-- The written form of an identity is read as the identity. -/
theorem read_text (id : FeatureId) : read id.text = .ok id :=
  read_of_digitsOf? (by rw [toList_text]; exact digitsOf?_digits id)

theorem toList_featureText (feature : Feature) :
    feature.text.toList = feature.kind.tag :: '.' :: feature.id.digits := by
  have htag : (toString feature.kind.tag).toList = [feature.kind.tag] :=
    String.toList_singleton feature.kind.tag
  have hdot : (toString ".").toList = ['.'] := by decide
  have hid : toString feature.id.text = feature.id.text := rfl
  unfold Feature.text
  rw [String.toList_append, String.toList_append, htag, hdot, hid, toList_text, List.append_assoc,
    List.singleton_append, List.singleton_append]

/-- The written form of a feature is read as its identity. -/
theorem read_featureText (feature : Feature) : read feature.text = .ok feature.id :=
  read_of_digitsOf? (by rw [toList_featureText]; exact digitsOf?_tagged feature.id feature.kind)

end FeatureId

end Flowprint
