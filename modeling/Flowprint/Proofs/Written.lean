/-
  Flowprint.Proofs.Written
  ────────────────────────────────
  Written forms of hashes and identities, and what is read from them.

  Both are written as 32 digits in small letters.  A hash is written half by half and read as one
  number, which comes to the same because each half is padded to its width.  A reader takes the digits
  in either case of letter; and what it reads without a sign has, but for the case of its letters and
  for what stands around the digits, the written form of what it denotes.

  Main statements:

      numeral_iff_inEitherCase   the numerals of a number with a width are its digits in either case
      toList_text                the written form of a hash is that of its number
      written_read               what is written is read as what it was
-/
import Flowprint.Proofs.Numerals
import Mathlib.Data.Nat.Digits.Lemmas

namespace Flowprint

/-! ## §1. Digits with a width. -/

namespace Text.Radix

/-- A text that differs from digits at most in the case of its letters. -/
def InEitherCase (digits text : List Char) : Prop :=
  List.Forall₂ (fun c digit => c = digit ∨ c = digit.toUpper) text digits

theorem inEitherCase_refl (digits : List Char) : InEitherCase digits digits :=
  List.forall₂_same.mpr fun _ _ => .inl rfl

theorem inEitherCase_toUpper (digits : List Char) :
    InEitherCase digits (digits.map Char.toUpper) :=
  List.forall₂_map_left_iff.mpr (List.forall₂_same.mpr fun _ _ => .inr rfl)

theorem hexDigit_eq {d : Nat} (h : d < 16) : hexDigit d = Nat.digitChar d := by
  revert d
  decide

/-- The digits of values are those that are written for them, in either case. -/
theorem forall₂_isDigit_iff {text : List Char} {values : List Nat} :
    List.Forall₂ (IsDigit 16) text values
      ↔ (∀ d ∈ values, d < 16) ∧ InEitherCase (values.map hexDigit) text := by
  induction values generalizing text with
  | nil => simp [InEitherCase]
  | cons d values ih =>
    rw [List.map_cons, List.forall_mem_cons, InEitherCase, List.forall₂_cons_right_iff,
      List.forall₂_cons_right_iff]
    constructor
    · rintro ⟨c, rest, ⟨hd, hc⟩, hrest, rfl⟩
      obtain ⟨hvalues, hcase⟩ := ih.mp hrest
      rw [← hexDigit_eq hd] at hc
      exact ⟨⟨hd, hvalues⟩, c, rest, hc, hcase, rfl⟩
    · rintro ⟨⟨hd, hvalues⟩, c, rest, hc, hcase, rfl⟩
      rw [hexDigit_eq hd] at hc
      exact ⟨c, rest, ⟨hd, hc⟩, ih.mpr ⟨hvalues, hcase⟩, rfl⟩

/-- The digits of the number that values denote are the digits of the values. -/
theorem hexDigits_ofDigits {values : List Nat} (h : ∀ d ∈ values, d < 16) :
    hexDigits values.length (Nat.ofDigits 16 values.reverse) = values.map hexDigit := by
  -- from the last digit on, as the digits are printed
  induction values using List.reverseRecOn with
  | nil => rfl
  | append_singleton values d ih =>
    have hd : d < 16 := h d (List.mem_append_right _ List.mem_cons_self)
    have hvalue : Nat.ofDigits 16 (values ++ [d]).reverse
        = d + 16 * Nat.ofDigits 16 values.reverse := by
      rw [List.reverse_append, List.reverse_singleton, List.singleton_append, Nat.ofDigits_cons]
    have hdiv : (d + 16 * Nat.ofDigits 16 values.reverse) / 16 = Nat.ofDigits 16 values.reverse := by
      omega
    have hmod : (d + 16 * Nat.ofDigits 16 values.reverse) % 16 = d := by
      omega
    rw [hvalue, List.length_append, List.length_singleton, hexDigits, hdiv, hmod,
      ih fun e he => h e (List.mem_append_left _ he), List.map_append, List.map_singleton]

/-- A text of some width is a numeral for a number exactly if it is, in either case of letter, what is
written for the number with that width. -/
theorem numeral_iff_inEitherCase {text : List Char} {width n : Nat} (hwidth : 0 < width)
    (hn : n < Nat.pow 16 width) :
    text.length = width ∧ Numeral 16 text n ↔ InEitherCase (hexDigits width n) text := by
  constructor
  · rintro ⟨rfl, -, values, hvalues, rfl⟩
    obtain ⟨hless, hcase⟩ := forall₂_isDigit_iff.mp hvalues
    rw [hvalues.length_eq, hexDigits_ofDigits hless]
    exact hcase
  · intro hcase
    obtain ⟨-, values, hvalues, hvalue⟩ := numeral_hexDigits hwidth hn
    obtain ⟨hless, -⟩ := forall₂_isDigit_iff.mp hvalues
    have hdigits : hexDigits width n = values.map hexDigit := by
      rw [← hvalue, ← hexDigits_ofDigits hless, ← hvalues.length_eq, length_hexDigits]
    have hlength : text.length = width := by
      rw [hcase.length_eq, length_hexDigits]
    rw [hdigits] at hcase
    refine ⟨hlength, ?_, values, forall₂_isDigit_iff.mpr ⟨hless, hcase⟩, hvalue⟩
    rintro rfl
    exact absurd hlength hwidth.ne

/-- A number is written as its upper part and then, with the width of that, its lower part. -/
theorem hexDigits_append {upper lower m n : Nat} (hn : n < Nat.pow 16 lower) :
    hexDigits upper m ++ hexDigits lower n = hexDigits (upper + lower) (m * Nat.pow 16 lower + n) := by
  induction lower generalizing n with
  | zero =>
    have hzero : n = 0 := Nat.lt_one_iff.mp hn
    have hone : m * Nat.pow 16 0 + 0 = m := Nat.mul_one m
    rw [hzero, hone]
    exact List.append_nil _
  | succ lower ih =>
    have hpow : Nat.pow 16 (lower + 1) = Nat.pow 16 lower * 16 := rfl
    rw [hpow] at hn ⊢
    have hdiv : (m * (Nat.pow 16 lower * 16) + n) / 16 = m * Nat.pow 16 lower + n / 16 := by
      rw [← Nat.mul_assoc]
      omega
    have hmod : (m * (Nat.pow 16 lower * 16) + n) % 16 = n % 16 := by
      rw [← Nat.mul_assoc]
      omega
    rw [← Nat.add_assoc, hexDigits, hexDigits, hdiv, hmod, ← ih (by omega), List.append_assoc]

end Text.Radix

open Text Text.Radix

/-! ## §2. Hashes. -/

namespace SimHash

/-- The written form of a hash is that of its number. -/
theorem toList_text (hash : SimHash) : hash.text.toList = hexDigits 32 hash.toBits.toNat := by
  have hpow : Nat.pow 16 16 = 0x10000000000000000 := rfl
  have hlow : hash.low.toNat < Nat.pow 16 16 := hash.low.toNat_lt
  rw [text, String.toList_ofList, hexDigits_append hlow, hpow, ← toNat_toBits]

/-- The written form of a hash is read as the hash, in either case of letter, marked or not, with blanks
around it or none. -/
theorem read_of_written {s : String} {hash : SimHash} {mark digits : List Char}
    (hmark : mark ∈ [[], ['0', 'x']]) (hpadded : Padded (mark ++ digits) s.toList)
    (hcase : InEitherCase hash.text.toList digits) : read s = .ok hash := by
  rw [toList_text] at hcase
  obtain ⟨hlength, hnumeral⟩ :=
    (numeral_iff_inEitherCase (by decide) hash.toBits.isLt).mpr hcase
  exact read_eq_ok_iff.mpr ⟨mark, hmark, digits, digits, hpadded, hlength, .inl rfl, hnumeral⟩

/-- Nothing else is read as the hash without a sign. -/
theorem written_of_read {s : String} {hash : SimHash} (hsign : '+' ∉ s.toList)
    (h : read s = .ok hash) :
    ∃ mark ∈ [[], ['0', 'x']], ∃ digits, Padded (mark ++ digits) s.toList
      ∧ InEitherCase hash.text.toList digits := by
  obtain ⟨mark, hmark, digits, text, hpadded, hlength, hsigned, hnumeral⟩ := read_eq_ok_iff.mp h
  obtain rfl := hsigned.eq_of_not_mem fun hmem =>
    hsign (hpadded.mem (List.mem_append_right mark hmem))
  refine ⟨mark, hmark, text, hpadded, ?_⟩
  rw [toList_text]
  exact (numeral_iff_inEitherCase (by decide) hash.toBits.isLt).mp ⟨hlength, hnumeral⟩

/-- The written form of a hash is read as the hash. -/
theorem read_text (hash : SimHash) : read hash.text = .ok hash := by
  have hpadded : Padded ([] ++ hash.text.toList) hash.text.toList :=
    ⟨[], [], by rw [List.append_nil, List.nil_append, List.nil_append], by simp, by simp⟩
  exact read_of_written List.mem_cons_self hpadded (inEitherCase_refl _)

end SimHash

/-! ## §3. Identities. -/

namespace FeatureId

/-- The written form of an identity is read as the identity, in either case of letter, behind a tag or
without. -/
theorem read_of_written {s : String} {id : FeatureId} {tag digits : List Char}
    (hs : s.toList = tag ++ digits) (htag : IsTag tag)
    (hcase : InEitherCase id.text.toList digits) : read s = .ok id := by
  rw [toList_text] at hcase
  obtain ⟨hlength, hnumeral⟩ := (numeral_iff_inEitherCase (by decide) id.isLt).mpr hcase
  exact read_eq_ok_iff.mpr ⟨tag, digits, digits, hs, htag, hlength, .inl rfl, hnumeral⟩

/-- Nothing else is read as the identity without a sign. -/
theorem written_of_read {s : String} {id : FeatureId} (hsign : '+' ∉ s.toList)
    (h : read s = .ok id) :
    ∃ tag digits, s.toList = tag ++ digits ∧ IsTag tag ∧ InEitherCase id.text.toList digits := by
  obtain ⟨tag, digits, text, hs, htag, hlength, hsigned, hnumeral⟩ := read_eq_ok_iff.mp h
  obtain rfl := hsigned.eq_of_not_mem fun hmem =>
    hsign (by rw [hs]; exact List.mem_append_right tag hmem)
  refine ⟨tag, text, hs, htag, ?_⟩
  rw [toList_text]
  exact (numeral_iff_inEitherCase (by decide) id.isLt).mp ⟨hlength, hnumeral⟩

end FeatureId

/-! ## §4. What is written is read. -/

/-- Hashes, identities and features are read from their written forms: a hash also with a mark, with
blanks around it and with capital letters, an identity also behind any tag and with capital letters.
Whatever is read as a hash or an identity is read again from its written form; and if it was read
without a sign, it was this written form, but for the case of letters and for what stood around it. -/
theorem written_read :
    (∀ hash : SimHash, SimHash.read hash.text = .ok hash
      ∧ ∀ (s : String), ∀ mark ∈ [[], ['0', 'x']], ∀ digits, Padded (mark ++ digits) s.toList →
        InEitherCase hash.text.toList digits → SimHash.read s = .ok hash)
    ∧ (∀ id : FeatureId, FeatureId.read id.text = .ok id
      ∧ (∀ kind, FeatureId.read (Feature.text ⟨kind, id⟩) = .ok id)
      ∧ ∀ (s : String) (tag digits : List Char), s.toList = tag ++ digits → FeatureId.IsTag tag →
        InEitherCase id.text.toList digits → FeatureId.read s = .ok id)
    ∧ (∀ (s : String) (hash : SimHash), SimHash.read s = .ok hash →
      SimHash.read hash.text = .ok hash
        ∧ ('+' ∉ s.toList → ∃ mark ∈ [[], ['0', 'x']], ∃ digits, Padded (mark ++ digits) s.toList
          ∧ InEitherCase hash.text.toList digits))
    ∧ ∀ (s : String) (id : FeatureId), FeatureId.read s = .ok id →
      FeatureId.read id.text = .ok id
        ∧ ('+' ∉ s.toList → ∃ tag digits, s.toList = tag ++ digits ∧ FeatureId.IsTag tag
          ∧ InEitherCase id.text.toList digits) := by
  refine ⟨fun hash => ⟨hash.read_text, ?_⟩, fun id => ⟨id.read_text, ?_, ?_⟩, ?_, ?_⟩
  · exact fun s mark hmark digits hpadded hcase => SimHash.read_of_written hmark hpadded hcase
  · exact fun kind => FeatureId.read_featureText ⟨kind, id⟩
  · exact fun s tag digits hs htag hcase => FeatureId.read_of_written hs htag hcase
  · exact fun s hash h => ⟨hash.read_text, fun hsign => SimHash.written_of_read hsign h⟩
  · exact fun s id h => ⟨id.read_text, fun hsign => FeatureId.written_of_read hsign h⟩

/-- A hash with a mark, blanks and capital letters, and leading zeros in both halves; and an identity
behind a tag. -/
theorem written_read_capitals :
    SimHash.read " 0x000000000000000A000000000000FACE\n" = .ok ⟨0xa, 0xface⟩
      ∧ FeatureId.read "XY.0000000000000000000000000000FACE" = .ok 0xface
      ∧ SimHash.read (SimHash.text ⟨0xa, 0xface⟩) = .ok ⟨0xa, 0xface⟩
      ∧ FeatureId.read (FeatureId.text 0xface) = .ok 0xface := by
  obtain ⟨hhash, hid, hagain, hidAgain⟩ := written_read
  have hread : SimHash.read " 0x000000000000000A000000000000FACE\n" = .ok ⟨0xa, 0xface⟩ := by
    refine (hhash ⟨0xa, 0xface⟩).2 _ ['0', 'x'] (by decide) _ ?_ (inEitherCase_toUpper _)
    exact ⟨[' '], ['\n'], by decide +kernel, List.forall_mem_singleton.mpr rfl,
      List.forall_mem_singleton.mpr rfl⟩
  have htagged : FeatureId.read "XY.0000000000000000000000000000FACE" = .ok 0xface := by
    refine (hid 0xface).2.2 _ ['X', 'Y', '.'] _ (by decide +kernel) ?_ (inEitherCase_toUpper _)
    exact .inr ⟨['X', 'Y'], rfl, by decide, .inr (by decide)⟩
  exact ⟨hread, htagged, (hagain _ _ hread).1, (hidAgain _ _ htagged).1⟩

end Flowprint
