/-
  Flowprint.Proofs.Numerals
  ────────────────────────────────
  Which texts are read as hashes, as identities of features and as numbers.

  Each of the three readers removes what may stand around the digits, checks their length if it is
  fixed, and leaves the rest to one reader of numerals.  That reader takes a plus sign too, so all three
  take one: it counts as one of the 32 places of a hash or an identity.

  Main statements:

      SimHash.read_eq_ok_iff      32 places, perhaps marked, perhaps padded with blanks
      FeatureId.read_eq_ok_iff    32 places, perhaps behind a tag of one or two bytes
      readNumber_eq_ok_iff        hexadecimal digits behind a mark, or decimal digits, below 2 ^ 64
      reads_numerals              these are all the texts that are read
-/
import Flowprint.Proofs.Feature.Identity
import Flowprint.Proofs.Text.Numeral
import Flowprint.SimHash
import Flowprint.Text.Number

namespace Flowprint

open Text Text.Radix

/-! ## §1. Thirty-two places. -/

section Places

variable {digits text : List Char} {n : Nat}

/-- Places that fit the width of a hash: digits, or a sign and digits. -/
theorem read_places_iff (h : utf8Length text = 32) :
    Radix.read 16 size128 text = .ok n
      ↔ text.length = 32 ∧ (∃ digits, Signed digits text ∧ Numeral 16 digits n) ∧ n < size128 := by
  rw [read_eq_ok_iff (by decide) (by decide) (by decide)]
  constructor
  · intro hread
    obtain ⟨⟨digits, hsigned, hnumeral⟩, hlt⟩ := hread
    refine ⟨?_, ⟨digits, hsigned, hnumeral⟩, hlt⟩
    rw [← h, utf8Length_eq_length]
    exact fun c hc => (hsigned.plain (by decide) hnumeral c hc).2.1
  · exact fun hread => hread.2

end Places

/-! ## §2. Hashes. -/

namespace SimHash

theorem dropMark_eq_self {text : List Char} (h : 'x' ∉ text) : dropMark text = text := by
  unfold dropMark
  split
  next => exact absurd (List.mem_cons_of_mem _ List.mem_cons_self) h
  next => rfl

/-- A text is its mark, if it has one, and the rest. -/
theorem exists_mark (text : List Char) : ∃ mark ∈ [[], ['0', 'x']], text = mark ++ dropMark text := by
  unfold dropMark
  split
  next digits => exact ⟨['0', 'x'], by simp, rfl⟩
  next => exact ⟨[], by simp, rfl⟩

/-- A hash is read from 32 places: digits, or a sign and digits.  There may be a mark in front of them,
and blanks around all. -/
theorem read_eq_ok_iff {s : String} {hash : SimHash} :
    read s = .ok hash ↔
      ∃ mark ∈ [[], ['0', 'x']], ∃ digits text, Padded (mark ++ text) s.toList
        ∧ text.length = 32 ∧ Signed digits text ∧ Numeral 16 digits hash.toBits.toNat := by
  constructor
  · intro h
    rw [read] at h
    split at h
    next hwidth =>
      split at h
      next n hread =>
        obtain ⟨hlength, ⟨digits, hsigned, hnumeral⟩, hlt⟩ := (read_places_iff hwidth).mp hread
        obtain ⟨mark, hmark, htext⟩ := exists_mark (trim s.toList)
        have hbits : hash.toBits.toNat = n := by
          rw [← Except.ok.inj h, toBits_ofBits, BitVec.toNat_ofNat]
          exact Nat.mod_eq_of_lt hlt
        refine ⟨mark, hmark, digits, _, ?_, hlength, hsigned, hbits ▸ hnumeral⟩
        rw [← htext]
        exact padded_trim s.toList
      next => exact absurd h (by simp)
    next => exact absurd h (by simp)
  · rintro ⟨mark, hmark, digits, text, hpadded, hlength, hsigned, hnumeral⟩
    have hplain := hsigned.plain (by decide) hnumeral
    have hmarked : ∀ c ∈ mark ++ text, isBlank c = false := by
      have hmarks : ∀ mark ∈ [[], ['0', 'x']], mark.any isBlank = false := by decide
      have hblank : ∀ c ∈ mark, isBlank c = false := by simpa using hmarks mark hmark
      exact List.forall_mem_append.mpr ⟨hblank, fun c hc => (hplain c hc).1⟩
    have htrim : trim s.toList = mark ++ text := (trim_eq_iff hmarked).mpr hpadded
    have hdrop : dropMark (mark ++ text) = text := by
      have hfree : 'x' ∉ text := fun hmem => (hplain 'x' hmem).2.2 List.mem_cons_self
      rcases List.mem_cons.mp hmark with rfl | hlast
      · exact dropMark_eq_self hfree
      · rw [List.mem_singleton.mp hlast]
        rfl
    have hwidth : utf8Length text = 32 := by
      rw [utf8Length_eq_length fun c hc => (hplain c hc).2.1, hlength]
    have hread : Radix.read 16 size128 text = .ok hash.toBits.toNat :=
      (read_places_iff hwidth).mpr ⟨hlength, ⟨digits, hsigned, hnumeral⟩, hash.toBits.isLt⟩
    simp only [read, htrim, hdrop, hwidth, if_true, hread, BitVec.ofNat_toNat, BitVec.setWidth_eq,
      ofBits_toBits]

end SimHash

/-! ## §3. Identities of features. -/

namespace FeatureId

/-- What may stand in front of the digits of an identity: nothing, or a tag of one or two bytes and a
dot. -/
def IsTag (tag : List Char) : Prop :=
  tag = [] ∨ ∃ name, tag = name ++ ['.'] ∧ '.' ∉ name
    ∧ (utf8Length name = 1 ∨ utf8Length name = 2)

/-- The digits are the whole text, or what is behind the first dot. -/
theorem digitsOf?_eq_some_iff {s digits : List Char} :
    digitsOf? s = some digits ↔ ∃ tag, s = tag ++ digits ∧ IsTag tag ∧ (tag = [] → '.' ∉ digits) := by
  constructor
  · intro h
    by_cases hdot : '.' ∈ s
    · obtain ⟨name, rest, rfl, hname⟩ := List.eq_append_cons_of_mem hdot
      rw [digitsOf?_dotted hname, Option.ite_none_right_eq_some] at h
      obtain ⟨hlength, hrest⟩ := h
      obtain rfl := Option.some.inj hrest
      refine ⟨name ++ ['.'], by simp, .inr ⟨name, rfl, hname, hlength⟩, ?_⟩
      exact fun hnil => absurd hnil (by simp)
    · rw [digitsOf?_bare hdot] at h
      obtain rfl := Option.some.inj h
      exact ⟨[], rfl, .inl rfl, fun _ => hdot⟩
  · rintro ⟨tag, rfl, htag, hfree⟩
    rcases htag with rfl | ⟨name, rfl, hname, hlength⟩
    · exact digitsOf?_bare (hfree rfl)
    · rw [List.append_assoc, List.singleton_append, digitsOf?_dotted hname, if_pos hlength]

/-- An identity is read from 32 places: digits, or a sign and digits.  There may be a tag in front of
them. -/
theorem read_eq_ok_iff {s : String} {id : FeatureId} :
    read s = .ok id ↔
      ∃ tag digits text, s.toList = tag ++ text ∧ IsTag tag
        ∧ text.length = 32 ∧ Signed digits text ∧ Numeral 16 digits id.toNat := by
  constructor
  · intro h
    rw [read] at h
    split at h
    · exact absurd h (by simp)
    next text hdigits =>
      obtain ⟨tag, hs, htag, -⟩ := digitsOf?_eq_some_iff.mp hdigits
      split at h
      next hwidth =>
        split at h
        next n hread =>
          obtain ⟨hlength, ⟨digits, hsigned, hnumeral⟩, hlt⟩ := (read_places_iff hwidth).mp hread
          have hid : id.toNat = n := by
            rw [← Except.ok.inj h, BitVec.toNat_ofNat]
            exact Nat.mod_eq_of_lt hlt
          exact ⟨tag, digits, text, hs, htag, hlength, hsigned, hid ▸ hnumeral⟩
        next => exact absurd h (by simp)
      next => exact absurd h (by simp)
  · rintro ⟨tag, digits, text, hs, htag, hlength, hsigned, hnumeral⟩
    have hplain := hsigned.plain (by decide) hnumeral
    have hfree : '.' ∉ text := fun hmem => (hplain '.' hmem).2.2 (by decide)
    have hdigits : digitsOf? s.toList = some text :=
      digitsOf?_eq_some_iff.mpr ⟨tag, hs, htag, fun _ => hfree⟩
    have hwidth : utf8Length text = 32 := by
      rw [utf8Length_eq_length fun c hc => (hplain c hc).2.1, hlength]
    have hread : Radix.read 16 size128 text = .ok id.toNat :=
      (read_places_iff hwidth).mpr ⟨hlength, ⟨digits, hsigned, hnumeral⟩, id.isLt⟩
    simp only [read, hdigits, hwidth, if_true, hread, BitVec.ofNat_toNat, BitVec.setWidth_eq]

end FeatureId

/-! ## §4. Numbers. -/

namespace Text

section Numbers

variable {text digits : List Char} {n : Nat}

/-- The bases of numbers, each with a mark that stands for it. -/
def marks : List (Nat × List Char) :=
  [(10, []), (16, ['0', 'x']), (16, ['0', 'X'])]

theorem base_of_mem_marks {base : Nat} {mark : List Char} (h : (base, mark) ∈ marks) :
    0 < base ∧ base ≤ 16 ∧ ∀ c ∈ mark, isBlank c = false := by
  have hall : ∀ entry ∈ marks, 0 < entry.1 ∧ entry.1 ≤ 16 ∧ entry.2.any isBlank = false := by
    decide
  simpa using hall _ h

/-- Trimmed characters are a mark and what is read in the base of that mark. -/
theorem exists_base (text : List Char) :
    ∃ base mark rest, (base, mark) ∈ marks ∧ text = mark ++ rest
      ∧ readTrimmed text = Radix.read base UInt64.size rest := by
  fun_cases readTrimmed text with
  | case1 rest => exact ⟨16, ['0', 'x'], rest, by decide, rfl, rfl⟩
  | case2 rest => exact ⟨16, ['0', 'X'], rest, by decide, rfl, rfl⟩
  | case3 => exact ⟨10, [], text, by decide, rfl, rfl⟩

/-- What has no mark in it is read in the base of the mark in front of it. -/
theorem readTrimmed_marked {base : Nat} {mark : List Char} (hmark : (base, mark) ∈ marks)
    (hx : 'x' ∉ text) (hX : 'X' ∉ text) :
    readTrimmed (mark ++ text) = Radix.read base UInt64.size text := by
  simp only [marks, List.mem_cons, Prod.mk.injEq, List.not_mem_nil, or_false] at hmark
  rcases hmark with ⟨rfl, rfl⟩ | ⟨rfl, rfl⟩ | ⟨rfl, rfl⟩
  · rw [List.nil_append]
    fun_cases readTrimmed text with
    | case1 rest => exact absurd (List.mem_cons_of_mem _ List.mem_cons_self) hx
    | case2 rest => exact absurd (List.mem_cons_of_mem _ List.mem_cons_self) hX
    | case3 => rfl
  · rfl
  · rfl

theorem readNumber_eq_ok {s : String} {n : UInt64} :
    readNumber s = .ok n ↔ readTrimmed (trim s.toList) = .ok n.toNat := by
  have hless : ∀ {m}, readTrimmed (trim s.toList) = .ok m → m < UInt64.size := by
    intro m h
    obtain ⟨base, mark, rest, hmark, -, hread⟩ := exists_base (trim s.toList)
    obtain ⟨hbase, hsixteen, -⟩ := base_of_mem_marks hmark
    rw [hread, Radix.read_eq_ok_iff hbase hsixteen (by decide)] at h
    exact h.2
  rw [readNumber]
  cases hcase : readTrimmed (trim s.toList) with
  | ok m =>
    rw [Except.ok.injEq, Except.ok.injEq]
    constructor
    · rintro rfl
      exact (UInt64.toNat_ofNat_of_lt' (hless hcase)).symm
    · rintro rfl
      exact UInt64.ofNat_toNat
  | error cause => simp

/-- A number is read from a numeral below `2 ^ 64`, perhaps signed: hexadecimal behind a mark, decimal
without.  There may be blanks around it. -/
theorem readNumber_eq_ok_iff {s : String} {n : UInt64} :
    readNumber s = .ok n ↔
      ∃ base mark digits text, (base, mark) ∈ marks ∧ Padded (mark ++ text) s.toList
        ∧ Signed digits text ∧ Numeral base digits n.toNat := by
  rw [readNumber_eq_ok]
  constructor
  · intro h
    obtain ⟨base, mark, text, hmark, htext, hread⟩ := exists_base (trim s.toList)
    obtain ⟨hbase, hsixteen, -⟩ := base_of_mem_marks hmark
    rw [hread, Radix.read_eq_ok_iff hbase hsixteen (by decide)] at h
    obtain ⟨⟨digits, hsigned, hnumeral⟩, -⟩ := h
    refine ⟨base, mark, digits, text, hmark, ?_, hsigned, hnumeral⟩
    rw [← htext]
    exact padded_trim s.toList
  · rintro ⟨base, mark, digits, text, hmark, hpadded, hsigned, hnumeral⟩
    obtain ⟨hbase, hsixteen, hblank⟩ := base_of_mem_marks hmark
    have hplain := hsigned.plain hsixteen hnumeral
    have htrim : trim s.toList = mark ++ text :=
      (trim_eq_iff (List.forall_mem_append.mpr ⟨hblank, fun c hc => (hplain c hc).1⟩)).mpr hpadded
    rw [htrim, readTrimmed_marked hmark (fun hmem => (hplain 'x' hmem).2.2 (by decide))
      (fun hmem => (hplain 'X' hmem).2.2 (by decide)), Radix.read_eq_ok_iff hbase hsixteen (by decide)]
    exact ⟨⟨digits, hsigned, hnumeral⟩, n.toNat_lt⟩

end Numbers

end Text

/-! ## §5. All that is read. -/

/-- A tag of one or two characters and a dot, or nothing. -/
def IsName (tag : List Char) : Prop :=
  tag = [] ∨ ∃ name, tag = name ++ ['.'] ∧ '.' ∉ name ∧ (name.length = 1 ∨ name.length = 2)

/-- Among characters of one byte, tags of one or two bytes have one or two characters. -/
theorem isTag_iff {tag : List Char} (h : ∀ c ∈ tag, c.utf8Size = 1) :
    FeatureId.IsTag tag ↔ IsName tag := by
  have hlength : ∀ {name : List Char}, tag = name ++ ['.'] → utf8Length name = name.length := by
    rintro name rfl
    exact utf8Length_eq_length fun c hc => h c (List.mem_append_left _ hc)
  refine or_congr Iff.rfl (exists_congr fun name => and_congr_right fun htag => ?_)
  rw [hlength htag]

/-- The texts that are read as hashes, as identities and as numbers.  Of the 32 places of a hash or an
identity the first may be a plus sign, and so may what is in front of the digits of a number; all other
places are digits, and what is read is the number that they denote.  So a text without a plus sign is
read if it is a numeral, but that the tag of an identity counts in bytes. -/
theorem reads_numerals (s : String) :
    (∀ hash : SimHash, SimHash.read s = .ok hash ↔
      ∃ mark ∈ [[], ['0', 'x']], ∃ digits text, Padded (mark ++ text) s.toList
        ∧ text.length = 32 ∧ Signed digits text ∧ Numeral 16 digits hash.toBits.toNat)
    ∧ (∀ id : FeatureId, FeatureId.read s = .ok id ↔
      ∃ tag digits text, s.toList = tag ++ text ∧ FeatureId.IsTag tag
        ∧ text.length = 32 ∧ Signed digits text ∧ Numeral 16 digits id.toNat)
    ∧ (∀ n : UInt64, readNumber s = .ok n ↔
      ∃ base mark digits text, (base, mark) ∈ marks ∧ Padded (mark ++ text) s.toList
        ∧ Signed digits text ∧ Numeral base digits n.toNat)
    ∧ ('+' ∉ s.toList →
      (∀ hash : SimHash, SimHash.read s = .ok hash ↔
        ∃ mark ∈ [[], ['0', 'x']], ∃ digits, Padded (mark ++ digits) s.toList
          ∧ digits.length = 32 ∧ Numeral 16 digits hash.toBits.toNat)
      ∧ ((∀ c ∈ s.toList, c.utf8Size = 1) → ∀ id : FeatureId, FeatureId.read s = .ok id ↔
        ∃ tag digits, s.toList = tag ++ digits ∧ IsName tag
          ∧ digits.length = 32 ∧ Numeral 16 digits id.toNat)
      ∧ ∀ n : UInt64, readNumber s = .ok n ↔
        ∃ base mark digits, (base, mark) ∈ marks ∧ Padded (mark ++ digits) s.toList
          ∧ Numeral base digits n.toNat) := by
  refine ⟨fun _ => SimHash.read_eq_ok_iff, fun _ => FeatureId.read_eq_ok_iff,
    fun _ => readNumber_eq_ok_iff, fun hsign => ⟨?_, ?_, ?_⟩⟩
  · intro hash
    rw [SimHash.read_eq_ok_iff]
    constructor
    · rintro ⟨mark, hmark, digits, text, hpadded, hlength, hsigned, hnumeral⟩
      obtain rfl := hsigned.eq_of_not_mem fun hmem =>
        hsign (hpadded.mem (List.mem_append_right mark hmem))
      exact ⟨mark, hmark, text, hpadded, hlength, hnumeral⟩
    · rintro ⟨mark, hmark, digits, hpadded, hlength, hnumeral⟩
      exact ⟨mark, hmark, digits, digits, hpadded, hlength, .inl rfl, hnumeral⟩
  · intro hbytes id
    rw [FeatureId.read_eq_ok_iff]
    constructor
    · rintro ⟨tag, digits, text, hs, htag, hlength, hsigned, hnumeral⟩
      rw [hs] at hsign hbytes
      obtain rfl := hsigned.eq_of_not_mem fun hmem => hsign (List.mem_append_right tag hmem)
      have hname := (isTag_iff fun c hc => hbytes c (List.mem_append_left _ hc)).mp htag
      exact ⟨tag, text, hs, hname, hlength, hnumeral⟩
    · rintro ⟨tag, digits, hs, hname, hlength, hnumeral⟩
      rw [hs] at hbytes
      have htag := (isTag_iff fun c hc => hbytes c (List.mem_append_left _ hc)).mpr hname
      exact ⟨tag, digits, digits, hs, htag, hlength, .inl rfl, hnumeral⟩
  · intro n
    rw [readNumber_eq_ok_iff]
    constructor
    · rintro ⟨base, mark, digits, text, hmark, hpadded, hsigned, hnumeral⟩
      obtain rfl := hsigned.eq_of_not_mem fun hmem =>
        hsign (hpadded.mem (List.mem_append_right mark hmem))
      exact ⟨base, mark, text, hmark, hpadded, hnumeral⟩
    · rintro ⟨base, mark, digits, hmark, hpadded, hnumeral⟩
      exact ⟨base, mark, digits, digits, hmark, hpadded, .inl rfl, hnumeral⟩

/-- A text with a plus sign is no numeral, whatever marks and blanks are around it. -/
theorem not_padded_of_sign {base n : Nat} {mark digits s : List Char} (hs : '+' ∈ s)
    (hbase : base ≤ 16) (hmark : '+' ∉ mark) (hpadded : Padded (mark ++ digits) s)
    (h : Numeral base digits n) : False := by
  obtain ⟨front, back, rfl, hfront, hback⟩ := hpadded
  rcases List.mem_append.mp hs with hs | hs
  · rcases List.mem_append.mp hs with hs | hs
    · exact absurd (hfront '+' hs) (by decide)
    · rcases List.mem_append.mp hs with hs | hs
      · exact hmark hs
      · exact (h.plain hbase '+' hs).2.2 List.mem_cons_self
  · exact absurd (hback '+' hs) (by decide)

/-- A plus sign is read in the place of a digit.  And a tag of one character is refused if that
character takes more than two bytes. -/
theorem sign_read :
    (SimHash.read "+0000000000000000000000000000001" = .ok ⟨0, 1⟩
      ∧ ¬ ∃ mark ∈ [[], ['0', 'x']], ∃ digits n,
        Padded (mark ++ digits) "+0000000000000000000000000000001".toList
          ∧ digits.length = 32 ∧ Numeral 16 digits n)
    ∧ (FeatureId.read "+0000000000000000000000000000001" = .ok 1
      ∧ ¬ ∃ tag digits n, "+0000000000000000000000000000001".toList = tag ++ digits
          ∧ digits.length = 32 ∧ Numeral 16 digits n)
    ∧ (readNumber "0x+5" = .ok 5
      ∧ ¬ ∃ base mark digits n, (base, mark) ∈ marks ∧ Padded (mark ++ digits) "0x+5".toList
          ∧ Numeral base digits n)
    ∧ FeatureId.read "€.00000000000000000000000000000001"
        = .error (.wrongTag "€.00000000000000000000000000000001")
      ∧ ∃ digits, "€.00000000000000000000000000000001".toList = ['€'] ++ ['.'] ++ digits
        ∧ digits.length = 32 ∧ Numeral 16 digits 1 := by
  refine ⟨⟨by decide +kernel, ?_⟩, ⟨by decide +kernel, ?_⟩, ⟨by decide +kernel, ?_⟩,
    by decide +kernel, ?_⟩
  · rintro ⟨mark, hmark, digits, n, hpadded, -, hnumeral⟩
    have hfree : ∀ mark ∈ [[], ['0', 'x']], '+' ∉ mark := by decide
    exact not_padded_of_sign (by decide) (by decide) (hfree mark hmark) hpadded hnumeral
  · rintro ⟨tag, digits, n, hs, hlength, hnumeral⟩
    have hall : "+0000000000000000000000000000001".toList.length = 32 := by decide
    -- all 32 characters are places
    have htag : tag = [] := by
      rw [hs, List.length_append, hlength] at hall
      exact List.eq_nil_of_length_eq_zero (by omega)
    rw [htag, List.nil_append] at hs
    have hsign : '+' ∈ digits := by
      rw [← hs]
      decide
    exact (hnumeral.plain (by decide) '+' hsign).2.2 List.mem_cons_self
  · rintro ⟨base, mark, digits, n, hmark, hpadded, hnumeral⟩
    have hfree : ∀ entry ∈ marks, '+' ∉ entry.2 := by decide
    exact not_padded_of_sign (by decide) (base_of_mem_marks hmark).2.1 (hfree _ hmark) hpadded
      hnumeral
  · exact ⟨hexDigits 32 1, by decide, length_hexDigits 32 1,
      numeral_hexDigits (by decide) (by decide)⟩

end Flowprint
