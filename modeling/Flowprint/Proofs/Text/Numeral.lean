/-
  Flowprint.Proofs.Text.Numeral
  ────────────────────────────────
  Which texts are read as numbers, and as which.

  A numeral is a row of digits, one or more, and denotes the sum of their values, each times the power
  of the base that belongs to its place.  The reader takes numerals below its bound, and those with a
  plus sign in front of them, and nothing else.

  Main statements:

      digit?_eq_some_iff       a digit is written by one character, in either case of letter
      readDigits_eq_ok_iff     digits are read from the left, as long as they stay below the bound
      read_eq_ok_iff           numerals and signed numerals are read, and nothing else
      trim_eq_iff              a text without blanks is the trimming of what pads it with blanks
-/
import Flowprint.Proofs.Text.Digits
import Flowprint.Text.Blank
import Flowprint.Text.Utf8
import Mathlib.Data.List.TakeWhile
import Mathlib.Data.Nat.Digits.Defs

namespace Flowprint.Text

namespace Radix

/-! ## §1. Numerals. -/

/-- A character is the digit of a base for a value, in either case of letter. -/
def IsDigit (base : Nat) (c : Char) (d : Nat) : Prop :=
  d < base ∧ (c = Nat.digitChar d ∨ c = (Nat.digitChar d).toUpper)

/-- One digit or more, the most significant first, and the number that they denote. -/
structure Numeral (base : Nat) (text : List Char) (n : Nat) : Prop where
  nonempty : text ≠ []
  digits : ∃ values, List.Forall₂ (IsDigit base) text values ∧ Nat.ofDigits base values.reverse = n

/-- A text as it is, or with a plus sign in front of it. -/
def Signed (digits text : List Char) : Prop :=
  text = digits ∨ text = '+' :: digits

/-! ## §2. Digits. -/

section Digits

variable {base bound acc d n : Nat} {c : Char} {text : List Char}

theorem digitValue?_toUpper (h : d < 16) :
    digitValue? (Nat.digitChar d).toUpper = some d := by
  revert d
  decide

/-- The characters with the values below sixteen. -/
theorem eq_of_digitValue? (hd : d < 16) (h : digitValue? c = some d) :
    c = Nat.digitChar d ∨ c = (Nat.digitChar d).toUpper := by
  have hdecimal : ∀ d < 10, Char.ofNat (d + 48) = Nat.digitChar d := by decide
  have hlower : ∀ d < 6, Char.ofNat (d + 97) = Nat.digitChar (d + 10) := by decide
  have hupper : ∀ d < 6, Char.ofNat (d + 65) = (Nat.digitChar (d + 10)).toUpper := by decide
  unfold digitValue? at h
  -- the three runs of characters that are digits in some base
  split at h
  next hrange =>
    have hle : 48 ≤ c.toNat ∧ c.toNat ≤ 57 := hrange
    have hvalue : c.toNat - 48 = d := Option.some.inj h
    left
    rw [← hdecimal d (by omega), ← hvalue, Nat.sub_add_cancel hle.1, Char.ofNat_toNat]
  next =>
    split at h
    next hrange =>
      have hle : 97 ≤ c.toNat ∧ c.toNat ≤ 122 := hrange
      have hvalue : c.toNat - 97 + 10 = d := Option.some.inj h
      left
      rw [← hvalue, ← hlower (c.toNat - 97) (by omega), Nat.sub_add_cancel hle.1,
        Char.ofNat_toNat]
    next =>
      split at h
      next hrange =>
        have hle : 65 ≤ c.toNat ∧ c.toNat ≤ 90 := hrange
        have hvalue : c.toNat - 65 + 10 = d := Option.some.inj h
        right
        rw [← hvalue, ← hupper (c.toNat - 65) (by omega), Nat.sub_add_cancel hle.1,
          Char.ofNat_toNat]
      next => exact absurd h (by simp)

/-- A digit is written by one character, in either case of letter. -/
theorem digit?_eq_some_iff (hbase : base ≤ 16) : digit? base c = some d ↔ IsDigit base c d := by
  rw [digit?, Option.filter_eq_some_iff, decide_eq_true_eq]
  constructor
  · intro h
    obtain ⟨hvalue, hd⟩ := h
    exact ⟨hd, eq_of_digitValue? (by omega) hvalue⟩
  · intro h
    obtain ⟨hd, hcase⟩ := h
    refine ⟨?_, hd⟩
    rcases hcase with rfl | rfl
    · exact digitValue?_digitChar (by omega)
    · exact digitValue?_toUpper (by omega)

/-- A digit is no blank, no sign and no mark, and takes one byte. -/
theorem IsDigit.plain (hbase : base ≤ 16) (h : IsDigit base c d) :
    isBlank c = false ∧ c.utf8Size = 1 ∧ c ∉ ['+', 'x', 'X', '.'] := by
  have hlower : ∀ d < 16, isBlank (Nat.digitChar d) = false ∧ (Nat.digitChar d).utf8Size = 1
      ∧ Nat.digitChar d ∉ ['+', 'x', 'X', '.'] := by decide
  have hupper : ∀ d < 16, isBlank (Nat.digitChar d).toUpper = false
      ∧ (Nat.digitChar d).toUpper.utf8Size = 1
      ∧ (Nat.digitChar d).toUpper ∉ ['+', 'x', 'X', '.'] := by decide
  obtain ⟨hd, hcase⟩ := h
  rcases hcase with rfl | rfl
  · exact hlower d (by omega)
  · exact hupper d (by omega)

/-- The value of digits behind digits with a value. -/
def valueFrom (base acc : Nat) (values : List Nat) : Nat :=
  values.foldl (fun acc d => acc * base + d) acc

theorem valueFrom_zero (values : List Nat) :
    valueFrom base 0 values = Nat.ofDigits base values.reverse := by
  rw [Nat.ofDigits_eq_foldr, List.foldr_reverse, valueFrom]
  refine congrArg (fun step => List.foldl step 0 values) ?_
  funext acc d
  rw [Nat.cast_id, Nat.mul_comm, Nat.add_comm]

/-- Digits behind others make a number no smaller. -/
theorem le_valueFrom (hbase : 0 < base) (values : List Nat) :
    acc ≤ valueFrom base acc values := by
  induction values generalizing acc with
  | nil => exact Nat.le_refl acc
  | cons d rest ih =>
    have hstep : acc ≤ acc * base + d :=
      Nat.le_add_right_of_le (Nat.le_mul_of_pos_right acc hbase)
    exact hstep.trans ih

theorem pushDigit_eq_ok_iff (hbase : base ≤ 16) :
    pushDigit base bound acc c = .ok n
      ↔ ∃ d, IsDigit base c d ∧ acc * base + d = n ∧ n < bound := by
  rw [pushDigit]
  constructor
  · intro h
    split at h
    · exact absurd h (by simp)
    next d hd =>
      split at h
      next hlt =>
        obtain rfl := Except.ok.inj h
        exact ⟨d, (digit?_eq_some_iff hbase).mp hd, rfl, hlt⟩
      · exact absurd h (by simp)
  · intro h
    obtain ⟨d, hd, rfl, hlt⟩ := h
    rw [(digit?_eq_some_iff hbase).mpr hd]
    exact if_pos hlt

/-- Digits are read from the left, as long as they stay below the bound. -/
theorem readDigits_eq_ok_iff (hbase : 0 < base) (hsixteen : base ≤ 16) (hacc : acc < bound) :
    readDigits base bound acc text = .ok n
      ↔ ∃ values, List.Forall₂ (IsDigit base) text values ∧ valueFrom base acc values = n
        ∧ n < bound := by
  induction text generalizing acc with
  | nil =>
    rw [readDigits, Except.ok.injEq]
    constructor
    · rintro rfl
      exact ⟨[], .nil, rfl, hacc⟩
    · rintro ⟨values, hvalues, hvalue, -⟩
      cases hvalues
      exact hvalue
  | cons c rest ih =>
    have hsplit : readDigits base bound acc (c :: rest) = .ok n
        ↔ ∃ next, pushDigit base bound acc c = .ok next
          ∧ readDigits base bound next rest = .ok n := by
      rw [readDigits]
      cases pushDigit base bound acc c with
      | ok next => simp
      | error fault => simp
    rw [hsplit]
    constructor
    · rintro ⟨next, hpush, hrest⟩
      obtain ⟨d, hd, rfl, hlt⟩ := (pushDigit_eq_ok_iff hsixteen).mp hpush
      obtain ⟨values, hvalues, hvalue, hbound⟩ := (ih hlt).mp hrest
      exact ⟨d :: values, .cons hd hvalues, hvalue, hbound⟩
    · rintro ⟨values, hvalues, hvalue, hbound⟩
      cases hvalues with
      | @cons _ d _ values hd hrest =>
      -- the digits behind this one do not bring the number back below the bound
      have hle : acc * base + d ≤ n := by
        rw [← hvalue]
        exact le_valueFrom hbase values
      have hlt : acc * base + d < bound := Nat.lt_of_le_of_lt hle hbound
      exact ⟨_, (pushDigit_eq_ok_iff hsixteen).mpr ⟨d, hd, rfl, hlt⟩,
        (ih hlt).mpr ⟨values, hrest, hvalue, hbound⟩⟩

end Digits

/-! ## §3. Reading. -/

section Reading

variable {base bound n : Nat} {text digits : List Char}

theorem Numeral.plain (hbase : base ≤ 16) (h : Numeral base digits n) :
    ∀ c ∈ digits, isBlank c = false ∧ c.utf8Size = 1 ∧ c ∉ ['+', 'x', 'X', '.'] := by
  obtain ⟨values, hvalues, -⟩ := h.digits
  clear h
  induction hvalues with
  | nil => exact fun c hc => absurd hc List.not_mem_nil
  | cons hdigit _ ih => exact List.forall_mem_cons.mpr ⟨hdigit.plain hbase, ih⟩

/-- A text without a plus sign has none in front of its digits. -/
theorem Signed.eq_of_not_mem (h : Signed digits text) (hsign : '+' ∉ text) : text = digits := by
  rcases h with rfl | rfl
  · rfl
  · exact absurd List.mem_cons_self hsign

/-- A numeral with or without a sign has no blank and no mark in it, and a byte for each character. -/
theorem Signed.plain (hbase : base ≤ 16) (hsigned : Signed digits text)
    (h : Numeral base digits n) :
    ∀ c ∈ text, isBlank c = false ∧ c.utf8Size = 1 ∧ c ∉ ['x', 'X', '.'] := by
  have hdigits : ∀ c ∈ digits, isBlank c = false ∧ c.utf8Size = 1 ∧ c ∉ ['x', 'X', '.'] := by
    intro c hc
    obtain ⟨hblank, hsize, hother⟩ := h.plain hbase c hc
    exact ⟨hblank, hsize, fun hmem => hother (List.mem_cons_of_mem _ hmem)⟩
  rcases hsigned with rfl | rfl
  · exact hdigits
  · exact List.forall_mem_cons.mpr ⟨by decide, hdigits⟩

theorem readDigits_zero_iff (hbase : 0 < base) (hsixteen : base ≤ 16) (hbound : 0 < bound)
    (hsome : text ≠ []) :
    readDigits base bound 0 text = .ok n ↔ Numeral base text n ∧ n < bound := by
  rw [readDigits_eq_ok_iff hbase hsixteen hbound]
  simp only [valueFrom_zero]
  constructor
  · rintro ⟨values, hvalues, hvalue, hlt⟩
    exact ⟨⟨hsome, values, hvalues, hvalue⟩, hlt⟩
  · rintro ⟨⟨-, values, hvalues, hvalue⟩, hlt⟩
    exact ⟨values, hvalues, hvalue, hlt⟩

/-- What is printed with a width is a numeral. -/
theorem numeral_hexDigits {width : Nat} (hwidth : 0 < width) (hn : n < Nat.pow 16 width) :
    Numeral 16 (hexDigits width n) n := by
  have hsome : hexDigits width n ≠ [] := by
    rw [← List.length_pos_iff, length_hexDigits]
    exact hwidth
  have hread := readHex_hexDigits hn (Nat.lt_succ_self n)
  exact ((readDigits_zero_iff (by decide) (by decide) (Nat.succ_pos n) hsome).mp hread).1

/-- Numerals below the bound are read, with or without a sign, and nothing else. -/
theorem read_eq_ok_iff (hbase : 0 < base) (hsixteen : base ≤ 16) (hbound : 0 < bound) :
    read base bound text = .ok n
      ↔ (∃ digits, Signed digits text ∧ Numeral base digits n) ∧ n < bound := by
  have hsign : ∀ {digits}, Numeral base ('+' :: digits) n → False := by
    intro digits h
    exact (h.plain hsixteen '+' List.mem_cons_self).2.2 List.mem_cons_self
  -- the cases of the reader: nothing, a lone sign, a sign and digits, digits
  fun_cases read base bound text with
  | case1 =>
    refine iff_of_false (by simp) ?_
    rintro ⟨⟨digits, hsigned, h⟩, -⟩
    rcases hsigned with rfl | hcons
    · exact h.nonempty rfl
    · exact absurd hcons (by simp)
  | case2 =>
    refine iff_of_false (by simp) ?_
    rintro ⟨⟨digits, hsigned, h⟩, -⟩
    rcases hsigned with rfl | hcons
    · exact hsign h
    · exact h.nonempty (List.cons.inj hcons).2.symm
  | case3 digits hsome =>
    rw [readDigits_zero_iff hbase hsixteen hbound (fun hnil => hsome hnil)]
    refine and_congr_left fun _ => ⟨fun h => ⟨digits, .inr rfl, h⟩, ?_⟩
    rintro ⟨others, hsigned, h⟩
    rcases hsigned with rfl | hcons
    · exact (hsign h).elim
    · rwa [(List.cons.inj hcons).2]
  | case4 text hsome hlone hplus =>
    rw [readDigits_zero_iff hbase hsixteen hbound (fun h => hsome h)]
    refine and_congr_left fun _ => ⟨fun h => ⟨text, .inl rfl, h⟩, ?_⟩
    rintro ⟨digits, hsigned, h⟩
    rcases hsigned with rfl | hcons
    · exact h
    · exact (hplus digits hcons).elim

end Reading

end Radix

/-! ## §4. Blanks around a text. -/

section Blanks

variable {s text : List Char}

/-- A text with blanks around it, or none. -/
def Padded (text s : List Char) : Prop :=
  ∃ front back, s = front ++ text ++ back ∧ (∀ c ∈ front, isBlank c = true)
    ∧ ∀ c ∈ back, isBlank c = true

theorem Padded.mem (h : Padded text s) {c : Char} (hc : c ∈ text) : c ∈ s := by
  obtain ⟨front, back, rfl, -⟩ := h
  exact List.mem_append_left back (List.mem_append_right front hc)

theorem padded_trim (s : List Char) : Padded (trim s) s := by
  obtain ⟨back, hback, hblank⟩ := dropBlankEnd_append (s.dropWhile isBlank)
  refine ⟨s.takeWhile isBlank, back, ?_, fun c hc => List.mem_takeWhile_imp hc, hblank⟩
  rw [List.append_assoc, trim, ← hback, List.takeWhile_append_dropWhile]

theorem dropBlankEnd_padded {back : List Char} (htext : ∀ c ∈ text, isBlank c = false)
    (hback : ∀ c ∈ back, isBlank c = true) : dropBlankEnd (text ++ back) = text := by
  induction text with
  | nil =>
    rw [List.nil_append]
    induction back with
    | nil => rfl
    | cons c rest ih =>
      rw [dropBlankEnd, ih fun d hd => hback d (List.mem_cons_of_mem _ hd)]
      exact if_pos (hback c List.mem_cons_self)
  | cons c rest ih =>
    rw [List.cons_append, dropBlankEnd, ih fun d hd => htext d (List.mem_cons_of_mem _ hd)]
    cases rest with
    | nil => exact if_neg (by simp [htext c List.mem_cons_self])
    | cons d rest => rfl

/-- A text without blanks is the trimming of what pads it with blanks. -/
theorem trim_eq_iff (htext : ∀ c ∈ text, isBlank c = false) : trim s = text ↔ Padded text s := by
  constructor
  · rintro rfl
    exact padded_trim s
  · rintro ⟨front, back, rfl, hfront, hback⟩
    rw [trim, List.append_assoc, List.dropWhile_append_of_pos hfront]
    cases text with
    | nil =>
      have hnone : back.dropWhile isBlank = [] := List.dropWhile_eq_nil_iff.mpr hback
      rw [List.nil_append, hnone]
      rfl
    | cons c rest =>
      rw [List.cons_append, List.dropWhile_cons, if_neg (by simp [htext c List.mem_cons_self])]
      exact dropBlankEnd_padded htext hback

/-- Characters of one byte take as many bytes as there are. -/
theorem utf8Length_eq_length (h : ∀ c ∈ s, c.utf8Size = 1) : utf8Length s = s.length := by
  induction s with
  | nil => rfl
  | cons c rest ih =>
    have hrest : utf8Length rest = rest.length := ih fun d hd => h d (List.mem_cons_of_mem _ hd)
    show c.utf8Size + utf8Length rest = rest.length + 1
    rw [h c List.mem_cons_self, hrest, Nat.add_comm]

end Blanks

end Flowprint.Text
