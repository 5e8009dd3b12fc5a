/-
  Flowprint.Proofs.Json.Reading
  ────────────────────────────────
  What is written is read back.

  A reader that reads a value reads it from every spelling of its document, behind blanks and in
  front of anything that may follow a value.  The readers of lists, of optional values and of
  records pass this on from those of their parts.

  Main statements:

      scanChars_escaped     an escaped text is read as the text
      reads_word64          words of 64 bits are read back, the largest included
      reads_list            a list is read if its items are
      reads_record          an object is read if its members fill the record
      parse_written         a document is read from both of its printed forms
-/
import Flowprint.Json.Shape
import Flowprint.Proofs.Json.Spelling
import Flowprint.Proofs.Text.Digits

namespace Flowprint.Json

/-! ## §1. What follows a value. -/

/-- A text with which a value is at its end. -/
def Ends (rest : List Char) : Prop :=
  ∀ c ∈ rest.head?, isGap c = true ∨ c = ',' ∨ c = ']' ∨ c = '\x7d'

theorem ends_nil : Ends [] := by
  intro c h
  exact absurd h (by simp)

theorem ends_cons {c : Char} (h : isGap c = true ∨ c = ',' ∨ c = ']' ∨ c = '\x7d')
    (rest : List Char) : Ends (c :: rest) := by
  intro d hd
  obtain rfl := Option.some.inj hd
  exact h

theorem ends_gap {gap rest : List Char} (hgap : Gap gap) (hrest : Ends rest) :
    Ends (gap ++ rest) := by
  cases gap with
  | nil => exact hrest
  | cons c gap => exact ends_cons (.inl (hgap c List.mem_cons_self)) (gap ++ rest)

theorem ends_lead {first : Bool} {lead : List Char} (h : Lead first lead) (hmore : first = false)
    (s : List Char) : Ends (lead ++ s) := by
  cases h with
  | first => exact absurd hmore (by simp)
  | more hbefore hafter =>
    rw [List.append_assoc]
    exact ends_gap hbefore (ends_cons (.inr (.inl rfl)) _)

/-- A number does not go on in what follows a value. -/
theorem scanFraction_ends {rest : List Char} (h : Ends rest) (n : Nat) :
    startsDigit rest = false ∧ scanFraction false n rest = .ok (.int n, rest) := by
  cases rest with
  | nil => exact ⟨rfl, rfl⟩
  | cons c rest =>
    have hc := h c rfl
    rw [isGap, Bool.or_eq_true, Bool.or_eq_true, Bool.or_eq_true, beq_iff_eq, beq_iff_eq,
      beq_iff_eq, beq_iff_eq] at hc
    rcases hc with ((((rfl | rfl) | rfl) | rfl) | rfl | rfl | rfl)
    all_goals exact ⟨rfl, rfl⟩

/-- A reader reads a value from every spelling of its document. -/
def Reads {α : Type} (scanner : Scanner α) (value : Value) (a : α) : Prop :=
  ∀ t gap rest : List Char, Spells value t → Gap gap → Ends rest →
    scanner (gap ++ (t ++ rest)) = .ok (a, rest)

/-! ## §2. Numbers. -/

theorem le_ofDigitChars (digits : List Char) (n : Nat) : n ≤ Nat.ofDigitChars 10 digits n := by
  induction digits generalizing n with
  | nil => exact Nat.le_of_eq Nat.ofDigitChars_nil.symm
  | cons c digits ih =>
    rw [Nat.ofDigitChars_cons]
    have hstep : n ≤ 10 * n + (c.toNat - '0'.toNat) := by omega
    exact Nat.le_trans hstep (ih _)

theorem isDigit_of_mem {n : Nat} {c : Char} (h : c ∈ Nat.toDigits 10 n) : c.isDigit = true :=
  Nat.isDigit_of_mem_toDigits (b := 10) (by decide) (by decide) h

/-- Digits with a value that fits 64 bits are all kept. -/
theorem keptDigits_append {digits rest : List Char} {n : Nat}
    (hdigits : ∀ c ∈ digits, c.isDigit = true)
    (hfits : Nat.ofDigitChars 10 digits n < UInt64.size) (hrest : startsDigit rest = false) :
    keptDigits n (digits ++ rest) = (Nat.ofDigitChars 10 digits n, digits.length, rest) := by
  induction digits generalizing n with
  | nil =>
    rw [Nat.ofDigitChars_nil, List.nil_append, List.length_nil]
    cases rest with
    | nil => rw [keptDigits]
    | cons c rest =>
      have hc : c.isDigit = false := hrest
      rw [keptDigits, hc, if_neg Bool.false_ne_true]
  | cons c digits ih =>
    rw [Nat.ofDigitChars_cons] at hfits ⊢
    have hlonger : n * 10 + (c.toNat - '0'.toNat) < UInt64.size := by
      rw [Nat.mul_comm]
      exact Nat.lt_of_le_of_lt (le_ofDigitChars digits _) hfits
    rw [List.cons_append, keptDigits, if_pos (hdigits c List.mem_cons_self),
      appendDigit?_eq_some hlonger]
    dsimp only
    rw [Nat.mul_comm n 10, ih (fun c hc => hdigits c (List.mem_cons_of_mem _ hc)) hfits]
    rfl

theorem digitChar_nonzero {d : Nat} (hpos : 0 < d) (h : d < 10) :
    Nat.digitChar d ≠ '0' ∧ (Nat.digitChar d).isDigit = true := by
  have hall : ∀ d < 10, 0 < d →
      Nat.digitChar d ≠ '0' ∧ (Nat.digitChar d).isDigit = true := by
    decide
  exact hall d h hpos

/-- A whole number is read from its digits. -/
theorem scanUnsigned_toDigits {n : Nat} {rest : List Char} (hn : n < UInt64.size)
    (hrest : Ends rest) :
    scanUnsigned false (Nat.toDigits 10 n ++ rest) = .ok (.int n, rest) := by
  obtain ⟨hstop, hwhole⟩ := scanFraction_ends hrest n
  cases n with
  | zero =>
    rw [Nat.toDigits_zero, List.cons_append, List.nil_append, scanUnsigned, hstop]
    exact hwhole
  | succ m =>
    obtain ⟨d, digits, hpos, hd, heq⟩ := Text.Radix.head_toDigits
      (by decide : 1 < 10) (Nat.succ_pos m)
    obtain ⟨hzero, hdigit⟩ := digitChar_nonzero hpos hd
    have hvalue : Nat.ofDigitChars 10 (Nat.toDigits 10 (m + 1)) 0 = m + 1 :=
      Nat.ofDigitChars_ten_toDigits
    have hfits : Nat.ofDigitChars 10 (Nat.toDigits 10 (m + 1)) 0 < UInt64.size := by
      rw [hvalue]
      exact hn
    have hkept := keptDigits_append (fun c hc => isDigit_of_mem hc) hfits hstop
    rw [hvalue, heq] at hkept
    rw [heq, List.cons_append, scanUnsigned.eq_3 _ _ _ hzero, if_pos hdigit, ← List.cons_append,
      hkept]
    dsimp only
    rw [hstop]
    exact hwhole

theorem isGap_of_isDigit {c : Char} (h : c.isDigit = true) : isGap c = false := by
  rw [Bool.eq_false_iff]
  intro hgap
  rw [isGap, Bool.or_eq_true, Bool.or_eq_true, Bool.or_eq_true, beq_iff_eq, beq_iff_eq,
    beq_iff_eq, beq_iff_eq] at hgap
  rcases hgap with ((rfl | rfl) | rfl) | rfl
  all_goals exact absurd h (by decide)

/-- The digits of a number begin with a digit. -/
theorem toDigits_eq_cons (n : Nat) :
    ∃ c digits, Nat.toDigits 10 n = c :: digits ∧ c.isDigit = true := by
  cases heq : Nat.toDigits 10 n with
  | nil => exact absurd heq Nat.toDigits_ne_nil
  | cons c digits =>
    have hmem : c ∈ Nat.toDigits 10 n := by
      rw [heq]
      exact List.mem_cons_self
    exact ⟨c, digits, rfl, isDigit_of_mem hmem⟩

theorem number_toDigits {α : Type} {expected : String} {convert : Number → Except Mismatch α}
    {a : α} {n : Nat} {gap rest : List Char} (hn : n < UInt64.size) (hgap : Gap gap)
    (hrest : Ends rest) (hconvert : convert (.int n) = .ok a) :
    number expected convert (gap ++ (Nat.toDigits 10 n ++ rest)) = .ok (a, rest) := by
  have hscan := scanUnsigned_toDigits hn hrest
  obtain ⟨c, digits, heq, hdigit⟩ := toDigits_eq_cons n
  have hsign : c ≠ '-' := by
    rintro rfl
    exact absurd hdigit (by decide)
  rw [heq, List.cons_append] at hscan ⊢
  have hstart : startsDigit (c :: (digits ++ rest)) = true := hdigit
  rw [number, skipBlanks_append hgap, skipBlanks_cons (isGap_of_isDigit hdigit), hscan,
    if_pos hstart]
  split
  next scanned fault herror =>
    split at herror
    next heq => exact absurd (List.cons.inj heq).1 hsign
    next => exact absurd herror (by simp)
  next scanned n rest hok =>
    split at hok
    next heq => exact absurd (List.cons.inj heq).1 hsign
    next =>
      obtain ⟨rfl, rfl⟩ := Prod.mk.inj (Except.ok.inj hok)
      rw [hconvert]

/-- Words of 64 bits are read back. -/
theorem reads_word64 (a : UInt64) : Reads word64 (.nat a.toNat) a := by
  intro t gap rest hspells hgap hrest
  cases hspells with
  | int =>
    have hfits := a.toNat_lt
    have hinteger : integer "u64" 0 UInt64.size (gap ++ (Nat.toDigits 10 a.toNat ++ rest))
        = .ok ((a.toNat : Int), rest) := by
      refine number_toDigits hfits hgap hrest ?_
      dsimp only
      rw [if_pos]
      constructor
      · omega
      · exact_mod_cast hfits
    rw [show intText a.toNat = Nat.toDigits 10 a.toNat from rfl, word64, Scanner.map, hinteger]
    simp

/-! ## §3. Texts. -/

/-- The escape of a control character denotes that character. -/
theorem scanUnit_hexDigits {n : Nat} (hn : n < 0x20) (s : List Char) :
    scanUnit (Text.Radix.hexDigits 4 n ++ s) = .ok (n, s) := by
  have hlength := Text.Radix.length_hexDigits 4 n
  have htake : (Text.Radix.hexDigits 4 n ++ s).take 4 = Text.Radix.hexDigits 4 n :=
    List.take_left' hlength
  have hdrop : (Text.Radix.hexDigits 4 n ++ s).drop 4 = s :=
    List.drop_left' hlength
  have hascii : Text.utf8Length (Text.Radix.hexDigits 4 n) = 4 := by
    have hall : ∀ n < 0x20, Text.utf8Length (Text.Radix.hexDigits 4 n) = 4 := by decide
    exact hall n hn
  have hread : Text.Radix.readDigits 16 UInt16.size 0 (Text.Radix.hexDigits 4 n) = .ok n :=
    Text.Radix.readHex_hexDigits (Nat.lt_trans hn (by decide)) (Nat.lt_trans hn (by decide))
  rw [scanUnit, htake, hdrop, hascii, hread, hlength]
  rfl

/-- A character stands for itself, or behind a backslash for what its escape denotes. -/
theorem escapedChar_cases (c : Char) :
    (escapedChar c = [c] ∧ c ≠ '"' ∧ c ≠ '\\' ∧ ¬ c.toNat < 0x20) ∨
      ∃ escape, escapedChar c = '\\' :: escape ∧ ∀ s, scanEscape (escape ++ s) = .ok (c, s) := by
  unfold escapedChar
  split
  case h_8 hquote hback _ _ _ _ _ =>
    split
    next hcontrol =>
      refine .inr ⟨'u' :: Text.Radix.hexDigits 4 c.toNat, rfl, ?_⟩
      intro s
      rw [List.cons_append, scanEscape, scanNumeric, scanUnit_hexDigits hcontrol]
      have hhigh : ¬ (0xd800 ≤ c.toNat ∧ c.toNat < 0xdc00) := by omega
      have hlow : ¬ (0xdc00 ≤ c.toNat ∧ c.toNat < 0xe000) := by omega
      show (if _ then _ else _) = _
      rw [if_neg hhigh, if_neg hlow, Char.ofNat_toNat]
      rfl
    next hplain => exact .inl ⟨rfl, hquote, hback, hplain⟩
  all_goals exact .inr ⟨_, rfl, fun s => rfl⟩

theorem scanChars_escapedChar {c : Char} {cs s rest : List Char} {fuel : Nat}
    (h : scanChars fuel s = .ok (cs, rest)) :
    scanChars (fuel + 1) (escapedChar c ++ s) = .ok (c :: cs, rest) := by
  rcases escapedChar_cases c with ⟨heq, hquote, hback, hplain⟩ | ⟨escape, heq, hescape⟩
  · rw [heq, List.cons_append, List.nil_append, scanChars]
    · rw [if_neg hplain, h]
      rfl
    · exact hquote
    · exact hback
  · rw [heq, List.cons_append, scanChars, hescape]
    show (scanChars fuel s >>= _) = _
    rw [h]
    rfl

/-- An escaped text is read as the text. -/
theorem scanChars_escaped {cs rest : List Char} {fuel : Nat} (hfuel : cs.length < fuel) :
    scanChars fuel (cs.flatMap escapedChar ++ '"' :: rest) = .ok (cs, rest) := by
  induction cs generalizing fuel with
  | nil =>
    cases fuel with
    | zero => exact absurd hfuel (Nat.not_lt_zero _)
    | succ fuel => rfl
  | cons c cs ih =>
    cases fuel with
    | zero => exact absurd hfuel (Nat.not_lt_zero _)
    | succ fuel =>
      rw [List.flatMap_cons, List.append_assoc]
      exact scanChars_escapedChar (ih (Nat.lt_of_succ_lt_succ hfuel))

theorem length_le_escaped (cs : List Char) : cs.length ≤ (cs.flatMap escapedChar).length := by
  induction cs with
  | nil => exact Nat.le_refl 0
  | cons c cs ih =>
    have hpos : 0 < (escapedChar c).length := by
      rcases escapedChar_cases c with ⟨heq, -⟩ | ⟨escape, heq, -⟩
      · rw [heq]
        exact Nat.succ_pos _
      · rw [heq]
        exact Nat.succ_pos _
    rw [List.flatMap_cons, List.length_append, List.length_cons]
    omega

theorem quotedText_append (s : String) (rest : List Char) :
    quotedText s ++ rest = '"' :: (s.toList.flatMap escapedChar ++ '"' :: rest) := by
  rw [quotedText, List.cons_append, List.cons_append, List.append_assoc]
  rfl

theorem scanText_escaped (s : String) (rest : List Char) :
    scanText (s.toList.flatMap escapedChar ++ '"' :: rest) = .ok (s, rest) := by
  have hlong := length_le_escaped s.toList
  have hscan : scanChars ((s.toList.flatMap escapedChar ++ '"' :: rest).length + 1)
      (s.toList.flatMap escapedChar ++ '"' :: rest) = .ok (s.toList, rest) := by
    refine scanChars_escaped ?_
    rw [List.length_append]
    omega
  rw [scanText, hscan]
  show Except.ok (String.ofList s.toList, rest) = _
  rw [String.ofList_toList]

/-- A text is read back. -/
theorem reads_text (s : String) : Reads text (.text s) s := by
  intro t gap rest hspells hgap hrest
  cases hspells with
  | text =>
    rw [quotedText_append, text, textAs, skipBlanks_append hgap, skipBlanks_cons rfl]
    exact scanText_escaped s rest

/-! ## §4. What a spelling begins with. -/

/-- A document does not begin with a blank, nor like the end of a list or an absent value, unless
it is the absent value. -/
theorem Spells.opens {value : Value} {t : List Char} (h : Spells value t) :
    ∃ c s, t = c :: s ∧ isGap c = false ∧ c ≠ ']' ∧ (c = 'n' → value = .null) := by
  cases h with
  | null => exact ⟨_, _, rfl, rfl, by decide, fun _ => rfl⟩
  | bool_true => exact ⟨_, _, rfl, rfl, by decide, fun h => absurd h (by decide)⟩
  | bool_false => exact ⟨_, _, rfl, rfl, by decide, fun h => absurd h (by decide)⟩
  | text s => exact ⟨_, _, rfl, rfl, by decide, fun h => absurd h (by decide)⟩
  | list h => exact ⟨_, _, rfl, rfl, by decide, fun h => absurd h (by decide)⟩
  | object h => exact ⟨_, _, rfl, rfl, by decide, fun h => absurd h (by decide)⟩
  | int n =>
    cases n with
    | ofNat n =>
      obtain ⟨c, digits, heq, hdigit⟩ := toDigits_eq_cons n
      refine ⟨c, digits, heq, isGap_of_isDigit hdigit, ?_, ?_⟩
      · rintro rfl
        exact absurd hdigit (by decide)
      · rintro rfl
        exact absurd hdigit (by decide)
    | negSucc n => exact ⟨_, _, rfl, rfl, by decide, fun h => absurd h (by decide)⟩

/-- A value that may be absent is read if it is there. -/
theorem reads_optional {α : Type} {scanner : Scanner α} {value : Value} {a : α}
    (h : Reads scanner value a) (hsome : value ≠ .null) :
    Reads (optional scanner) value (some a) := by
  intro t gap rest hspells hgap hrest
  obtain ⟨c, s, rfl, hblank, -, habsent⟩ := hspells.opens
  have hread := h _ [] rest hspells gap_nil hrest
  rw [List.nil_append] at hread
  rw [optional, skipBlanks_append hgap, List.cons_append, skipBlanks_cons hblank]
  split
  next heq =>
    obtain rfl := (List.cons.inj heq).1
    exact absurd (habsent rfl) hsome
  next =>
    rw [Scanner.map, ← List.cons_append, hread]

/-- What is read may be passed on. -/
theorem reads_map {α β : Type} {scanner : Scanner α} {value : Value} {a : α} (f : α → β)
    (h : Reads scanner value a) : Reads (scanner.map f) value (f a) := by
  intro t gap rest hspells hgap hrest
  rw [Scanner.map, h t gap rest hspells hgap hrest]

/-! ## §5. Lists. -/

section Lists

variable {α : Type}

theorem nextItem_lead {first : Bool} {lead s : List Char} {c : Char} (hlead : Lead first lead)
    (hblank : isGap c = false) (hclose : c ≠ ']') :
    nextItem first (lead ++ c :: s) = .ok (true, c :: s) := by
  cases hlead with
  | first hgap =>
    rw [nextItem, skipBlanks_append hgap, skipBlanks_cons hblank]
    split
    next heq => exact absurd heq (by simp)
    next heq => exact absurd (List.cons.inj heq).1 hclose
    next heq =>
      obtain ⟨rfl, rfl⟩ := List.cons.inj heq
      rfl
  | more hbefore hafter =>
    rw [List.append_assoc, nextItem, skipBlanks_append hbefore, List.cons_append,
      skipBlanks_cons rfl]
    split
    next heq => exact absurd heq (by simp)
    next heq => exact absurd (List.cons.inj heq).1 (by decide)
    next heq =>
      obtain ⟨rfl, rfl⟩ := List.cons.inj heq
      rw [if_neg Bool.false_ne_true, if_pos rfl, skipBlanks_append hafter, skipBlanks_cons hblank]
      split
      next heq => exact absurd heq (by simp)
      next heq => exact absurd (List.cons.inj heq).1 hclose
      next => rfl

theorem nextItem_close {gap : List Char} (hgap : Gap gap) (first : Bool) (s : List Char) :
    nextItem first (gap ++ ']' :: s) = .ok (false, ']' :: s) := by
  rw [nextItem, skipBlanks_append hgap, skipBlanks_cons rfl]
  rfl

theorem SpellsItems.length_le {first : Bool} {values : List Value} {t : List Char}
    (h : SpellsItems first values t) : values.length ≤ t.length := by
  induction values generalizing first t with
  | nil => exact Nat.zero_le _
  | cons value values ih =>
    cases h with
    | item hlead hvalue hrest =>
      obtain ⟨c, s, rfl, -⟩ := hvalue.opens
      have hlength := ih hrest
      simp only [List.length_append, List.length_cons]
      omega

/-- What follows an item ends it. -/
theorem SpellsItems.ends {values : List Value} {t : List Char} (h : SpellsItems false values t)
    (rest : List Char) : Ends (t ++ ']' :: rest) := by
  cases h with
  | done hgap => exact ends_gap hgap (ends_cons (.inr (.inr (.inl rfl))) rest)
  | item hlead hvalue hrest =>
    rw [List.append_assoc, List.append_assoc]
    exact ends_lead hlead rfl _

variable {item : Scanner α} {document : α → Value} {as : List α}

theorem items_spelled {first : Bool} {t : List Char} {fuel : Nat}
    (hreads : ∀ a ∈ as, Reads item (document a) a)
    (hspells : SpellsItems first (as.map document) t) (hfuel : as.length < fuel)
    (rest : List Char) : items item fuel first (t ++ ']' :: rest) = .ok (as, ']' :: rest) := by
  induction as generalizing first t fuel with
  | nil =>
    cases fuel with
    | zero => exact absurd hfuel (Nat.not_lt_zero _)
    | succ fuel =>
      cases hspells with
      | done hgap =>
        rw [items, nextItem_close hgap]
        rfl
  | cons a as ih =>
    cases fuel with
    | zero => exact absurd hfuel (Nat.not_lt_zero _)
    | succ fuel =>
      cases hspells with
      | item hlead hvalue hrest =>
        have hmore := ih (fun a hmem => hreads a (List.mem_cons_of_mem _ hmem)) hrest
          (Nat.lt_of_succ_lt_succ hfuel)
        have hitem := hreads a List.mem_cons_self _ [] _ hvalue gap_nil (hrest.ends rest)
        obtain ⟨c, s, rfl, hblank, hclose, -⟩ := hvalue.opens
        rw [List.nil_append, List.cons_append] at hitem
        rw [List.append_assoc, List.append_assoc, List.cons_append, items,
          nextItem_lead hlead hblank hclose]
        show (item _ >>= _) = _
        rw [hitem]
        show (items item fuel false _ >>= _) = _
        rw [hmore]
        rfl

/-- A list is read if its items are. -/
theorem reads_list (hreads : ∀ a ∈ as, Reads item (document a) a) :
    Reads (list item) (.list (as.map document)) as := by
  intro t gap rest hspells hgap hrest
  cases hspells with
  | @list _ t hitems =>
    have hlength := hitems.length_le
    rw [List.length_map] at hlength
    have hread : items item ((t ++ ']' :: rest).length + 1) true (t ++ ']' :: rest)
        = .ok (as, ']' :: rest) := by
      refine items_spelled hreads hitems ?_ rest
      rw [List.length_append]
      omega
    have hspelled : '[' :: t ++ [']'] ++ rest = '[' :: (t ++ ']' :: rest) := by
      rw [List.append_assoc]
      rfl
    rw [hspelled, list, skipBlanks_append hgap, skipBlanks_cons rfl]
    show (items item _ true (t ++ ']' :: rest) >>= _) = _
    rw [hread]
    rfl

end Lists

/-! ## §6. Records. -/

section Records

variable {βs : List Type} {fields : Fields βs} {draft filled : Draft βs}
  {ms : List (String × Value)}

/-- Members that fill a draft of a record, each read as the field of its name. -/
inductive Fills {βs : List Type} (fields : Fields βs) :
    Draft βs → List (String × Value) → Draft βs → Prop
  | done {draft : Draft βs} : Fills fields draft [] draft
  | member {draft next filled : Draft βs} {name : String} {value : Value}
    {rest : List (String × Value)} {read : Scanner (Draft βs)}
    (hplace : fields.place? name draft = some (.ok read)) (hread : Reads read value next)
    (hrest : Fills fields next rest filled) : Fills fields draft ((name, value) :: rest) filled

theorem fills_behind {β : Type} {field : Field β} {value : Option β}
    (h : Fills fields draft ms filled) (hnames : ∀ member ∈ ms, member.1 ≠ field.name) :
    Fills (.cons field fields) (value, draft) ms (value, filled) := by
  induction h with
  | done => exact .done
  | @member draft next filled name _ rest read hplace hread _ ih =>
    have hname : field.name ≠ name := (hnames _ List.mem_cons_self).symm
    have hbehind : Fields.place? name (.cons field fields) (value, draft)
        = some (.ok (read.map fun values => (value, values))) := by
      show (if field.name = name then _ else (fields.place? name draft).map _) = _
      rw [if_neg hname, hplace]
      rfl
    exact .member hbehind (reads_map _ hread)
      (ih fun member hmem => hnames member (List.mem_cons_of_mem _ hmem))

/-- The members of an object may come in the order of the fields. -/
theorem fills_first {β : Type} {field : Field β} {document : Value} {value : β}
    (hread : Reads field.read document value) (h : Fills fields draft ms filled)
    (hnames : ∀ member ∈ ms, member.1 ≠ field.name) :
    Fills (.cons field fields) (none, draft) ((field.name, document) :: ms)
      (some value, filled) := by
  have hplace : Fields.place? field.name (.cons field fields) (none, draft)
      = some (.ok (field.read.map fun value => (some value, draft))) :=
    if_pos rfl
  exact .member hplace (reads_map _ hread) (fills_behind h hnames)

theorem nextKey_lead {first : Bool} {lead : List Char} (hlead : Lead first lead) (s : List Char) :
    nextKey first (lead ++ '"' :: s) = .ok (some s, s) := by
  cases hlead with
  | first hgap =>
    rw [nextKey, skipBlanks_append hgap, skipBlanks_cons rfl]
    rfl
  | more hbefore hafter =>
    rw [List.append_assoc, nextKey, skipBlanks_append hbefore, List.cons_append,
      skipBlanks_cons rfl]
    split
    next heq => exact absurd heq (by simp)
    next heq => exact absurd (List.cons.inj heq).1 (by decide)
    next heq =>
      obtain ⟨rfl, rfl⟩ := List.cons.inj heq
      rw [if_neg Bool.false_ne_true, if_pos rfl, skipBlanks_append hafter, skipBlanks_cons rfl]
      rfl

theorem nextKey_close {gap : List Char} (hgap : Gap gap) (first : Bool) (s : List Char) :
    nextKey first (gap ++ '\x7d' :: s) = .ok (none, s) := by
  rw [nextKey, skipBlanks_append hgap, skipBlanks_cons rfl]
  rfl

theorem passColon_gap {gap : List Char} (hgap : Gap gap) (s : List Char) :
    passColon (gap ++ ':' :: s) = .ok s := by
  rw [passColon, skipBlanks_append hgap, skipBlanks_cons rfl]
  rfl

theorem SpellsMembers.length_le {first : Bool} {t : List Char} (h : SpellsMembers first ms t) :
    ms.length ≤ t.length := by
  induction ms generalizing first t with
  | nil => exact Nat.zero_le _
  | cons member ms ih =>
    cases h with
    | member hlead hbefore hafter hvalue hrest =>
      have hlength := ih hrest
      simp only [List.length_append, List.length_cons]
      omega

/-- What follows a member ends it. -/
theorem SpellsMembers.ends {t : List Char} (h : SpellsMembers false ms t) (rest : List Char) :
    Ends (t ++ '\x7d' :: rest) := by
  cases h with
  | done hgap => exact ends_gap hgap (ends_cons (.inr (.inr (.inr rfl))) rest)
  | member hlead hbefore hafter hvalue hrest =>
    simp only [List.append_assoc]
    exact ends_lead hlead rfl _

theorem members_spelled {first : Bool} {t : List Char} {fuel : Nat}
    (hfills : Fills fields draft ms filled) (hspells : SpellsMembers first ms t)
    (hfuel : ms.length < fuel) (rest : List Char) :
    members fields fuel first draft (t ++ '\x7d' :: rest) = .ok (filled, rest) := by
  induction hfills generalizing first t fuel with
  | done =>
    cases fuel with
    | zero => exact absurd hfuel (Nat.not_lt_zero _)
    | succ fuel =>
      cases hspells with
      | done hgap =>
        rw [members, nextKey_close hgap]
        rfl
  | @member draft next filled name value ms read hplace hread _ ih =>
    cases fuel with
    | zero => exact absurd hfuel (Nat.not_lt_zero _)
    | succ fuel =>
      cases hspells with
      | @member _ _ _ _ lead before after t tail hlead hbefore hafter hvalue hrest =>
        have hmore := ih hrest (Nat.lt_of_succ_lt_succ hfuel)
        have hmember := hread t after _ hvalue hafter (hrest.ends rest)
        have hspelled : lead ++ quotedText name ++ (before ++ ':' :: after) ++ t ++ tail
              ++ '\x7d' :: rest
            = lead ++ '"' :: (name.toList.flatMap escapedChar
              ++ '"' :: (before ++ ':' :: (after ++ (t ++ (tail ++ '\x7d' :: rest))))) := by
          simp only [List.append_assoc, List.cons_append, quotedText_append]
        rw [hspelled, members, nextKey_lead hlead]
        dsimp only [bind, Except.bind]
        rw [scanText_escaped]
        dsimp only
        rw [hplace]
        dsimp only
        rw [passColon_gap hbefore]
        dsimp only
        rw [hmember]
        exact hmore

/-- An object is read if its members fill the record. -/
theorem reads_record {name : String} {values : Values βs}
    (hfills : Fills fields fields.blank ms filled) (hclose : fields.close filled = .ok values) :
    Reads (record name fields) (.object ms) values := by
  intro t gap rest hspells hgap hrest
  cases hspells with
  | @object _ t hmembers =>
    have hlength := hmembers.length_le
    have hread : members fields ((t ++ '\x7d' :: rest).length + 1) true fields.blank
        (t ++ '\x7d' :: rest) = .ok (filled, rest) := by
      refine members_spelled hfills hmembers ?_ rest
      rw [List.length_append]
      omega
    have hspelled : '\x7b' :: t ++ ['\x7d'] ++ rest = '\x7b' :: (t ++ '\x7d' :: rest) := by
      rw [List.append_assoc]
      rfl
    rw [hspelled, record, recordAs, skipBlanks_append hgap, skipBlanks_cons rfl]
    show (members fields _ true fields.blank (t ++ '\x7d' :: rest) >>= _) = _
    rw [hread]
    dsimp only [bind, Except.bind]
    rw [hclose]
    rfl

end Records

/-! ## §7. Documents. -/

/-- A document is read from every spelling of it. -/
theorem parse_spelling {α : Type} {scanner : Scanner α} {value : Value} {a : α} {t : List Char}
    (hreads : Reads scanner value a) (hspells : Spells value t) :
    parse scanner (.ofList t) = .ok a := by
  have hread := hreads t [] [] hspells gap_nil ends_nil
  rw [List.nil_append, List.append_nil] at hread
  rw [parse, String.toList_ofList, hread]
  rfl

/-- A document is read from both of its printed forms. -/
theorem parse_written {α : Type} {scanner : Scanner α} {value : Value} {a : α}
    (hreads : Reads scanner value a) (hwritten : Written value) :
    parse scanner value.compact = .ok a ∧ parse scanner value.pretty = .ok a :=
  ⟨parse_spelling hreads hwritten.chars, parse_spelling hreads (hwritten.lines 0)⟩

end Flowprint.Json
