/-
  Flowprint.Proofs.Json.Spelling
  ────────────────────────────────
  The texts that a JSON document may be written as.

  Between the parts of a document there may be blanks, so that one document has many spellings.
  The two printed forms are spellings: what is shown of every spelling holds of both.

  Numbers with a fraction are left out.

  Main statements:

      written_list        a list is printed as one of its spellings if its items are
      written_object      and so is an object
-/
import Flowprint.Json.Scan
import Flowprint.Json.Value

namespace Flowprint.Json

/-! ## §1. Blanks between parts. -/

/-- Nothing but blanks. -/
def Gap (s : List Char) : Prop :=
  ∀ c ∈ s, isGap c = true

theorem gap_nil : Gap [] := by
  intro c h
  exact absurd h List.not_mem_nil

theorem gap_blank : Gap [' '] := by
  intro c h
  rw [List.mem_singleton.mp h]
  rfl

theorem gap_newLine (level : Nat) : Gap (newLine level) := by
  intro c h
  rcases List.mem_cons.mp h with rfl | hblank
  · rfl
  · rw [List.eq_of_mem_replicate hblank]
    rfl

theorem skipBlanks_cons {c : Char} (h : isGap c = false) (s : List Char) :
    skipBlanks (c :: s) = c :: s := by
  rw [skipBlanks, List.dropWhile_cons, if_neg (by rw [h]; exact Bool.false_ne_true)]

theorem skipBlanks_append {gap : List Char} (h : Gap gap) (s : List Char) :
    skipBlanks (gap ++ s) = skipBlanks s :=
  List.dropWhile_append_of_pos h

/-- What stands in front of an item: blanks, with a comma among them unless the item is the
first. -/
inductive Lead : Bool → List Char → Prop
  | first {gap : List Char} (h : Gap gap) : Lead true gap
  | more {before after : List Char} (hbefore : Gap before) (hafter : Gap after) :
    Lead false (before ++ ',' :: after)

/-- The comma in front of an item other than the first. -/
def comma (first : Bool) : List Char :=
  if first then [] else [',']

theorem lead_comma {gap : List Char} (h : Gap gap) (first : Bool) :
    Lead first (comma first ++ gap) := by
  cases first with
  | true => exact .first h
  | false => exact .more gap_nil h

/-! ## §2. Spellings. -/

mutual

/-- The texts that a document may be written as. -/
inductive Spells : Value → List Char → Prop
  | null : Spells .null ['n', 'u', 'l', 'l']
  | bool_true : Spells (.bool true) ['t', 'r', 'u', 'e']
  | bool_false : Spells (.bool false) ['f', 'a', 'l', 's', 'e']
  | int (n : Int) : Spells (.int n) (intText n)
  | text (s : String) : Spells (.text s) (quotedText s)
  | list {items : List Value} {t : List Char} (h : SpellsItems true items t) :
    Spells (.list items) ('[' :: t ++ [']'])
  | object {members : List (String × Value)} {t : List Char} (h : SpellsMembers true members t) :
    Spells (.object members) ('\x7b' :: t ++ ['\x7d'])

/-- The texts of items up to the end of their list; the first item has no comma in front. -/
inductive SpellsItems : Bool → List Value → List Char → Prop
  | done {first : Bool} {gap : List Char} (h : Gap gap) : SpellsItems first [] gap
  | item {first : Bool} {value : Value} {rest : List Value} {lead t tail : List Char}
    (hlead : Lead first lead) (hvalue : Spells value t) (hrest : SpellsItems false rest tail) :
    SpellsItems first (value :: rest) (lead ++ t ++ tail)

/-- The texts of members up to the end of their object; the first has no comma in front. -/
inductive SpellsMembers : Bool → List (String × Value) → List Char → Prop
  | done {first : Bool} {gap : List Char} (h : Gap gap) : SpellsMembers first [] gap
  | member {first : Bool} {key : String} {value : Value} {rest : List (String × Value)}
    {lead before after t tail : List Char} (hlead : Lead first lead) (hbefore : Gap before)
    (hafter : Gap after) (hvalue : Spells value t) (hrest : SpellsMembers false rest tail) :
    SpellsMembers first ((key, value) :: rest)
      (lead ++ quotedText key ++ (before ++ ':' :: after) ++ t ++ tail)

end

/-! ## §3. The printed forms. -/

/-- A document whose printed forms are spellings of it. -/
structure Written (value : Value) : Prop where
  chars : Spells value value.chars
  lines : ∀ level, Spells value (value.lines level)

theorem written_int (n : Int) : Written (.int n) where
  chars := by
    rw [Value.chars]
    exact .int n
  lines := by
    intro level
    rw [Value.lines, Value.chars]
    · exact .int n
    all_goals simp

theorem written_text (s : String) : Written (.text s) where
  chars := by
    rw [Value.chars]
    exact .text s
  lines := by
    intro level
    rw [Value.lines, Value.chars]
    · exact .text s
    all_goals simp

section Items

variable {items : List Value}

/-- Items are spelled if each is printed as a spelling, behind blanks and with commas between. -/
theorem spellsItems_printed (print : Value → List Char) (all : List Value → List Char)
    {before gap : List Char} (hone : ∀ item, all [item] = before ++ print item)
    (hmore : ∀ item next rest,
      all (item :: next :: rest) = before ++ print item ++ ',' :: all (next :: rest))
    (hbefore : Gap before) (hgap : Gap gap) (h : ∀ item ∈ items, Spells item (print item))
    (first : Bool) (hsome : items ≠ []) :
    SpellsItems first items (comma first ++ all items ++ gap) := by
  induction items generalizing first with
  | nil => exact absurd rfl hsome
  | cons item rest ih =>
    have hlead := lead_comma hbefore first
    have hitem := h item List.mem_cons_self
    cases rest with
    | nil =>
      have hspells := SpellsItems.item hlead hitem (.done hgap)
      rw [hone, ← List.append_assoc]
      exact hspells
    | cons next rest =>
      have hrest := ih (fun item hmem => h item (List.mem_cons_of_mem _ hmem)) false (by simp)
      have hspells := SpellsItems.item hlead hitem hrest
      rw [hmore]
      simpa [comma] using hspells

/-- A list is printed as one of its spellings if its items are. -/
theorem written_list (h : ∀ item ∈ items, Written item) : Written (.list items) where
  chars := by
    rw [Value.chars]
    cases items with
    | nil => exact .list (.done gap_nil)
    | cons item rest =>
      have hspells := spellsItems_printed Value.chars itemChars (fun item => by simp [itemChars])
        (fun item next rest => by simp [itemChars]) gap_nil gap_nil
        (fun item hmem => (h item hmem).chars) true (by simp)
      rw [List.append_nil] at hspells
      exact .list hspells
  lines := by
    intro level
    cases items with
    | nil =>
      rw [Value.lines]
      exact .list (.done gap_nil)
    | cons item rest =>
      have hspells := spellsItems_printed (Value.lines (level + 1)) (itemLines (level + 1))
        (fun item => by simp [itemLines]) (fun item next rest => by simp [itemLines])
        (gap_newLine (level + 1)) (gap_newLine level)
        (fun item hmem => (h item hmem).lines (level + 1)) true (by simp)
      rw [Value.lines]
      · exact .list hspells
      · simp

end Items

section Members

variable {members : List (String × Value)}

/-- Members are spelled if each value is printed as a spelling, behind its key and a colon. -/
theorem spellsMembers_printed (print : Value → List Char) (all : List (String × Value) → List Char)
    {before after gap : List Char}
    (hone : ∀ key value,
      all [(key, value)] = before ++ quotedText key ++ ':' :: after ++ print value)
    (hmore : ∀ key value next rest, all ((key, value) :: next :: rest)
      = before ++ quotedText key ++ ':' :: after ++ print value ++ ',' :: all (next :: rest))
    (hbefore : Gap before) (hafter : Gap after) (hgap : Gap gap)
    (h : ∀ member ∈ members, Spells member.2 (print member.2)) (first : Bool)
    (hsome : members ≠ []) :
    SpellsMembers first members (comma first ++ all members ++ gap) := by
  induction members generalizing first with
  | nil => exact absurd rfl hsome
  | cons member rest ih =>
    obtain ⟨key, value⟩ := member
    have hlead := lead_comma hbefore first
    have hvalue := h (key, value) List.mem_cons_self
    cases rest with
    | nil =>
      have hspells : SpellsMembers first [(key, value)] _ :=
        .member hlead gap_nil hafter hvalue (.done hgap)
      rw [hone]
      simpa using hspells
    | cons next rest =>
      have hrest := ih (fun member hmem => h member (List.mem_cons_of_mem _ hmem)) false (by simp)
      have hspells : SpellsMembers first ((key, value) :: next :: rest) _ :=
        .member hlead gap_nil hafter hvalue hrest
      rw [hmore]
      simpa [comma] using hspells

/-- An object is printed as one of its spellings if its values are. -/
theorem written_object (h : ∀ member ∈ members, Written member.2) : Written (.object members) where
  chars := by
    rw [Value.chars]
    cases members with
    | nil => exact .object (.done gap_nil)
    | cons member rest =>
      have hspells := spellsMembers_printed Value.chars memberChars
        (fun key value => by simp [memberChars])
        (fun key value next rest => by simp [memberChars]) gap_nil gap_nil gap_nil
        (fun member hmem => (h member hmem).chars) true (by simp)
      rw [List.append_nil] at hspells
      exact .object hspells
  lines := by
    intro level
    cases members with
    | nil =>
      rw [Value.lines]
      exact .object (.done gap_nil)
    | cons member rest =>
      have hspells := spellsMembers_printed (Value.lines (level + 1)) (memberLines (level + 1))
        (fun key value => by simp [memberLines])
        (fun key value next rest => by simp [memberLines]) (gap_newLine (level + 1)) gap_blank
        (gap_newLine level) (fun member hmem => (h member hmem).lines (level + 1)) true (by simp)
      rw [Value.lines]
      · exact .object hspells
      · simp

end Members

end Flowprint.Json
