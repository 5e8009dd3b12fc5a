/-
  Flowprint.Proofs.Metadata.Lines
  ────────────────────────────────
  Annotations written as lines and read back.

  Only the file name of a line may have blanks in it.  The four other fields have none, so that the
  cuts at the first blank and at the last three fall around the file name, whatever it is: empty,
  all blanks, or itself like the fields behind it.  A line begins with a digit and ends with a
  letter, so that trimming leaves the blanks of the file name alone.

  Main statements:

      readLine?_line       a line is read as the entry it was written for
      parse_render         annotations are read back, if their file names are single lines
      oneLine_of_parse     annotations that are read have such file names
-/
import Flowprint.Metadata.Line
import Flowprint.Proofs.Map
import Flowprint.Proofs.Text.Digits

namespace Flowprint.Annotations

open Std

/-! ## §1. Fields. -/

/-- A field with neither a blank nor a line feed in it. -/
def Plain (field : List Char) : Prop :=
  ' ' ∉ field ∧ '\n' ∉ field

theorem plain_digits (n : Nat) : Plain (Nat.toDigits 16 n) := by
  have hdigit : ∀ d < 16, Nat.digitChar d ≠ ' ' ∧ Nat.digitChar d ≠ '\n' := by decide
  constructor
  · intro h
    obtain ⟨d, hd, heq⟩ := Text.Radix.mem_toDigits (by decide) h
    exact (hdigit d hd).1 heq.symm
  · intro h
    obtain ⟨d, hd, heq⟩ := Text.Radix.mem_toDigits (by decide) h
    exact (hdigit d hd).2 heq.symm

set_option maxRecDepth 4000 in
theorem plain_name (name : String) : Plain (encodedName name) := by
  have hsextet : ∀ d < 64, Text.Base64.sextetChar d ≠ ' ' ∧ Text.Base64.sextetChar d ≠ '\n' := by
    decide
  constructor
  · intro h
    rcases Text.Base64.mem_encode h with heq | ⟨d, hd, heq⟩
    · exact absurd heq (by decide)
    · exact (hsextet d hd).1 heq.symm
  · intro h
    rcases Text.Base64.mem_encode h with heq | ⟨d, hd, heq⟩
    · exact absurd heq (by decide)
    · exact (hsextet d hd).2 heq.symm

theorem plain_flag (b : Bool) : Plain (flagText b) := by
  cases b with
  | true => exact ⟨by decide, by decide⟩
  | false => exact ⟨by decide, by decide⟩

theorem readWord?_toDigits (a : UInt64) : readWord? (Nat.toDigits 16 a.toNat) = some a := by
  have hread : Text.Radix.read 16 UInt64.size (Nat.toDigits 16 a.toNat) = .ok a.toNat :=
    Text.Radix.read_toDigits (by decide) (by decide) a.toNat_lt
  rw [readWord?, hread]
  show some (UInt64.ofNat a.toNat) = some a
  rw [UInt64.ofNat_toNat]

theorem readFlag?_flagText (b : Bool) : readFlag? (flagText b) = some b := by
  cases b with
  | true => rfl
  | false => rfl

/-- A name is read back, whatever it is: no name is taken for another. -/
theorem readName_encodedName (name : String) : readName (encodedName name) = name := by
  rw [readName, encodedName, Text.Base64.decode?_encode, Option.bind_some, Text.ofBytes?_bytesOf,
    Option.getD_some]

/-! ## §2. Lines. -/

section Lines

variable {key : FunctionKey} {metadata : Metadata}

/-- A line is read as the entry it was written for. -/
theorem readLine?_line : readLine? (line key metadata) = some (key, metadata) := by
  have hline : line key metadata = Nat.toDigits 16 key.executable.toNat ++ ' ' ::
      (metadata.fileName.toList ++ ' ' :: Nat.toDigits 16 key.address.toNat
        ++ ' ' :: encodedName metadata.functionName ++ ' ' :: flagText metadata.vulnerable) := by
    simp only [line, List.append_assoc, List.cons_append]
  rw [readLine?, hline, Text.cutFirst?_append (plain_digits _).1]
  dsimp only [bind, Option.bind]
  rw [Text.cutLast?_append _ (plain_flag _).1]
  dsimp only
  rw [Text.cutLast?_append _ (plain_name _).1]
  dsimp only
  rw [Text.cutLast?_append _ (plain_digits _).1]
  dsimp only
  rw [readWord?_toDigits, readWord?_toDigits, readFlag?_flagText, readName_encodedName,
    String.ofList_toList]
  rfl

/-- A line begins with a digit and ends with a letter. -/
theorem line_eq_cons_concat (key : FunctionKey) (metadata : Metadata) :
    ∃ c middle, line key metadata = c :: (middle ++ ['e']) ∧ Text.isBlank c = false := by
  obtain ⟨front, hflag⟩ : ∃ front, flagText metadata.vulnerable = front ++ ['e'] := by
    cases metadata.vulnerable with
    | true => exact ⟨['t', 'r', 'u'], rfl⟩
    | false => exact ⟨['f', 'a', 'l', 's'], rfl⟩
  cases hdigits : Nat.toDigits 16 key.executable.toNat with
  | nil => exact absurd hdigits Nat.toDigits_ne_nil
  | cons c digits =>
    refine ⟨c, digits ++ ' ' :: metadata.fileName.toList
      ++ ' ' :: Nat.toDigits 16 key.address.toNat ++ ' ' :: encodedName metadata.functionName
      ++ ' ' :: front, ?_, ?_⟩
    · simp only [line, hdigits, hflag, List.cons_append, List.append_assoc]
    · have hmem : c ∈ Nat.toDigits 16 key.executable.toNat := by
        rw [hdigits]
        exact List.mem_cons_self
      obtain ⟨d, hd, rfl⟩ := Text.Radix.mem_toDigits (by decide) hmem
      have hall : ∀ d < 16, Text.isBlank (Nat.digitChar d) = false := by decide
      exact hall d hd

theorem trim_line : Text.trim (line key metadata) = line key metadata := by
  obtain ⟨c, middle, heq, hblank⟩ := line_eq_cons_concat key metadata
  rw [heq]
  exact Text.trim_eq_self hblank (by decide)

theorem dropReturn_line : Text.dropReturn (line key metadata) = line key metadata := by
  obtain ⟨c, middle, heq, -⟩ := line_eq_cons_concat key metadata
  rw [heq, Text.dropReturn, ← List.cons_append, List.getLast?_concat]
  rfl

theorem not_mem_line (h : '\n' ∉ metadata.fileName.toList) : '\n' ∉ line key metadata := by
  simp only [line, List.mem_append, List.mem_cons, not_or]
  exact ⟨⟨⟨⟨(plain_digits _).2, by decide, h⟩, by decide, (plain_digits _).2⟩, by decide,
    (plain_name _).2⟩, by decide, (plain_flag _).2⟩

end Lines

/-! ## §3. Whole texts. -/

/-- Annotations whose file names have no line feed in them. -/
def OneLine (annotations : Annotations) : Prop :=
  ∀ (key : FunctionKey) (metadata : Metadata), annotations[key]? = some metadata →
    '\n' ∉ metadata.fileName.toList

/-- Written lines are read as the entries that they were written for, one after the other. -/
theorem readLines_lines {entries : List (FunctionKey × Metadata)} {number : Nat}
    {annotations : Annotations} (h : ∀ entry ∈ entries, '\n' ∉ entry.2.fileName.toList) :
    readLines number
        (Text.lines (entries.flatMap fun (key, metadata) => line key metadata ++ ['\n'])) annotations
      = .ok (annotations.insertMany entries) := by
  rw [ExtTreeMap.insertMany_list_eq_foldl]
  induction entries generalizing number annotations with
  | nil => rfl
  | cons entry rest ih =>
    obtain ⟨key, metadata⟩ := entry
    have hone : '\n' ∉ line key metadata := not_mem_line (h _ List.mem_cons_self)
    have hsome : (line key metadata).isEmpty = false := by
      obtain ⟨c, middle, heq, -⟩ := line_eq_cons_concat key metadata
      rw [heq]
      rfl
    rw [List.flatMap_cons, List.append_assoc, List.singleton_append, Text.lines_append hone,
      dropReturn_line, readLines]
    dsimp only
    rw [trim_line, hsome, if_neg Bool.false_ne_true, readLine?_line]
    exact ih fun entry hmem => h entry (List.mem_cons_of_mem _ hmem)

/-- The entries of annotations take the places of those before them. -/
theorem getElem?_insertMany_toList (old new : Annotations) (key : FunctionKey) :
    (old.insertMany new.toList)[key]? = new[key]?.or old[key]? := by
  cases hnew : new[key]? with
  | some metadata =>
    exact ExtTreeMap.getElem?_insertMany_list_of_mem (Std.compare_eq_iff_eq.mpr rfl)
      ExtTreeMap.distinct_keys_toList (ExtTreeMap.mem_toList_iff_getElem?_eq_some.mpr hnew)
  | none =>
    refine ExtTreeMap.getElem?_insertMany_list_of_contains_eq_false ?_
    rw [Bool.eq_false_iff, ne_eq, List.contains_iff_mem]
    intro hmem
    obtain ⟨⟨other, metadata⟩, hentry, rfl⟩ := List.mem_map.mp hmem
    rw [ExtTreeMap.mem_toList_iff_getElem?_eq_some, hnew] at hentry
    exact absurd hentry (by simp)

/-- Annotations are read back, if their file names are single lines. -/
theorem parse_render {annotations : Annotations} (h : OneLine annotations) :
    parse (render annotations) = .ok annotations := by
  have hentries : ∀ entry ∈ annotations.toList, '\n' ∉ entry.2.fileName.toList := by
    intro entry hmem
    exact h entry.1 entry.2 (ExtTreeMap.mem_toList_iff_getElem?_eq_some.mp hmem)
  rw [parse, render, String.toList_ofList, readLines_lines hentries,
    Map.insertMany_toList]

/-! ## §4. What is read. -/

theorem not_mem_readLine? {raw : List Char} {key : FunctionKey} {metadata : Metadata}
    (h : readLine? raw = some (key, metadata)) (hraw : '\n' ∉ raw) :
    '\n' ∉ metadata.fileName.toList := by
  unfold readLine? at h
  simp only [Option.bind_eq_bind, Option.bind_eq_some_iff, Option.pure_def, Option.some.injEq,
    Prod.exists, Prod.mk.injEq] at h
  obtain ⟨executable, rest, hfirst, tail, flag, hflag, tail', name, hname, fileName, address,
    haddress, _, -, _, -, _, -, -, rfl⟩ := h
  intro hmem
  rw [String.toList_ofList] at hmem
  -- the file name is a part of the line
  rw [Text.cutFirst?_eq_some hfirst, Text.cutLast?_eq_some hflag, Text.cutLast?_eq_some hname,
    Text.cutLast?_eq_some haddress] at hraw
  simp [hmem] at hraw

theorem oneLine_insert {annotations : Annotations} {key : FunctionKey} {metadata : Metadata}
    (h : OneLine annotations) (hname : '\n' ∉ metadata.fileName.toList) :
    OneLine (annotations.insert key metadata) := by
  intro other found hfound
  rw [ExtTreeMap.getElem?_insert] at hfound
  split at hfound
  · rwa [← Option.some.inj hfound]
  · exact h other found hfound

theorem oneLine_of_readLines {number : Nat} {lines : List (List Char)}
    {annotations found : Annotations} (hlines : ∀ raw ∈ lines, '\n' ∉ raw)
    (h : OneLine annotations) (hread : readLines number lines annotations = .ok found) :
    OneLine found := by
  induction lines generalizing number annotations with
  | nil => rwa [← Except.ok.inj hread]
  | cons raw rest ih =>
    have hrest : ∀ raw ∈ rest, '\n' ∉ raw :=
      fun raw hmem => hlines raw (List.mem_cons_of_mem _ hmem)
    rw [readLines] at hread
    split at hread
    · exact ih hrest h hread
    · split at hread
      · exact absurd hread (by simp)
      next key metadata hline =>
        have hname := not_mem_readLine? hline fun hmem =>
          hlines raw List.mem_cons_self (Text.mem_trim hmem)
        exact ih hrest (oneLine_insert h hname) hread

theorem oneLine_empty : OneLine ∅ := by
  intro key metadata h
  rw [ExtTreeMap.getElem?_empty] at h
  exact absurd h (by simp)

/-- Annotations that are read have single lines for file names. -/
theorem oneLine_of_parse {text : String} {found : Annotations} (h : parse text = .ok found) :
    OneLine found :=
  oneLine_of_readLines (fun _ hmem => Text.mem_lines hmem) oneLine_empty h

end Flowprint.Annotations
