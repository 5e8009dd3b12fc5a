/-
  Flowprint.Text.Blank
  ────────────────────────────────
  Blank characters, and the three ways in which the line formats of this library cut a text at
  them: trimming both ends, splitting into words, splitting into lines.

  A blank is a character of the Unicode property White_Space.  A line ends at a line feed, and a
  carriage return directly before that line feed belongs to the line's end.

  Main statements:

      dropBlankEnd_append   nothing but blanks is lost at the end of a text
      trim_eq_self          a text without blank ends is its own trimming
      pieces_lengthen       what holds no cut lengthens the last piece
      lines_append          a line is cut off at its line feed
      mem_lines             no line has a line feed in it
-/

namespace Flowprint.Text

/-! ## §1. The class. -/

/-- The characters with the property White_Space. -/
def isBlank (c : Char) : Bool :=
  let n := c.toNat
  (9 ≤ n && n ≤ 13) || n == 0x20 || n == 0x85 || n == 0xa0 || n == 0x1680
    || (0x2000 ≤ n && n ≤ 0x200a) || n == 0x2028 || n == 0x2029 || n == 0x202f
    || n == 0x205f || n == 0x3000

/-! ## §2. Trimming. -/

/-- A text without its trailing blanks. -/
def dropBlankEnd : List Char → List Char
  | [] => []
  | c :: rest =>
    match dropBlankEnd rest with
    | [] => if isBlank c then [] else [c]
    | kept => c :: kept

/-- A text without its leading and its trailing blanks. -/
def trim (s : List Char) : List Char :=
  dropBlankEnd (s.dropWhile isBlank)

/-- What `dropBlankEnd` removes is a run of blanks. -/
theorem dropBlankEnd_append (s : List Char) :
    ∃ blanks, s = dropBlankEnd s ++ blanks ∧ ∀ c ∈ blanks, isBlank c = true := by
  induction s with
  | nil => exact ⟨[], rfl, by simp⟩
  | cons c rest ih =>
    obtain ⟨blanks, hrest, hblank⟩ := ih
    rw [dropBlankEnd]
    split
    next hnil =>
      rw [hnil, List.nil_append] at hrest
      by_cases hc : isBlank c = true
      · exact ⟨c :: rest, by simp [hc], by simpa [hc, hrest] using hblank⟩
      · exact ⟨rest, by simp [hc], by simpa [hrest] using hblank⟩
    next => exact ⟨blanks, congrArg (c :: ·) hrest, hblank⟩

/-- A text that ends in a character other than a blank keeps its end. -/
theorem dropBlankEnd_concat (s : List Char) {c : Char} (h : isBlank c = false) :
    dropBlankEnd (s ++ [c]) = s ++ [c] := by
  induction s with
  | nil => simp [dropBlankEnd, h]
  | cons d rest ih =>
    rw [List.cons_append, dropBlankEnd, ih]
    cases rest <;> rfl

/-- A text that neither begins nor ends with a blank is its own trimming. -/
theorem trim_eq_self {c d : Char} {s : List Char} (hc : isBlank c = false)
    (hd : isBlank d = false) : trim (c :: (s ++ [d])) = c :: (s ++ [d]) := by
  rw [trim, List.dropWhile_cons, if_neg (by simp [hc])]
  exact dropBlankEnd_concat (c :: s) hd

/-- A text that begins with a character other than a blank keeps its beginning. -/
theorem trim_cons {c : Char} (h : isBlank c = false) (s : List Char) :
    ∃ rest, trim (c :: s) = c :: rest := by
  rw [trim, List.dropWhile_cons, if_neg (by simp [h]), dropBlankEnd]
  split
  · exact ⟨[], by simp [h]⟩
  · exact ⟨_, rfl⟩

theorem mem_trim {c : Char} {s : List Char} (h : c ∈ trim s) : c ∈ s := by
  obtain ⟨blanks, heq, -⟩ := dropBlankEnd_append (s.dropWhile isBlank)
  have hmem : c ∈ s.dropWhile isBlank := by
    rw [heq]
    exact List.mem_append_left _ h
  exact (List.dropWhile_sublist _).mem hmem

/-! ## §3. Words and lines. -/

/-- Prefix the first word of a list of words with one more character. -/
private def extendFirst (c : Char) : List (List Char) → List (List Char)
  | [] => [[c]]
  | word :: words => (c :: word) :: words

/-- The pieces of a text between characters of a class, empty pieces included. -/
def pieces (cut : Char → Bool) : List Char → List (List Char)
  | [] => [[]]
  | c :: rest => if cut c then [] :: pieces cut rest else extendFirst c (pieces cut rest)

/-- The maximal runs of characters other than blanks. -/
def words (s : List Char) : List (List Char) :=
  (pieces isBlank s).filter (! ·.isEmpty)

/-- One line without the carriage return that closes it. -/
def dropReturn (line : List Char) : List Char :=
  if line.getLast? = some '\r' then line.dropLast else line

/-- Strip the carriage return of every piece that a line feed closes; the piece after the last
line feed counts as a line only if it is not empty, and keeps its carriage return. -/
private def closeLines : List (List Char) → List (List Char)
  | [] => []
  | [last] => if last.isEmpty then [] else [last]
  | line :: next :: rest => dropReturn line :: closeLines (next :: rest)

/-- The lines of a text. -/
def lines (s : List Char) : List (List Char) :=
  closeLines (pieces (· == '\n') s)

/-! ## §4. Laws of lines. -/

/-- A piece is cut off at the first character of the class. -/
theorem pieces_append {cut : Char → Bool} {piece : List Char} {c : Char}
    (h : ∀ d ∈ piece, cut d = false) (hc : cut c = true) (rest : List Char) :
    pieces cut (piece ++ c :: rest) = piece :: pieces cut rest := by
  induction piece with
  | nil => rw [List.nil_append, pieces, if_pos hc]
  | cons d piece ih =>
    rw [List.cons_append, pieces, h d List.mem_cons_self, if_neg Bool.false_ne_true,
      ih fun d hd => h d (List.mem_cons_of_mem _ hd)]
    rfl

/-- A text without a cut is one piece. -/
theorem pieces_eq_self {cut : Char → Bool} {s : List Char} (h : ∀ c ∈ s, cut c = false) :
    pieces cut s = [s] := by
  induction s with
  | nil => rfl
  | cons c s ih =>
    rw [pieces, h c List.mem_cons_self, if_neg Bool.false_ne_true,
      ih fun d hd => h d (List.mem_cons_of_mem _ hd)]
    rfl

/-- Characters other than those of the class lengthen the last piece. -/
theorem pieces_lengthen {cut : Char → Bool} {more : List Char} (h : ∀ c ∈ more, cut c = false)
    (s : List Char) : ∃ front last, pieces cut s = front ++ [last]
      ∧ pieces cut (s ++ more) = front ++ [last ++ more] := by
  induction s with
  | nil => exact ⟨[], [], rfl, pieces_eq_self h⟩
  | cons c s ih =>
    obtain ⟨front, last, hs, hmore⟩ := ih
    rw [List.cons_append, pieces, pieces, hs, hmore]
    split
    · exact ⟨[] :: front, last, rfl, rfl⟩
    · -- the first piece is the last one if there is no other
      cases front with
      | nil => exact ⟨[], c :: last, rfl, rfl⟩
      | cons first front => exact ⟨(c :: first) :: front, last, rfl, rfl⟩

theorem pieces_ne_nil (cut : Char → Bool) (s : List Char) : pieces cut s ≠ [] := by
  cases s with
  | nil => exact List.cons_ne_nil _ _
  | cons c s =>
    rw [pieces]
    split
    · exact List.cons_ne_nil _ _
    · cases pieces cut s with
      | nil => exact List.cons_ne_nil _ _
      | cons piece pieces => exact List.cons_ne_nil _ _

/-- A character of the class at the end cuts off an empty piece. -/
theorem pieces_concat {cut : Char → Bool} {c : Char} (hc : cut c = true) (s : List Char) :
    pieces cut (s ++ [c]) = pieces cut s ++ [[]] := by
  induction s with
  | nil => exact if_pos hc
  | cons d s ih =>
    rw [List.cons_append, pieces, pieces, ih]
    split
    · rfl
    · cases hpieces : pieces cut s with
      | nil => exact absurd hpieces (pieces_ne_nil cut s)
      | cons first rest => rfl

theorem mem_pieces {cut : Char → Bool} {s piece : List Char} {c : Char}
    (h : piece ∈ pieces cut s) (hc : c ∈ piece) : cut c = false := by
  induction s generalizing piece with
  | nil =>
    rw [List.mem_singleton.mp h] at hc
    exact absurd hc List.not_mem_nil
  | cons d s ih =>
    rw [pieces] at h
    split at h
    next =>
      rcases List.mem_cons.mp h with rfl | hrest
      · exact absurd hc List.not_mem_nil
      · exact ih hrest hc
    next hd =>
      cases hpieces : pieces cut s with
      | nil => exact absurd hpieces (pieces_ne_nil cut s)
      | cons first others =>
        rw [hpieces, extendFirst] at h
        rw [hpieces] at ih
        rcases List.mem_cons.mp h with rfl | hrest
        · rcases List.mem_cons.mp hc with rfl | hold
          · exact Bool.eq_false_iff.mpr hd
          · exact ih List.mem_cons_self hold
        · exact ih (List.mem_cons_of_mem _ hrest) hc

theorem dropReturn_cons {c : Char} (h : c ≠ '\r') (line : List Char) :
    ∃ rest, dropReturn (c :: line) = c :: rest := by
  unfold dropReturn
  split
  next hlast =>
    cases line with
    | nil => exact absurd (Option.some.inj hlast) h
    | cons d line => exact ⟨_, List.dropLast_cons_cons⟩
  next => exact ⟨line, rfl⟩

theorem mem_dropReturn {line : List Char} {c : Char} (h : c ∈ dropReturn line) : c ∈ line := by
  rw [dropReturn] at h
  split at h
  · exact (List.dropLast_sublist line).mem h
  · exact h

theorem mem_closeLines {pieces : List (List Char)} {line : List Char}
    (h : line ∈ closeLines pieces) : ∃ piece ∈ pieces, ∀ c ∈ line, c ∈ piece := by
  fun_induction closeLines pieces with
  | case1 => exact absurd h List.not_mem_nil
  | case2 last hempty => exact absurd h List.not_mem_nil
  | case3 last hsome => exact ⟨last, List.mem_cons_self, by rw [List.mem_singleton.mp h]; simp⟩
  | case4 first next rest ih =>
    rcases List.mem_cons.mp h with rfl | hrest
    · exact ⟨first, List.mem_cons_self, fun c => mem_dropReturn⟩
    · obtain ⟨piece, hmem, hsub⟩ := ih hrest
      exact ⟨piece, List.mem_cons_of_mem _ hmem, hsub⟩

/-- A line is cut off at its line feed. -/
theorem lines_append {line : List Char} (h : '\n' ∉ line) (rest : List Char) :
    lines (line ++ '\n' :: rest) = dropReturn line :: lines rest := by
  have hline : ∀ d ∈ line, (d == '\n') = false := by
    intro d hd
    rw [beq_eq_false_iff_ne]
    rintro rfl
    exact h hd
  rw [lines, pieces_append hline (beq_self_eq_true '\n')]
  cases hrest : pieces (· == '\n') rest with
  | nil => exact absurd hrest (pieces_ne_nil _ _)
  | cons next others =>
    rw [closeLines, lines, hrest]

/-- No line has a line feed in it. -/
theorem mem_lines {s line : List Char} (h : line ∈ lines s) : '\n' ∉ line := by
  intro hfeed
  obtain ⟨piece, hmem, hsub⟩ := mem_closeLines h
  exact absurd (mem_pieces hmem (hsub _ hfeed)) (by decide)

end Flowprint.Text
