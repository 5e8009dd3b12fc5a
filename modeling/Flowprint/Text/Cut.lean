/-
  Flowprint.Text.Cut
  ────────────────────────────────
  Cutting a text in two at the first or at the last occurrence of a character.

  Main statements:

      cutFirst?_append    a part without the character is cut off in front
      cutLast?_append     a part without the character is cut off behind
-/

namespace Flowprint.Text

/-- The parts of a text before and after the first occurrence of a character. -/
def cutFirst? (c : Char) : List Char → Option (List Char × List Char)
  | [] => none
  | d :: rest =>
    if d = c then some ([], rest)
    else (cutFirst? c rest).map fun (before, after) => (d :: before, after)

/-- The parts of a text before and after the last occurrence of a character. -/
def cutLast? (c : Char) : List Char → Option (List Char × List Char)
  | [] => none
  | d :: rest =>
    match cutLast? c rest with
    | some (before, after) => some (d :: before, after)
    | none => if d = c then some ([], rest) else none

/-- A part without the character is cut off in front. -/
theorem cutFirst?_append {c : Char} {s : List Char} (h : c ∉ s) (t : List Char) :
    cutFirst? c (s ++ c :: t) = some (s, t) := by
  induction s with
  | nil => simp [cutFirst?]
  | cons d s ih =>
    rw [List.mem_cons, not_or] at h
    simp [cutFirst?, ih h.2, Ne.symm h.1]

/-- A text without the character is not cut. -/
theorem cutLast?_eq_none {c : Char} {s : List Char} (h : c ∉ s) : cutLast? c s = none := by
  induction s with
  | nil => rfl
  | cons d s ih =>
    rw [List.mem_cons, not_or] at h
    simp [cutLast?, ih h.2, Ne.symm h.1]

/-- A part without the character is cut off behind. -/
theorem cutLast?_append {c : Char} (s : List Char) {t : List Char} (h : c ∉ t) :
    cutLast? c (s ++ c :: t) = some (s, t) := by
  induction s with
  | nil => simp [cutLast?, cutLast?_eq_none h]
  | cons d s ih => simp [cutLast?, ih]

/-- What is cut off in front is a part of the text. -/
theorem cutFirst?_eq_some {c : Char} {s before after : List Char}
    (h : cutFirst? c s = some (before, after)) : s = before ++ c :: after := by
  induction s generalizing before with
  | nil => exact absurd h (by simp [cutFirst?])
  | cons d s ih =>
    rw [cutFirst?] at h
    split at h
    next hd =>
      obtain ⟨rfl, rfl⟩ := Prod.mk.inj (Option.some.inj h)
      rw [hd, List.nil_append]
    next =>
      obtain ⟨⟨before, after⟩, hcut, heq⟩ := Option.map_eq_some_iff.mp h
      obtain ⟨rfl, rfl⟩ := Prod.mk.inj heq
      rw [ih hcut, List.cons_append]

/-- What is cut off behind is a part of the text. -/
theorem cutLast?_eq_some {c : Char} {s before after : List Char}
    (h : cutLast? c s = some (before, after)) : s = before ++ c :: after := by
  induction s generalizing before with
  | nil => exact absurd h (by simp [cutLast?])
  | cons d s ih =>
    rw [cutLast?] at h
    split at h
    next before after hcut =>
      obtain ⟨rfl, rfl⟩ := Prod.mk.inj (Option.some.inj h)
      rw [ih hcut, List.cons_append]
    next =>
      split at h
      next hd =>
        obtain ⟨rfl, rfl⟩ := Prod.mk.inj (Option.some.inj h)
        rw [hd, List.nil_append]
      next => exact absurd h (by simp)

end Flowprint.Text
