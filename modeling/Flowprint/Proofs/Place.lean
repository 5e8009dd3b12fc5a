/-
  Flowprint.Proofs.Place
  ────────────────────────────────
  Paths with something more at their end.

  With a few characters more at its end a path takes the same steps, but for the last one, which goes
  to a longer name.  So the two paths lead through the same directories, and to different places.  With
  a slash more it takes one step more, to nowhere.

  Main statements:

      steps_append        the steps of a longer path
      steps_slash         the steps of a path with a slash behind it
      step_ne_concat      a longer name is at another place
-/
import Flowprint.Place

namespace Flowprint.Place

/-! ## §1. Steps. -/

theorem steps_root {path : String} {rest : List Char} (h : path.toList = '/' :: rest) :
    steps path = "/" :: (Text.pieces (· == '/') rest).map String.ofList := by
  unfold steps
  rw [h]
  rfl

theorem steps_name {path : String} (h : path.toList.head? ≠ some '/') :
    steps path = (Text.pieces (· == '/') path.toList).map String.ofList := by
  unfold steps
  split
  next rest hroot => exact absurd (by rw [hroot]; rfl) h
  next => rfl

/-- With more characters at the end of a path only its last step is longer. -/
theorem steps_append (path : String) {more : String} (h : '/' ∉ more.toList) :
    ∃ front name, steps path = front ++ [name] ∧ steps (path ++ more) = front ++ [name ++ more] := by
  have hmore : ∀ c ∈ more.toList, (c == '/') = false := by
    intro c hc
    rw [beq_eq_false_iff_ne]
    rintro rfl
    exact h hc
  have hpieces : ∀ chars, ∃ front name,
      (Text.pieces (· == '/') chars).map String.ofList = front ++ [name]
        ∧ (Text.pieces (· == '/') (chars ++ more.toList)).map String.ofList
          = front ++ [name ++ more] := by
    intro chars
    obtain ⟨front, last, hshort, hlong⟩ := Text.pieces_lengthen hmore chars
    refine ⟨front.map String.ofList, String.ofList last, ?_, ?_⟩
    · rw [hshort, List.map_append]
      rfl
    · rw [hlong, List.map_append, List.map_singleton, String.ofList_append, String.ofList_toList]
  by_cases hroot : path.toList.head? = some '/'
  · obtain ⟨rest, hpath⟩ := List.head?_eq_some_iff.mp hroot
    obtain ⟨front, name, hshort, hlong⟩ := hpieces rest
    refine ⟨"/" :: front, name, ?_, ?_⟩
    · rw [steps_root hpath, hshort]
      rfl
    · have hlonger : (path ++ more).toList = '/' :: (rest ++ more.toList) := by
        rw [String.toList_append, hpath]
        rfl
      rw [steps_root hlonger, hlong]
      rfl
  · -- the path may be empty, but what is added has no slash
    have hlonger : (path ++ more).toList.head? ≠ some '/' := by
      rw [String.toList_append, List.head?_append]
      intro hhead
      rcases Option.or_eq_some_iff.mp hhead with hfirst | ⟨-, hfirst⟩
      · exact hroot hfirst
      · exact h (List.mem_of_mem_head? hfirst)
    rw [steps_name hroot, steps_name hlonger, String.toList_append]
    exact hpieces path.toList

/-- A slash behind a path is a step to nowhere. -/
theorem steps_slash {path : String} (h : path ≠ "") : steps (path ++ "/") = steps path ++ [""] := by
  have hpieces : ∀ chars, (Text.pieces (· == '/') (chars ++ ['/'])).map String.ofList
      = (Text.pieces (· == '/') chars).map String.ofList ++ [""] := by
    intro chars
    rw [Text.pieces_concat (by rfl), List.map_append]
    rfl
  by_cases hroot : path.toList.head? = some '/'
  · obtain ⟨rest, hpath⟩ := List.head?_eq_some_iff.mp hroot
    have hlonger : (path ++ "/").toList = '/' :: (rest ++ ['/']) := by
      rw [String.toList_append, hpath]
      rfl
    rw [steps_root hpath, steps_root hlonger, hpieces rest, List.cons_append]
  · -- the slash is not the first character, since the path has one
    have hlonger : (path ++ "/").toList.head? ≠ some '/' := by
      rw [String.toList_append, List.head?_append]
      intro hhead
      rcases Option.or_eq_some_iff.mp hhead with hfirst | ⟨hnone, -⟩
      · exact hroot hfirst
      · exact h (String.toList_eq_nil_iff.mp (List.head?_eq_none_iff.mp hnone))
    rw [steps_name hroot, steps_name hlonger, String.toList_append]
    exact hpieces path.toList

/-! ## §2. Longer names. -/

/-- A longer name is at another place, even if the shorter one is a step up or to nowhere. -/
theorem step_ne_concat (place : Place) {name longer : String} (h : name.length < longer.length) :
    step place name ≠ place ++ [longer] := by
  have hname : ∀ other : String, place ++ [other] = place ++ [longer] → other = longer := by
    intro other heq
    exact List.singleton_inj.mp (List.append_cancel_left heq)
  have hlength : ∀ other : Place, other.length ≤ place.length → other ≠ place ++ [longer] := by
    rintro other hle rfl
    rw [List.length_append, List.length_singleton] at hle
    omega
  unfold step
  split
  next => exact hlength place (Nat.le_refl _)
  next =>
    split
    next hup =>
      unfold above
      split
      next =>
        -- above the working directory a step up goes to a name of its own
        intro heq
        rw [hup, ← hname ".." heq] at h
        exact absurd h (Nat.lt_irrefl _)
      next =>
        split
        next => exact hlength place (Nat.le_refl _)
        next => exact hlength _ (List.dropLast_sublist place).length_le
    next =>
      intro heq
      rw [hname name heq] at h
      exact absurd h (Nat.lt_irrefl _)

end Flowprint.Place
