/-
  Flowprint.Proofs.Graph.Search
  ────────────────────────────────
  What the search by levels finds: the blocks at the end of walks, each with the length of a shortest
  one.

  The invariant of a round is `AtLevel`: the blocks found so far are those within the current number
  of hops, and the blocks of the last round are those at exactly that number.

  Main statements:

      getElem?_discover     what one round notes
      atLevel_discover      one round brings the search one level further
      getElem?_within       the search finds shortest lengths
-/
import Flowprint.Graph.Distance

namespace Flowprint.Flowgraph

open Std

/-! ## §1. Walks. -/

/-- A block is at the end of a walk of so many hops. -/
inductive Walk (next : Address → List Address) (start : Address) : Nat → Address → Prop
  | here : Walk next start 0 start
  | hop {n : Nat} {a b : Address} (h : Walk next start n a) (hb : b ∈ next a) :
    Walk next start (n + 1) b

/-- The length of a shortest walk. -/
def IsDistance (next : Address → List Address) (start a : Address) (d : Nat) : Prop :=
  Walk next start d a ∧ ∀ n < d, ¬ Walk next start n a

section Walks

variable {next : Address → List Address} {start a : Address} {d n : Nat}

theorem isDistance_zero : IsDistance next start a 0 ↔ a = start := by
  constructor
  · intro hboth
    obtain ⟨hwalk, -⟩ := hboth
    cases hwalk
    rfl
  · intro heq
    obtain rfl := heq
    exact ⟨.here, fun n hn => absurd hn (Nat.not_lt_zero n)⟩

theorem isDistance_unique (h : IsDistance next start a d) (h' : IsDistance next start a n) :
    d = n := by
  have hle : ¬ n < d := fun hlt => h.2 n hlt h'.1
  have hge : ¬ d < n := fun hlt => h'.2 d hlt h.1
  omega

/-- Where there is a walk there is a shortest one. -/
theorem exists_isDistance (h : Walk next start n a) : ∃ d ≤ n, IsDistance next start a d := by
  -- by strong induction: either this walk is a shortest one, or a shorter one is at hand
  induction n using Nat.strongRecOn with
  | ind n ih =>
    by_cases hshorter : ∃ m < n, Walk next start m a
    · obtain ⟨m, hlt, hwalk⟩ := hshorter
      obtain ⟨d, hle, hd⟩ := ih m hlt hwalk
      exact ⟨d, by omega, hd⟩
    · exact ⟨n, Nat.le_refl n, h, fun m hlt hwalk => hshorter ⟨m, hlt, hwalk⟩⟩

/-- A block is one hop further away than a block before it, if it is not nearer. -/
theorem isDistance_succ : IsDistance next start a (n + 1) ↔
    (∀ d ≤ n, ¬ IsDistance next start a d) ∧ ∃ b, IsDistance next start b n ∧ a ∈ next b := by
  constructor
  · intro hboth
    obtain ⟨hwalk, hshort⟩ := hboth
    refine ⟨fun d hle hd => hshort d (by omega) hd.1, ?_⟩
    cases hwalk with
    | @hop _ b _ hbefore hlast =>
      -- a shorter walk to the block before would be a shorter walk
      exact ⟨b, ⟨hbefore, fun m hlt hwalk => hshort (m + 1) (by omega) (.hop hwalk hlast)⟩, hlast⟩
  · intro hboth
    obtain ⟨hnone, b, hb, hlast⟩ := hboth
    refine ⟨.hop hb.1 hlast, fun m hlt hwalk => ?_⟩
    -- a shorter walk would put the block among those that are nearer
    obtain ⟨d, hle, hd⟩ := exists_isDistance hwalk
    exact hnone d (by omega) hd

end Walks

/-! ## §2. One round. -/

section Round

variable {distance : Nat} {candidates : List Address} {reached : Reached} {a : Address}

theorem contains_eq_true_iff : reached.contains a = true ↔ reached[a]? ≠ none := by
  rw [ExtTreeMap.contains_eq_isSome_getElem?, Option.isSome_iff_ne_none]

theorem getElem?_insert_reached {b : Address} :
    (reached.insert b distance)[a]? = if b = a then some distance else reached[a]? := by
  rw [ExtTreeMap.getElem?_insert]
  simp only [Std.compare_eq_iff_eq]

/-- The blocks that a round notes are the candidates that are new. -/
theorem mem_discover :
    a ∈ (discover distance candidates reached).1 ↔ a ∈ candidates ∧ reached[a]? = none := by
  induction candidates generalizing reached with
  | nil => simp [discover]
  | cons b rest ih =>
    rw [discover, List.mem_cons]
    split
    next hold =>
      rw [contains_eq_true_iff] at hold
      rw [ih]
      constructor
      · intro hboth
        obtain ⟨hmem, hnew⟩ := hboth
        exact ⟨.inr hmem, hnew⟩
      · intro hcase
        rcases hcase with ⟨rfl | hmem, hnew⟩
        · exact absurd hnew hold
        · exact ⟨hmem, hnew⟩
    next hnew =>
      rw [contains_eq_true_iff, Classical.not_not] at hnew
      show a ∈ b :: (discover distance rest (reached.insert b distance)).1 ↔ _
      rw [List.mem_cons, ih, getElem?_insert_reached]
      by_cases heq : b = a
      · subst heq
        exact ⟨fun _ => ⟨.inl rfl, hnew⟩, fun _ => .inl rfl⟩
      · rw [if_neg heq]
        constructor
        · intro hcase
          rcases hcase with rfl | ⟨hmem, hnone⟩
          · exact absurd rfl heq
          · exact ⟨.inr hmem, hnone⟩
        · intro hcase
          rcases hcase with ⟨rfl | hmem, hnone⟩
          · exact absurd rfl heq
          · exact .inr ⟨hmem, hnone⟩

/-- After a round the finds are those before and the candidates at the new distance. -/
theorem getElem?_discover :
    (discover distance candidates reached).2[a]?
      = reached[a]?.or (if a ∈ candidates then some distance else none) := by
  induction candidates generalizing reached with
  | nil => simp [discover]
  | cons b rest ih =>
    rw [discover]
    split
    next hold =>
      rw [contains_eq_true_iff] at hold
      rw [ih]
      by_cases heq : a = b
      · subst heq
        obtain ⟨d, hd⟩ := Option.ne_none_iff_exists'.mp hold
        rw [hd, Option.some_or, Option.some_or]
      · simp only [List.mem_cons, heq, false_or]
    next hnew =>
      rw [contains_eq_true_iff, Classical.not_not] at hnew
      show (discover distance rest (reached.insert b distance)).2[a]? = _
      rw [ih, getElem?_insert_reached]
      by_cases heq : b = a
      · subst heq
        rw [if_pos rfl, Option.some_or, hnew, Option.none_or, if_pos List.mem_cons_self]
      · simp only [heq, if_false, List.mem_cons, Ne.symm heq, false_or]

end Round

/-! ## §3. The search. -/

/-- The blocks found so far are those within a number of hops, and the blocks of the last round are
those at exactly that number. -/
structure AtLevel (next : Address → List Address) (start : Address) (level : Nat)
    (frontier : List Address) (reached : Reached) : Prop where
  frontier : ∀ {a}, a ∈ frontier ↔ IsDistance next start a level
  reached : ∀ {a d}, reached[a]? = some d ↔ IsDistance next start a d ∧ d ≤ level

section Search

variable {next : Address → List Address} {start a : Address} {level : Nat}
  {frontier : List Address} {reached : Reached}

theorem atLevel_start : AtLevel next start 0 [start] ((∅ : Reached).insert start 0) where
  frontier := by
    intro a
    rw [List.mem_singleton, isDistance_zero]
  reached := by
    intro a d
    rw [getElem?_insert_reached, ExtTreeMap.getElem?_empty]
    constructor
    · intro h
      split at h
      next heq =>
        obtain rfl := Option.some.inj h
        exact ⟨isDistance_zero.mpr heq.symm, Nat.le_refl 0⟩
      next => exact absurd h (by simp)
    · intro hboth
      obtain ⟨hd, hle⟩ := hboth
      obtain rfl : d = 0 := by omega
      rw [if_pos (isDistance_zero.mp hd).symm]

theorem AtLevel.eq_none (h : AtLevel next start level frontier reached) :
    reached[a]? = none ↔ ∀ d ≤ level, ¬ IsDistance next start a d := by
  constructor
  · intro hnone d hle hd
    rw [h.reached.mpr ⟨hd, hle⟩] at hnone
    exact absurd hnone (by simp)
  · intro hfar
    cases hfound : reached[a]? with
    | none => rfl
    | some d =>
      obtain ⟨hd, hle⟩ := h.reached.mp hfound
      exact absurd hd (hfar d hle)

/-- One round brings the search one level further. -/
theorem atLevel_discover (h : AtLevel next start level frontier reached) :
    AtLevel next start (level + 1)
      (discover (level + 1) (frontier.flatMap next) reached).1
      (discover (level + 1) (frontier.flatMap next) reached).2 := by
  have hcandidate : ∀ {a}, a ∈ frontier.flatMap next
      ↔ ∃ b, IsDistance next start b level ∧ a ∈ next b := by
    intro a
    rw [List.mem_flatMap]
    exact exists_congr fun b => and_congr_left fun _ => h.frontier
  constructor
  case frontier =>
    intro a
    rw [mem_discover, hcandidate, h.eq_none, isDistance_succ]
    exact and_comm
  case reached =>
    intro a d
    rw [getElem?_discover]
    cases hfound : reached[a]? with
    | some n =>
      -- found before, at its distance, which does not change
      obtain ⟨hn, hle⟩ := h.reached.mp hfound
      rw [Option.some_or]
      constructor
      · intro heq
        obtain rfl := Option.some.inj heq
        exact ⟨hn, by omega⟩
      · intro hboth
        obtain ⟨hd, -⟩ := hboth
        rw [isDistance_unique hn hd]
    | none =>
      -- not found so far, and hence further away than the level
      have hfar := h.eq_none.mp hfound
      rw [Option.none_or]
      constructor
      · intro heq
        split at heq
        next hmem =>
          obtain rfl := Option.some.inj heq
          exact ⟨isDistance_succ.mpr ⟨hfar, hcandidate.mp hmem⟩, Nat.le_refl _⟩
        next => exact absurd heq (by simp)
      · intro hboth
        obtain ⟨hd, hle⟩ := hboth
        have hbeyond : ¬ d ≤ level := fun hnear => hfar d hnear hd
        obtain rfl : d = level + 1 := by omega
        rw [if_pos (hcandidate.mpr (isDistance_succ.mp hd).2)]

/-- Rounds bring the search as many levels further. -/
theorem getElem?_spread (h : AtLevel next start level frontier reached) (rounds d : Nat) :
    (spread next rounds level frontier reached)[a]? = some d
      ↔ IsDistance next start a d ∧ d ≤ level + rounds := by
  induction rounds generalizing level frontier reached with
  | zero => exact h.reached
  | succ rounds ih =>
    show (spread next rounds (level + 1) (discover (level + 1) (frontier.flatMap next) reached).1
      (discover (level + 1) (frontier.flatMap next) reached).2)[a]? = some d ↔ _
    rw [ih (atLevel_discover h), Nat.add_right_comm, Nat.add_assoc]

/-- The search finds the blocks within a number of hops, each with its distance. -/
theorem getElem?_within {g : Flowgraph} {direction : Direction} {hops d : Nat} :
    (g.within direction start hops)[a]? = some d
      ↔ g.hasNode start = true ∧ IsDistance (g.neighbours direction) start a d
        ∧ d ≤ min hops g.nodeCount := by
  unfold within
  split
  next hstart =>
    rw [getElem?_spread atLevel_start, Nat.zero_add]
    exact ⟨fun h => ⟨hstart, h⟩, fun h => h.2⟩
  next hstart =>
    constructor
    · intro h
      exact absurd h (by simp)
    · intro hboth
      obtain ⟨hnode, -⟩ := hboth
      exact absurd hnode hstart

end Search

end Flowprint.Flowgraph
