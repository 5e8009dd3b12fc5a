/-
  Flowprint.Proofs.Rearrangement
  ────────────────────────────────
  Maps that move the places of a value.

  One permutation of the places, the same for every value, says all about such a map.  So it
  respects what is defined place by place, as exclusive or is, and it neither loses a bit nor copies
  one.

  Main statements:

      Moves.comp, Moves.iterate    maps in a row, and a map many times
      Moves.injective              different values stay different
      Moves.xor                    such a map commutes with exclusive or
      Moves.ones, Moves.distance   ones and differences keep their number
-/
import Flowprint.SimHash
import Mathlib.Algebra.Group.End
import Mathlib.Data.Fintype.Card
import Mathlib.Data.Fintype.Fin

namespace Flowprint.Permutation

variable {w : Nat}

/-! ## §1. Counting ones. -/

/-- The number of ones is the number of places with a one. -/
theorem ones_eq_card (x : BitVec w) :
    ones x = (Finset.univ.filter fun i : Fin w => x.getLsbD i = true).card := by
  -- first as a count of numbers below the width, then of places
  have hrange : ones x = ((Finset.range w).filter fun i => x.getLsbD i = true).card := by
    have hdecide : (fun i => x.getLsbD i) = fun i => decide (x.getLsbD i = true) :=
      funext fun i => Bool.decide_eq_true.symm
    rw [ones, List.countP_eq_length_filter, hdecide]
    rfl
  have hmap : (Finset.range w).filter (fun i => x.getLsbD i = true)
      = (Finset.univ.filter fun i : Fin w => x.getLsbD i = true).map Fin.valEmbedding := by
    ext i
    simp only [Finset.mem_filter, Finset.mem_range, Finset.mem_map, Finset.mem_univ, true_and,
      Fin.valEmbedding_apply]
    constructor
    · intro hboth
      obtain ⟨hi, hx⟩ := hboth
      exact ⟨⟨i, hi⟩, hx, rfl⟩
    · intro hex
      obtain ⟨j, hx, rfl⟩ := hex
      exact ⟨j.isLt, hx⟩
  rw [hrange, hmap, Finset.card_map]

/-- The bits of a value with a single one. -/
theorem getLsbD_single {i : Nat} (hi : i < w) (j : Nat) :
    (BitVec.twoPow w i).getLsbD j = decide (i = j) := by
  rw [BitVec.getLsbD_twoPow, decide_eq_true hi, Bool.true_and]

theorem ones_single {i : Nat} (hi : i < w) : ones (BitVec.twoPow w i) = 1 := by
  have hplaces : (Finset.univ.filter fun j : Fin w => (BitVec.twoPow w i).getLsbD j = true)
      = {⟨i, hi⟩} := by
    ext j
    rw [Finset.mem_filter, Finset.mem_singleton, getLsbD_single hi, decide_eq_true_eq, Fin.ext_iff]
    exact ⟨fun h => h.2.symm, fun h => ⟨Finset.mem_univ _, h.symm⟩⟩
  rw [ones_eq_card, hplaces, Finset.card_singleton]

/-- Where there is a single one, two places with a one are the same. -/
theorem eq_of_ones_eq_one {x : BitVec w} (h : ones x = 1) {i j : Nat} (hi : x.getLsbD i = true)
    (hj : x.getLsbD j = true) : i = j := by
  have hlt {k : Nat} (hk : x.getLsbD k = true) : k < w := BitVec.lt_of_getLsbD hk
  rw [ones_eq_card] at h
  have hsame := Finset.card_le_one.mp (Nat.le_of_eq h) ⟨i, hlt hi⟩
    (Finset.mem_filter.mpr ⟨Finset.mem_univ _, hi⟩) ⟨j, hlt hj⟩
    (Finset.mem_filter.mpr ⟨Finset.mem_univ _, hj⟩)
  exact Fin.mk.inj hsame

/-! ## §2. Moving places. -/

/-- A map moves the places of a value: each bit is found at the place to which its own is moved. -/
def Moves (f : BitVec w → BitVec w) (places : Equiv.Perm (Fin w)) : Prop :=
  ∀ x i, (f x).getLsbD (places i) = x.getLsbD i

namespace Moves

variable {f g : BitVec w → BitVec w} {places others : Equiv.Perm (Fin w)}

/-- What is found at a place was moved there. -/
theorem getLsbD (h : Moves f places) (x : BitVec w) (j : Fin w) :
    (f x).getLsbD j = x.getLsbD (places.symm j) := by
  have hmoved := h x (places.symm j)
  rwa [Equiv.apply_symm_apply] at hmoved

theorem comp (hg : Moves g others) (hf : Moves f places) :
    Moves (fun x => g (f x)) (others * places) := by
  intro x i
  show (g (f x)).getLsbD (others (places i)) = x.getLsbD i
  rw [hg, hf]

theorem iterate (h : Moves f places) (k : Nat) : Moves f^[k] (places ^ k) := by
  induction k with
  | zero => exact fun _ _ => rfl
  | succ k ih =>
    -- the first application moves the places once, and the others take them on
    rw [pow_succ]
    exact ih.comp h

theorem injective (h : Moves f places) : Function.Injective f := by
  intro x y heq
  apply BitVec.eq_of_getLsbD_eq
  intro i hi
  rw [← h x ⟨i, hi⟩, heq, h y ⟨i, hi⟩]

theorem xor (h : Moves f places) (x y : BitVec w) : f (x ^^^ y) = f x ^^^ f y := by
  apply BitVec.eq_of_getLsbD_eq
  intro i hi
  rw [BitVec.getLsbD_xor, h.getLsbD _ ⟨i, hi⟩, h.getLsbD _ ⟨i, hi⟩, h.getLsbD _ ⟨i, hi⟩,
    BitVec.getLsbD_xor]

theorem ones (h : Moves f places) (x : BitVec w) : ones (f x) = ones x := by
  rw [ones_eq_card, ones_eq_card]
  -- the places with a one are moved to the places with a one
  refine (Finset.card_equiv places fun i => ?_).symm
  simp only [Finset.mem_filter, Finset.mem_univ, true_and]
  rw [h]

theorem distance (h : Moves f places) (x y : BitVec w) :
    Flowprint.ones (f x ^^^ f y) = Flowprint.ones (x ^^^ y) := by
  rw [← h.xor, h.ones]

end Moves

end Flowprint.Permutation
