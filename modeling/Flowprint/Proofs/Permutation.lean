/-
  Flowprint.Proofs.Permutation
  ────────────────────────────────
  Where the permutation carries the places of a value.

  An exchange moves each place to a partner, and moves the partner back.  So every stage is a
  permutation of the 128 places, and the network is the product of its stages: `carry`.  Its
  iterates move places too, by the powers of `carry`.

  Main statements:

      moves_permute            the network moves places
      moves_iterate            so do its iterates, by the powers of the same permutation
      exists_clear             few places leave the leading ones free under some iterate
      leaves_leading           no place is among the leading ones under two iterates in a row
-/
import Flowprint.Permutation
import Flowprint.Proofs.Rearrangement
import Mathlib.Algebra.Order.BigOperators.Group.Finset

namespace Flowprint.Permutation

/-! ## §1. Exchanges of pairs. -/

/-- A mask whose places and the places `shift` above them are disjoint pairs within the value. -/
def IsPairing (mask : BitVec 128) (shift : Nat) : Prop :=
  mask &&& (mask <<< shift) = 0#128 ∧ (mask <<< shift) >>> shift = mask

instance (mask : BitVec 128) (shift : Nat) : Decidable (IsPairing mask shift) :=
  inferInstanceAs (Decidable (_ ∧ _))

/-- The place with which an exchange swaps a place; the place itself if it is in no pair. -/
def partner (mask : BitVec 128) (shift i : Nat) : Nat :=
  if mask.getLsbD i then i + shift
  else if shift ≤ i ∧ mask.getLsbD (i - shift) then i - shift
  else i

section Pairing

variable {mask : BitVec 128} {shift : Nat}

/-- A mask comes back from where it is moved if no selected place is moved out of the value. -/
theorem moved_back_iff :
    (mask <<< shift) >>> shift = mask ↔ ∀ i, mask.getLsbD i = true → i + shift < 128 := by
  constructor
  · intro hback i hi
    have hbit := congrArg (·.getLsbD i) hback
    simp only [BitVec.getLsbD_ushiftRight, BitVec.getLsbD_shiftLeft, hi, Bool.and_eq_true,
      decide_eq_true_eq] at hbit
    omega
  · intro hinside
    apply BitVec.eq_of_getLsbD_eq
    intro i _
    rw [BitVec.getLsbD_ushiftRight, BitVec.getLsbD_shiftLeft, Nat.add_sub_cancel_left]
    cases hi : mask.getLsbD i with
    | false => rw [Bool.and_false]
    | true =>
      have hlt : shift + i < 128 := Nat.add_comm i shift ▸ hinside i hi
      simp [hlt]

/-- The upper place of a pair is a place of the value. -/
theorem IsPairing.upper_lt (h : IsPairing mask shift) {i : Nat} (hi : mask.getLsbD i = true) :
    i + shift < 128 :=
  moved_back_iff.mp h.2 i hi

/-- The upper place of a pair is the lower place of none. -/
theorem IsPairing.upper_free (h : IsPairing mask shift) {i : Nat} (hi : mask.getLsbD i = true) :
    mask.getLsbD (i + shift) = false :=
  not_selected_above h.1 (h.upper_lt hi) hi

theorem partner_lt (h : IsPairing mask shift) {i : Nat} (hi : i < 128) :
    partner mask shift i < 128 := by
  unfold partner
  split
  next hm => exact h.upper_lt hm
  next => split <;> omega

theorem partner_partner (h : IsPairing mask shift) (i : Nat) :
    partner mask shift (partner mask shift i) = i := by
  by_cases hm : mask.getLsbD i = true
  · -- up, and back down
    have hup : partner mask shift i = i + shift := by rw [partner, if_pos hm]
    rw [hup, partner, if_neg (by rw [h.upper_free hm]; exact Bool.false_ne_true),
      if_pos ⟨by omega, by rw [Nat.add_sub_cancel]; exact hm⟩, Nat.add_sub_cancel]
  · by_cases hlow : shift ≤ i ∧ mask.getLsbD (i - shift) = true
    · -- down, and back up
      have hdown : partner mask shift i = i - shift := by rw [partner, if_neg hm, if_pos hlow]
      rw [hdown, partner, if_pos hlow.2, Nat.sub_add_cancel hlow.1]
    · have hstay : partner mask shift i = i := by rw [partner, if_neg hm, if_neg hlow]
      rw [hstay, hstay]

/-- An exchange leaves at each place the bit of its partner. -/
theorem getLsbD_exchange_partner (h : IsPairing mask shift) (x : BitVec 128) {i : Nat}
    (hi : i < 128) : (exchange x mask shift).getLsbD i = x.getLsbD (partner mask shift i) := by
  rw [getLsbD_exchange hi h.1, partner]
  split
  next => rfl
  next => split <;> rfl

end Pairing

/-! ## §2. Rows of stages. -/

/-- Where a stage moves a place. -/
def Stage.move (stage : Stage) (i : Nat) : Nat :=
  partner stage.mask stage.shift i

/-- Where a row of stages moves a place. -/
def moveAll (row : List Stage) (i : Nat) : Nat :=
  row.foldl (fun i stage => stage.move i) i

theorem moveAll_lt {row : List Stage} (h : ∀ stage ∈ row, IsPairing stage.mask stage.shift)
    {i : Nat} (hi : i < 128) : moveAll row i < 128 := by
  induction row generalizing i with
  | nil => exact hi
  | cons stage row ih =>
    show moveAll row (stage.move i) < 128
    exact ih (fun s hs => h s (List.mem_cons_of_mem _ hs))
      (partner_lt (h stage List.mem_cons_self) hi)

/-- The same stages in reverse order move every place back. -/
theorem moveAll_reverse {row : List Stage} (h : ∀ stage ∈ row, IsPairing stage.mask stage.shift)
    (i : Nat) : moveAll row.reverse (moveAll row i) = i := by
  induction row generalizing i with
  | nil => rfl
  | cons stage row ih =>
    have hback : moveAll row.reverse (moveAll row (stage.move i)) = stage.move i :=
      ih (fun s hs => h s (List.mem_cons_of_mem _ hs)) (stage.move i)
    -- the stage that came first is undone last, by itself
    rw [List.reverse_cons]
    show (row.reverse ++ [stage]).foldl _ (moveAll row (stage.move i)) = i
    rw [List.foldl_append]
    show stage.move (moveAll row.reverse (moveAll row (stage.move i))) = i
    rw [hback]
    exact partner_partner (h stage List.mem_cons_self) i

/-- A row of stages leaves each bit at the place to which the row moves it. -/
theorem getLsbD_foldl_apply {row : List Stage}
    (h : ∀ stage ∈ row, IsPairing stage.mask stage.shift) (x : BitVec 128) {i : Nat}
    (hi : i < 128) :
    (row.foldl (fun x stage => stage.apply x) x).getLsbD (moveAll row i) = x.getLsbD i := by
  induction row generalizing x i with
  | nil => rfl
  | cons stage row ih =>
    have hpair := h stage List.mem_cons_self
    have hlt : stage.move i < 128 := partner_lt hpair hi
    -- the first stage takes the bit to `stage.move i`, and the others take it on from there
    show (row.foldl _ (stage.apply x)).getLsbD (moveAll row (stage.move i)) = _
    rw [ih (fun s hs => h s (List.mem_cons_of_mem _ hs)) (stage.apply x) hlt]
    show (exchange x stage.mask stage.shift).getLsbD (stage.move i) = _
    rw [getLsbD_exchange_partner hpair x hlt]
    exact congrArg x.getLsbD (partner_partner hpair i)

/-! ## §3. The network. -/

/-- Every stage of the network exchanges disjoint pairs. -/
theorem stages_pairing : ∀ stage ∈ stages, IsPairing stage.mask stage.shift := by
  decide

theorem stages_reverse_pairing : ∀ stage ∈ stages.reverse, IsPairing stage.mask stage.shift :=
  fun stage h => stages_pairing stage (List.mem_reverse.mp h)

/-- Where the network carries the places of a value. -/
def carry : Equiv.Perm (Fin 128) where
  toFun i := ⟨moveAll stages i, moveAll_lt stages_pairing i.isLt⟩
  invFun i := ⟨moveAll stages.reverse i, moveAll_lt stages_reverse_pairing i.isLt⟩
  left_inv i := Fin.ext (moveAll_reverse stages_pairing i)
  right_inv i := Fin.ext <| by
    have hback := moveAll_reverse stages_reverse_pairing i
    rwa [List.reverse_reverse] at hback

/-- The network carries every value's bits alike. -/
theorem moves_permute : Moves permute carry :=
  fun x i => getLsbD_foldl_apply stages_pairing x i.isLt

/-! ## §4. Iterates of the network. -/

theorem iterate_eq (k : Nat) : iterate k = permute^[k] := by
  induction k with
  | zero => rfl
  | succ k ih =>
    funext x
    show iterate k (permute x) = permute^[k] (permute x)
    rw [ih]

theorem moves_iterate (k : Nat) : Moves (iterate k) (carry ^ k) := by
  rw [iterate_eq]
  exact moves_permute.iterate k

/-- The network applied `k` times has at the place to which it carries a bit `k` times that bit. -/
theorem getLsbD_iterate_carry (k : Nat) (x : BitVec 128) (i : Fin 128) :
    (iterate k x).getLsbD ((carry ^ k) i) = x.getLsbD i :=
  moves_iterate k x i

/-- Iterates of the network keep the number of places at which two values differ. -/
theorem ones_iterate_xor (k : Nat) (x y : BitVec 128) :
    ones (iterate k x ^^^ iterate k y) = ones (x ^^^ y) :=
  (moves_iterate k).distance x y

/-! ## §5. Visits to the leading places. -/

/-- How many of the first iterates of the network carry a place into the leading eight. -/
def visits (iterates : Nat) (i : Fin 128) : Nat :=
  ((Finset.range iterates).filter fun k => 120 ≤ ((carry ^ (k + 1)) i).val).card

/-- Few places that each visit the leading ones seldom leave them free under some iterate. -/
theorem exists_clear {iterates often : Nat} (hvisits : ∀ i, visits iterates i ≤ often)
    {places : Finset (Fin 128)} (hfew : often * places.card < iterates) :
    ∃ k < iterates, ∀ i ∈ places, ((carry ^ (k + 1)) i).val < 120 := by
  by_contra hnone
  -- otherwise every iterate is a visit of one of the places
  have hcover : Finset.range iterates ⊆ places.biUnion fun i =>
      (Finset.range iterates).filter fun k => 120 ≤ ((carry ^ (k + 1)) i).val := by
    intro k hk
    by_contra hfree
    refine hnone ⟨k, Finset.mem_range.mp hk, fun i hi => ?_⟩
    by_contra hlead
    exact hfree (Finset.mem_biUnion.mpr ⟨i, hi, Finset.mem_filter.mpr ⟨hk, by omega⟩⟩)
  have hcount := calc
    iterates = (Finset.range iterates).card := (Finset.card_range iterates).symm
    _ ≤ _ := Finset.card_le_card hcover
    _ ≤ places.card * often := Finset.card_biUnion_le_card_mul _ _ _ fun i _ => hvisits i
  rw [Nat.mul_comm] at hcount
  omega

/-- No place stays among the leading ones twice in a row. -/
theorem leaves_leading : ∀ i : Fin 128, (carry i).val < 120 ∨ (carry (carry i)).val < 120 := by
  decide +kernel

end Flowprint.Permutation
