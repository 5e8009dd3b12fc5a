/-
  Flowprint.Proofs.Exchange
  ────────────────────────────────
  Which masks exchange pairs, and what the network makes of that.

  An exchange by a pairing swaps the two places of each pair and leaves all others.  It takes both
  conditions on the mask: if a place is the upper one of a pair and the lower one of another, a one
  there is spread over several places, and if a pair reaches beyond the value, a one at its lower
  place is lost.  So the pairings are all the masks by which an exchange moves places.

  Main statements:

      moves_exchange    an exchange by a pairing moves places
      isPairing_iff     the pairings are the masks whose exchange keeps the number of ones
      orbit_eq_map      the entries of an orbit are the iterates
      permutes_places   the network, its iterates and its stages as permutations of places
-/
import Flowprint.Proofs.Permutation

namespace Flowprint.Permutation

/-! ## §1. Exchanges by pairings. -/

section Pairing

variable {mask : BitVec 128} {shift : Nat}

/-- A pairing as a permutation of the places: each pair is swapped. -/
def swaps (h : IsPairing mask shift) : Equiv.Perm (Fin 128) :=
  Function.Involutive.toPerm (fun i => ⟨partner mask shift i, partner_lt h i.isLt⟩)
    fun i => Fin.ext (partner_partner h i)

theorem moves_exchange (h : IsPairing mask shift) :
    Moves (fun x => exchange x mask shift) (swaps h) := by
  intro x i
  show (exchange x mask shift).getLsbD (partner mask shift i) = x.getLsbD i
  rw [getLsbD_exchange_partner h x (partner_lt h i.isLt), partner_partner h]

/-- The bits of a pair change places. -/
theorem exchange_pair (h : IsPairing mask shift) (x : BitVec 128) {i : Nat}
    (hi : mask.getLsbD i = true) :
    (exchange x mask shift).getLsbD i = x.getLsbD (i + shift)
      ∧ (exchange x mask shift).getLsbD (i + shift) = x.getLsbD i := by
  have hup : partner mask shift i = i + shift := by rw [partner, if_pos hi]
  constructor
  · rw [getLsbD_exchange_partner h x (BitVec.lt_of_getLsbD hi), hup]
  · rw [getLsbD_exchange_partner h x (h.upper_lt hi), ← hup, partner_partner h]

/-- A bit in no pair stays. -/
theorem exchange_outside (h : IsPairing mask shift) (x : BitVec 128) {j : Nat}
    (hout : ∀ i, mask.getLsbD i = true → j ≠ i ∧ j ≠ i + shift) :
    (exchange x mask shift).getLsbD j = x.getLsbD j := by
  by_cases hj : j < 128
  · have hstay : partner mask shift j = j := by
      rw [partner, if_neg fun hlow => (hout j hlow).1 rfl, if_neg fun hhigh =>
        (hout (j - shift) hhigh.2).2 (Nat.sub_add_cancel hhigh.1).symm]
    rw [getLsbD_exchange_partner h x hj, hstay]
  · have hbeyond : 128 ≤ j := Nat.le_of_not_lt hj
    rw [BitVec.getLsbD_of_ge _ j hbeyond, BitVec.getLsbD_of_ge _ j hbeyond]

/-! ## §2. Other masks. -/

/-- If two pairs share a place, an exchange copies a one from there to the place below. -/
theorem disjoint_of_ones (hshift : 0 < shift)
    (h : ∀ x, ones (exchange x mask shift) = ones x) : mask &&& (mask <<< shift) = 0#128 := by
  apply BitVec.eq_of_getLsbD_eq
  intro i hi
  rw [BitVec.getLsbD_zero]
  by_contra hshared
  simp only [BitVec.getLsbD_and, BitVec.getLsbD_shiftLeft, Bool.not_eq_false, Bool.and_eq_true,
    decide_eq_true_eq, Bool.not_eq_true', decide_eq_false_iff_not] at hshared
  obtain ⟨hlower, ⟨-, hle⟩, hupper⟩ := hshared
  have hle : shift ≤ i := Nat.le_of_not_lt hle
  have hbelow : i ≠ i - shift := by omega
  have habove : i ≠ i + shift := by omega
  have hstays : (exchange (BitVec.twoPow 128 i) mask shift).getLsbD i = true := by
    rw [getLsbD_exchange_xor _ _ _ hi, getLsbD_single hi, getLsbD_single hi, getLsbD_single hi]
    simp only [hlower, hupper, hle, hbelow, habove, decide_true, decide_false]
    rfl
  have hcopied : (exchange (BitVec.twoPow 128 i) mask shift).getLsbD (i - shift) = true := by
    have hfar : i ≠ i - shift - shift := by omega
    rw [getLsbD_exchange_xor _ _ _ (Nat.lt_of_le_of_lt (Nat.sub_le i shift) hi),
      Nat.sub_add_cancel hle, getLsbD_single hi, getLsbD_single hi, getLsbD_single hi]
    simp [hupper, hbelow, hfar]
  have hone : ones (exchange (BitVec.twoPow 128 i) mask shift) = 1 := by
    rw [h, ones_single hi]
  exact hbelow (eq_of_ones_eq_one hone hstays hcopied)

/-- If a pair reaches beyond the value, an exchange loses a one that stands at its lower place. -/
theorem inside_of_ones (hlap : mask &&& (mask <<< shift) = 0#128)
    (h : ∀ x, ones (exchange x mask shift) = ones x) {i : Nat} (hlower : mask.getLsbD i = true) :
    i + shift < 128 := by
  have hi : i < 128 := BitVec.lt_of_getLsbD hlower
  by_contra hbeyond
  have hlost : exchange (BitVec.twoPow 128 i) mask shift = 0#128 := by
    apply BitVec.eq_of_getLsbD_eq
    intro j hj
    rw [getLsbD_exchange hj hlap, BitVec.getLsbD_zero, getLsbD_single hi, getLsbD_single hi,
      getLsbD_single hi]
    split
    next hselected =>
      -- the place above `j` is not selected, but `i` is
      have hne : i ≠ j + shift := by
        rintro rfl
        rw [not_selected_above hlap hi hselected] at hlower
        exact Bool.false_ne_true hlower
      exact decide_eq_false hne
    next hunselected =>
      split
      · -- the place above `i` is not a place of the value
        exact decide_eq_false (by omega)
      · exact decide_eq_false fun heq => hunselected (heq ▸ hlower)
  have hone := h (BitVec.twoPow 128 i)
  rw [hlost, ones_zero, ones_single hi] at hone
  exact absurd hone Nat.zero_ne_one

/-- The pairings are the masks by which an exchange neither loses a one nor makes one. -/
theorem isPairing_iff (hshift : 0 < shift) :
    IsPairing mask shift ↔ ∀ x, ones (exchange x mask shift) = ones x := by
  constructor
  · exact fun h => (moves_exchange h).ones
  · intro h
    have hlap := disjoint_of_ones hshift h
    exact ⟨hlap, moved_back_iff.mpr fun _ => inside_of_ones hlap h⟩

/-- A mask that does not overlap itself moved need not be a pairing. -/
example : BitVec.twoPow 128 127 &&& (BitVec.twoPow 128 127 <<< 1) = 0#128
    ∧ ¬ IsPairing (BitVec.twoPow 128 127) 1 := by
  decide

end Pairing

/-! ## §3. The network. -/

/-- The entries of an orbit are the iterates, the first of them applied once. -/
theorem orbit_eq_map (count : Nat) (x : BitVec 128) :
    orbit count x = (List.range count).map fun k => iterate (k + 1) x := by
  apply List.ext_getElem?
  intro k
  rw [List.getElem?_map]
  by_cases hk : k < count
  · rw [orbit_eq_iterates x hk, List.getElem?_range hk, Option.map_some]
  · have hout : count ≤ k := Nat.le_of_not_lt hk
    rw [List.getElem?_eq_none (by rwa [length_orbit]),
      List.getElem?_eq_none (by rwa [List.length_range]), Option.map_none]

/-- The network moves places: it is injective and commutes with exclusive or, and its iterates keep
the number of ones and the number of differences.  An orbit lists these iterates: entry `k` is the
network applied `k + 1` times.  Each exchange by a pairing swaps the bits of every pair and leaves
all others. -/
theorem permutes_places :
    (∃ places : Equiv.Perm (Fin 128), ∀ x i, (permute x).getLsbD (places i) = x.getLsbD i)
      ∧ Function.Injective permute
      ∧ (∀ x y, permute (x ^^^ y) = permute x ^^^ permute y)
      ∧ (∀ k x, ones (iterate k x) = ones x)
      ∧ (∀ k x y, ones (iterate k x ^^^ iterate k y) = ones (x ^^^ y))
      ∧ (∀ count x, orbit count x = (List.range count).map fun k => iterate (k + 1) x)
      ∧ (∀ k x, iterate k x = permute^[k] x)
      ∧ ∀ {mask shift}, IsPairing mask shift → ∀ x,
        (∀ i, mask.getLsbD i = true →
          i + shift < 128
          ∧ (exchange x mask shift).getLsbD i = x.getLsbD (i + shift)
          ∧ (exchange x mask shift).getLsbD (i + shift) = x.getLsbD i)
        ∧ ∀ j, (∀ i, mask.getLsbD i = true → j ≠ i ∧ j ≠ i + shift) →
          (exchange x mask shift).getLsbD j = x.getLsbD j := by
  refine ⟨⟨carry, moves_permute⟩, moves_permute.injective, moves_permute.xor,
    fun k => (moves_iterate k).ones, fun k => (moves_iterate k).distance, orbit_eq_map,
    fun k x => congrFun (iterate_eq k) x, ?_⟩
  intro mask shift h x
  constructor
  · intro i hi
    exact ⟨h.upper_lt hi, exchange_pair h x hi⟩
  · intro j hout
    exact exchange_outside h x hout

/-- The stage with the widest pairs. -/
theorem permutes_places_widest :
    IsPairing 0x3782ccfd884d7006 64
      ∧ ∀ x, (exchange x 0x3782ccfd884d7006 64).getLsbD 1 = x.getLsbD 65
        ∧ (exchange x 0x3782ccfd884d7006 64).getLsbD 65 = x.getLsbD 1
        ∧ (exchange x 0x3782ccfd884d7006 64).getLsbD 0 = x.getLsbD 0 := by
  have hpair : IsPairing 0x3782ccfd884d7006 64 := by decide
  obtain ⟨-, -, -, -, -, -, -, hexchange⟩ := permutes_places
  refine ⟨hpair, fun x => ?_⟩
  obtain ⟨hswap, hstay⟩ := hexchange hpair x
  obtain ⟨-, hdown, hup⟩ := hswap 1 (by decide)
  refine ⟨hdown, hup, hstay 0 fun i hi => ⟨?_, by omega⟩⟩
  -- the lowest place is not selected
  rintro rfl
  exact absurd hi (by decide)

end Flowprint.Permutation
