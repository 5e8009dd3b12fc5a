/-
  Flowprint.Permutation
  ────────────────────────────────
  One fixed permutation of 128 bit positions and its iterates.

  The permutation is a butterfly network: each stage exchanges selected positions with the
  positions a fixed distance above them.  Its iterates carry every position through the leading
  places of the value, so that two values that differ in few places agree on the leading places
  of some iterate.

  Main statements:

      getLsbD_exchange_xor  a bit after an exchange, for any mask
      getLsbD_exchange      a stage moves a bit up, moves it down, or leaves it
      orbit_eq_iterates     entry `k` of an orbit is the permutation applied `k + 1` times
-/

namespace Flowprint.Permutation

/-! ## §1. Stages. -/

/-- A stage of the network: the lower positions of the pairs it exchanges, and their distance. -/
structure Stage where
  mask : BitVec 128
  shift : Nat
  deriving Repr, DecidableEq

/-- Exchange the places that a mask selects with the places `shift` above them. -/
def exchange (x mask : BitVec 128) (shift : Nat) : BitVec 128 :=
  let differing := ((x >>> shift) ^^^ x) &&& mask
  (x ^^^ differing) ^^^ (differing <<< shift)

/-- A stage applied to a value. -/
def Stage.apply (stage : Stage) (x : BitVec 128) : BitVec 128 :=
  exchange x stage.mask stage.shift

/-- The network, first stage first. -/
def stages : List Stage :=
  [ ⟨0x11104444001001104501005550510550, 1⟩,
    ⟨0x21233331003022103110101001022210, 2⟩,
    ⟨0x0c010c0d090409010a0c01010a040b00, 4⟩,
    ⟨0x0052006700fe004100ab002900330000, 8⟩,
    ⟨0x0000678f0000bd050000236300000000, 16⟩,
    ⟨0x0000000004c300520000000000000000, 32⟩,
    ⟨0x00000000000000003782ccfd884d7006, 64⟩,
    ⟨0x0000000096739fb500000000f20085be, 32⟩,
    ⟨0x000076f900004a91000018220000ecf9, 16⟩,
    ⟨0x00bf001d00720029001300c40053007c, 8⟩,
    ⟨0x06040a09050f0a040d0202050c010c0f, 4⟩,
    ⟨0x12310221313310302232233111022130, 2⟩,
    ⟨0x01405451114110150010144154505040, 1⟩ ]

/-- A bit after an exchange, for any mask: it is turned over for each pair it is part of whose two
bits differ. -/
theorem getLsbD_exchange_xor (x mask : BitVec 128) (shift : Nat) {i : Nat} (hi : i < 128) :
    (exchange x mask shift).getLsbD i
      = ((x.getLsbD i ^^ ((x.getLsbD (i + shift) ^^ x.getLsbD i) && mask.getLsbD i))
        ^^ (decide (shift ≤ i)
          && ((x.getLsbD i ^^ x.getLsbD (i - shift)) && mask.getLsbD (i - shift)))) := by
  simp only [exchange, BitVec.getLsbD_xor, BitVec.getLsbD_and, BitVec.getLsbD_ushiftRight,
    BitVec.getLsbD_shiftLeft, hi, decide_true, Bool.true_and, Nat.add_comm shift i]
  by_cases hle : shift ≤ i
  · have hback : shift + (i - shift) = i := by omega
    rw [hback, decide_eq_true hle, decide_eq_false (Nat.not_lt.mpr hle), Bool.not_false]
  · rw [decide_eq_false hle, decide_eq_true (Nat.lt_of_not_le hle), Bool.not_true, Bool.false_and,
      Bool.false_and]

/-- If a mask does not overlap itself moved, the place above a selected one is not selected. -/
theorem not_selected_above {mask : BitVec 128} {shift i : Nat}
    (hlap : mask &&& (mask <<< shift) = 0#128) (hi : i + shift < 128)
    (hlow : mask.getLsbD i = true) : mask.getLsbD (i + shift) = false := by
  have hbit := congrArg (·.getLsbD (i + shift)) hlap
  have hback : ¬ i + shift < shift := by omega
  simp only [BitVec.getLsbD_and, BitVec.getLsbD_shiftLeft, BitVec.getLsbD_zero, hi, hback, hlow,
    Nat.add_sub_cancel, decide_true, decide_false, Bool.not_false, Bool.and_true] at hbit
  exact hbit

/-- What a stage leaves at a place: the bit from above if the place is selected, the bit from below
if the place below is selected, and otherwise the bit that was there.  This holds for any value and
for any mask whose selected pairs do not overlap. -/
theorem getLsbD_exchange {x mask : BitVec 128} {shift i : Nat} (hi : i < 128)
    (hlap : mask &&& (mask <<< shift) = 0#128) :
    (exchange x mask shift).getLsbD i
      = if mask.getLsbD i then x.getLsbD (i + shift)
        else if shift ≤ i ∧ mask.getLsbD (i - shift) then x.getLsbD (i - shift)
        else x.getLsbD i := by
  rw [getLsbD_exchange_xor x mask shift hi]
  by_cases hle : shift ≤ i
  · cases hlow : mask.getLsbD (i - shift) with
    | true =>
      -- the upper place of a pair, which is the lower place of none
      have hup := not_selected_above hlap (by omega) hlow
      rw [Nat.sub_add_cancel hle] at hup
      cases x.getLsbD i <;> simp [hle, hup]
    | false => cases mask.getLsbD i <;> cases x.getLsbD i <;> simp
  · cases mask.getLsbD i <;> cases x.getLsbD i <;> simp [hle]

/-! ## §2. The permutation and its iterates. -/

/-- The permutation applied once. -/
def permute (x : BitVec 128) : BitVec 128 :=
  stages.foldl (fun x stage => stage.apply x) x

/-- The permutation applied `times` times. -/
def iterate : Nat → BitVec 128 → BitVec 128
  | 0, x => x
  | times + 1, x => iterate times (permute x)

/-- The first `count` iterates of a value, the value itself excluded. -/
def orbit : Nat → BitVec 128 → List (BitVec 128)
  | 0, _ => []
  | count + 1, x => permute x :: orbit count (permute x)

@[simp] theorem length_orbit (count : Nat) (x : BitVec 128) : (orbit count x).length = count := by
  induction count generalizing x with
  | zero => rfl
  | succ count ih => simp [orbit, ih]

theorem orbit_eq_iterates {count k : Nat} (x : BitVec 128) (hk : k < count) :
    (orbit count x)[k]? = some (iterate (k + 1) x) := by
  induction count generalizing x k with
  | zero => omega
  | succ count ih =>
    cases k with
    | zero => rfl
    | succ k => exact ih (permute x) (by omega)

end Flowprint.Permutation
