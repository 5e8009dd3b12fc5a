/-
  Flowprint.Vote
  ────────────────────────────────
  The election that makes a hash of weighted patterns.

  A ballot is a pattern of 128 places with a weight.  At every place it adds its weight to the total
  if the pattern has a one there, and takes it away otherwise.  A place of the outcome is set if
  its total is positive, so that a tie clears it.

  The totals are taken over any numbers with addition and subtraction: floating point when a hash
  is computed, integers when exact weights are reasoned about.

  Main statements:

      getLsbD_outcome         a place is set exactly if its total is positive
      total_append            totals are taken from the left
-/

namespace Flowprint

/-! ## §1. Values by their places. -/

/-- The value with the given bits, place 0 the least significant. -/
def ofPlaces : (w : Nat) → (Nat → Bool) → BitVec w
  | 0, _ => .nil
  | w + 1, place => .cons (place w) (ofPlaces w place)

theorem getLsbD_ofPlaces {w i : Nat} (place : Nat → Bool) (h : i < w) :
    (ofPlaces w place).getLsbD i = place i := by
  induction w with
  | zero => omega
  | succ w ih =>
    rw [ofPlaces, BitVec.getLsbD_cons]
    by_cases hi : i = w
    · simp [hi]
    · rw [if_neg hi, ih (by omega)]

/-! ## §2. Elections. -/

/-- A weighted pattern. -/
structure Ballot (α : Type) where
  weight : α
  pattern : BitVec 128

namespace Ballot

variable {α : Type} [Add α] [Sub α] [OfNat α 0]

/-- A total with one more ballot counted at a place. -/
def count (place : Nat) (total : α) (ballot : Ballot α) : α :=
  if ballot.pattern.getLsbD place then total + ballot.weight else total - ballot.weight

/-- The total of ballots at a place. -/
def total (ballots : List (Ballot α)) (place : Nat) : α :=
  ballots.foldl (count place) 0

/-- The totals at all places. -/
def totals (ballots : List (Ballot α)) : List α :=
  (List.range 128).map (total ballots)

/-- The places at which the total is positive. -/
def outcome [LT α] [DecidableLT α] (ballots : List (Ballot α)) : BitVec 128 :=
  ofPlaces 128 fun place => decide (0 < total ballots place)

theorem total_append (ballots more : List (Ballot α)) (place : Nat) :
    total (ballots ++ more) place = more.foldl (count place) (total ballots place) := by
  simp [total]

/-- A place of the outcome is set exactly if its total is positive. -/
theorem getLsbD_outcome [LT α] [DecidableLT α] (ballots : List (Ballot α)) {place : Nat}
    (h : place < 128) :
    (outcome ballots).getLsbD place = decide (0 < total ballots place) :=
  getLsbD_ofPlaces _ h

end Ballot

end Flowprint
