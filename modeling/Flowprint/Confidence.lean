/-
  Flowprint.Confidence
  ────────────────────────────────
  How much an agreement of two hashes says: the probability that two random hashes agree on so many
  places or more, and the odds against a chance hit in a population.

  The probabilities are the upper tail of the binomial distribution over 128 fair coins, summed
  from the top in binary floating point, so that the sequence never increases.
-/

namespace Flowprint.Confidence

/-- The number of coins. -/
def coins : Nat := 128

/-- The binomial coefficients of `coins`, each computed from the one before it, from entry `i` with
value `c` on; `count` of them. -/
def coefficients : Nat → Nat → Float → List Float
  | 0, _, _ => []
  | count + 1, i, c =>
    c :: coefficients count (i + 1) (c * (coins - i).toFloat / (i + 1).toFloat)

/-- The probabilities of exactly `0`, `1`, …, `coins` heads. -/
def densities : List Float :=
  (coefficients (coins + 1) 0 1.0).map (· / (1 <<< coins : Nat).toFloat)

/-- Sums over each end part of a list, the last entry added first. -/
def tailSums : List Float → List Float
  | [] => []
  | x :: rest =>
    match tailSums rest with
    | [] => [0.0 + x]
    | sum :: sums => (sum + x) :: sum :: sums

/-- Entry `m` is the probability of `m` heads or more. -/
def tail : List Float :=
  tailSums densities

/-- The probability that two random hashes agree on `bits` places or more. -/
def probability (bits : UInt32) : Float :=
  tail.getD (min bits.toNat coins) 0.0

/-- Hits in a population that are no relatives, per hit that is one: the larger, the better. -/
def odds (bits : UInt32) (population : UInt64) : Float :=
  1.0 / (probability bits * (max population 1).toFloat)

/-- The share of the places on which two hashes agree. -/
def similarity (bits : UInt32) : Float :=
  (min bits.toNat coins).toFloat / coins.toFloat

/-- Similarity rescaled so that agreement on half of the places counts as none. -/
def normalized (bits : UInt32) : Float :=
  let excess := similarity bits - 0.5
  (if excess > 0.0 then excess else 0.0) * 2.0

end Flowprint.Confidence
