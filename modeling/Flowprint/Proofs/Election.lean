/-
  Flowprint.Proofs.Election
  ────────────────────────────────
  The election of a hash is a weighted majority vote.

  As long as weights are whole and no total is rounded, the totals are those of whole numbers.  Then a
  bit is set if the features with that bit outweigh the others, the order of the features does not
  matter, and features that come or go change no bit whose total is beyond their weight.  Features
  without weight change nothing in any case.

  Main statements:

      Ballot.total_filter   ballots without weight change no total but the sign of a zero
      exact_of_small        totals are exact up to the 53rd power of two
      tally_eq_sub          a total is the weight for a bit less the weight against it
      abs_tally_sub_le      totals differ by no more than the weight of what differs
      elect_majority        the bits of a hash are decided by majority, with a margin
-/
import Flowprint.Proofs.Decimal.Sums
import Flowprint.Hasher

namespace Flowprint

open Decimal

/-! ## §1. Ballots without weight. -/

namespace Ballot

section Zeros

variable {β : Type} {t t' : Float} {ballot : Ballot Float} {place : Nat}

theorem count_same (h : SameUpToSign t t') (ballot : Ballot Float) :
    SameUpToSign (count place t ballot) (count place t' ballot) := by
  unfold count
  split
  · exact h.add_right _
  · exact h.sub_right _

theorem count_zero (h : HasValue ballot.weight 0) : SameUpToSign (count place t ballot) t := by
  unfold count
  split
  · exact add_zero_eq h
  · exact sub_zero_eq h

/-- A total with one more ballot. -/
theorem total_concat {α : Type} [Add α] [Sub α] [OfNat α 0] (ballots : List (Ballot α))
    (last : Ballot α) (place : Nat) :
    total (ballots ++ [last]) place = count place (total ballots place) last :=
  total_append ballots [last] place

/-- Ballots without weight change no total but the sign of a zero. -/
theorem total_filter (vote : β → Ballot Float) (kept : β → Bool) {items : List β}
    (h : ∀ item ∈ items, kept item = false → HasValue (vote item).weight 0) :
    SameUpToSign (total ((items.filter kept).map vote) place) (total (items.map vote) place) := by
  induction items using List.reverseRecOn with
  | nil => exact .refl _
  | append_singleton items last ih =>
    have ih := ih fun item hitem => h item (List.mem_append_left _ hitem)
    rw [List.map_append, List.map_singleton, total_concat, List.filter_append]
    cases hlast : kept last with
    | true =>
      rw [List.filter_cons_of_pos hlast, List.filter_nil, List.map_append, List.map_singleton,
        total_concat]
      exact count_same ih _
    | false =>
      have hzero := h last (List.mem_append_right _ (List.mem_singleton_self _)) hlast
      rw [List.filter_cons_of_neg (by simp [hlast]), List.filter_nil, List.append_nil]
      exact ih.trans (count_zero hzero).symm

/-- The signs of the totals decide the outcome. -/
theorem outcome_congr {ballots others : List (Ballot Float)}
    (h : ∀ place < 128, 0 < total ballots place ↔ 0 < total others place) :
    outcome ballots = outcome others := by
  refine BitVec.eq_of_getLsbD_eq fun place hplace => ?_
  rw [getLsbD_outcome _ hplace, getLsbD_outcome _ hplace]
  exact decide_eq_decide.mpr (h place hplace)

end Zeros

end Ballot

namespace Hasher

/-! ## §2. Whole weights. -/

/-- The ballot of a feature with a whole weight. -/
def wholeBallot (weight : Feature → ℤ) (feature : Feature) : Ballot ℤ :=
  ⟨weight feature, FeatureId.projection feature.id⟩

/-- The total of whole weights at a place. -/
def tally (weight : Feature → ℤ) (features : List Feature) (place : Nat) : ℤ :=
  Ballot.total (features.map (wholeBallot weight)) place

/-- Whether a feature votes for a place. -/
def favours (place : Nat) (feature : Feature) : Bool :=
  (FeatureId.projection feature.id).getLsbD place

/-- The weight of the features that vote for a place. -/
def support (weight : Feature → ℤ) (features : List Feature) (place : Nat) : ℤ :=
  ((features.filter (favours place)).map weight).sum

/-- The weight of the features that vote against a place. -/
def opposition (weight : Feature → ℤ) (features : List Feature) (place : Nat) : ℤ :=
  ((features.filter (! favours place ·)).map weight).sum

/-- The absolute weight of the features that are more often in one list than in the other. -/
def difference (weight : Feature → ℤ) (features others : List Feature) : ℤ :=
  (((features : Multiset Feature) - others + (others - features)).map (|weight ·|)).sum

/-- Weights are whole, and none of the totals that are reached on the way is rounded. -/
structure Exact (hasher : Hasher) (weight : Feature → ℤ) (features : List Feature) : Prop where
  whole : ∀ feature ∈ features, HasValue (hasher.weightOf feature) (weight feature)
  sums : ∀ place < 128, ∀ begun, begun <+: features →
    HasValue (Ballot.total (begun.map hasher.ballot) place) (tally weight begun place)

section Tally

variable {weight : Feature → ℤ} {features others : List Feature} {place : Nat}

/-- What a feature adds to the total at a place. -/
def signed (weight : Feature → ℤ) (place : Nat) (feature : Feature) : ℤ :=
  if favours place feature then weight feature else -weight feature

theorem abs_signed (weight : Feature → ℤ) (place : Nat) (feature : Feature) :
    |signed weight place feature| = |weight feature| := by
  unfold signed
  split
  · rfl
  · exact abs_neg _

theorem tally_concat (weight : Feature → ℤ) (features : List Feature) (last : Feature)
    (place : Nat) :
    tally weight (features ++ [last]) place
      = tally weight features place + signed weight place last := by
  rw [tally, List.map_append, List.map_singleton, Ballot.total_concat, ← tally, Ballot.count, signed,
    favours, wholeBallot]
  split
  · rfl
  · exact Int.sub_eq_add_neg

/-- A total is a sum, in any order. -/
theorem tally_eq_sum (weight : Feature → ℤ) (features : List Feature) (place : Nat) :
    tally weight features place = ((features : Multiset Feature).map (signed weight place)).sum := by
  rw [Multiset.map_coe, Multiset.sum_coe]
  induction features using List.reverseRecOn with
  | nil => rfl
  | append_singleton features last ih =>
    rw [tally_concat, ih, List.map_append, List.sum_append, List.map_singleton, List.sum_singleton]

/-- A total is the weight for a place less the weight against it. -/
theorem tally_eq_sub (weight : Feature → ℤ) (features : List Feature) (place : Nat) :
    tally weight features place
      = support weight features place - opposition weight features place := by
  rw [tally_eq_sum, Multiset.map_coe, Multiset.sum_coe, support, opposition]
  induction features with
  | nil => rfl
  | cons feature features ih =>
    rw [List.map_cons, List.sum_cons, ih, signed]
    cases hfavours : favours place feature <;> simp [hfavours] <;> ring

theorem abs_sum_signed_le (weight : Feature → ℤ) (features : Multiset Feature) (place : Nat) :
    |(features.map (signed weight place)).sum| ≤ (features.map (|weight ·|)).sum := by
  have habs : features.map (|weight ·|) = features.map (abs ∘ signed weight place) := by
    refine Multiset.map_congr rfl fun feature _ => ?_
    rw [Function.comp_apply, abs_signed]
  rw [habs, ← Multiset.map_map]
  exact Multiset.abs_sum_le_sum_abs

theorem abs_tally_le (weight : Feature → ℤ) (features : List Feature) (place : Nat) :
    |tally weight features place| ≤ (features.map (|weight ·|)).sum := by
  have hle := abs_sum_signed_le weight features place
  rwa [← tally_eq_sum, Multiset.map_coe, Multiset.sum_coe] at hle

/-- What a list has in common with another, and what it has beyond that. -/
theorem sum_signed_split (weight : Feature → ℤ) (features others : Multiset Feature)
    (place : Nat) :
    (features.map (signed weight place)).sum = ((features - others).map (signed weight place)).sum
      + ((features ∩ others).map (signed weight place)).sum := by
  rw [← Multiset.sum_add, ← Multiset.map_add, Multiset.sub_add_inter]

/-- Totals differ by no more than the weight of what differs. -/
theorem abs_tally_sub_le (weight : Feature → ℤ) (features others : List Feature) (place : Nat) :
    |tally weight features place - tally weight others place| ≤ difference weight features others := by
  -- what is in both lists adds the same to both totals
  have hsum : tally weight features place - tally weight others place
      = (((features : Multiset Feature) - others).map (signed weight place)).sum
        - (((others : Multiset Feature) - features).map (signed weight place)).sum := by
    rw [tally_eq_sum, tally_eq_sum, sum_signed_split weight features others,
      sum_signed_split weight others features, Multiset.inter_comm]
    ring
  rw [hsum, difference, Multiset.map_add, Multiset.sum_add]
  exact (abs_sub _ _).trans
    (add_le_add (abs_sum_signed_le weight _ place) (abs_sum_signed_le weight _ place))

theorem sum_abs_le (weight : Feature → ℤ) (h : others <+: features) :
    (others.map (|weight ·|)).sum ≤ (features.map (|weight ·|)).sum := by
  obtain ⟨rest, rfl⟩ := h
  rw [List.map_append, List.sum_append]
  refine le_add_of_nonneg_right (List.sum_nonneg fun x hx => ?_)
  obtain ⟨feature, -, rfl⟩ := List.mem_map.mp hx
  exact abs_nonneg _

theorem tally_perm (h : others.Perm features) : tally weight others place = tally weight features place := by
  rw [tally_eq_sum, tally_eq_sum, Multiset.coe_eq_coe.mpr h]

end Tally

/-! ## §3. Exact totals. -/

section Totals

variable {hasher : Hasher} {weight : Feature → ℤ} {features others : List Feature} {place : Nat}

/-- One more feature is counted exactly if the format can hold the total. -/
theorem hasValue_concat {begun : List Feature} {last : Feature}
    (hbegun : HasValue (Ballot.total (begun.map hasher.ballot) place) (tally weight begun place))
    (hlast : HasValue (hasher.weightOf last) (weight last))
    (h : |tally weight (begun ++ [last]) place| ≤ 2 ^ 53) :
    HasValue (Ballot.total ((begun ++ [last]).map hasher.ballot) place)
      (tally weight (begun ++ [last]) place) := by
  have hholds := representable_intCast h
  rw [List.map_append, List.map_singleton, Ballot.total_concat, Ballot.count]
  rw [tally_concat, signed, favours] at hholds ⊢
  show HasValue (if (FeatureId.projection last.id).getLsbD place then _ else _) _
  split
  next hbit =>
    rw [if_pos hbit, Int.cast_add] at hholds
    rw [Int.cast_add]
    exact hbegun.add hlast hholds
  next hbit =>
    rw [if_neg hbit, ← Int.sub_eq_add_neg, Int.cast_sub] at hholds
    rw [← Int.sub_eq_add_neg, Int.cast_sub]
    exact hbegun.sub hlast hholds

/-- Totals are exact up to the 53rd power of two. -/
theorem exact_of_small (hwhole : ∀ feature ∈ features,
      HasValue (hasher.weightOf feature) (weight feature))
    (hsmall : (features.map (|weight ·|)).sum ≤ 2 ^ 53) : Exact hasher weight features where
  whole := hwhole
  sums := by
    intro place _ begun hbegun
    induction begun using List.reverseRecOn with
    | nil => exact Int.cast_zero (R := ℚ) ▸ hasValue_zero
    | append_singleton begun last ih =>
      have hlast := hwhole last (hbegun.subset (by simp))
      refine hasValue_concat (ih ((List.prefix_append _ _).trans hbegun)) hlast ?_
      exact (abs_tally_le weight _ place).trans ((sum_abs_le weight hbegun).trans hsmall)

/-- The default weights are all one. -/
theorem exact_default (extractor : Extractor) (h : features.length ≤ 2 ^ 53) :
    Exact { extractor := extractor } (fun _ => 1) features := by
  refine exact_of_small (fun feature _ => ?_) ?_
  · have hweight : Hasher.weightOf { extractor := extractor } feature = 1.0 := by
      cases hkind : feature.kind <;> simp [weightOf, Weights.find?, defaultWeight, hkind]
    rw [hweight, Int.cast_one]
    exact hasValue_one
  · simpa using h

theorem Exact.total_pos (h : Exact hasher weight features) (hplace : place < 128) :
    0 < Ballot.total (features.map hasher.ballot) place ↔ 0 < tally weight features place := by
  rw [(h.sums place hplace features List.prefix_rfl).pos_iff, Int.cast_pos]

/-- The bits of an election without rounding. -/
theorem Exact.getLsbD_elect (h : Exact hasher weight features) (hplace : place < 128) :
    (hasher.elect features).toBits.getLsbD place = true ↔ 0 < tally weight features place := by
  rw [elect, SimHash.toBits_ofBits, Ballot.getLsbD_outcome _ hplace, decide_eq_true_iff,
    h.total_pos hplace]

/-- Hashers that give features the same weights elect the same hash. -/
theorem elect_congr {other : Hasher}
    (h : ∀ feature ∈ features, other.weightOf feature = hasher.weightOf feature) :
    other.elect features = hasher.elect features := by
  have hballots : features.map other.ballot = features.map hasher.ballot :=
    List.map_congr_left fun feature hmem => by rw [ballot, ballot, h feature hmem]
  rw [elect, elect, hballots]

/-- Features of weight zero change nothing. -/
theorem elect_filter (kept : Feature → Bool) (h : ∀ feature ∈ features, kept feature = false →
      HasValue (hasher.weightOf feature) 0) :
    hasher.elect (features.filter kept) = hasher.elect features := by
  refine congrArg SimHash.ofBits (Ballot.outcome_congr fun place _ => ?_)
  exact (Ballot.total_filter hasher.ballot kept h).pos_iff

end Totals

/-! ## §4. Majorities. -/

/-- Of features with whole weights, few enough for exact totals, those with a bit set it exactly if they
outweigh the others.  Their order does not matter, nor do features of weight zero, however many there
are and wherever they stand.  If lists differ by less than the total of a bit, they agree on the bit.

Totals are exact up to the 53rd power of two, and so they are with the default weights. -/
theorem elect_majority (hasher : Hasher) (weight : Feature → ℤ) :
    (∀ features, (∀ feature ∈ features, HasValue (hasher.weightOf feature) (weight feature)) →
      (features.map (|weight ·|)).sum ≤ 2 ^ 53 → Exact hasher weight features)
    ∧ (∀ extractor : Extractor, ∀ features : List Feature, features.length ≤ 2 ^ 53 →
      Exact { extractor := extractor } (fun _ => 1) features)
    ∧ (∀ features, Exact hasher weight features → ∀ place < 128,
      ((hasher.elect features).toBits.getLsbD place = true
        ↔ opposition weight features place < support weight features place))
    ∧ (∀ features others, Exact hasher weight features → Exact hasher weight others →
      others.Perm features → hasher.elect others = hasher.elect features)
    ∧ (∀ features, ∀ kept : Feature → Bool,
      (∀ feature ∈ features, kept feature = false → HasValue (hasher.weightOf feature) 0) →
      hasher.elect (features.filter kept) = hasher.elect features)
    ∧ ∀ features others, Exact hasher weight features → Exact hasher weight others →
      ∀ place < 128, difference weight features others < |tally weight features place| →
        (hasher.elect others).toBits.getLsbD place
          = (hasher.elect features).toBits.getLsbD place := by
  refine ⟨fun features => exact_of_small, fun extractor features => exact_default extractor,
    ?majority, ?order, ?zeros, ?margin⟩
  case majority =>
    intro features hexact place hplace
    rw [hexact.getLsbD_elect hplace, tally_eq_sub, sub_pos]
  case order =>
    intro features others hfeatures hothers hperm
    refine congrArg SimHash.ofBits (Ballot.outcome_congr fun place hplace => ?_)
    rw [hothers.total_pos hplace, hfeatures.total_pos hplace, tally_perm hperm]
  case zeros =>
    intro features kept hzero
    exact elect_filter kept hzero
  case margin =>
    intro features others hfeatures hothers place hplace hmargin
    have hmoved := (abs_tally_sub_le weight features others place).trans_lt hmargin
    rw [Bool.eq_iff_iff, hothers.getLsbD_elect hplace, hfeatures.getLsbD_elect hplace]
    -- a total that moves by less than its absolute value keeps its sign
    rw [abs_lt] at hmoved
    rcases abs_cases (tally weight features place) with ⟨habs, -⟩ | ⟨habs, -⟩ <;> omega

/-- A hasher for which mnemonics have no weight. -/
def deafHasher : Hasher :=
  { mnemonicWeight := 0 }

/-- Its weights. -/
def deafWeight (feature : Feature) : ℤ :=
  if feature.kind = .graphlet then 1 else 0

/-- Two graphlets and three mnemonics in a row. -/
def threeFeatures : List Feature :=
  [⟨.graphlet, 1⟩, ⟨.graphlet, 2⟩, ⟨.mnemonicTuple, 3⟩]

/-- Both graphlets vote for the first bit, and one of them would do. -/
theorem elect_majority_three :
    Exact deafHasher deafWeight threeFeatures
      ∧ Exact deafHasher deafWeight threeFeatures.tail
      ∧ (deafHasher.elect threeFeatures).toBits.getLsbD 0 = true
      ∧ deafHasher.elect threeFeatures.reverse = deafHasher.elect threeFeatures
      ∧ deafHasher.elect (threeFeatures.filter (·.kind = .graphlet)) = deafHasher.elect threeFeatures
      ∧ difference deafWeight threeFeatures threeFeatures.tail
        < |tally deafWeight threeFeatures 0|
      ∧ (deafHasher.elect threeFeatures.tail).toBits.getLsbD 0 = true
      ∧ Exact {} (fun _ => 1) threeFeatures := by
  obtain ⟨hsmall, hdefault, hmajority, horder, hzeros, hmargin⟩ :=
    elect_majority deafHasher deafWeight
  have hwhole : ∀ feature, HasValue (deafHasher.weightOf feature) (deafWeight feature) := by
    rintro ⟨kind, id⟩
    cases kind with
    | graphlet => simpa [weightOf, Weights.find?, deafHasher, defaultWeight, deafWeight] using hasValue_one
    | mnemonicTuple =>
      simpa [weightOf, Weights.find?, deafHasher, defaultWeight, deafWeight] using hasValue_zero
  have hexact : Exact deafHasher deafWeight threeFeatures :=
    hsmall _ (fun feature _ => hwhole feature) (by decide)
  have htail : Exact deafHasher deafWeight threeFeatures.tail :=
    hsmall _ (fun feature _ => hwhole feature) (by decide)
  have hreverse : Exact deafHasher deafWeight threeFeatures.reverse :=
    hsmall _ (fun feature _ => hwhole feature) (by decide)
  have hbit : (deafHasher.elect threeFeatures).toBits.getLsbD 0 = true :=
    (hmajority _ hexact 0 (by decide)).mpr (by decide +kernel)
  have hkept : ∀ feature ∈ threeFeatures, decide (feature.kind = .graphlet) = false →
      HasValue (deafHasher.weightOf feature) 0 := by
    intro feature _ hkind
    have hvalue := hwhole feature
    rwa [deafWeight, if_neg (by simpa using hkind), Int.cast_zero] at hvalue
  have hdiffer : difference deafWeight threeFeatures threeFeatures.tail
      < |tally deafWeight threeFeatures 0| := by decide +kernel
  exact ⟨hexact, htail, hbit, horder _ _ hexact hreverse (List.reverse_perm _),
    hzeros _ (·.kind = .graphlet) hkept, hdiffer,
    (hmargin _ _ hexact htail 0 (by decide) hdiffer).trans hbit, hdefault {} _ (by decide)⟩

end Hasher

end Flowprint
