/-
  Flowprint.Proofs.Command.Listing
  ────────────────────────────────
  Listings of features as weight files.

  A listing begins with a remark, and then has a row for each feature: the feature, a blank and its
  weight.  So it is a file of weights.  The kind of a feature is lost in it, and only the identity is
  left, so that features have to differ in their identities for the file to tell them apart.

  Main statements:

      parse_featureLines    a listing is read as the weights of its features
      listing_faithful      a hasher with these weights makes the same hash and the same listing
-/
import Flowprint.Command.Hashing
import Flowprint.Proofs.Election
import Flowprint.Proofs.Feature.WeightFile
import Mathlib.Data.List.Dedup

namespace Flowprint

open Std

/-! ## §1. Rows of features. -/

namespace Weights

/-- The row of a feature. -/
def Row.ofFeature (feature : Feature) (weight : Float) : Row where
  name := feature.text.toList
  id := feature.id
  weight := weight
  reads := by
    rw [String.ofList_toList]
    exact FeatureId.read_featureText feature
  word c h := by
    have hall : ∀ d < 16, Text.isBlank (Text.Radix.hexDigit d) = false := by decide
    rw [FeatureId.toList_featureText, List.mem_cons, List.mem_cons] at h
    rcases h with rfl | rfl | hdigit
    · cases feature.kind <;> decide
    · decide
    · obtain ⟨d, hd, rfl⟩ := FeatureId.mem_digits hdigit
      exact hall d hd
  head := by
    refine ⟨_, _, FeatureId.toList_featureText feature, ?_⟩
    cases feature.kind <;> decide

/-- A remark says nothing. -/
theorem readLines_remark {remark : List Char} (h : '\n' ∉ remark) (rest : List Char) (number : Nat)
    (table : Weights) :
    readLines number (Text.lines (('#' :: remark) ++ '\n' :: rest)) table
      = readLines (number + 1) (Text.lines rest) table := by
  have hline : '\n' ∉ '#' :: remark := by
    rw [List.mem_cons, not_or]
    exact ⟨by decide, h⟩
  have hsays : isRemark (Text.trim (Text.dropReturn ('#' :: remark))) = true := by
    obtain ⟨line, hreturn⟩ := Text.dropReturn_cons (by decide : '#' ≠ '\r') remark
    obtain ⟨last, htrim⟩ := Text.trim_cons (by decide : Text.isBlank '#' = false) line
    rw [hreturn, htrim]
    rfl
  rw [Text.lines_append hline, readLines, hsays, if_pos rfl]

end Weights

/-! ## §2. Listings. -/

namespace Command

variable {hasher : Hasher} {features : List Feature}

/-- The row of a feature with the weight that it has. -/
def row (hasher : Hasher) (feature : Feature) : Weights.Row :=
  .ofFeature feature (hasher.weightOf feature)

/-- The remark at the beginning of a listing. -/
def remark (hasher : Hasher) (features : List Feature) : List Char :=
  ' ' :: (toString features.length).toList ++ " features, hash ".toList
    ++ (hasher.elect features).text.toList

theorem not_mem_remark (hasher : Hasher) (features : List Feature) :
    '\n' ∉ remark hasher features := by
  have hfeed : Text.isBlank '\n' ≠ false := by decide
  have hnumber : '\n' ∉ (toString features.length).toList := by
    intro hmem
    have hdigits : (toString features.length).toList = Nat.toDigits 10 features.length :=
      String.toList_ofList
    rw [hdigits] at hmem
    exact hfeed (Decimal.isBlank_of_isDigit (Decimal.isDigit_toDigits hmem))
  have hhash : '\n' ∉ (hasher.elect features).text.toList := by
    have hdigit : ∀ d < 16, Text.Radix.hexDigit d ≠ '\n' := by decide
    intro hmem
    rw [SimHash.text, String.toList_ofList, List.mem_append] at hmem
    rcases hmem with hmem | hmem
    · obtain ⟨d, hd, heq⟩ := Text.Radix.mem_hexDigits hmem
      exact hdigit d hd heq.symm
    · obtain ⟨d, hd, heq⟩ := Text.Radix.mem_hexDigits hmem
      exact hdigit d hd heq.symm
  have hwords : '\n' ∉ " features, hash ".toList := by decide
  simp only [remark, List.mem_append, List.mem_cons, not_or]
  exact ⟨⟨⟨by decide, hnumber⟩, hwords⟩, hhash⟩

theorem toList_row (hasher : Hasher) (feature : Feature) :
    (s!"{feature.text} {Decimal.plain (hasher.weightOf feature)}\n" : String).toList
      = (row hasher feature).line := by
  have hfeature : toString feature.text = feature.text := rfl
  have hweight : toString (Decimal.plain (hasher.weightOf feature))
    = Decimal.plain (hasher.weightOf feature) := rfl
  have hblank : (toString " ").toList = [' '] := by decide
  have hfeed : (toString "\n").toList = ['\n'] := by decide
  rw [String.toList_append, String.toList_append, String.toList_append, hfeature, hweight, hblank,
    hfeed, List.append_assoc feature.text.toList, List.singleton_append]
  rfl

theorem toList_featureLines (hasher : Hasher) (features : List Feature) :
    (featureLines hasher features).toList
      = ('#' :: remark hasher features) ++ '\n'
        :: (features.map (row hasher)).flatMap Weights.Row.line := by
  have hhash : toString (hasher.elect features).text = (hasher.elect features).text := rfl
  have hbegin : (toString "# ").toList = ['#', ' '] := by decide
  have hfeed : (toString "\n").toList = ['\n'] := by decide
  have hwords : toString " features, hash " = " features, hash " := rfl
  unfold featureLines
  rw [String.toList_append, String.toList_join, List.flatMap_map, List.flatMap_map]
  simp only [toList_row]
  simp only [String.toList_append, hhash, hbegin, hfeed, hwords, remark, List.append_assoc,
    List.cons_append, List.nil_append]

/-- The entries of a listing. -/
def entries (hasher : Hasher) (features : List Feature) : List (FeatureId × Float) :=
  features.map fun feature => (feature.id, hasher.weightOf feature)

/-- A listing is read as the weights of its features. -/
theorem parse_featureLines (h : ∀ feature ∈ features, (hasher.weightOf feature).isFinite = true) :
    Weights.parse (featureLines hasher features)
      = .ok (Weights.ofEntries (entries hasher features)) := by
  have hrows : ∀ listed ∈ features.map (row hasher), listed.weight.isFinite = true := by
    intro listed hmem
    obtain ⟨feature, hfeature, rfl⟩ := List.mem_map.mp hmem
    exact h feature hfeature
  have hread := Weights.readLines_rows hrows [] (1 + 1) ∅
  rw [List.append_nil, List.map_map] at hread
  rw [Weights.parse, toList_featureLines,
    Weights.readLines_remark (not_mem_remark hasher features), hread, Weights.ofEntries_eq]
  rfl

/-- Identities tell the features apart. -/
def Distinct (features : List Feature) : Prop :=
  ∀ a ∈ features, ∀ b ∈ features, a.id = b.id → a = b

theorem agree_entries (h : Distinct features) : Map.Agree (entries hasher features) := by
  intro id weight other hweight hother
  obtain ⟨a, ha, heqa⟩ := List.mem_map.mp hweight
  obtain ⟨b, hb, heqb⟩ := List.mem_map.mp hother
  obtain ⟨rfl, rfl⟩ := Prod.mk.inj heqa
  obtain ⟨hid, rfl⟩ := Prod.mk.inj heqb
  rw [h b hb a ha hid]

/-- The weights of a listing are those of its features. -/
theorem find?_entries (h : Distinct features) {id : FeatureId} {weight : Float} :
    (Weights.ofEntries (entries hasher features)).find? id = some weight
      ↔ ∃ feature ∈ features, feature.id = id ∧ hasher.weightOf feature = weight := by
  rw [Weights.find?_ofEntries (agree_entries h)]
  simp only [entries, List.mem_map, Prod.mk.injEq]

/-- There are as many weights as there are features, apart from repeats. -/
theorem size_entries (h : Distinct features) :
    (Weights.ofEntries (entries hasher features)).size = features.dedup.length := by
  have hentries : (entries hasher features.dedup).Nodup := by
    refine List.Nodup.map_on (fun a ha b hb heq => ?_) (List.nodup_dedup features)
    exact h a (List.mem_dedup.mp ha) b (List.mem_dedup.mp hb) (Prod.mk.inj heq).1
  have hlisted : (Weights.ofEntries (entries hasher features)).toList.Nodup :=
    (Weights.ordered_toList _).imp fun hless heq => by
      rw [heq] at hless
      exact absurd hless (BitVec.lt_irrefl _)
  have hperm : (Weights.ofEntries (entries hasher features)).toList.Perm
      (entries hasher features.dedup) := by
    refine (List.perm_ext_iff_of_nodup hlisted hentries).mpr fun (id, weight) => ?_
    rw [Weights.mem_toList, find?_entries h]
    simp only [entries, List.mem_map, List.mem_dedup, Prod.mk.injEq]
  have hlength := hperm.length_eq
  rw [ExtTreeMap.length_toList] at hlength
  rw [hlength, entries, List.length_map]

/-! ## §3. Hashing with a listing. -/

/-- A table that was read from the listing of a graph has the weights of the features, and a hasher
that takes its weights from there does what the first one does. -/
structure Faithful (config : HasherConfig) (hasher : Hasher) (g : Flowgraph) (table : Weights) :
    Prop where
  entries : ∀ id weight, table.find? id = some weight
    ↔ ∃ feature ∈ hasher.features g, feature.id = id ∧ hasher.weightOf feature = weight
  size : table.size = (hasher.features g).dedup.length
  features : (Hasher.of config table).features g = hasher.features g
  weights : ∀ feature ∈ hasher.features g,
    (Hasher.of config table).weightOf feature = hasher.weightOf feature
  hash : (Hasher.of config table).hash g = hasher.hash g
  lines : featureLines (Hasher.of config table) ((Hasher.of config table).features g)
    = featureLines hasher (hasher.features g)

/-- Hashers that give features the same weights elect the same hash and make the same listing. -/
theorem elect_congr {other : Hasher}
    (h : ∀ feature ∈ features, other.weightOf feature = hasher.weightOf feature) :
    other.elect features = hasher.elect features
      ∧ featureLines other features = featureLines hasher features := by
  have helect : other.elect features = hasher.elect features := Hasher.elect_congr h
  refine ⟨helect, ?_⟩
  have hrows : features.map (row other) = features.map (row hasher) :=
    List.map_congr_left fun feature hmem => by rw [row, row, h feature hmem]
  apply String.toList_injective
  rw [toList_featureLines, toList_featureLines, hrows, remark, remark, helect]

/-- The listing of the features of a graph is a faithful file of weights, if all weights are finite and
identities tell the features apart. -/
theorem listing_faithful {config : HasherConfig} {weights : Weights} {g : Flowgraph}
    (hgraphlet : config.graphletWeight.isFinite = true)
    (hmnemonic : config.mnemonicWeight.isFinite = true) (hweights : weights.Finite)
    (hdistinct : Distinct ((Hasher.of config weights).features g)) :
    ∃ table, Weights.parse (featureLines (Hasher.of config weights)
        ((Hasher.of config weights).features g)) = .ok table
      ∧ Faithful config (Hasher.of config weights) g table := by
  have hfinite : ∀ feature, ((Hasher.of config weights).weightOf feature).isFinite = true := by
    intro feature
    rw [Hasher.weightOf]
    cases hfound : (Hasher.of config weights).weights.find? feature.id with
    | some weight => exact hweights feature.id weight hfound
    | none =>
      cases feature.kind with
      | graphlet => exact hgraphlet
      | mnemonicTuple => exact hmnemonic
  generalize hfirst : Hasher.of config weights = hasher at *
  have hagain : ∀ feature ∈ hasher.features g,
      (Hasher.of config (Weights.ofEntries (entries hasher (hasher.features g)))).weightOf feature
        = hasher.weightOf feature := by
    intro feature hmem
    have hfound : (Weights.ofEntries (entries hasher (hasher.features g))).find? feature.id
        = some (hasher.weightOf feature) :=
      (find?_entries hdistinct).mpr ⟨feature, hmem, rfl, rfl⟩
    rw [Hasher.weightOf]
    show ((Weights.ofEntries _).find? feature.id).getD _ = _
    rw [hfound]
    rfl
  have hfeatures : (Hasher.of config (Weights.ofEntries (entries hasher (hasher.features g)))).features
      g = hasher.features g := by
    rw [← hfirst]
    rfl
  obtain ⟨hhash, hlines⟩ := elect_congr hagain
  refine ⟨_, parse_featureLines fun feature _ => hfinite feature,
    fun id weight => find?_entries hdistinct, size_entries hdistinct, hfeatures, hagain, ?_, ?_⟩
  · rw [Hasher.hash, Hasher.hash, hfeatures, hhash]
  · rw [hfeatures, hlines]

/-- A block with one mnemonic four times, so that there are two equal runs of three. -/
def pushes : Flowgraph :=
  { (Flowgraph.empty .autoCreate).withNode 1 with
    code := (∅ : ExtTreeMap Address (List Instruction)).insert 1 (List.replicate 4 ⟨"push", []⟩) }

/-- A configuration without graphlets. -/
def mnemonicsAlone : HasherConfig := { disableGraphlets := true, mnemonicWeight := 0.5 }

theorem listing_faithful_pushes :
    let hasher := Hasher.of mnemonicsAlone ∅
    ∃ table, Weights.parse (featureLines hasher (hasher.features pushes)) = .ok table
      ∧ table.size = 2 ∧ (Hasher.of mnemonicsAlone table).hash pushes = hasher.hash pushes := by
  intro hasher
  have hempty : (∅ : Weights).Finite := by
    intro id weight h
    rw [Weights.find?, ExtTreeMap.getElem?_empty] at h
    exact absurd h (by simp)
  have hdistinct : Distinct (hasher.features pushes) := by
    show ∀ a ∈ hasher.features pushes, ∀ b ∈ hasher.features pushes, a.id = b.id → a = b
    decide +kernel
  have htwo : (hasher.features pushes).dedup.length = 2 := by decide +kernel
  obtain ⟨table, hparse, hfaithful⟩ :=
    listing_faithful (by decide) (by decide) hempty hdistinct
  exact ⟨table, hparse, hfaithful.size.trans htwo, hfaithful.hash⟩

end Command

end Flowprint
