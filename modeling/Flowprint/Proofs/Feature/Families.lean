/-
  Flowprint.Proofs.Feature.Families
  ────────────────────────────────
  Graphlets and mnemonics do not get in each other's way.

  A key begins with the byte of its kind, so that no graphlet has the key of three mnemonics, and the
  numbers of either are those that it has on its own.  To leave a kind out is therefore the same for the
  hash as to give it no weight.

  Main statements:

      number_apart          the kinds are numbered apart
      filter_extract        to leave a kind out is to drop its features
      families_apart        both kinds are extracted and hashed as if the other were not there
-/
import Flowprint.Proofs.Election
import Flowprint.Proofs.Feature.Numbering

namespace Flowprint

open Std Decimal

/-! ## §1. One kind left out. -/

/-- The same settings, but for a kind that is left out. -/
def Extractor.without (extractor : Extractor) : FeatureKind → Extractor
  | .graphlet => { extractor with graphlets := false }
  | .mnemonicTuple => { extractor with mnemonics := false }

/-- The same hasher, but for a kind that is left out. -/
def Hasher.without (hasher : Hasher) (kind : FeatureKind) : Hasher :=
  { hasher with extractor := hasher.extractor.without kind }

/-- The same hasher, but for the default weight of a kind. -/
def Hasher.withDefault (hasher : Hasher) (weight : Float) : FeatureKind → Hasher
  | .graphlet => { hasher with graphletWeight := weight }
  | .mnemonicTuple => { hasher with mnemonicWeight := weight }

/-! ## §2. Keys and numbers. -/

namespace Extractor

section Families

variable {extractor : Extractor} {g : Flowgraph} {kind : FeatureKind}
  {entry : FeatureKind × FeatureKey} {feature : Feature}

theorem head?_of_mem_graphletKeys {key : FeatureKey} (h : key ∈ extractor.graphletKeys g) :
    key.head? = some FeatureKind.graphlet.keyByte := by
  obtain ⟨distance, -, hdistance⟩ := List.mem_flatMap.mp h
  obtain ⟨centre, -, hcentre⟩ := List.mem_filterMap.mp hdistance
  obtain ⟨part, -, rfl⟩ := Option.map_eq_some_iff.mp hcentre
  rfl

theorem head?_of_mem_tupleKeys {names : List String} {key : FeatureKey}
    (h : key ∈ tupleKeys names) : key.head? = some FeatureKind.mnemonicTuple.keyByte := by
  fun_induction tupleKeys names with
  | case1 a b c rest ih =>
    rcases List.mem_cons.mp h with rfl | htail
    · rfl
    · exact ih htail
  | case2 names hshort => exact absurd h List.not_mem_nil

theorem keys_without_mnemonics (extractor : Extractor) (g : Flowgraph) :
    (extractor.without .mnemonicTuple).keys g
      = if extractor.graphlets then (extractor.graphletKeys g).map (FeatureKind.graphlet, ·)
        else [] :=
  List.append_nil _

theorem keys_without_graphlets (extractor : Extractor) (g : Flowgraph) :
    (extractor.without .graphlet).keys g
      = if extractor.mnemonics then (tupleKeys g.mnemonics).map (FeatureKind.mnemonicTuple, ·)
        else [] :=
  rfl

/-- All keys are those without mnemonics, and then those without graphlets. -/
theorem keys_split (extractor : Extractor) (g : Flowgraph) :
    extractor.keys g = (extractor.without .mnemonicTuple).keys g
      ++ (extractor.without .graphlet).keys g := by
  rw [keys_without_mnemonics, keys_without_graphlets, keys]

theorem mem_without_mnemonics (h : entry ∈ (extractor.without .mnemonicTuple).keys g) :
    entry.1 = .graphlet ∧ entry.2.head? = some FeatureKind.graphlet.keyByte := by
  rw [keys_without_mnemonics] at h
  split at h
  · obtain ⟨key, hkey, rfl⟩ := List.mem_map.mp h
    exact ⟨rfl, head?_of_mem_graphletKeys hkey⟩
  · exact absurd h List.not_mem_nil

theorem mem_without_graphlets (h : entry ∈ (extractor.without .graphlet).keys g) :
    entry.1 = .mnemonicTuple ∧ entry.2.head? = some FeatureKind.mnemonicTuple.keyByte := by
  rw [keys_without_graphlets] at h
  split at h
  · obtain ⟨key, hkey, rfl⟩ := List.mem_map.mp h
    exact ⟨rfl, head?_of_mem_tupleKeys hkey⟩
  · exact absurd h List.not_mem_nil

/-- The kinds are numbered apart, since keys begin with the byte of their kind. -/
theorem number_apart (extractor : Extractor) (g : Flowgraph) :
    number ∅ (extractor.keys g) = number ∅ ((extractor.without .mnemonicTuple).keys g)
      ++ number ∅ ((extractor.without .graphlet).keys g) := by
  rw [number_empty, number_empty, number_empty, keys_split]
  refine numbered_apart fun a ha b hb hsame => ?_
  -- equal keys would begin with one byte
  have hbyte : FeatureKind.graphlet.keyByte = FeatureKind.mnemonicTuple.keyByte := by
    rw [← Option.some_inj, ← (mem_without_mnemonics ha).2, ← (mem_without_graphlets hb).2, hsame]
  exact absurd hbyte (by decide)

theorem select_append (multiplicity : Multiplicity) (first second : List Occurrence) :
    select multiplicity (first ++ second) = select multiplicity first ++ select multiplicity second := by
  cases multiplicity with
  | occurrenceTagged => rfl
  | once => exact List.filter_append ..

/-- All features are those without mnemonics, and then those without graphlets. -/
theorem extract_split (extractor : Extractor) (g : Flowgraph) :
    extractor.extract g = (extractor.without .mnemonicTuple).extract g
      ++ (extractor.without .graphlet).extract g := by
  rw [extract, number_apart, select_append, List.map_append]
  rfl

/-- Features have the kinds of the keys. -/
theorem exists_key_of_mem_extract (h : feature ∈ extractor.extract g) :
    ∃ entry ∈ extractor.keys g, entry.1 = feature.kind := by
  obtain ⟨occurrence, hselected, rfl⟩ := List.mem_map.mp h
  have hnumbered : occurrence ∈ number ∅ (extractor.keys g) := by
    unfold select at hselected
    split at hselected
    · exact hselected
    · exact List.mem_of_mem_filter hselected
  refine ⟨(occurrence.kind, occurrence.key), ?_, rfl⟩
  rw [← map_number ∅ (extractor.keys g)]
  exact List.mem_map_of_mem hnumbered

/-- Of features of one kind all are of other kinds than a given one, or none. -/
theorem filter_kind {features : List Feature} {common : FeatureKind}
    (h : ∀ feature ∈ features, feature.kind = common) (kind : FeatureKind) :
    features.filter (·.kind ≠ kind) = if common = kind then [] else features := by
  split
  next hsame =>
    refine List.filter_eq_nil_iff.mpr fun feature hfeature => ?_
    simp [h feature hfeature, hsame]
  next hother =>
    refine List.filter_eq_self.mpr fun feature hfeature => ?_
    simp [h feature hfeature, hother]

/-- The features of other kinds are those that are extracted without a kind. -/
theorem filter_extract (extractor : Extractor) (g : Flowgraph) (kind : FeatureKind) :
    (extractor.extract g).filter (·.kind ≠ kind) = (extractor.without kind).extract g := by
  have hgraphlets : ∀ feature ∈ (extractor.without .mnemonicTuple).extract g,
      feature.kind = .graphlet := by
    intro feature hfeature
    obtain ⟨entry, hentry, hkind⟩ := exists_key_of_mem_extract hfeature
    rw [← hkind, (mem_without_mnemonics hentry).1]
  have hmnemonics : ∀ feature ∈ (extractor.without .graphlet).extract g,
      feature.kind = .mnemonicTuple := by
    intro feature hfeature
    obtain ⟨entry, hentry, hkind⟩ := exists_key_of_mem_extract hfeature
    rw [← hkind, (mem_without_graphlets hentry).1]
  rw [extract_split, List.filter_append, filter_kind hgraphlets, filter_kind hmnemonics]
  cases kind with
  | graphlet => exact List.nil_append _
  | mnemonicTuple => exact List.append_nil _

end Families

end Extractor

/-! ## §3. Hashes. -/

namespace Hasher

section Hashes

variable {kind : FeatureKind} {zero : Float}

/-- Only the weights of a kind depend on its default. -/
theorem weightOf_withDefault (hasher : Hasher) (zero : Float) (kind : FeatureKind)
    (feature : Feature) :
    (hasher.withDefault zero kind).weightOf feature
      = (hasher.weights.find? feature.id).getD
          (if feature.kind = kind then zero else hasher.defaultWeight feature.kind) := by
  cases kind <;> cases hkind : feature.kind <;> simp [weightOf, withDefault, defaultWeight, hkind]

/-- A kind without weight might as well be left out. -/
theorem hash_without (hasher : Hasher) (g : Flowgraph) (hzero : HasValue zero 0)
    (hentries : ∀ feature ∈ hasher.features g, feature.kind = kind →
      hasher.weights.find? feature.id = none) :
    (hasher.withDefault zero kind).hash g = (hasher.without kind).hash g := by
  have hfeatures : (hasher.withDefault zero kind).features g = hasher.features g := by
    cases kind <;> rfl
  have hkept : (hasher.features g).filter (·.kind ≠ kind) = (hasher.without kind).features g :=
    hasher.extractor.filter_extract g kind
  have hsilent : ∀ feature ∈ hasher.features g, decide (feature.kind ≠ kind) = false →
      HasValue ((hasher.withDefault zero kind).weightOf feature) 0 := by
    intro feature hfeature hkind
    have hkind : feature.kind = kind := by simpa using hkind
    rw [weightOf_withDefault, hentries feature hfeature hkind, if_pos hkind]
    exact hzero
  calc (hasher.withDefault zero kind).hash g
      = (hasher.withDefault zero kind).elect (hasher.features g) := by rw [hash, hfeatures]
    _ = (hasher.withDefault zero kind).elect ((hasher.features g).filter (·.kind ≠ kind)) :=
      (elect_filter _ hsilent).symm
    _ = (hasher.without kind).elect ((hasher.features g).filter (·.kind ≠ kind)) := by
      refine elect_congr fun feature hfeature => ?_
      have hother : feature.kind ≠ kind := by simpa using (List.mem_filter.mp hfeature).2
      rw [weightOf_withDefault, if_neg hother]
      rfl
    _ = (hasher.without kind).hash g := by rw [hkept, hash]

end Hashes

/-- With both kinds there are the features without mnemonics, and then those without graphlets, and the
same holds of the numbers of their occurrences.  A hash without one kind is the hash that gives weight
zero to that kind, if the table has no entries for its features; be there other weights whatever. -/
theorem families_apart :
    (∀ (extractor : Extractor) (g : Flowgraph),
      Extractor.number ∅ (extractor.keys g)
          = Extractor.number ∅ ((extractor.without .mnemonicTuple).keys g)
            ++ Extractor.number ∅ ((extractor.without .graphlet).keys g)
        ∧ extractor.extract g = (extractor.without .mnemonicTuple).extract g
          ++ (extractor.without .graphlet).extract g)
    ∧ ∀ (hasher : Hasher) (g : Flowgraph) (kind : FeatureKind) (zero : Float), HasValue zero 0 →
      (∀ feature ∈ hasher.features g, feature.kind = kind →
        hasher.weights.find? feature.id = none) →
      (hasher.without kind).hash g = (hasher.withDefault zero kind).hash g := by
  constructor
  · intro extractor g
    exact ⟨extractor.number_apart g, extractor.extract_split g⟩
  · intro hasher g kind zero hzero hentries
    exact (hash_without hasher g hzero hentries).symm

/-- A block with graphlets and mnemonic tuples hashes as if it had only one of them, if the others have
no weight. -/
theorem families_apart_pushes :
    ((({} : Extractor).extract Extractor.fourPushes).map Feature.kind
        = [.graphlet, .graphlet, .graphlet, .mnemonicTuple, .mnemonicTuple])
      ∧ (({} : Hasher).without .mnemonicTuple).hash Extractor.fourPushes
        = ({ mnemonicWeight := 0 } : Hasher).hash Extractor.fourPushes
      ∧ (({} : Hasher).without .graphlet).hash Extractor.fourPushes
        = ({ graphletWeight := 0 } : Hasher).hash Extractor.fourPushes := by
  obtain ⟨hsplit, hhash⟩ := families_apart
  have hentries : ∀ feature : Feature, ({} : Hasher).weights.find? feature.id = none := by
    intro feature
    simp [Weights.find?]
  refine ⟨?_, ?_, ?_⟩
  · rw [(hsplit {} Extractor.fourPushes).2]
    decide +kernel
  · exact hhash {} _ .mnemonicTuple 0 hasValue_zero fun feature _ _ => hentries feature
  · exact hhash {} _ .graphlet 0 hasValue_zero fun feature _ _ => hentries feature

end Hasher

end Flowprint
