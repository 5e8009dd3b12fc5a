/-
  Flowprint.Proofs.Relocation
  ────────────────────────────────
  Hashes do not depend on where code is.

  A copy of a function at other addresses, with its blocks in the same order, has the same features
  in the same order, and hence the same hash.  The graphlets are the same because the shapes are; the
  mnemonic tuples are the same because the blocks come in the same order.  What instructions work on,
  and what a graph does with unknown blocks, is not looked at.

  Main statements:

      graphletKey?_image    blocks keep the keys of their neighbourhoods
      mnemonics_eq          the mnemonics of a graph are those of its blocks in order
      Relocates.extract_image   copies have the same features
      hash_relocated        copies, whatever their operands and policy, have the same hash
-/
import Flowprint.Hasher
import Flowprint.Proofs.Graph.Renaming

namespace Flowprint

open Std

/-! ## §1. Graphlets. -/

section Graphlets

variable {φ : Address → Address} {g g' : Flowgraph} {centre : Address}

theorem shapeKey_image (h : Flowgraph.Renames φ g g') (hcentre : g.hasNode centre = true) :
    shapeKey g' (φ centre) = shapeKey g centre := by
  rw [shapeKey, shapeKey, h.shapeHash_image hcentre, h.shapeHash_image hcentre]

/-- Blocks keep the keys of their neighbourhoods. -/
theorem graphletKey?_image (h : Flowgraph.Renames φ g g') (hcentre : g.hasNode centre = true)
    (maxSize : Nat) (distance : UInt32) :
    graphletKey? g' maxSize (φ centre) distance = graphletKey? g maxSize centre distance := by
  unfold graphletKey?
  rcases h.neighbourhood_image hcentre distance.toNat maxSize with
    ⟨hnone, hnone'⟩ | ⟨part, part', hpart, hpart', hrenames, hnode⟩
  · rw [hnone, hnone', Option.map_none, Option.map_none]
  · rw [hpart, hpart', Option.map_some, Option.map_some, shapeKey_image hrenames hnode]

end Graphlets

/-! ## §2. Code in the order of blocks. -/

namespace Flowgraph

/-- What is nothing for the members that are left out is the same without them. -/
theorem flatMap_filter_eq {α β : Type} (items : List α) (keep : α → Bool) (f : α → List β)
    (h : ∀ a, keep a = false → f a = []) : (items.filter keep).flatMap f = items.flatMap f := by
  induction items with
  | nil => rfl
  | cons a rest ih =>
    rw [List.filter_cons, List.flatMap_cons]
    split
    next => rw [List.flatMap_cons, ih]
    next hout =>
      rw [h a (by simpa using hout), List.nil_append]
      exact ih

theorem pairwise_nodes (g : Flowgraph) : g.nodes.Pairwise (· < ·) :=
  g.outgoing.ordered_keys.imp Std.compare_eq_lt.mp

/-- The blocks with code are blocks, in the same order. -/
theorem keys_code {g : Flowgraph} (h : g.WellFormed) : g.code.keys = g.nodes.filter g.code.contains := by
  have hmem : ∀ a, a ∈ g.code.keys ↔ a ∈ g.nodes.filter g.code.contains := by
    intro a
    rw [List.mem_filter, mem_nodes, ExtTreeMap.mem_keys, ExtTreeMap.contains_iff_mem]
    constructor
    · intro ha
      obtain ⟨insns, hinsns⟩ := Option.isSome_iff_exists.mp (ExtTreeMap.mem_iff_isSome_getElem?.mp ha)
      exact ⟨(h.code hinsns).1, ha⟩
    · exact And.right
  have hcode : g.code.keys.Pairwise (· < ·) := g.code.ordered_keys.imp Std.compare_eq_lt.mp
  have hnodes : (g.nodes.filter g.code.contains).Pairwise (· < ·) :=
    (pairwise_nodes g).sublist List.filter_sublist
  have hperm := (List.perm_ext_iff_of_nodup (hcode.imp UInt64.ne_of_lt)
    (hnodes.imp UInt64.ne_of_lt)).mpr hmem
  refine hperm.eq_of_pairwise (fun a b _ _ hab hba => ?_) hcode hnodes
  exact absurd hba (UInt64.lt_asymm hab)

/-- The mnemonics of a graph are those of its blocks in order. -/
theorem mnemonics_eq {g : Flowgraph} (h : g.WellFormed) :
    g.mnemonics = g.nodes.flatMap fun a => (g.instructions a).map Instruction.mnemonic := by
  have hblocks : g.mnemonics
      = g.code.keys.flatMap fun a => (g.instructions a).map Instruction.mnemonic := by
    rw [← ExtTreeMap.map_fst_toList_eq_keys, List.flatMap_map]
    show g.code.toList.flatMap _ = _
    refine List.flatMap_congr fun (a, insns) hmem => ?_
    have hinsns : g.code[a]? = some insns := ExtTreeMap.mem_toList_iff_getElem?_eq_some.mp hmem
    show insns.map Instruction.mnemonic = (g.code.getD a []).map Instruction.mnemonic
    rw [ExtTreeMap.getD_eq_getD_getElem?, hinsns, Option.getD_some]
  -- blocks without code add nothing
  rw [hblocks, keys_code h]
  refine flatMap_filter_eq _ _ _ fun a ha => ?_
  have hnone : a ∉ g.code := by
    rw [← ExtTreeMap.contains_iff_mem, ha]
    exact Bool.false_ne_true
  show (g.code.getD a []).map Instruction.mnemonic = []
  rw [ExtTreeMap.getD_eq_fallback hnone, List.map_nil]

end Flowgraph

/-! ## §3. Copies. -/

namespace Flowgraph

/-- A map carries the blocks, edges and mnemonics of a graph to those of another, and keeps the order
of the blocks. -/
structure Relocates (φ : Address → Address) (g g' : Flowgraph) : Prop where
  increasing : ∀ {a b}, g.hasNode a = true → g.hasNode b = true → a < b → φ a < φ b
  nodes : ∀ {b}, g'.hasNode b = true ↔ ∃ a, g.hasNode a = true ∧ φ a = b
  edges : ∀ {a b}, g.hasNode a = true → g.hasNode b = true →
    (φ b ∈ g'.successors (φ a) ↔ b ∈ g.successors a)
  mnemonics : ∀ {a}, g.hasNode a = true → (g'.instructions (φ a)).map Instruction.mnemonic
    = (g.instructions a).map Instruction.mnemonic

section Relocates

variable {φ : Address → Address} {g g' : Flowgraph}

theorem Relocates.renames (h : Relocates φ g g') (hg : g.WellFormed) (hg' : g'.WellFormed) :
    Renames φ g g' where
  source := hg
  target := hg'
  injective := by
    intro a b ha hb heq
    -- an increasing map takes different blocks to different blocks
    rcases Nat.lt_trichotomy a.toNat b.toNat with hlt | hsame | hgt
    · exact absurd heq (UInt64.ne_of_lt (h.increasing ha hb (UInt64.lt_iff_toNat_lt.mpr hlt)))
    · exact UInt64.toNat_inj.mp hsame
    · exact absurd heq.symm (UInt64.ne_of_lt (h.increasing hb ha (UInt64.lt_iff_toNat_lt.mpr hgt)))
  nodes := h.nodes
  edges := h.edges

/-- The blocks of a copy come in the same order. -/
theorem Relocates.nodes_eq (h : Relocates φ g g') (hg : g.WellFormed) (hg' : g'.WellFormed) :
    g'.nodes = g.nodes.map φ := by
  have hmap : (g.nodes.map φ).Pairwise (· < ·) := by
    refine List.pairwise_map.mpr ((pairwise_nodes g).imp_of_mem fun {a b} ha hb hlt => ?_)
    exact h.increasing (mem_nodes.mp ha) (mem_nodes.mp hb) hlt
  refine (h.renames hg hg').nodes_perm.eq_of_pairwise (fun a b _ _ hab hba => ?_)
    (pairwise_nodes g') hmap
  exact absurd hba (UInt64.lt_asymm hab)

theorem Relocates.mnemonics_image (h : Relocates φ g g') (hg : g.WellFormed)
    (hg' : g'.WellFormed) : g'.mnemonics = g.mnemonics := by
  rw [mnemonics_eq hg', mnemonics_eq hg, h.nodes_eq hg hg', List.flatMap_map]
  exact List.flatMap_congr fun a ha => h.mnemonics (mem_nodes.mp ha)

theorem Relocates.graphletKeys_image (h : Relocates φ g g') (hg : g.WellFormed)
    (hg' : g'.WellFormed) (extractor : Extractor) :
    extractor.graphletKeys g' = extractor.graphletKeys g := by
  unfold Extractor.graphletKeys
  rw [h.nodes_eq hg hg']
  refine List.flatMap_congr fun distance _ => ?_
  rw [List.filterMap_map]
  refine List.filterMap_congr fun centre hcentre => ?_
  exact graphletKey?_image (h.renames hg hg') (mem_nodes.mp hcentre) _ _

/-- Copies have the same features. -/
theorem Relocates.extract_image (h : Relocates φ g g') (hg : g.WellFormed) (hg' : g'.WellFormed)
    (extractor : Extractor) : extractor.extract g' = extractor.extract g := by
  have hkeys : extractor.keys g' = extractor.keys g := by
    rw [Extractor.keys, Extractor.keys, h.graphletKeys_image hg hg', h.mnemonics_image hg hg']
  rw [Extractor.extract, Extractor.extract, hkeys]

end Relocates

/-! ## §4. Operands and policies. -/

/-- The graph with other operands, chosen for each place in the code, and with another policy. -/
def reworded (g : Flowgraph) (operands : Address → Nat → Instruction → List String)
    (policy : EdgePolicy) : Flowgraph :=
  { g with
    code := g.code.map fun a insns =>
      insns.mapIdx fun i insn => { insn with operands := operands a i insn }
    policy := policy }

section Reworded

variable {g : Flowgraph} (operands : Address → Nat → Instruction → List String)
  (policy : EdgePolicy)

theorem instructions_reworded (a : Address) :
    (g.reworded operands policy).instructions a
      = (g.instructions a).mapIdx fun i insn => { insn with operands := operands a i insn } := by
  show (g.code.map _).getD a [] = (g.code.getD a []).mapIdx _
  rw [ExtTreeMap.getD_eq_getD_getElem?, ExtTreeMap.getD_eq_getD_getElem?, ExtTreeMap.getElem?_map]
  cases g.code[a]? with
  | none => rfl
  | some insns => rfl

theorem wellFormed_reworded (h : g.WellFormed) : (g.reworded operands policy).WellFormed where
  keys := h.keys
  mirrored := h.mirrored
  ends := h.ends
  code := by
    intro a insns hcode
    change (g.code.map _)[a]? = some insns at hcode
    rw [ExtTreeMap.getElem?_map, Option.map_eq_some_iff] at hcode
    obtain ⟨old, hold, rfl⟩ := hcode
    obtain ⟨hnode, hsome⟩ := h.code hold
    exact ⟨hnode, fun hempty => hsome (List.mapIdx_eq_nil_iff.mp hempty)⟩

theorem relocates_reworded : Relocates id g (g.reworded operands policy) where
  increasing := fun _ _ hlt => hlt
  nodes := by
    intro b
    constructor
    · intro hb
      exact ⟨b, hb, rfl⟩
    · intro hex
      obtain ⟨a, ha, rfl⟩ := hex
      exact ha
  edges := fun _ _ => Iff.rfl
  mnemonics := by
    intro a _
    show ((g.reworded operands policy).instructions a).map Instruction.mnemonic = _
    rw [instructions_reworded]
    refine List.ext_getElem ?_ fun i hi hi' => ?_
    · rw [List.length_map, List.length_mapIdx, List.length_map]
    · rw [List.getElem_map, List.getElem_map, List.getElem_mapIdx]

end Reworded

end Flowgraph

/-! ## §5. Hashes. -/

/-- A copy of a graph at other addresses, in the same order and with the same mnemonics, has the same
features in the same order, and the same hash; and so has the graph with other operands and another
policy. -/
theorem hash_relocated {g : Flowgraph} (hg : g.Built) (hasher : Hasher) :
    (∀ {φ g'}, g'.Built → Flowgraph.Relocates φ g g' →
      hasher.features g' = hasher.features g ∧ hasher.hash g' = hasher.hash g)
    ∧ ∀ operands policy, hasher.features (g.reworded operands policy) = hasher.features g
      ∧ hasher.hash (g.reworded operands policy) = hasher.hash g := by
  have hcopy : ∀ {φ g'}, Flowgraph.Relocates φ g g' → g'.WellFormed →
      hasher.features g' = hasher.features g ∧ hasher.hash g' = hasher.hash g := by
    intro φ g' h hg'
    have hfeatures : hasher.features g' = hasher.features g :=
      h.extract_image (Flowgraph.wellFormed_built hg) hg' hasher.extractor
    exact ⟨hfeatures, by rw [Hasher.hash, Hasher.hash, hfeatures]⟩
  constructor
  · intro φ g' hg' h
    exact hcopy h (Flowgraph.wellFormed_built hg')
  · intro operands policy
    exact hcopy (Flowgraph.relocates_reworded operands policy)
      (Flowgraph.wellFormed_reworded operands policy (Flowgraph.wellFormed_built hg))

/-- Two blocks with an edge between them. -/
def joined (source target : Address) : Flowgraph :=
  (((Flowgraph.empty .autoCreate).withNode source).withNode target).withEdge source target

/-- The two blocks with an instruction in the first. -/
def jump (source target : Address) (operand : String) : Flowgraph :=
  { joined source target with
    code := (∅ : ExtTreeMap Address (List Instruction)).insert source [⟨"jmp", [operand]⟩] }

section Jump

variable {source target a b : Address} {operand : String}

theorem hasNode_jump :
    (jump source target operand).hasNode a = true ↔ a = source ∨ a = target := by
  have hempty : (Flowgraph.empty .autoCreate).hasNode a = false := by
    simp [Flowgraph.hasNode, Flowgraph.empty]
  show (joined source target).hasNode a = true ↔ _
  rw [joined, Flowgraph.hasNode_withEdge, Flowgraph.hasNode_withNode, Flowgraph.hasNode_withNode,
    hempty]
  constructor
  · intro hcase
    rcases hcase with hsource | htarget | hsource | hnone
    · exact .inl hsource
    · exact .inr htarget
    · exact .inl hsource
    · exact absurd hnone Bool.false_ne_true
  · intro hcase
    rcases hcase with hsource | htarget
    · exact .inl hsource
    · exact .inr (.inl htarget)

theorem mem_successors_jump :
    b ∈ (jump source target operand).successors a ↔ a = source ∧ b = target := by
  have hempty : ¬ b ∈ (Flowgraph.empty .autoCreate).successors a := by
    rw [Flowgraph.mem_successors]
    exact ExtTreeSet.not_mem_empty
  show b ∈ (joined source target).successors a ↔ _
  rw [joined, Flowgraph.mem_successors_withEdge, Flowgraph.mem_successors_withNode,
    Flowgraph.mem_successors_withNode]
  exact or_iff_left hempty

theorem built_jump : (jump source target operand).Built := by
  have hedge : (joined source target).Built := .addEdge (.empty .autoCreate) rfl
  have hnode : (joined source target).hasNode source = true := Flowgraph.hasNode_withEdge.mpr (.inl rfl)
  have hset : (joined source target).setInstructions source [⟨"jmp", [operand]⟩]
      = .ok (jump source target operand) := by
    rw [Flowgraph.setInstructions, if_pos hnode]
    rfl
  exact .setInstructions hedge hset

theorem relocates_jump : Flowgraph.Relocates (· + 0x500) (jump 1 2 "2") (jump 0x501 0x502 "0x502") where
  increasing := by
    intro a b ha hb
    rcases hasNode_jump.mp ha with rfl | rfl <;> rcases hasNode_jump.mp hb with rfl | rfl <;> decide
  nodes := by
    intro b
    rw [hasNode_jump]
    constructor
    · intro hcase
      rcases hcase with rfl | rfl
      · exact ⟨1, hasNode_jump.mpr (.inl rfl), rfl⟩
      · exact ⟨2, hasNode_jump.mpr (.inr rfl), rfl⟩
    · intro hex
      obtain ⟨a, ha, rfl⟩ := hex
      rcases hasNode_jump.mp ha with rfl | rfl
      · exact .inl rfl
      · exact .inr rfl
  edges := by
    intro a b ha hb
    rw [mem_successors_jump, mem_successors_jump]
    rcases hasNode_jump.mp ha with rfl | rfl <;> rcases hasNode_jump.mp hb with rfl | rfl <;> decide
  mnemonics := by
    intro a ha
    rcases hasNode_jump.mp ha with rfl | rfl
    · rfl
    · rfl

theorem hash_relocated_jump :
    (jump 1 2 "2").Built ∧ (jump 0x501 0x502 "0x502").Built
      ∧ Flowgraph.Relocates (· + 0x500) (jump 1 2 "2") (jump 0x501 0x502 "0x502")
      ∧ Hasher.hash {} (jump 0x501 0x502 "0x502") = Hasher.hash {} (jump 1 2 "2") :=
  ⟨built_jump, built_jump, relocates_jump,
    ((hash_relocated built_jump {}).1 built_jump relocates_jump).2⟩

end Jump

end Flowprint
