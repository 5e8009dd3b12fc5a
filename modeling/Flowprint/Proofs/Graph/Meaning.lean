/-
  Flowprint.Proofs.Graph.Meaning
  ────────────────────────────────
  What a document says of a graph.

  Making a graph of a document is a row of calls: blocks, then edges, then the instructions of the
  blocks.  Blocks are never refused.  Edges are refused under the strict policy only, for the first end
  that is no listed block, and then nothing is refused any more.  What the calls leave is what the
  document lists, whatever the order and however often, but for the instructions of a block that
  is listed more than once: there the last list counts.

  Main statements:

      toGraph_eq            making a graph of a document is a row of calls
      toGraph_strict        under the strict policy the first end that is not listed is refused
      describes_toGraph     what is in the graph of a document
      toGraph_meaning       when a document gives a graph, which, and what does not matter to it
-/
import Flowprint.Proofs.Graph.Calls

namespace Flowprint.Document

open Std Flowgraph

/-! ## §1. What a document lists. -/

/-- The listed blocks. -/
def addresses (doc : Document) : List Address :=
  doc.blocks.map BlockEntry.address

/-- The ends of the edges, the source of each before its target. -/
def ends (doc : Document) : List Address :=
  doc.edges.flatMap fun edge => [edge.source, edge.target]

/-- The instructions of a block where it is listed last. -/
def lastCode? (doc : Document) (a : Address) : Option (List Instruction) :=
  ((doc.blocks.filter (·.address = a)).map BlockEntry.instructions).getLast?

/-- A graph that has what a document lists. -/
structure Describes (doc : Document) (policy : EdgePolicy) (g : Flowgraph) : Prop where
  policy : g.policy = policy
  nodes : ∀ {a}, a ∈ g.nodes ↔ a ∈ doc.addresses ∨ a ∈ doc.ends
  edges : ∀ {source target}, (source, target) ∈ g.edges ↔ ⟨source, target⟩ ∈ doc.edges
  instructions : ∀ a, g.instructions a = (doc.lastCode? a).getD []
  /-- A block whose last list is empty has no instructions at all. -/
  blocks : ∀ {a insns}, (a, insns) ∈ g.blocks ↔ doc.lastCode? a = some insns ∧ insns ≠ []

/-! ## §2. Calls. -/

/-- The calls that add the listed blocks. -/
def blockCalls (doc : Document) : List Call :=
  doc.blocks.map fun block => .addNode block.address

/-- The calls that add the listed edges. -/
def edgeCalls (doc : Document) : List Call :=
  doc.edges.map fun edge => .addEdge edge.source edge.target

/-- The calls that give the listed blocks their instructions. -/
def codeCalls (doc : Document) : List Call :=
  doc.blocks.map fun block => .setInstructions block.address block.instructions

/-- The calls that make a graph of a document. -/
def calls (doc : Document) : List Call :=
  doc.blockCalls ++ (doc.edgeCalls ++ doc.codeCalls)

theorem runAll_blockCalls (blocks : List BlockEntry) (g : Flowgraph) :
    runAll (blocks.map fun block => .addNode block.address) g = .ok (addBlocks blocks g) := by
  induction blocks generalizing g with
  | nil => rfl
  | cons block rest ih => exact ih (g.withNode block.address)

theorem runAll_edgeCalls (edges : List EdgeEntry) (g : Flowgraph) :
    runAll (edges.map fun edge => .addEdge edge.source edge.target) g = addEdges edges g := by
  induction edges generalizing g with
  | nil => rfl
  | cons edge rest ih =>
    rw [List.map_cons, runAll, Call.run, addEdges]
    cases g.addEdge edge.source edge.target with
    | ok outcome => exact ih outcome.2
    | error unknown => rfl

theorem runAll_codeCalls (blocks : List BlockEntry) (g : Flowgraph) :
    runAll (blocks.map fun block => .setInstructions block.address block.instructions) g
      = setCode blocks g := by
  induction blocks generalizing g with
  | nil => rfl
  | cons block rest ih =>
    rw [List.map_cons, runAll, Call.run, setCode]
    cases g.setInstructions block.address block.instructions with
    | ok next => exact ih next
    | error unknown => rfl

/-- Making a graph of a document is a row of calls. -/
theorem toGraph_eq (doc : Document) (policy : EdgePolicy) :
    doc.toGraph policy = runAll doc.calls (.empty policy) := by
  rw [calls, runAll_append, blockCalls, runAll_blockCalls]
  dsimp only
  rw [runAll_append, edgeCalls, runAll_edgeCalls, toGraph]
  cases addEdges doc.edges (addBlocks doc.blocks (.empty policy)) with
  | ok joined => exact (runAll_codeCalls doc.blocks joined).symm
  | error unknown => rfl

/-! ## §3. Which documents give a graph. -/

section Outcome

variable {doc : Document} {policy : EdgePolicy} {g : Flowgraph} {a : Address}

theorem needs_blockCalls (doc : Document) (policy : EdgePolicy) :
    ∀ call ∈ doc.blockCalls, call.needs policy = [] :=
  List.forall_mem_map.mpr fun _ _ => rfl

theorem needs_edgeCalls (doc : Document) :
    doc.edgeCalls.flatMap (Call.needs .strict) = doc.ends := by
  rw [edgeCalls, List.flatMap_map]
  rfl

theorem needs_codeCalls (doc : Document) (policy : EdgePolicy) :
    doc.codeCalls.flatMap (Call.needs policy) = doc.addresses := by
  rw [codeCalls, List.flatMap_map, addresses, List.map_eq_flatMap]
  rfl

theorem named_blockCalls (doc : Document) : doc.blockCalls.flatMap Call.named = doc.addresses := by
  rw [blockCalls, List.flatMap_map, addresses, List.map_eq_flatMap]
  rfl

theorem named_edgeCalls (doc : Document) : doc.edgeCalls.flatMap Call.named = doc.ends := by
  rw [edgeCalls, List.flatMap_map]
  rfl

theorem named_codeCalls (doc : Document) : doc.codeCalls.flatMap Call.named = [] := by
  simp [codeCalls, Call.named]

theorem not_mem_nodes_empty : a ∉ (empty policy).nodes :=
  List.not_mem_nil

theorem not_mem_edges_empty {edge : Address × Address} : edge ∉ (empty policy).edges :=
  List.not_mem_nil

/-- Blocks are never refused. -/
theorem doneAll_blockCalls (doc : Document) (policy : EdgePolicy) :
    runAll doc.blockCalls (.empty policy) = .ok (afterAll doc.blockCalls (.empty policy))
      ∧ DoneAll doc.blockCalls (.empty policy) (afterAll doc.blockCalls (.empty policy)) := by
  have hrun := runAll_free (wellFormed_empty policy) (needs_blockCalls doc _)
  exact ⟨hrun, doneAll_runAll (wellFormed_empty policy) hrun⟩

/-- Under the strict policy the first end that is not listed is refused, and nothing else. -/
theorem toGraph_strict (doc : Document) :
    doc.toGraph .strict
      = match doc.ends.find? (· ∉ doc.addresses) with
        | some missing => .error ⟨missing⟩
        | none => .ok (afterAll doc.calls (.empty .strict)) := by
  obtain ⟨hblocks, hdone⟩ := doneAll_blockCalls doc .strict
  have hlisted : (fun a => ! (afterAll doc.blockCalls (.empty .strict)).hasNode a)
      = fun a => decide (a ∉ doc.addresses) := by
    funext a
    rw [decide_not, Bool.not_inj_iff, Bool.eq_iff_iff, decide_eq_true_iff, ← mem_nodes, hdone.nodes,
      named_blockCalls, or_iff_left not_mem_nodes_empty]
  have hnamed : ∀ call ∈ doc.edgeCalls ++ doc.codeCalls, call.named ⊆ call.needs .strict := by
    refine List.forall_mem_append.mpr ⟨List.forall_mem_map.mpr ?_, List.forall_mem_map.mpr ?_⟩
    · intro edge _
      exact List.Subset.refl _
    · intro block _
      exact List.nil_subset _
  -- the blocks that get instructions are listed, so only ends can be missing
  have hcode : doc.addresses.find? (· ∉ doc.addresses) = none := by
    simp
  rw [toGraph_eq, calls, runAll_append, hblocks]
  dsimp only
  rw [runAll_needs hdone.wellFormed (hdone.policy.symm ▸ hnamed), hdone.policy, hlisted,
    show (empty .strict).policy = .strict from rfl, List.flatMap_append, needs_edgeCalls,
    needs_codeCalls, List.find?_append, hcode, Option.or_none]
  cases doc.ends.find? (· ∉ doc.addresses) with
  | some missing => rfl
  | none => exact congrArg Except.ok (afterAll_append _ _ _).symm

/-- A graph that brings the ends of its edges with them refuses no document. -/
theorem toGraph_autoCreate (doc : Document) :
    doc.toGraph .autoCreate = .ok (afterAll doc.calls (.empty .autoCreate)) := by
  have hwell := wellFormed_empty .autoCreate
  have hfree : ∀ call ∈ doc.blockCalls ++ doc.edgeCalls, call.needs .autoCreate = [] :=
    List.forall_mem_append.mpr
      ⟨needs_blockCalls doc .autoCreate, List.forall_mem_map.mpr fun _ _ => rfl⟩
  have hrun := runAll_free hwell hfree
  have hdone := doneAll_runAll hwell hrun
  have hnamed : ∀ call ∈ doc.codeCalls, call.named ⊆ call.needs .autoCreate :=
    List.forall_mem_map.mpr fun _ _ => List.nil_subset _
  -- edges have only added to the blocks that are listed
  have hfound : doc.addresses.find?
      (! (afterAll (doc.blockCalls ++ doc.edgeCalls) (.empty .autoCreate)).hasNode ·) = none := by
    rw [List.find?_eq_none]
    intro a hmem
    have hnode : a ∈ (afterAll (doc.blockCalls ++ doc.edgeCalls) (.empty .autoCreate)).nodes := by
      rw [hdone.nodes, List.flatMap_append, List.mem_append, named_blockCalls]
      exact .inl (.inl hmem)
    simpa using mem_nodes.mp hnode
  rw [toGraph_eq, calls, ← List.append_assoc, runAll_append, hrun]
  dsimp only
  rw [runAll_needs hdone.wellFormed (hdone.policy.symm ▸ hnamed), needs_codeCalls, hfound,
    ← afterAll_append]

/-- The strict policy takes a document if all the ends of its edges are listed. -/
theorem exists_toGraph_iff : (∃ g, doc.toGraph policy = .ok g)
    ↔ (policy = .strict → ∀ a ∈ doc.ends, a ∈ doc.addresses) := by
  cases policy with
  | autoCreate =>
    constructor
    · exact fun _ h => absurd h (by decide)
    · exact fun _ => ⟨_, toGraph_autoCreate doc⟩
  | strict =>
    rw [toGraph_strict]
    cases hmissing : doc.ends.find? (· ∉ doc.addresses) with
    | some missing =>
      constructor
      · rintro ⟨g, h⟩
        exact absurd h (by simp)
      · intro h
        have hlisted := h rfl missing (List.mem_of_find?_eq_some hmissing)
        have hout := List.find?_some (p := (· ∉ doc.addresses)) hmissing
        exact absurd hlisted (of_decide_eq_true hout)
    | none =>
      constructor
      · intro _ _ a hmem
        simpa using List.find?_eq_none.mp hmissing a hmem
      · exact fun _ => ⟨_, rfl⟩

/-! ## §4. What is in the graph of a document. -/

theorem nodes_calls (doc : Document) :
    doc.calls.flatMap Call.named = doc.addresses ++ doc.ends := by
  rw [calls, List.flatMap_append, List.flatMap_append, named_blockCalls, named_edgeCalls,
    named_codeCalls, List.append_nil]

theorem edges_calls (doc : Document) :
    doc.calls.filterMap Call.edge? = doc.edges.map fun edge => (edge.source, edge.target) := by
  have hblocks : doc.blockCalls.filterMap Call.edge? = [] :=
    List.filterMap_eq_nil_iff.mpr (List.forall_mem_map.mpr fun _ _ => rfl)
  have hcode : doc.codeCalls.filterMap Call.edge? = [] :=
    List.filterMap_eq_nil_iff.mpr (List.forall_mem_map.mpr fun _ _ => rfl)
  rw [calls, List.filterMap_append, List.filterMap_append, hblocks, hcode, List.nil_append,
    List.append_nil, edgeCalls, List.filterMap_map, ← List.filterMap_eq_map']
  rfl

theorem code_calls (doc : Document) (a : Address) :
    doc.calls.filterMap (Call.code? a)
      = (doc.blocks.filter (·.address = a)).map BlockEntry.instructions := by
  have hblocks : doc.blockCalls.filterMap (Call.code? a) = [] :=
    List.filterMap_eq_nil_iff.mpr (List.forall_mem_map.mpr fun _ _ => rfl)
  have hedges : doc.edgeCalls.filterMap (Call.code? a) = [] :=
    List.filterMap_eq_nil_iff.mpr (List.forall_mem_map.mpr fun _ _ => rfl)
  rw [calls, List.filterMap_append, List.filterMap_append, hblocks, hedges, List.nil_append,
    List.nil_append, codeCalls, List.filterMap_map, ← List.filterMap_eq_map, List.filterMap_filter]
  simp [Function.comp_def, Call.code?, eq_comm]

theorem mem_addresses_of_lastCode? {insns : List Instruction}
    (h : doc.lastCode? a = some insns) : a ∈ doc.addresses := by
  obtain ⟨block, hblock, -⟩ := List.mem_map.mp (List.mem_of_getLast? h)
  obtain ⟨hmem, haddress⟩ := List.mem_filter.mp hblock
  exact List.mem_map.mpr ⟨block, hmem, of_decide_eq_true haddress⟩

theorem doneAll_toGraph (h : doc.toGraph policy = .ok g) : DoneAll doc.calls (.empty policy) g := by
  rw [toGraph_eq] at h
  exact doneAll_runAll (wellFormed_empty policy) h

/-- What is in the graph of a document. -/
theorem describes_toGraph (h : doc.toGraph policy = .ok g) : Describes doc policy g := by
  have hdone := doneAll_toGraph h
  have hnodes : ∀ {a}, a ∈ g.nodes ↔ a ∈ doc.addresses ∨ a ∈ doc.ends := by
    intro a
    rw [hdone.nodes, or_iff_left not_mem_nodes_empty, nodes_calls, List.mem_append]
  have hcode : ∀ a, g.instructions a = (doc.lastCode? a).getD [] := by
    intro a
    rw [hdone.instructions, code_calls, lastCode?]
    rfl
  refine ⟨hdone.policy, hnodes, ?_, hcode, ?_⟩
  · intro source target
    rw [hdone.edges, or_iff_left not_mem_edges_empty, edges_calls, List.mem_map]
    constructor
    · rintro ⟨edge, hmem, heq⟩
      obtain ⟨rfl, rfl⟩ := Prod.mk.inj heq
      exact hmem
    · intro hmem
      exact ⟨_, hmem, rfl⟩
  · intro a insns
    rw [Flowgraph.blocks, ExtTreeMap.mem_toList_iff_getElem?_eq_some, getElem?_code hdone.wellFormed,
      hcode]
    cases hlast : doc.lastCode? a with
    | none => simp
    | some last =>
      -- a block that is listed is in the graph, so its last list is there unless it is empty
      rw [if_pos (hnodes.mpr (.inl (mem_addresses_of_lastCode? hlast)))]
      simp only [Option.getD_some, Option.filter_eq_some_iff, Option.some.injEq, Bool.not_eq_true',
        List.isEmpty_eq_false_iff]

/-! ## §5. What does not matter. -/

/-- What a document says of a graph, as far as it matters to the graph. -/
structure Same (doc other : Document) : Prop where
  addresses : ∀ a, a ∈ doc.addresses ↔ a ∈ other.addresses
  edges : ∀ edge, edge ∈ doc.edges ↔ edge ∈ other.edges
  code : ∀ a, doc.lastCode? a = other.lastCode? a

theorem Same.symm {other : Document} (h : Same doc other) : Same other doc where
  addresses := fun a => (h.addresses a).symm
  edges := fun edge => (h.edges edge).symm
  code := fun a => (h.code a).symm

theorem Same.ends {other : Document} (h : Same doc other) (a : Address) :
    a ∈ doc.ends ↔ a ∈ other.ends := by
  simp only [Document.ends, List.mem_flatMap, h.edges]

theorem Same.toGraph {other : Document} (hsame : Same doc other) (h : doc.toGraph policy = .ok g) :
    other.toGraph policy = .ok g := by
  obtain ⟨g', hother⟩ : ∃ g', other.toGraph policy = .ok g' := by
    refine exists_toGraph_iff.mpr fun hpolicy a hmem => ?_
    have hlisted := exists_toGraph_iff.mp ⟨g, h⟩ hpolicy a ((hsame.ends a).mpr hmem)
    exact (hsame.addresses a).mp hlisted
  have hg := describes_toGraph h
  have hg' := describes_toGraph hother
  have heq : g = g' := by
    refine eq_of_wellFormed (doneAll_toGraph h).wellFormed (doneAll_toGraph hother).wellFormed
      ?_ ?_ ?_ ?_
    · rw [hg.policy, hg'.policy]
    · intro a
      rw [hg.nodes, hg'.nodes, hsame.addresses, hsame.ends]
    · rintro ⟨source, target⟩
      rw [hg.edges, hg'.edges, hsame.edges]
    · intro a
      rw [hg.instructions, hg'.instructions, hsame.code]
  rw [heq, hother]

/-- Of blocks that are listed once, one at most has a given address. -/
theorem filter_address_perm {blocks : List BlockEntry} (hblocks : doc.blocks.Perm blocks)
    (hnodup : doc.addresses.Nodup) :
    doc.blocks.filter (·.address = a) = blocks.filter (·.address = a) := by
  -- a list of one block at most has one order only
  have hperm := hblocks.filter (·.address = a)
  have hone : (doc.blocks.filter (·.address = a)).length ≤ 1 := by
    have hcount := List.nodup_iff_count.mp hnodup a
    rw [addresses, List.count_eq_countP, List.countP_map, List.countP_eq_length_filter] at hcount
    exact hcount
  cases hfound : doc.blocks.filter (·.address = a) with
  | nil =>
    rw [hfound] at hperm
    exact (List.nil_perm.mp hperm).symm
  | cons block rest =>
    rw [hfound] at hperm hone
    obtain rfl := List.eq_nil_of_length_eq_zero (Nat.le_zero.mp (Nat.le_of_succ_le_succ hone))
    exact List.singleton_perm.mp hperm

/-- Blocks that are listed once may be listed in any order. -/
theorem same_of_blocks {blocks : List BlockEntry} (hblocks : doc.blocks.Perm blocks)
    (hnodup : doc.addresses.Nodup) : Same doc { doc with blocks := blocks } where
  addresses := fun _ => (hblocks.map _).mem_iff
  edges := fun _ => Iff.rfl
  code := by
    intro a
    rw [lastCode?, lastCode?, filter_address_perm hblocks hnodup]

/-- Edges may be listed in any order, and more than once. -/
theorem same_of_edges {edges : List EdgeEntry} (hedges : ∀ edge, edge ∈ doc.edges ↔ edge ∈ edges) :
    Same doc { doc with edges := edges } where
  addresses := fun _ => Iff.rfl
  edges := hedges
  code := fun _ => rfl

/-- A graph that was read is well formed, and so it is read back. -/
theorem parse_again {text : String} (h : Flowgraph.parse text policy = .ok g) :
    Flowgraph.parse g.toText policy = .ok g ∧ Flowgraph.parse g.toPrettyText policy = .ok g := by
  obtain ⟨doc, hgraph⟩ : ∃ doc : Document, doc.toGraph policy = .ok g := by
    rw [Flowgraph.parse] at h
    split at h
    next => exact absurd h (by simp)
    next doc _ =>
      split at h
      next made hmade =>
        obtain rfl := Except.ok.inj h
        exact ⟨doc, hmade⟩
      next => exact absurd h (by simp)
  have hdone := doneAll_toGraph hgraph
  have hpolicy : { g with policy := policy } = g := by
    rw [← show g.policy = policy from hdone.policy]
  have hread := parse_of_wellFormed hdone.wellFormed policy
  rwa [hpolicy] at hread

end Outcome

/-! ## §6. Documents. -/

/-- When a document gives a graph, which, and what does not matter to it. -/
theorem toGraph_meaning (doc : Document) :
    (∃ g, doc.toGraph .autoCreate = .ok g)
    ∧ ((∃ g, doc.toGraph .strict = .ok g) ↔ ∀ edge ∈ doc.edges,
        edge.source ∈ doc.addresses ∧ edge.target ∈ doc.addresses)
    ∧ (∀ unknown, doc.toGraph .strict = .error unknown
        ↔ doc.ends.find? (· ∉ doc.addresses) = some unknown.address)
    ∧ (∀ policy g, doc.toGraph policy = .ok g → Describes doc policy g)
    -- edges in another order, or more than once
    ∧ (∀ edges : List EdgeEntry, (∀ edge, edge ∈ doc.edges ↔ edge ∈ edges) → ∀ policy g,
        doc.toGraph policy = .ok g ↔ { doc with edges := edges }.toGraph policy = .ok g)
    -- blocks in another order, if none is listed twice
    ∧ (∀ blocks : List BlockEntry, doc.blocks.Perm blocks → doc.addresses.Nodup → ∀ policy g,
        doc.toGraph policy = .ok g ↔ { doc with blocks := blocks }.toGraph policy = .ok g)
    -- a graph that was read is read back
    ∧ (∀ text policy g, Flowgraph.parse text policy = .ok g →
        Flowgraph.parse g.toText policy = .ok g ∧ Flowgraph.parse g.toPrettyText policy = .ok g) := by
  refine ⟨⟨_, toGraph_autoCreate doc⟩, ?_, ?_, fun _ _ => describes_toGraph, ?_, ?_,
    fun _ _ _ => parse_again⟩
  · rw [exists_toGraph_iff, forall_prop_of_true rfl, ends, List.forall_mem_flatMap]
    simp
  · rintro ⟨missing⟩
    rw [toGraph_strict]
    cases doc.ends.find? (· ∉ doc.addresses) with
    | none => simp
    | some first => simp
  · intro edges hedges policy g
    have hsame := same_of_edges hedges
    exact ⟨hsame.toGraph, hsame.symm.toGraph⟩
  · intro blocks hblocks hnodup policy g
    have hsame := same_of_blocks hblocks hnodup
    exact ⟨hsame.toGraph, hsame.symm.toGraph⟩

/-- A document that lists a block twice, an edge twice, and an edge to a block that it does not
list. -/
def relisted : Document where
  name := none
  blocks := [⟨1, [⟨"nop", []⟩]⟩, ⟨2, [⟨"ret", []⟩]⟩, ⟨1, []⟩]
  edges := [⟨1, 2⟩, ⟨1, 2⟩, ⟨2, 3⟩]

theorem toGraph_meaning_relisted :
    relisted.toGraph .strict = .error ⟨3⟩
      ∧ ∃ g, relisted.toGraph .autoCreate = .ok g ∧ 3 ∈ g.nodes ∧ (2, 3) ∈ g.edges
        ∧ g.instructions 1 = [] ∧ (2, [⟨"ret", []⟩]) ∈ g.blocks := by
  obtain ⟨⟨g, hgraph⟩, -, hstrict, hdescribes, -⟩ := toGraph_meaning relisted
  have hg := hdescribes .autoCreate g hgraph
  refine ⟨(hstrict ⟨3⟩).mpr (by decide), g, hgraph, hg.nodes.mpr (by decide),
    hg.edges.mpr (by decide), ?_, hg.blocks.mpr (by decide)⟩
  rw [hg.instructions]
  decide

end Flowprint.Document
