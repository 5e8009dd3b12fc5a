/-
  Flowprint.Proofs.Graph.Exchange
  ────────────────────────────────
  Graphs written as documents and read back.

  Any document is read back from both of its printed forms.  The document of a graph lists all that
  a graph holds but its policy, and all its edges join listed blocks, so that even a strict reader
  takes it.  A graph made from it has the same blocks, edges and code, and well-formed graphs that
  agree in these are equal.

  Main statements:

      parse_document       a document is read back from its printed forms
      addEdges_ok          edges between blocks are all taken, under either policy
      toGraph_document     the document of a graph describes that graph
      parse_toText         a graph that the operations build is read back
-/
import Flowprint.Graph.Document
import Flowprint.Proofs.Graph.Built
import Flowprint.Proofs.Json.Reading

namespace Flowprint

open Std

/-! ## §1. Documents. -/

theorem written_instruction (insn : Instruction) : Json.Written insn.toJson := by
  have hoperands : Json.Written (.list (insn.operands.map .text)) := by
    refine Json.written_list (List.forall_mem_map.mpr ?_)
    intro operand _
    exact Json.written_text operand
  refine Json.written_object (List.forall_mem_cons.mpr ⟨?_, List.forall_mem_singleton.mpr ?_⟩)
  · exact Json.written_text insn.mnemonic
  · exact hoperands

theorem written_block (block : BlockEntry) : Json.Written block.toJson := by
  have hcode : Json.Written (.list (block.instructions.map Instruction.toJson)) := by
    refine Json.written_list (List.forall_mem_map.mpr ?_)
    intro insn _
    exact written_instruction insn
  refine Json.written_object (List.forall_mem_cons.mpr ⟨?_, List.forall_mem_singleton.mpr ?_⟩)
  · exact Json.written_int _
  · exact hcode

theorem written_edge (edge : EdgeEntry) : Json.Written edge.toJson := by
  refine Json.written_object (List.forall_mem_cons.mpr ⟨?_, List.forall_mem_singleton.mpr ?_⟩)
  · exact Json.written_int _
  · exact Json.written_int _

theorem written_document (doc : Document) : Json.Written doc.toJson := by
  have hblocks : Json.Written (.list (doc.blocks.map BlockEntry.toJson)) := by
    refine Json.written_list (List.forall_mem_map.mpr ?_)
    intro block _
    exact written_block block
  have hedges : Json.Written (.list (doc.edges.map EdgeEntry.toJson)) := by
    refine Json.written_list (List.forall_mem_map.mpr ?_)
    intro edge _
    exact written_edge edge
  refine Json.written_object ?_
  intro member h
  rcases List.mem_append.mp h with hname | hlists
  · cases hdoc : doc.name with
    | none =>
      rw [hdoc] at hname
      exact absurd hname List.not_mem_nil
    | some name =>
      rw [hdoc] at hname
      rw [List.mem_singleton.mp hname]
      exact Json.written_text name
  · rcases List.mem_cons.mp hlists with rfl | hlast
    · exact hblocks
    · rw [List.mem_singleton.mp hlast]
      exact hedges

namespace Document

theorem reads_instruction (insn : Instruction) : Json.Reads instruction insn.toJson insn := by
  have hoperands :
      Json.Reads (Json.list Json.text) (.list (insn.operands.map .text)) insn.operands :=
    Json.reads_list fun operand _ => Json.reads_text operand
  refine Json.reads_map (a := (insn.mnemonic, insn.operands, ())) _ ?_
  refine Json.reads_record (Json.fills_first (Json.reads_text insn.mnemonic)
    (Json.fills_first hoperands .done ?_) ?_) ?_
  · simp
  · simp [Json.Field.required]
  · rfl

theorem reads_block (b : BlockEntry) : Json.Reads block b.toJson b := by
  have hcode : Json.Reads (Json.list instruction) (.list (b.instructions.map Instruction.toJson))
      b.instructions :=
    Json.reads_list fun insn _ => reads_instruction insn
  refine Json.reads_map (a := (b.address, b.instructions, ())) _ ?_
  refine Json.reads_record (Json.fills_first (Json.reads_word64 b.address)
    (Json.fills_first hcode .done ?_) ?_) ?_
  · simp
  · simp [Json.Field.required]
  · rfl

theorem reads_edge (e : EdgeEntry) : Json.Reads edge e.toJson e := by
  refine Json.reads_map (a := (e.source, e.target, ())) _ ?_
  refine Json.reads_record (Json.fills_first (Json.reads_word64 e.source)
    (Json.fills_first (Json.reads_word64 e.target) .done ?_) ?_) ?_
  · simp
  · simp [Json.Field.required]
  · rfl

/-- A name that is absent is left out, and taken for absent. -/
theorem reads_document (doc : Document) : Json.Reads document doc.toJson doc := by
  have hblocks : Json.Reads (Json.list block) (.list (doc.blocks.map BlockEntry.toJson))
      doc.blocks :=
    Json.reads_list fun b _ => reads_block b
  have hedges : Json.Reads (Json.list edge) (.list (doc.edges.map EdgeEntry.toJson)) doc.edges :=
    Json.reads_list fun e _ => reads_edge e
  obtain ⟨name, blocks, edges⟩ := doc
  refine Json.reads_map (a := (name, blocks, edges, ())) _ ?_
  cases name with
  | none =>
    refine Json.reads_record (Json.fills_behind (Json.fills_first hblocks
      (Json.fills_first hedges .done ?_) ?_) ?_) ?_
    · simp
    · simp [Json.Field.withDefault]
    · simp [Json.Field.withDefault]
    · rfl
  | some name =>
    refine Json.reads_record (Json.fills_first (Json.reads_optional (Json.reads_text name) ?_)
      (Json.fills_first hblocks (Json.fills_first hedges .done ?_) ?_) ?_) ?_
    · simp
    · simp
    · simp [Json.Field.withDefault]
    · simp [Json.Field.withDefault]
    · rfl

/-- A document is read back from its printed forms. -/
theorem parse_document (doc : Document) :
    parse doc.toJson.compact = .ok doc ∧ parse doc.toJson.pretty = .ok doc :=
  Json.parse_written (reads_document doc) (written_document doc)

end Document

namespace Flowgraph

/-! ## §2. What makes up a graph. -/

theorem mem_document_edges {g : Flowgraph} (h : g.WellFormed) {a b : Address} :
    ⟨a, b⟩ ∈ g.document.edges ↔ b ∈ g.successors a := by
  rw [← mem_edges h]
  constructor
  · intro hmem
    obtain ⟨edge, hedge, heq⟩ := List.mem_map.mp hmem
    obtain ⟨rfl, rfl⟩ := EdgeEntry.mk.inj heq
    exact hedge
  · intro hmem
    exact List.mem_map.mpr ⟨(a, b), hmem, rfl⟩

/-- The code of a graph is that of its blocks. -/
theorem getElem?_code {g : Flowgraph} (h : g.WellFormed) (a : Address) :
    g.code[a]? = if a ∈ g.nodes then (some (g.instructions a)).filter (! ·.isEmpty) else none := by
  have hinstructions : g.instructions a = (g.code[a]?).getD [] := ExtTreeMap.getD_eq_getD_getElem?
  rw [hinstructions]
  cases hcode : g.code[a]? with
  | none =>
    split
    · rfl
    · rfl
  | some insns =>
    obtain ⟨hnode, hsome⟩ := h.code hcode
    rw [if_pos (mem_nodes.mpr hnode)]
    simp [Option.filter_some, hsome]

/-- Well-formed graphs that agree in all that can be seen of them are equal. -/
theorem eq_of_wellFormed {g other : Flowgraph} (hg : g.WellFormed) (hother : other.WellFormed)
    (hpolicy : g.policy = other.policy) (hnodes : ∀ a, a ∈ g.nodes ↔ a ∈ other.nodes)
    (hedges : ∀ edge, edge ∈ g.edges ↔ edge ∈ other.edges)
    (hcode : ∀ a, g.instructions a = other.instructions a) : g = other := by
  have hmaps := edges_eq hg hother
    (fun a => by rw [← mem_nodes, ← mem_nodes, hnodes])
    (fun a b => by rw [← mem_edges hg, ← mem_edges hother, hedges])
  have hall : g.code = other.code := by
    refine ExtTreeMap.ext_getElem? fun a => ?_
    simp only [getElem?_code hg, getElem?_code hother, hnodes, hcode]
  obtain ⟨outgoing, incoming, code, policy⟩ := g
  obtain ⟨rfl, rfl⟩ := hmaps
  obtain rfl := hall
  obtain rfl := hpolicy
  rfl

/-- An edge between blocks is taken under either policy. -/
theorem addEdge_ok {g : Flowgraph} {source target : Address} (hsource : g.hasNode source = true)
    (htarget : g.hasNode target = true) :
    ∃ isNew, g.addEdge source target
      = .ok (isNew, ((g.withNode source).withNode target).withEdge source target) := by
  have hmissing : g.missingEnds source target = [] := by
    rw [missingEnds]
    cases g.policy with
    | autoCreate => rfl
    | strict => simp [hsource, htarget]
  rw [addEdge, hmissing]
  exact ⟨_, rfl⟩

end Flowgraph

namespace Document

/-! ## §3. Blocks. -/

section Blocks

variable {blocks : List BlockEntry} {g : Flowgraph} {a b : Address}

theorem hasNode_addBlocks :
    (addBlocks blocks g).hasNode a = true
      ↔ a ∈ blocks.map BlockEntry.address ∨ g.hasNode a = true := by
  induction blocks generalizing g with
  | nil =>
    constructor
    · exact .inr
    · intro h
      exact h.resolve_left List.not_mem_nil
  | cons block rest ih =>
    rw [addBlocks, List.foldl_cons, ← addBlocks, ih, Flowgraph.hasNode_withNode, List.map_cons,
      List.mem_cons, or_left_comm, or_assoc]

theorem mem_successors_addBlocks :
    b ∈ (addBlocks blocks g).successors a ↔ b ∈ g.successors a := by
  induction blocks generalizing g with
  | nil => exact Iff.rfl
  | cons block rest ih =>
    rw [addBlocks, List.foldl_cons, ← addBlocks, ih, Flowgraph.mem_successors_withNode]

theorem code_addBlocks : (addBlocks blocks g).code = g.code := by
  induction blocks generalizing g with
  | nil => rfl
  | cons block rest ih => exact ih

theorem policy_addBlocks : (addBlocks blocks g).policy = g.policy := by
  induction blocks generalizing g with
  | nil => rfl
  | cons block rest ih => exact ih

theorem wellFormed_addBlocks (h : g.WellFormed) : (addBlocks blocks g).WellFormed := by
  induction blocks generalizing g with
  | nil => exact h
  | cons block rest ih => exact ih (Flowgraph.wellFormed_withNode h block.address)

end Blocks

/-! ## §4. Edges. -/

/-- What edges between blocks of a graph make of it. -/
structure Joined (edges : List EdgeEntry) (g joined : Flowgraph) : Prop where
  wellFormed : joined.WellFormed
  nodes : ∀ {a}, joined.hasNode a = true ↔ g.hasNode a = true
  successors : ∀ {a b}, b ∈ joined.successors a ↔ b ∈ g.successors a ∨ ⟨a, b⟩ ∈ edges
  code : joined.code = g.code
  policy : joined.policy = g.policy

section Edges

variable {g : Flowgraph}

theorem joined_nil (h : g.WellFormed) : Joined [] g g where
  wellFormed := h
  nodes := Iff.rfl
  successors := by
    intro a b
    rw [or_iff_left List.not_mem_nil]
  code := rfl
  policy := rfl

theorem joined_cons {edge : EdgeEntry} {rest : List EdgeEntry} {next joined : Flowgraph}
    {isNew : Bool} (hadd : g.addEdge edge.source edge.target = .ok (isNew, next))
    (hsource : g.hasNode edge.source = true) (htarget : g.hasNode edge.target = true)
    (h : Joined rest next joined) : Joined (edge :: rest) g joined := by
  obtain rfl := Flowgraph.addEdge_eq_ok hadd
  refine ⟨h.wellFormed, ?_, ?_, h.code, h.policy⟩
  · intro a
    rw [h.nodes, Flowgraph.hasNode_withEdge, Flowgraph.hasNode_withNode,
      Flowgraph.hasNode_withNode]
    constructor
    · rintro (rfl | rfl | rfl | hold)
      · exact hsource
      · exact htarget
      · exact hsource
      · exact hold
    · exact fun hold => .inr (.inr (.inr hold))
  · intro a b
    have hedge : (⟨a, b⟩ : EdgeEntry) = edge ↔ a = edge.source ∧ b = edge.target := by
      rw [← EdgeEntry.mk.injEq]
    rw [h.successors, Flowgraph.mem_successors_withEdge, Flowgraph.mem_successors_withNode,
      Flowgraph.mem_successors_withNode, List.mem_cons, hedge, or_left_comm, or_assoc]

/-- Edges between blocks are all taken, under either policy. -/
theorem addEdges_ok {edges : List EdgeEntry} (hwell : g.WellFormed)
    (hends : ∀ edge ∈ edges, g.hasNode edge.source = true ∧ g.hasNode edge.target = true) :
    ∃ joined, addEdges edges g = .ok joined ∧ Joined edges g joined := by
  induction edges generalizing g with
  | nil => exact ⟨g, rfl, joined_nil hwell⟩
  | cons edge rest ih =>
    obtain ⟨hsource, htarget⟩ := hends edge List.mem_cons_self
    obtain ⟨isNew, hadd⟩ := Flowgraph.addEdge_ok hsource htarget
    -- the blocks at the ends were there, so no block is new
    have hone := joined_cons hadd hsource htarget
      (joined_nil (Flowgraph.wellFormed_addEdge hwell hadd))
    obtain ⟨joined, hrest, hjoined⟩ := ih hone.wellFormed (by
      intro next hmem
      rw [hone.nodes, hone.nodes]
      exact hends next (List.mem_cons_of_mem _ hmem))
    refine ⟨joined, ?_, joined_cons hadd hsource htarget hjoined⟩
    rw [addEdges, hadd]
    exact hrest

end Edges

/-! ## §5. Code. -/

/-- A list of instructions replaces the one before it; an empty list is no entry at all. -/
theorem getElem?_replaced {code : ExtTreeMap Address (List Instruction)} {first a : Address}
    {insns : List Instruction} :
    (if insns.isEmpty then code.erase first else code.insert first insns)[a]?
      = if a = first then (some insns).filter (! ·.isEmpty) else code[a]? := by
  by_cases hfirst : a = first
  · subst hfirst
    rw [if_pos rfl, Option.filter_some]
    split
    next hempty => simp [hempty]
    next hempty => simp [hempty]
  · have hother : compare first a ≠ .eq := fun heq => hfirst (Std.compare_eq_iff_eq.mp heq).symm
    rw [if_neg hfirst]
    split
    · rw [ExtTreeMap.getElem?_erase, if_neg hother]
    · rw [ExtTreeMap.getElem?_insert, if_neg hother]

/-- The instructions of blocks are all taken, each list in the place of the one before it. -/
theorem setCode_ok {g : Flowgraph} {blocks : List Address}
    {instructions : Address → List Instruction} (hblocks : ∀ a ∈ blocks, g.hasNode a = true) :
    ∃ code, setCode (blocks.map fun a => ⟨a, instructions a⟩) g = .ok { g with code := code }
      ∧ ∀ a, code[a]? = if a ∈ blocks then (some (instructions a)).filter (! ·.isEmpty)
        else g.code[a]? := by
  induction blocks generalizing g with
  | nil => exact ⟨g.code, rfl, fun a => rfl⟩
  | cons first rest ih =>
    obtain ⟨next, hset, hnext⟩ : ∃ next, g.setInstructions first (instructions first) = .ok next
        ∧ next = { g with
          code := if (instructions first).isEmpty then g.code.erase first
            else g.code.insert first (instructions first) } :=
      ⟨_, if_pos (hblocks first List.mem_cons_self), rfl⟩
    have hnodes : ∀ a ∈ rest, next.hasNode a = true := by
      intro a hmem
      rw [hnext]
      exact hblocks a (List.mem_cons_of_mem _ hmem)
    obtain ⟨code, hrest, hcode⟩ := ih hnodes
    refine ⟨code, ?_, ?_⟩
    · rw [List.map_cons, setCode, hset]
      dsimp only
      rw [hrest, hnext]
    · intro a
      rw [hcode, hnext]
      dsimp only
      rw [getElem?_replaced]
      by_cases hfirst : a = first
      · subst hfirst
        simp
      · simp [hfirst]

end Document

namespace Flowgraph

/-! ## §6. Graphs. -/

/-- The document of a graph describes that graph, whatever the policy of the reader. -/
theorem toGraph_document {g : Flowgraph} (h : g.WellFormed) (policy : EdgePolicy) :
    g.document.toGraph policy = .ok { g with policy := policy } := by
  have hnodes : ∀ a, (Document.addBlocks g.document.blocks (empty policy)).hasNode a = true
      ↔ g.hasNode a = true := by
    intro a
    have haddresses : g.document.blocks.map BlockEntry.address = g.nodes := by
      simp [document, Function.comp_def]
    rw [Document.hasNode_addBlocks, haddresses, mem_nodes]
    exact or_iff_left Bool.false_ne_true
  obtain ⟨joined, hadd, hjoined⟩ : ∃ joined,
      Document.addEdges g.document.edges (Document.addBlocks g.document.blocks (empty policy))
        = .ok joined ∧ Document.Joined g.document.edges
          (Document.addBlocks g.document.blocks (empty policy)) joined := by
    refine Document.addEdges_ok (Document.wellFormed_addBlocks (wellFormed_empty policy)) ?_
    intro edge hmem
    rw [hnodes, hnodes]
    exact h.ends ((mem_document_edges h).mp hmem)
  have hblocks : ∀ a, joined.hasNode a = true ↔ g.hasNode a = true := by
    intro a
    rw [hjoined.nodes, hnodes]
  have hsuccessors : ∀ a b, b ∈ joined.successors a ↔ b ∈ g.successors a := by
    intro a b
    rw [hjoined.successors, Document.mem_successors_addBlocks, mem_document_edges h,
      mem_successors]
    exact or_iff_right ExtTreeSet.not_mem_empty
  have hlisted : ∀ a ∈ g.nodes, joined.hasNode a = true :=
    fun a hmem => (hblocks a).mpr (mem_nodes.mp hmem)
  obtain ⟨code, hset, hcode⟩ := Document.setCode_ok hlisted
  have hedges := edges_eq hjoined.wellFormed h hblocks hsuccessors
  have hall : code = g.code := by
    refine ExtTreeMap.ext_getElem? ?_
    intro a
    rw [hcode, hjoined.code, Document.code_addBlocks, getElem?_code h]
    rfl
  have hpolicy : joined.policy = policy := by
    rw [hjoined.policy, Document.policy_addBlocks]
    rfl
  rw [Document.toGraph, hadd]
  dsimp only
  rw [show g.document.blocks = g.nodes.map fun a => ⟨a, g.instructions a⟩ from rfl, hset, hall]
  obtain ⟨outgoing, incoming, _, _⟩ := joined
  obtain ⟨rfl, rfl⟩ := hedges
  obtain rfl := hpolicy
  rfl

/-- Both texts of a well-formed graph hold that graph, whatever the policy of the reader. -/
theorem parse_of_wellFormed {g : Flowgraph} (h : g.WellFormed) (policy : EdgePolicy) :
    parse g.toText policy = .ok { g with policy := policy }
      ∧ parse g.toPrettyText policy = .ok { g with policy := policy } := by
  obtain ⟨hcompact, hpretty⟩ := Document.parse_document g.document
  rw [parse, parse, toText, toPrettyText, hcompact, hpretty]
  dsimp only
  rw [toGraph_document h policy]
  exact ⟨rfl, rfl⟩

/-- A graph that the operations build is read back from both of its printed forms, and under
another policy it differs in nothing but the policy. -/
theorem parse_toText {g : Flowgraph} (h : Built g) :
    parse g.toText g.policy = .ok g ∧ parse g.toPrettyText g.policy = .ok g
      ∧ ∀ policy, parse g.toText policy = .ok { g with policy := policy }
        ∧ parse g.toPrettyText policy = .ok { g with policy := policy } := by
  have hread : ∀ policy, parse g.toText policy = .ok { g with policy := policy }
      ∧ parse g.toPrettyText policy = .ok { g with policy := policy } := by
    intro policy
    obtain ⟨hcompact, hpretty⟩ := Document.parse_document g.document
    have hgraph := toGraph_document (wellFormed_built h) policy
    rw [parse, parse, toText, toPrettyText, hcompact, hpretty]
    dsimp only
    rw [hgraph]
    exact ⟨rfl, rfl⟩
  exact ⟨(hread g.policy).1, (hread g.policy).2, hread⟩

/-- Code that is all escapes. -/
def escapes : List Instruction :=
  [⟨"\"\\\x00\n", ["", "\u00e9, \x1f"]⟩]

/-- A strict graph with one block, at the highest address, that follows itself. -/
def topLoop : Flowgraph :=
  let top : Address := 0xffffffffffffffff
  let joined := ((((empty .strict).addNode top).2.withNode top).withNode top).withEdge top top
  { joined with code := joined.code.insert top escapes }

theorem built_topLoop : Built topLoop := by
  have hnode : ((empty .strict).addNode 0xffffffffffffffff).2.hasNode 0xffffffffffffffff = true :=
    hasNode_withNode.mpr (.inl rfl)
  obtain ⟨isNew, hadd⟩ := addEdge_ok hnode hnode
  have hset : setInstructions (withEdge _ 0xffffffffffffffff _) 0xffffffffffffffff escapes
      = .ok topLoop :=
    if_pos (hasNode_withEdge.mpr (.inl rfl))
  exact .setInstructions (.addEdge (.addNode (.empty .strict) _) hadd) hset

theorem parse_toText_topLoop :
    Built topLoop ∧ 0xffffffffffffffff ∈ topLoop.successors 0xffffffffffffffff
      ∧ topLoop.instructions 0xffffffffffffffff = escapes
      ∧ parse topLoop.toText .strict = .ok topLoop
      ∧ parse topLoop.toPrettyText .strict = .ok topLoop
      ∧ parse topLoop.toText .autoCreate = .ok { topLoop with policy := .autoCreate } := by
  obtain ⟨hcompact, hpretty, hothers⟩ := parse_toText built_topLoop
  refine ⟨built_topLoop, ?_, ?_, hcompact, hpretty, (hothers .autoCreate).1⟩
  · exact mem_successors_withEdge.mpr (.inl ⟨rfl, rfl⟩)
  · exact ExtTreeMap.getD_insert_self

end Flowgraph

end Flowprint
