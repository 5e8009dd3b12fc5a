/-
  Flowprint.Proofs.Graph.Calls
  ────────────────────────────────
  Calls on a graph, one after the other, and what they leave.

  Whatever calls are made, edges are recorded alike at both ends and there is code for blocks only.
  So a graph is no more than its blocks, its edges and its code, and it does not matter in which order
  blocks and edges are added, or how often.  A part is put together without calls, its blocks first
  and then the edges between them at both ends, and comes to what is cut out of the graph.

  Main statements:

      run_eq                   a call is refused for the first block that it needs and does not find
      done_run                 a call adds what it names, and nothing else
      doneAll_runAll           calls add what they name, and the last list of instructions counts
      runAll_needs             calls that add nothing new are refused for the first block not there
      induced_eq_collected     what is cut out of a graph is put together of its blocks and edges
      afterAll_congr           the order in which blocks and edges are added does not matter
      reachable_represented    what always holds of a graph, and what calls on it do
-/
import Flowprint.Proofs.Graph.Exchange
import Flowprint.Proofs.Graph.InPlace

namespace Flowprint.Flowgraph

open Std

/-! ## §1. Graphs and calls. -/

namespace Call

/-- The graph after a call, refused or not. -/
def after (call : Call) (g : Flowgraph) : Flowgraph :=
  match call.run g with
  | .ok (_, g) => g
  | .error _ => g

/-- Whether what a call adds is new, which only calls that add something tell. -/
def isNew? : Call → Flowgraph → Option Bool
  | .addNode a, g => some (a ∉ g.nodes)
  | .addEdge source target, g => some ((source, target) ∉ g.edges)
  | .setInstructions _ _, _ => none

/-- The blocks that a call cannot do without. -/
def needs (policy : EdgePolicy) : Call → List Address
  | .addNode _ => []
  | .addEdge source target =>
    match policy with
    | .autoCreate => []
    | .strict => [source, target]
  | .setInstructions a _ => [a]

/-- The blocks that a call adds if they are not there. -/
def named : Call → List Address
  | .addNode a => [a]
  | .addEdge source target => [source, target]
  | .setInstructions _ _ => []

/-- The edge that a call adds. -/
def edge? : Call → Option (Address × Address)
  | .addEdge source target => some (source, target)
  | _ => none

/-- The instructions that a call gives to a block. -/
def code? (a : Address) : Call → Option (List Instruction)
  | .setInstructions b insns => if a = b then some insns else none
  | _ => none

/-- Whether a call adds blocks. -/
def adds : Call → Bool
  | .setInstructions _ _ => false
  | _ => true

end Call

/-- The graph after calls, one after the other. -/
def afterAll (calls : List Call) (g : Flowgraph) : Flowgraph :=
  calls.foldl (fun g call => call.after g) g

/-- Calls one after the other, up to the first that is refused. -/
def runAll : List Call → Flowgraph → Except UnknownNode Flowgraph
  | [], g => .ok g
  | call :: rest, g =>
    match call.run g with
    | .ok (_, g) => runAll rest g
    | .error unknown => .error unknown

/-- What a call that is not refused makes of a graph. -/
structure Done (call : Call) (g done : Flowgraph) : Prop where
  policy : done.policy = g.policy
  nodes : ∀ {a}, a ∈ done.nodes ↔ a ∈ call.named ∨ a ∈ g.nodes
  edges : ∀ {edge}, edge ∈ done.edges ↔ call.edge? = some edge ∨ edge ∈ g.edges
  instructions : ∀ a, done.instructions a = (call.code? a).getD (g.instructions a)

/-- What calls of which none is refused make of a graph. -/
structure DoneAll (calls : List Call) (g done : Flowgraph) : Prop where
  wellFormed : done.WellFormed
  policy : done.policy = g.policy
  nodes : ∀ {a}, a ∈ done.nodes ↔ a ∈ calls.flatMap Call.named ∨ a ∈ g.nodes
  edges : ∀ {edge}, edge ∈ done.edges ↔ edge ∈ calls.filterMap Call.edge? ∨ edge ∈ g.edges
  /-- The last list of instructions counts. -/
  instructions : ∀ a,
    done.instructions a = (calls.filterMap (Call.code? a)).getLast?.getD (g.instructions a)

/-- The edges of a graph between some of its blocks. -/
def edgesBetween (g : Flowgraph) (kept : List Address) : List EdgeEntry :=
  kept.flatMap fun a => ((g.successors a).filter (· ∈ kept)).map (EdgeEntry.mk a)

/-- A graph of blocks alone. -/
def ofBlocks (blocks : List Address) : Flowgraph :=
  Document.addBlocks (blocks.map fun a => ⟨a, []⟩) (.empty .autoCreate)

/-- Blocks and edges put together: the blocks first, then each edge at both of its ends. -/
def collected (blocks : List Address) (edges : List EdgeEntry) : Flowgraph :=
  edges.foldl (fun part edge => part.withEdge edge.source edge.target) (ofBlocks blocks)

/-- Graphs that calls lead to, refused or not, and their parts. -/
inductive Reachable : Flowgraph → Prop
  | empty (policy : EdgePolicy) : Reachable (.empty policy)
  | call {g : Flowgraph} (h : Reachable g) (call : Call) : Reachable (call.after g)
  | neighbourhood {g part : Flowgraph} {centre : Address} {hops maxSize : Nat} (h : Reachable g)
      (hpart : g.neighbourhood? centre hops maxSize = some part) : Reachable part

/-! ## §2. What a call does. -/

namespace Call

section Outcome

variable {g : Flowgraph} {a source target : Address}

theorem missingEnds_eq (source target : Address) (g : Flowgraph) :
    g.missingEnds source target
      = ((addEdge source target).needs g.policy).filter (! g.hasNode ·) := by
  rw [missingEnds, needs.eq_def]
  cases g.policy with
  | autoCreate => rfl
  | strict => rfl

theorem addEdge_eq (h : g.WellFormed) (source target : Address) :
    g.addEdge source target
      = match ((addEdge source target).needs g.policy).find? (! g.hasNode ·) with
        | some missing => .error ⟨missing⟩
        | none => .ok (decide ((source, target) ∉ g.edges),
            ((g.withNode source).withNode target).withEdge source target) := by
  rw [Flowgraph.addEdge, missingEnds_eq, ← List.head?_filter]
  cases ((addEdge source target).needs g.policy).filter (! g.hasNode ·) with
  | cons missing rest => rfl
  | nil =>
    have hold : decide ((source, target) ∈ g.edges)
        = (((g.withNode source).withNode target).outgoing.getD source ∅).contains target := by
      rw [Bool.eq_iff_iff, decide_eq_true_iff, mem_edges h, ExtTreeSet.contains_iff_mem,
        ← mem_successors, mem_successors_withNode, mem_successors_withNode]
    rw [List.head?_nil]
    dsimp only
    rw [decide_not, hold]

/-- A call is refused for the first block that it needs and does not find. -/
theorem run_eq (h : g.WellFormed) (call : Call) :
    call.run g
      = match (call.needs g.policy).find? (! g.hasNode ·) with
        | some missing => .error ⟨missing⟩
        | none => .ok (call.isNew? g, call.after g) := by
  cases call with
  | addNode a =>
    have hnew : (! g.hasNode a) = decide (a ∉ g.nodes) := by simp [mem_nodes]
    show Except.ok (some (! g.hasNode a), g.withNode a) = .ok (some _, g.withNode a)
    rw [hnew]
  | addEdge source target =>
    rw [after, run, addEdge_eq h]
    split
    · rfl
    · rfl
  | setInstructions a insns =>
    rw [after, run, Flowgraph.setInstructions]
    cases hnode : g.hasNode a with
    | true => simp [needs, hnode, Except.map, isNew?]
    | false => simp [needs, hnode, Except.map]

theorem wellFormed_after (h : g.WellFormed) (call : Call) : (call.after g).WellFormed := by
  cases call with
  | addNode a => exact wellFormed_withNode h a
  | addEdge source target =>
    rw [after, run]
    cases hadd : g.addEdge source target with
    | ok outcome => exact wellFormed_addEdge h hadd
    | error unknown => exact h
  | setInstructions a insns =>
    rw [after, run]
    cases hset : g.setInstructions a insns with
    | ok next => exact wellFormed_setInstructions h hset
    | error unknown => exact h

theorem done_addNode (h : g.WellFormed) (a : Address) : Done (addNode a) g (g.withNode a) where
  policy := rfl
  nodes := by
    intro b
    rw [mem_nodes, mem_nodes, hasNode_withNode, named, List.mem_singleton]
  edges := by
    rintro ⟨source, target⟩
    rw [mem_edges (wellFormed_withNode h a), mem_edges h, mem_successors_withNode]
    simp [edge?]
  instructions := fun _ => rfl

theorem done_addEdge (h : g.WellFormed) {isNew : Bool} {done : Flowgraph}
    (hadd : g.addEdge source target = .ok (isNew, done)) : Done (addEdge source target) g done := by
  have hwell := wellFormed_addEdge h hadd
  obtain rfl := addEdge_eq_ok hadd
  refine ⟨rfl, ?_, ?_, fun _ => rfl⟩
  · intro a
    rw [mem_nodes, mem_nodes, hasNode_withEdge, hasNode_withNode, hasNode_withNode, named,
      List.mem_cons, List.mem_singleton, or_assoc, or_left_comm (b := a = source), or_self_left]
  · rintro ⟨a, b⟩
    rw [mem_edges hwell, mem_edges h, mem_successors_withEdge, mem_successors_withNode,
      mem_successors_withNode]
    simp [edge?, eq_comm]

/-- The instructions of a block are the list given last, and no list is an empty one. -/
theorem done_setInstructions {insns : List Instruction} {done : Flowgraph}
    (hset : g.setInstructions a insns = .ok done) : Done (setInstructions a insns) g done := by
  obtain ⟨hnode, rfl⟩ := setInstructions_eq_ok hset
  refine ⟨rfl, ?_, ?_, ?_⟩
  · intro b
    exact (or_iff_right List.not_mem_nil).symm
  · intro edge
    exact (or_iff_right (by simp [edge?])).symm
  · intro b
    simp only [Flowgraph.instructions, ExtTreeMap.getD_eq_getD_getElem?]
    rw [Document.getElem?_replaced, code?]
    split
    · cases insns with
      | nil => rfl
      | cons first rest => rfl
    · rfl

/-- A call adds what it names, and nothing else. -/
theorem done_run (h : g.WellFormed) {call : Call} {answer : Option Bool} {done : Flowgraph}
    (hrun : call.run g = .ok (answer, done)) : Done call g done := by
  cases call with
  | addNode a =>
    obtain ⟨-, rfl⟩ := Prod.mk.inj (Except.ok.inj hrun)
    exact done_addNode h a
  | addEdge source target =>
    rw [run] at hrun
    cases hadd : g.addEdge source target with
    | ok outcome =>
      rw [hadd] at hrun
      obtain ⟨-, rfl⟩ := Prod.mk.inj (Except.ok.inj hrun)
      exact done_addEdge h hadd
    | error unknown =>
      rw [hadd] at hrun
      exact absurd hrun (by simp [Except.map])
  | setInstructions a insns =>
    rw [run] at hrun
    cases hset : g.setInstructions a insns with
    | ok next =>
      rw [hset] at hrun
      obtain ⟨-, rfl⟩ := Prod.mk.inj (Except.ok.inj hrun)
      exact done_setInstructions hset
    | error unknown =>
      rw [hset] at hrun
      exact absurd hrun (by simp [Except.map])

/-- A call that finds what it needs adds what it names, and nothing else. -/
theorem done_after (h : g.WellFormed) {call : Call}
    (hfound : (call.needs g.policy).find? (! g.hasNode ·) = none) : Done call g (call.after g) := by
  have hrun := run_eq h call
  rw [hfound] at hrun
  exact done_run h hrun

/-- A graph that brings the ends of its edges with them lacks nothing for what is added. -/
theorem needs_adds {call : Call} (h : call.adds = true) : call.needs .autoCreate = [] := by
  cases call with
  | addNode a => rfl
  | addEdge source target => rfl
  | setInstructions a insns => exact absurd h (by simp [adds])

theorem code?_adds {call : Call} (a : Address) (h : call.adds = true) : call.code? a = none := by
  cases call with
  | addNode b => rfl
  | addEdge source target => rfl
  | setInstructions b insns => exact absurd h (by simp [adds])

end Outcome

end Call

/-! ## §3. Parts. -/

section Parts

variable {g : Flowgraph} {a b : Address}

theorem withNode_eq_self (h : g.WellFormed) (hnode : g.hasNode a = true) : g.withNode a = g := by
  have hwell := wellFormed_withNode h a
  refine eq_of_wellFormed hwell h rfl ?_ ?_ fun _ => rfl
  · intro b
    rw [mem_nodes, mem_nodes, hasNode_withNode, or_iff_right_iff_imp]
    rintro rfl
    exact hnode
  · rintro ⟨source, target⟩
    rw [mem_edges hwell, mem_edges h, mem_successors_withNode]

/-- Between blocks that are there, edges are no more than what is recorded at their ends. -/
theorem addEdges_known {edges : List EdgeEntry} (h : g.WellFormed)
    (hends : ∀ edge ∈ edges, g.hasNode edge.source = true ∧ g.hasNode edge.target = true) :
    Document.addEdges edges g
      = .ok (edges.foldl (fun part edge => part.withEdge edge.source edge.target) g) := by
  induction edges generalizing g with
  | nil => rfl
  | cons edge rest ih =>
    obtain ⟨hsource, htarget⟩ := hends edge List.mem_cons_self
    obtain ⟨isNew, hadd⟩ := addEdge_ok hsource htarget
    rw [withNode_eq_self h hsource, withNode_eq_self h htarget] at hadd
    rw [Document.addEdges, hadd]
    refine ih (wellFormed_addEdge h hadd) ?_
    intro next hmem
    obtain ⟨hfirst, hsecond⟩ := hends next (List.mem_cons_of_mem _ hmem)
    exact ⟨hasNode_withEdge.mpr (.inr hfirst), hasNode_withEdge.mpr (.inr hsecond)⟩

theorem mem_edgesBetween {kept : List Address} :
    ⟨a, b⟩ ∈ g.edgesBetween kept ↔ a ∈ kept ∧ b ∈ kept ∧ b ∈ g.successors a := by
  simp only [edgesBetween, List.mem_flatMap, List.mem_map, List.mem_filter, decide_eq_true_iff,
    EdgeEntry.mk.injEq]
  constructor
  · rintro ⟨source, hsource, target, ⟨hedge, htarget⟩, rfl, rfl⟩
    exact ⟨hsource, htarget, hedge⟩
  · rintro ⟨hsource, htarget, hedge⟩
    exact ⟨a, hsource, b, ⟨hedge, htarget⟩, rfl, rfl⟩

theorem hasNode_ofBlocks {blocks : List Address} :
    (ofBlocks blocks).hasNode a = true ↔ a ∈ blocks := by
  have haddresses : (blocks.map (BlockEntry.mk · [])).map BlockEntry.address = blocks := by
    simp [Function.comp_def]
  rw [ofBlocks, Document.hasNode_addBlocks, haddresses]
  exact or_iff_left Bool.false_ne_true

theorem joined_collected {blocks : List Address} {edges : List EdgeEntry}
    (hends : ∀ edge ∈ edges, edge.source ∈ blocks ∧ edge.target ∈ blocks) :
    Document.Joined edges (ofBlocks blocks) (collected blocks edges) := by
  have hwell : (ofBlocks blocks).WellFormed :=
    Document.wellFormed_addBlocks (wellFormed_empty .autoCreate)
  have hready : ∀ edge ∈ edges, (ofBlocks blocks).hasNode edge.source = true
      ∧ (ofBlocks blocks).hasNode edge.target = true := by
    intro edge hmem
    rw [hasNode_ofBlocks, hasNode_ofBlocks]
    exact hends edge hmem
  -- as all ends are there, what is recorded is what adding the edges would have left
  obtain ⟨joined, hadd, hjoined⟩ := Document.addEdges_ok hwell hready
  rw [addEdges_known hwell hready] at hadd
  rw [collected, Except.ok.inj hadd]
  exact hjoined

/-- What is cut out of a graph is what is put together of its blocks and the edges between them. -/
theorem induced_eq_collected (h : g.WellFormed) {keep : Address → Bool} {part : Flowgraph}
    (hpart : part = g.induced keep) : part = collected part.nodes (g.edgesBetween part.nodes) := by
  have hwell : part.WellFormed := hpart ▸ wellFormed_induced h keep
  have hjoined : Document.Joined (g.edgesBetween part.nodes) (ofBlocks part.nodes)
      (collected part.nodes (g.edgesBetween part.nodes)) := by
    refine joined_collected ?_
    rintro ⟨a, b⟩ hmem
    obtain ⟨ha, hb, -⟩ := mem_edgesBetween.mp hmem
    exact ⟨ha, hb⟩
  refine eq_of_wellFormed hwell hjoined.wellFormed ?_ ?_ ?_ ?_
  · rw [hjoined.policy, ofBlocks, Document.policy_addBlocks, hpart]
    rfl
  · intro a
    rw [mem_nodes (g := collected _ _), hjoined.nodes, hasNode_ofBlocks]
  · rintro ⟨a, b⟩
    have hkept : ∀ {c}, c ∈ part.nodes ↔ g.hasNode c = true ∧ keep c = true := by
      intro c
      rw [mem_nodes, hpart, hasNode_induced, Bool.and_eq_true]
    have hnone : ¬ b ∈ (ofBlocks part.nodes).successors a := by
      rw [ofBlocks, Document.mem_successors_addBlocks, mem_successors]
      exact ExtTreeSet.not_mem_empty
    rw [mem_edges hwell, mem_edges hjoined.wellFormed, hjoined.successors, or_iff_right hnone,
      mem_edgesBetween, hkept, hkept, hpart, mem_successors_induced]
    -- the ends of an edge are blocks, so that only the choice of blocks is left to compare
    constructor
    · rintro ⟨ha, hb, hedge⟩
      exact ⟨⟨(h.ends hedge).1, ha⟩, ⟨(h.ends hedge).2, hb⟩, hedge⟩
    · rintro ⟨⟨-, ha⟩, ⟨-, hb⟩, hedge⟩
      exact ⟨ha, hb, hedge⟩
  · intro a
    rw [instructions, instructions, hjoined.code, ofBlocks, Document.code_addBlocks, hpart]
    rfl

end Parts

/-! ## §4. Calls one after the other. -/

section Calls

variable {g : Flowgraph}

theorem wellFormed_reachable (h : Reachable g) : g.WellFormed := by
  induction h with
  | empty policy => exact wellFormed_empty policy
  | call _ call ih => exact Call.wellFormed_after ih call
  | neighbourhood _ hpart ih =>
    obtain ⟨keep, rfl⟩ := neighbourhood?_eq_some hpart
    exact wellFormed_induced ih keep

theorem reachable_afterAll (h : Reachable g) (calls : List Call) : Reachable (afterAll calls g) := by
  induction calls generalizing g with
  | nil => exact h
  | cons call rest ih => exact ih (.call h call)

theorem doneAll_nil (h : g.WellFormed) : DoneAll [] g g where
  wellFormed := h
  policy := rfl
  nodes := (or_iff_right List.not_mem_nil).symm
  edges := (or_iff_right List.not_mem_nil).symm
  instructions := fun _ => rfl

theorem doneAll_cons {call : Call} {rest : List Call} {next done : Flowgraph}
    (hfirst : Done call g next) (hrest : DoneAll rest next done) :
    DoneAll (call :: rest) g done where
  wellFormed := hrest.wellFormed
  policy := hrest.policy.trans hfirst.policy
  nodes := by
    intro a
    rw [hrest.nodes, hfirst.nodes, List.flatMap_cons, List.mem_append, or_left_comm, or_assoc]
  edges := by
    intro edge
    rw [hrest.edges, hfirst.edges, List.mem_filterMap, List.mem_filterMap, or_left_comm, ← or_assoc]
    simp only [List.mem_cons, exists_eq_or_imp]
  instructions := by
    intro a
    rw [hrest.instructions, hfirst.instructions, List.filterMap_cons]
    -- a later list replaces the one that this call gives
    cases call.code? a with
    | none => rfl
    | some insns => rw [List.getLast?_cons, Option.getD_some, Option.getD_some]

theorem doneAll_runAll {calls : List Call} {done : Flowgraph} (h : g.WellFormed)
    (hrun : runAll calls g = .ok done) : DoneAll calls g done := by
  induction calls generalizing g with
  | nil =>
    obtain rfl := Except.ok.inj hrun
    exact doneAll_nil h
  | cons call rest ih =>
    rw [runAll, Call.run_eq h] at hrun
    cases hmissing : (call.needs g.policy).find? (! g.hasNode ·) with
    | some missing =>
      rw [hmissing] at hrun
      exact absurd hrun (by simp)
    | none =>
      rw [hmissing] at hrun
      exact doneAll_cons (Call.done_after h hmissing) (ih (Call.wellFormed_after h call) hrun)

/-- Calls that need nothing are not refused. -/
theorem runAll_free {calls : List Call} (h : g.WellFormed)
    (hfree : ∀ call ∈ calls, call.needs g.policy = []) :
    runAll calls g = .ok (afterAll calls g) := by
  induction calls generalizing g with
  | nil => rfl
  | cons call rest ih =>
    have hneeds := hfree call List.mem_cons_self
    have hfound : (call.needs g.policy).find? (! g.hasNode ·) = none := by
      rw [hneeds, List.find?_nil]
    rw [runAll, Call.run_eq h, hfound]
    refine ih (Call.wellFormed_after h call) ?_
    intro next hmem
    rw [(Call.done_after h hfound).policy]
    exact hfree next (List.mem_cons_of_mem _ hmem)

/-- A graph that brings the ends of its edges with them refuses nothing that is added. -/
theorem runAll_adds {calls : List Call} (hwell : g.WellFormed) (hpolicy : g.policy = .autoCreate)
    (hadds : ∀ call ∈ calls, call.adds = true) : runAll calls g = .ok (afterAll calls g) := by
  refine runAll_free hwell fun call hmem => ?_
  rw [hpolicy]
  exact Call.needs_adds (hadds call hmem)

/-- Calls that add only blocks that they need are refused for the first of all these that is not
there. -/
theorem runAll_needs {calls : List Call} (h : g.WellFormed)
    (hnamed : ∀ call ∈ calls, call.named ⊆ call.needs g.policy) :
    runAll calls g
      = match (calls.flatMap (Call.needs g.policy)).find? (! g.hasNode ·) with
        | some missing => .error ⟨missing⟩
        | none => .ok (afterAll calls g) := by
  induction calls generalizing g with
  | nil => rfl
  | cons call rest ih =>
    rw [runAll, Call.run_eq h, List.flatMap_cons, List.find?_append]
    cases hfound : (call.needs g.policy).find? (! g.hasNode ·) with
    | some missing => rfl
    | none =>
      have hdone := Call.done_after h hfound
      -- the blocks that the call adds were there, so the later calls find what they would have found
      have hnodes : (fun a => ! (call.after g).hasNode a) = fun a => ! g.hasNode a := by
        funext a
        rw [Bool.not_inj_iff, Bool.eq_iff_iff, ← mem_nodes, ← mem_nodes, hdone.nodes,
          or_iff_right_iff_imp, mem_nodes]
        intro hmem
        simpa using List.find?_eq_none.mp hfound a (hnamed call List.mem_cons_self hmem)
      have hrest := ih (Call.wellFormed_after h call) (by
        intro next hmem
        rw [hdone.policy]
        exact hnamed next (List.mem_cons_of_mem _ hmem))
      rw [hdone.policy, hnodes] at hrest
      exact hrest

theorem runAll_append (calls others : List Call) (g : Flowgraph) :
    runAll (calls ++ others) g
      = match runAll calls g with
        | .ok g => runAll others g
        | .error unknown => .error unknown := by
  induction calls generalizing g with
  | nil => rfl
  | cons call rest ih =>
    rw [List.cons_append, runAll, runAll]
    cases call.run g with
    | ok outcome => exact ih outcome.2
    | error unknown => rfl

theorem afterAll_append (calls others : List Call) (g : Flowgraph) :
    afterAll (calls ++ others) g = afterAll others (afterAll calls g) :=
  List.foldl_append

/-- It does not matter in which order blocks and edges are added, or how often. -/
theorem afterAll_congr {calls others : List Call} (hwell : g.WellFormed)
    (hpolicy : g.policy = .autoCreate) (hadds : ∀ call ∈ calls, call.adds = true)
    (hsame : ∀ call, call ∈ calls ↔ call ∈ others) : afterAll calls g = afterAll others g := by
  have hadds' : ∀ call ∈ others, call.adds = true :=
    fun call hmem => hadds call ((hsame call).mpr hmem)
  have hcalls := doneAll_runAll hwell (runAll_adds hwell hpolicy hadds)
  have hothers := doneAll_runAll hwell (runAll_adds hwell hpolicy hadds')
  have hcode : ∀ {made : List Call}, (∀ call ∈ made, call.adds = true) → ∀ a,
      made.filterMap (Call.code? a) = [] := by
    intro made hmade a
    exact List.filterMap_eq_nil_iff.mpr fun call hmem => Call.code?_adds a (hmade call hmem)
  refine eq_of_wellFormed hcalls.wellFormed hothers.wellFormed ?_ ?_ ?_ ?_
  · rw [hcalls.policy, hothers.policy]
  · intro a
    simp only [hcalls.nodes, hothers.nodes, List.mem_flatMap, hsame]
  · intro edge
    simp only [hcalls.edges, hothers.edges, List.mem_filterMap, hsame]
  · intro a
    rw [hcalls.instructions, hothers.instructions, hcode hadds, hcode hadds']

/-- What always holds of a graph, and what calls on it do. -/
theorem reachable_represented (h : Reachable g) :
    -- both records have the same blocks, and an edge at its target if it is at its source
    ((∀ a, g.incoming.contains a = g.outgoing.contains a)
      ∧ (∀ a b, b ∈ g.successors a ↔ a ∈ g.predecessors b)
      ∧ (∀ a b, (a, b) ∈ g.edges → a ∈ g.nodes ∧ b ∈ g.nodes)
      ∧ ∀ a insns, (a, insns) ∈ g.blocks → a ∈ g.nodes ∧ insns ≠ [])
    -- a call is refused for the first block that it needs and does not find
    ∧ (∀ call : Call, call.run g
        = match (call.needs g.policy).find? (· ∉ g.nodes) with
          | some missing => .error ⟨missing⟩
          | none => .ok (call.isNew? g, call.after g))
    -- in place, a refused call changes nothing
    ∧ (∀ call : Call, call.steps.run g
        = match call.run g with
          | .ok (answer, g) => .ok answer g
          | .error unknown => .error unknown g)
    ∧ (∀ (call : Call) answer done, call.run g = .ok (answer, done) → Done call g done)
    -- a part is its blocks, and then the edges between them, recorded at both ends
    ∧ (∀ centre hops maxSize part, g.neighbourhood? centre hops maxSize = some part →
        part = collected part.nodes (g.edgesBetween part.nodes))
    -- a graph is no more than its policy, blocks, edges and code
    ∧ (∀ other, Reachable other → (g = other ↔ g.policy = other.policy
        ∧ (∀ a, a ∈ g.nodes ↔ a ∈ other.nodes) ∧ (∀ edge, edge ∈ g.edges ↔ edge ∈ other.edges)
        ∧ ∀ a, g.instructions a = other.instructions a))
    -- it does not matter in which order blocks and edges are added, or how often
    ∧ (g.policy = .autoCreate → ∀ calls others : List Call, (∀ call ∈ calls, call.adds = true) →
        (∀ call, call ∈ calls ↔ call ∈ others) →
        runAll calls g = .ok (afterAll calls g) ∧ afterAll calls g = afterAll others g) := by
  have hwell := wellFormed_reachable h
  refine ⟨⟨hwell.keys, fun a b => hwell.mirrored, ?_, ?_⟩, ?_, fun call => call.run_steps g,
    fun call answer done => Call.done_run hwell, ?_, ?_, ?_⟩
  · intro a b hmem
    rw [mem_nodes, mem_nodes]
    exact hwell.ends ((mem_edges hwell).mp hmem)
  · intro a insns hmem
    rw [mem_nodes]
    exact hwell.code (ExtTreeMap.mem_toList_iff_getElem?_eq_some.mp hmem)
  · intro call
    have hmissing : (fun a => decide (a ∉ g.nodes)) = fun a => ! g.hasNode a := by
      funext a
      simp [mem_nodes]
    rw [hmissing]
    exact Call.run_eq hwell call
  · intro centre hops maxSize part hpart
    obtain ⟨keep, heq⟩ := neighbourhood?_eq_some hpart
    exact induced_eq_collected hwell heq
  · intro other hother
    constructor
    · rintro rfl
      exact ⟨rfl, fun _ => Iff.rfl, fun _ => Iff.rfl, fun _ => rfl⟩
    · rintro ⟨hpolicy, hnodes, hedges, hcode⟩
      exact eq_of_wellFormed hwell (wellFormed_reachable hother) hpolicy hnodes hedges hcode
  · intro hpolicy calls others hadds hsame
    exact ⟨runAll_adds hwell hpolicy hadds, afterAll_congr hwell hpolicy hadds hsame⟩

/-- A strict graph of two blocks, after an edge that names a third one. -/
def refusing : Flowgraph :=
  afterAll [.addNode 1, .addNode 2, .addEdge 1 2, .addEdge 2 3, .setInstructions 2 [⟨"ret", []⟩]]
    (.empty .strict)

theorem reachable_refusing : Reachable refusing :=
  reachable_afterAll (.empty .strict) _

theorem refusing_represented :
    (Call.addEdge 2 3).steps.run refusing = .error ⟨3⟩ refusing
      ∧ (∀ a insns, (a, insns) ∈ refusing.blocks → a ∈ refusing.nodes ∧ insns ≠ []) := by
  obtain ⟨⟨-, -, -, hcode⟩, hrun, hsteps, -⟩ := reachable_represented reachable_refusing
  have hmissing : (Call.addEdge 2 3).run refusing = .error ⟨3⟩ := by
    rw [hrun, show ((Call.addEdge 2 3).needs refusing.policy).find? (· ∉ refusing.nodes) = some 3
      by decide +kernel]
  refine ⟨?_, hcode⟩
  rw [hsteps, hmissing]

end Calls

end Flowprint.Flowgraph
