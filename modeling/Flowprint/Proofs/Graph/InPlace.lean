/-
  Flowprint.Proofs.Graph.InPlace
  ────────────────────────────────
  Calls on a graph that are carried out in place.

  A call gives a new graph or is refused.  In place it is a row of steps, each of which changes one
  map, and a refusal leaves what the steps before it have done.  Nothing is done before the last look
  at the blocks that a call needs, so that a refused call leaves the graph as it was.

  Main statements:

      run_require      a step is refused for a block that is not there
      run_addEdge      an edge in steps is the edge as a whole
      run_steps        in place a call has the same outcome, and changes nothing if it is refused
-/
import Flowprint.Graph.Basic

namespace Flowprint.Flowgraph

/-! ## §1. Calls. -/

/-- A call that may change a graph. -/
inductive Call where
  | addNode (a : Address)
  | addEdge (source target : Address)
  | setInstructions (a : Address) (insns : List Instruction)
  deriving Repr, DecidableEq

/-- A change in steps, any of which may be refused; the steps before it stay done. -/
abbrev Steps := EStateM UnknownNode Flowgraph

namespace Steps

/-- Go on only if a block is there. -/
def require (a : Address) : Steps Unit := do
  if (← get).hasNode a then pure () else throw ⟨a⟩

/-- Add a block to one map, then to the other. -/
def addNode (a : Address) : Steps Bool := do
  let isNew := ! (← get).hasNode a
  modify fun g => { g with outgoing := g.outgoing.insertIfNew a ∅ }
  modify fun g => { g with incoming := g.incoming.insertIfNew a ∅ }
  pure isNew

/-- Add the ends of an edge, then the edge to one map, then to the other. -/
def join (source target : Address) : Steps Bool := do
  let _ ← addNode source
  let _ ← addNode target
  let isNew := ! ((← get).outgoing.getD source ∅).contains target
  modify fun g => { g with outgoing := linked g.outgoing source target }
  modify fun g => { g with incoming := linked g.incoming target source }
  pure isNew

/-- Add an edge, whose ends must be there under the strict policy. -/
def addEdge (source target : Address) : Steps Bool := do
  if (← get).policy = .strict then
    require source
    require target
  join source target

/-- Replace the instructions of a block that is there. -/
def setInstructions (a : Address) (insns : List Instruction) : Steps Unit := do
  require a
  if insns.isEmpty then modify fun g => { g with code := g.code.erase a }
  else modify fun g => { g with code := g.code.insert a insns }

end Steps

namespace Call

/-- What a call tells, and the graph that it gives. -/
def run : Call → Flowgraph → Except UnknownNode (Option Bool × Flowgraph)
  | .addNode a, g => .ok (some (g.addNode a).1, (g.addNode a).2)
  | .addEdge source target, g =>
    (g.addEdge source target).map fun (isNew, g) => (some isNew, g)
  | .setInstructions a insns, g => (g.setInstructions a insns).map fun g => (none, g)

/-- A call in place. -/
def steps : Call → Steps (Option Bool)
  | .addNode a => some <$> Steps.addNode a
  | .addEdge source target => some <$> Steps.addEdge source target
  | .setInstructions a insns => do
    Steps.setInstructions a insns
    pure none

/-! ## §2. Outcomes. -/

theorem run_require {α : Type} (a : Address) (next : Unit → Steps α) (g : Flowgraph) :
    (Steps.require a >>= next).run g = if g.hasNode a then (next ()).run g else .error ⟨a⟩ g := by
  rw [Steps.require, bind_assoc, EStateM.run_bind, EStateM.run_get]
  dsimp only
  split
  · rfl
  · rfl

theorem run_join (source target : Address) (g : Flowgraph) :
    (Steps.join source target).run g
      = .ok (! (((g.withNode source).withNode target).outgoing.getD source ∅).contains target)
          (((g.withNode source).withNode target).withEdge source target) :=
  rfl

theorem run_addEdge (source target : Address) (g : Flowgraph) :
    (Steps.addEdge source target).run g
      = match g.addEdge source target with
        | .ok (isNew, g) => .ok isNew g
        | .error unknown => .error unknown g := by
  rw [Steps.addEdge, EStateM.run_bind]
  show (if g.policy = .strict then _ else _ : Steps Bool).run g = _
  cases hpolicy : g.policy with
  | autoCreate =>
    rw [if_neg (by decide)]
    simp only [Flowgraph.addEdge, missingEnds, hpolicy]
    exact run_join source target g
  | strict =>
    rw [if_pos rfl, run_require, run_require, run_join]
    simp only [Flowgraph.addEdge, missingEnds, hpolicy]
    -- the steps look for one end and then for the other; as a whole, for the first that is missing
    cases hsource : g.hasNode source with
    | false => simp [hsource]
    | true =>
      cases htarget : g.hasNode target with
      | false => simp [hsource, htarget]
      | true => simp [hsource, htarget]

theorem run_setInstructions (a : Address) (insns : List Instruction) (g : Flowgraph) :
    (Steps.setInstructions a insns).run g
      = match g.setInstructions a insns with
        | .ok g => .ok () g
        | .error unknown => .error unknown g := by
  rw [Steps.setInstructions, run_require, Flowgraph.setInstructions]
  cases hnode : g.hasNode a with
  | false => rfl
  | true =>
    rw [if_pos rfl, if_pos rfl]
    dsimp only
    split
    · rfl
    · rfl

/-- In place a call has the same outcome, and a refused call changes nothing. -/
theorem run_steps (call : Call) (g : Flowgraph) :
    call.steps.run g
      = match call.run g with
        | .ok (answer, g) => .ok answer g
        | .error unknown => .error unknown g := by
  cases call with
  | addNode a => rfl
  | addEdge source target =>
    rw [steps, map_eq_pure_bind, EStateM.run_bind, run_addEdge, run]
    cases g.addEdge source target with
    | ok outcome => rfl
    | error unknown => rfl
  | setInstructions a insns =>
    rw [steps, EStateM.run_bind, run_setInstructions, run]
    cases g.setInstructions a insns with
    | ok next => rfl
    | error unknown => rfl

end Call

end Flowprint.Flowgraph
