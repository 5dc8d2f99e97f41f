import Resumable.Semantics.Consumer

/-!
Histories: what consumers ask of a machine, one thing after another and on any of its
instances. An operation that fails keeps its effects, and others may follow it.
-/

namespace Resumable
open Machine (World)

/-- One thing that is asked of a machine. An instance is given by its position. -/
inductive Operation where
  | invoke (receiver : Option Value) (args : List Value)
  | setThread (thread : Int64)
  | getEnumerator (object : Nat)
  | objectGetEnumerator (object : Nat)
  | moveNext (object : Nat)
  | current (object : Nat)
  | objectCurrent (object : Nat)
  | dispose (object : Nat)
  | reset (object : Nat)

namespace Operation

/-- The instance that is asked. -/
def object? : Operation → Option Nat
  | .invoke _ _ | .setThread _ => none
  | .getEnumerator object | .objectGetEnumerator object | .moveNext object | .current object
  | .objectCurrent object | .dispose object | .reset object => some object

/-- Asks the machine; the answer is null where there is none. -/
def perform (lowered : Lowered) : Operation → Machine.Exec Value
  | .invoke receiver args => lowered.invoke receiver args
  | .setThread thread => do
    Machine.Exec.setThread thread
    return .null
  | .getEnumerator object => lowered.machine.getEnumerator (.object object)
  | .objectGetEnumerator object => lowered.machine.objectGetEnumerator (.object object)
  | .moveNext object => do
    let advanced ← lowered.machine.moveNext (.object object)
    return .bool advanced
  | .current object => lowered.machine.current (.object object)
  | .objectCurrent object => lowered.machine.objectCurrent (.object object)
  | .dispose object => do
    lowered.machine.dispose (.object object)
    return .null
  | .reset object => do
    lowered.machine.reset (.object object)
    return .null

/-- The instance that is asked exists. -/
def IsPossible (operation : Operation) (world : World) : Prop :=
  ∀ object ∈ operation.object?, object < world.instances.size

instance (operation : Operation) (world : World) : Decidable (operation.IsPossible world) :=
  inferInstanceAs (Decidable (∀ object ∈ operation.object?, object < world.instances.size))

end Operation

/-- The world after an operation, however it ended. -/
def Operation.worldAfter (lowered : Lowered) (operation : Operation) (world : World) : World :=
  match operation.perform lowered world with
  | .ok _ world => world
  | .error _ world => world

/-- The worlds that come about from one without instances by operations that are permitted. -/
inductive Lowered.Reachable (lowered : Lowered) (permits : World → Operation → Prop) : World → Prop where
  | start {world : World} (empty : world.instances = #[]) : lowered.Reachable permits world
  | step {world : World} {operation : Operation} (before : lowered.Reachable permits world)
      (permitted : permits world operation) :
      lowered.Reachable permits (operation.worldAfter lowered world)

/-- The world after several operations. -/
def Lowered.worldAfterAll (lowered : Lowered) (operations : List Operation) (world : World) : World :=
  operations.foldl (fun world operation => operation.worldAfter lowered world) world

/-- Each of the operations is permitted when its turn comes. -/
def Lowered.Permitted (lowered : Lowered) (permits : World → Operation → Prop) :
    List Operation → World → Prop
  | [], _ => True
  | operation :: rest, world =>
    permits world operation ∧ lowered.Permitted permits rest (operation.worldAfter lowered world)

instance Lowered.decidablePermitted (lowered : Lowered) (permits : World → Operation → Prop)
    [∀ world operation, Decidable (permits world operation)] :
    (operations : List Operation) → (world : World) → Decidable (lowered.Permitted permits operations world)
  | [], _ => .isTrue trivial
  | operation :: rest, world =>
    have := lowered.decidablePermitted permits rest (operation.worldAfter lowered world)
    inferInstanceAs (Decidable (permits world operation ∧
      lowered.Permitted permits rest (operation.worldAfter lowered world)))

theorem Lowered.Reachable.after {lowered : Lowered} {permits : World → Operation → Prop}
    {operations : List Operation} {world : World} (reachable : lowered.Reachable permits world)
    (permitted : lowered.Permitted permits operations world) :
    lowered.Reachable permits (lowered.worldAfterAll operations world) := by
  induction operations generalizing world with
  | nil => exact reachable
  | cons operation rest ih => exact ih (.step reachable permitted.1) permitted.2

/-- What operations come to one after another, each with the world after it. -/
def Lowered.results (lowered : Lowered) : List Operation → World →
    List (EStateM.Result EvalError World Value)
  | [], _ => []
  | operation :: rest, world =>
    operation.perform lowered world :: lowered.results rest (operation.worldAfter lowered world)

end Resumable
