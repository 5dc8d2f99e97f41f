import Resumable.Proofs.Joint

/-!
The code of a machine is never at fault. A machine that is paired with itself keeps in lockstep,
so whatever consumers ask of it, it reads only locals, fields and arguments that are there and
finds every label and routine.
-/

namespace Resumable

/-- Without fuel no routine begins. -/
theorem Machine.callKind_empty {machine : Machine} {kind : RoutineKind} {routine : Routine}
    (found : machine.routine? kind = some routine) (coded : routine.body ≠ []) {own : Nat} {world : World}
    (empty : world.fuel = 0) : machine.callKind kind (.object own) world = .error .outOfFuel world := by
  obtain ⟨instr, rest, code⟩ := List.exists_cons_of_ne_nil coded
  rw [callKind_run found, code, run_cons_empty _ _ _ _ _ empty]

/-- What the operation asks for exists, and the protocol of the machine has it. -/
def Operation.Conforms (lowered : Lowered) (world : Machine.World) (operation : Operation) : Prop :=
  operation.IsPossible world ∧ operation.IsComplete lowered.source ∧
    operation.IsSupported lowered.machine.kind

instance (lowered : Lowered) (world : Machine.World) (operation : Operation) :
    Decidable (operation.Conforms lowered world) :=
  inferInstanceAs (Decidable (operation.IsPossible world ∧ operation.IsComplete lowered.source ∧
    operation.IsSupported lowered.machine.kind))

namespace Simulation
open Lowering (Outline Shape)
open Machine (World)

/-- There is no fuel left, or every instance has its fields. -/
def Intact (shape : Shape) (world : World) : Prop :=
  world.fuel = 0 ∨ ∀ object < world.instances.size, Equipped shape object world

section
variable {method : Method} {options : Options} {lowered : Lowered}
  (outline : Outline method options lowered) {world : World} {operation : Operation}
include outline

/-- Without fuel nothing is done that runs a routine. -/
theorem perform_empty (empty : world.fuel = 0) (supported : operation.IsSupported outline.kind) :
    (∃ thread, operation = .setThread thread) ∨ IsExhausted (operation.perform lowered world) := by
  have idle {kind : Machine.RoutineKind} {routine : Machine.Routine} (own : Nat)
      (found : lowered.machine.routine? kind = some routine) (coded : routine.body ≠ []) :
      lowered.machine.callKind kind (.object own) world = .error .outOfFuel world :=
    Machine.callKind_empty found coded empty
  cases operation with
  | invoke receiver args =>
    obtain ⟨pairs, code, _⟩ := kickoff_body outline
    refine .inr ((lowered.isExhausted_invoke receiver args world).mpr ?_)
    rw [code, Machine.run_cons_empty _ _ _ _ _ empty]
    trivial
  | setThread thread => exact .inl ⟨thread, rfl⟩
  | getEnumerator object =>
    obtain ⟨routine, found, _, coded⟩ := outline.routine_getEnumerator supported
    obtain ⟨_, _, _, _, code⟩ := getEnumeratorCode_spec coded
    have stopped := idle object found (by simp [code])
    exact .inr (by simp [Operation.perform, Machine.getEnumerator, stopped])
  | objectGetEnumerator object =>
    obtain ⟨routine, found, code⟩ := outline.routine_objectGetEnumerator supported
    have stopped := idle object found (by simp [code])
    exact .inr (by simp [Operation.perform, Machine.objectGetEnumerator, stopped])
  | moveNext object =>
    obtain ⟨routine, found, code⟩ := outline.routine_moveNext
    have stopped := idle object found (by simp [code, Outline.body, Lowering.resumable])
    refine .inr ?_
    simp only [Operation.perform, Machine.moveNext, bind, EStateM.bind, stopped]
    trivial
  | current object =>
    obtain ⟨routine, found, code⟩ := outline.routine_current
    have stopped := idle object found (by simp [code])
    exact .inr (by simp [Operation.perform, Machine.current, stopped])
  | objectCurrent object =>
    obtain ⟨routine, found, code⟩ := outline.routine_currentObject
    have stopped := idle object found (by simp [code])
    exact .inr (by simp [Operation.perform, Machine.objectCurrent, stopped])
  | dispose object =>
    obtain ⟨routine, found, code⟩ := outline.routine_dispose
    have stopped := idle object found (by simp [code, Lowering.disposeCode])
    refine .inr ?_
    simp only [Operation.perform, Machine.dispose, bind, EStateM.bind, stopped]
    trivial
  | reset object =>
    refine .inr ?_
    rw [reset_run outline, empty]
    trivial

section
variable (wellScoped : method.WellScoped)
include wellScoped

/-- An operation leaves the machine intact, and it does not fail because of the code. -/
theorem intact_perform (intact : Intact outline.shape world) (conforms : operation.Conforms lowered world) :
    Intact outline.shape (operation.worldAfter lowered world) ∧
    ∀ e world', operation.perform lowered world = .error e world' → ¬ e.IsStructural := by
  obtain ⟨possible, complete, supported⟩ := conforms
  rw [outline.source_eq] at complete
  rw [outline.kind_eq] at supported
  have frugal := operation.frugal_perform lowered world.fuel
  rw [operation.worldAfter_eq]
  by_cases out : IsExhausted (operation.perform lowered world)
  · refine ⟨.inl (frugal.spent (Nat.le_refl _) out), fun e world' failed => ?_⟩
    rw [failed, isExhausted_error] at out
    rw [out]
    exact id
  · rcases intact with empty | equipped
    · rcases perform_empty outline empty supported with ⟨thread, rfl⟩ | exhausted
      · exact ⟨.inl empty, nofun⟩
      · exact absurd exhausted out
    · obtain ⟨need, along⟩ := perform_lockstep outline outline (.refl outline.exact equipped) wellScoped rfl
        rfl possible complete out
      refine ⟨.inr fun _ inside => (level_finalState along).equipped inside, fun e world' failed => ?_⟩
      rw [failed] at along
      cases other : operation.perform lowered (world.withFuel need) with
      | ok a next =>
        rw [other] at along
        exact along.elim
      | error e' next =>
        rw [other] at along
        exact along.2.1 supported

theorem intact_of_reachable (reachable : lowered.Reachable (Operation.Conforms lowered) world) :
    Intact outline.shape world := by
  induction reachable with
  | start empty => exact .inr (by simp [empty])
  | step _ conforms intact => exact (intact_perform outline wellScoped intact conforms).1

end

end

end Simulation

/-- Generated code does not go wrong. Whatever consumers have asked of a machine and whatever failed
before, no operation of the protocol reads a local that its activation has not assigned, jumps to a
label that is not there, or misses a field, an argument or a routine. -/
theorem Lowered.sane_of_reachable {method : Method} {platform : Platform} {options : Options}
    {supply supply' : NameSupply} {lowered : Lowered} (wellScoped : method.WellScoped)
    (lowers : method.lower platform options supply = .ok lowered supply') {world : Machine.World}
    (reachable : lowered.Reachable (Operation.Conforms lowered) world) {operation : Operation}
    (conforms : operation.Conforms lowered world) (world' : Machine.World) :
    (∀ cause, operation.perform lowered world ≠ .error (.malformed cause) world') ∧
    ∀ name, operation.perform lowered world ≠ .error (.unknownMethod name) world' := by
  obtain ⟨outline⟩ := Lowering.outline_of_lower lowers
  have intact := Simulation.intact_of_reachable outline wellScoped reachable
  have sane := (Simulation.intact_perform outline wellScoped intact conforms).2
  exact ⟨fun cause failed => sane _ _ failed trivial, fun name failed => sane _ _ failed trivial⟩

/-- Yields the items of its parameter; its cleanup has a local of its own. -/
def Method.reportedItems : Method :=
  { Method.draft "reported_items" (.enumerableOf .int) with
    params := [⟨"items", .array .int⟩]
    locals := [⟨0, "item", .int, false⟩, ⟨1, "seen", .array .int, false⟩]
    body :=
      [.tryFinally [.foreach 0 (.var (.param 0)) [.yield (.ofLocal 0)]]
        [.declare 1 (some (.var (.param 0))), .eval (.call "closed" [.ofLocal 1])]] }

theorem Method.reportedItems_wellScoped : reportedItems.WellScoped := by
  unfold WellScoped
  decide +kernel

/-- Two enumerators of one call, and an enumerator of a call that was given no array. -/
def Method.reportedItemsHistory : List Operation :=
  [.invoke none [.array 0 [.int 1, .int 2]], .getEnumerator 0, .moveNext 0, .setThread 2,
    .objectGetEnumerator 0, .moveNext 1, .invoke none [.int 7], .getEnumerator 2, .moveNext 2, .reset 1]

theorem Method.reportedItems_reaches : ∃ lowered supply,
    reportedItems.lower .standard .standard .empty = .ok lowered supply ∧
    lowered.Permitted (Operation.Conforms lowered) reportedItemsHistory (.start 300) ∧
    (Operation.dispose 1).Conforms lowered (lowered.worldAfterAll reportedItemsHistory (.start 300)) := by
  have evaluated : (result? (reportedItems.lower .standard .standard .empty)).map (fun lowered =>
      (decide (lowered.Permitted (Operation.Conforms lowered) reportedItemsHistory (.start 300)),
        decide ((Operation.dispose 1).Conforms lowered
          (lowered.worldAfterAll reportedItemsHistory (.start 300))))) =
      some (true, true) := by decide +kernel
  obtain ⟨lowered, found, same⟩ := Option.map_eq_some_iff.mp evaluated
  obtain ⟨supply, lowers⟩ := result?_eq_some.mp found
  simp only [Prod.mk.injEq, decide_eq_true_eq] at same
  exact ⟨lowered, supply, lowers, same⟩

theorem Lowered.sane_of_reachable_reportedItems : ∃ lowered supply,
    Method.reportedItems.lower .standard .standard .empty = .ok lowered supply ∧
    lowered.Permitted (Operation.Conforms lowered) Method.reportedItemsHistory (.start 300) ∧
    ∃ world, world = lowered.worldAfterAll Method.reportedItemsHistory (.start 300) ∧
    (Operation.dispose 1).Conforms lowered world ∧ ∀ world',
      (∀ cause, (Operation.dispose 1).perform lowered world ≠ .error (.malformed cause) world') ∧
      ∀ name, (Operation.dispose 1).perform lowered world ≠ .error (.unknownMethod name) world' := by
  obtain ⟨lowered, supply, lowers, permitted, conforms⟩ := Method.reportedItems_reaches
  have start : lowered.Reachable (Operation.Conforms lowered) (.start 300) := .start rfl
  exact ⟨lowered, supply, lowers, permitted, _, rfl, conforms,
    Lowered.sane_of_reachable Method.reportedItems_wellScoped lowers (start.after permitted) conforms⟩

end Resumable
