import Resumable.Proofs.Operations

/-!
The states of instances between operations. Whatever consumers ask, in any order and with any
outcome, the state of an instance is one that the protocol knows, and it changes only where the
protocol lets it.
-/

namespace Resumable

open Machine (World)

namespace State

/-- An instance in this state can be advanced, given the number of suspension points. -/
def IsActive (points : Nat) (state : Int64) : Prop := 0 ≤ state.toInt ∧ state.toInt ≤ points

/-- An instance may be in this state between operations. -/
def IsKnown (points : Nat) (state : Int64) : Prop :=
  state = notStarted ∨ state = running ∨ state = finished ∨ IsActive points state

end State

namespace Operation

/-- The operation leaves the state of an instance as it is. -/
def KeepsState (operation : Operation) (lowered : Lowered) (world : World) (object : Nat) : Prop :=
  lowered.machine.stateOf (operation.worldAfter lowered world) (.object object) =
    lowered.machine.stateOf world (.object object)

/-- The operation makes an untouched instance fresh, on the thread that built it. -/
def Reuses (operation : Operation) (lowered : Lowered) (options : Options) (world : World) (object : Nat) :
    Prop :=
  options.reuseTemplate ∧ lowered.machine.stateOf world (.object object) = .ok State.notStarted ∧
    lowered.machine.stateOf (operation.worldAfter lowered world) (.object object) = .ok State.fresh ∧
    ∃ field ∈ lowered.machine.fields, field.role = .initialThread ∧
      world.slot? object field.id = some (.int world.thread)

/-- What advancing an instance in a state comes to. -/
def Advances (lowered : Lowered) (world : World) (object : Nat) (state : Int64) : Prop :=
  (State.IsActive lowered.machine.points.length state →
    (∃ world' next, (moveNext object).perform lowered world = .ok (.bool true) world' ∧
      lowered.machine.stateOf world' (.object object) = .ok next ∧
      1 ≤ next.toInt ∧ next.toInt ≤ lowered.machine.points.length) ∨
    (∃ world', (moveNext object).perform lowered world = .ok (.bool false) world' ∧
      lowered.machine.stateOf world' (.object object) = .ok State.finished) ∨
    (∃ e world', (moveNext object).perform lowered world = .error e world' ∧ e ≠ .outOfFuel ∧
      lowered.machine.stateOf world' (.object object) = .ok State.running)) ∧
  (¬ State.IsActive lowered.machine.points.length state →
    ∃ left, (moveNext object).perform lowered world = .ok (.bool false) (world.withFuel left))

/-- What disposing of an instance in a state comes to. -/
def Disposes (lowered : Lowered) (world : World) (object : Nat) (state : Int64) : Prop :=
  (State.IsActive lowered.machine.points.length state →
    (∃ world', (dispose object).perform lowered world = .ok .null world' ∧
      lowered.machine.stateOf world' (.object object) = .ok State.finished) ∨
    (∃ e world', (dispose object).perform lowered world = .error e world' ∧
      lowered.machine.stateOf world' (.object object) = .ok state)) ∧
  (¬ State.IsActive lowered.machine.points.length state →
    ∃ left, (dispose object).perform lowered world = .ok .null (world.withFuel left))

/-- The operation changes the states of the instances there are only as the protocol says. -/
def Obeys (lowered : Lowered) (options : Options) (world : World) : Operation → Prop
  | .moveNext object =>
    (∀ other < world.instances.size, other ≠ object → (moveNext object).KeepsState lowered world other) ∧
    ∀ state, lowered.machine.stateOf world (.object object) = .ok state →
      Advances lowered world object state
  | .dispose object =>
    (∀ other < world.instances.size, other ≠ object → (dispose object).KeepsState lowered world other) ∧
    ∀ state, lowered.machine.stateOf world (.object object) = .ok state →
      Disposes lowered world object state
  | .getEnumerator object =>
    ∀ other < world.instances.size, (getEnumerator object).KeepsState lowered world other ∨
      other = object ∧ (getEnumerator object).Reuses lowered options world other
  | .objectGetEnumerator object =>
    ∀ other < world.instances.size, (objectGetEnumerator object).KeepsState lowered world other ∨
      other = object ∧ (objectGetEnumerator object).Reuses lowered options world other
  | operation => ∀ other < world.instances.size, operation.KeepsState lowered world other

end Operation

namespace Simulation
open Lowering (Outline Shape)

section
variable {method : Method} {options : Options} {lowered : Lowered}
  (outline : Outline method options lowered) (few : lowered.machine.points.length < 2 ^ 63)
  {own : Nat} {world world' : World}

include outline few in
theorem active_iff {state : Int64} : Active lowered.machine.points state ↔
    State.IsActive lowered.machine.points.length state := by
  constructor
  · rintro (rfl | ⟨point, member, rfl⟩)
    · exact ⟨by decide, by simp [State.fresh]⟩
    · have above := Lowering.state_pos outline.numbered few member
      have below := Lowering.state_le outline.numbered few member
      exact ⟨by omega, below⟩
  · rintro ⟨above, below⟩
    by_cases zero : state.toInt = 0
    · exact .inl (Int64.toInt_inj.mp zero)
    · exact .inr (Lowering.exists_point outline.numbered few (by omega) below)

/-- Every instance has its fields, and its state is known. -/
def Settled (world : World) : Prop :=
  ∀ object < world.instances.size, Equipped outline.shape object world ∧ ∃ state,
    world.slot? object outline.shape.state = some (.int state) ∧
    State.IsKnown lowered.machine.points.length state

namespace Settled

theorem of_slots (settled : Settled outline world) (size : world'.instances.size = world.instances.size)
    (same : ∀ object id, world'.slot? object id = world.slot? object id) : Settled outline world' := by
  intro object inside
  rw [size] at inside
  obtain ⟨equipped, state, held, known⟩ := settled object inside
  exact ⟨equipped.of_slots (same object), state, (same object _).trans held, known⟩

/-- All instances but one are as before. -/
theorem update (settled : Settled outline world)
    (inside : ∀ object, object ≠ own → object < world'.instances.size → object < world.instances.size)
    (others : ∀ object id, object ≠ own → world'.slot? object id = world.slot? object id)
    (equipped : Equipped outline.shape own world') {state : Int64}
    (held : world'.slot? own outline.shape.state = some (.int state))
    (known : State.IsKnown lowered.machine.points.length state) : Settled outline world' := by
  intro object within
  by_cases itself : object = own
  · rw [itself]
    exact ⟨equipped, state, held, known⟩
  · obtain ⟨equipped, state, held, known⟩ := settled object (inside object itself within)
    exact ⟨equipped.of_slots fun id => others object id itself, state,
      (others object _ itself).trans held, known⟩

theorem confined (settled : Settled outline world) (inside : own < world.instances.size)
    (confined : Confined outline.shape outline.assigned own world world') {state : Int64}
    (held : world'.slot? own outline.shape.state = some (.int state))
    (known : State.IsKnown lowered.machine.points.length state) : Settled outline world' := by
  refine settled.update outline (fun _ _ within => confined.size ▸ within)
    (fun _ id ne => confined.others id ne) ?_ held known
  exact (settled own inside).1.confined outline.built.toSound confined ⟨state, held⟩

end Settled

theorem stateOf_same (settled : Settled outline world) {object : Nat} (inside : object < world.instances.size)
    (same : world'.slot? object outline.shape.state = world.slot? object outline.shape.state) :
    lowered.machine.stateOf world' (.object object) = lowered.machine.stateOf world (.object object) := by
  obtain ⟨_, state, held, _⟩ := settled object inside
  rw [stateOf_of_slot outline held, stateOf_of_slot outline (same.trans held)]

/-- An operation that changes no field. -/
theorem keepsState_of_slots (settled : Settled outline world) {operation : Operation}
    (same : ∀ object id, (operation.worldAfter lowered world).slot? object id = world.slot? object id) :
    ∀ other < world.instances.size, operation.KeepsState lowered world other :=
  fun other inside => stateOf_same outline settled inside (same other _)

section
variable (settled : Settled outline world)
include settled

/-- A new instance beside those there are. -/
theorem obeys_invoke {receiver : Option Value} {args : List Value}
    (lasts : ¬ IsExhausted ((Operation.invoke receiver args).perform lowered world)) :
    Settled outline ((Operation.invoke receiver args).worldAfter lowered world) ∧
      (Operation.invoke receiver args).Obeys lowered options world := by
  have constructed : Constructed outline.shape (Lowering.initialState outline.kind) world
      ((Operation.invoke receiver args).worldAfter lowered world) := by
    rw [Operation.worldAfter_eq]
    exact invoke_stops outline lasts
  refine ⟨settled.update outline (fun object ne within => ?_)
    (fun object id ne => constructed.others id ne) constructed.equipped constructed.state ?_, ?_⟩
  · rw [constructed.size] at within
    omega
  · cases outline.kind with
    | enumerator => exact .inr (.inr (.inr ⟨by decide, by simp [Lowering.initialState, State.fresh]⟩))
    | enumerable => exact .inl rfl
  · intro other inside
    exact stateOf_same outline settled inside (constructed.others _ (Nat.ne_of_lt inside))

/-- Handing out an enumerator touches the instance that is asked, or builds another. -/
theorem obeys_vend {operation : Operation}
    (vending : operation = .getEnumerator own ∨ operation = .objectGetEnumerator own)
    (inside : own < world.instances.size) (lasts : ¬ IsExhausted (operation.perform lowered world)) :
    Settled outline (operation.worldAfter lowered world) ∧
      ∀ other < world.instances.size, operation.KeepsState lowered world other ∨
        other = own ∧ operation.Reuses lowered options world other := by
  cases kind : outline.kind with
  | enumerator =>
    have refused : operation.worldAfter lowered world = world := by
      rw [Operation.worldAfter_eq]
      rcases vending with rfl | rfl
      · exact congrArg finalState (vend_enumerator outline kind (.inl rfl) (.object own))
      · exact congrArg finalState (vend_enumerator outline kind (.inr rfl) (.object own))
    refine ⟨by rwa [refused], fun other _ => .inl ?_⟩
    rw [Operation.KeepsState, refused]
  | enumerable =>
    obtain ⟨object, world', done, vends⟩ :=
      vend_enumerable outline kind (settled own inside).1 vending lasts
    have after : operation.worldAfter lowered world = world' := by rw [Operation.worldAfter_eq, done]; rfl
    have fresh : State.IsKnown lowered.machine.points.length State.fresh :=
      .inr (.inr (.inr ⟨by decide, by simp [State.fresh]⟩))
    rw [after]
    by_cases reusable : Reusable outline.shape options own world
    · obtain ⟨rfl, size⟩ := vends.itself reusable
      obtain ⟨reused, untouched, id, found, created⟩ := reusable
      refine ⟨settled.update outline (fun _ _ within => size ▸ within)
        (fun _ id ne => vends.others id ne) vends.equipped vends.state fresh, fun other within => ?_⟩
      by_cases itself : other = object
      · rw [itself]
        obtain ⟨field, member, rfl, role⟩ := outline.built.thread found
        refine .inr ⟨rfl, reused, stateOf_of_slot outline untouched, ?_, field,
          outline.fields_eq ▸ member, role, created⟩
        rw [after]
        exact stateOf_of_slot outline vends.state
      · refine .inl (stateOf_same outline settled within ?_)
        rw [after]
        exact vends.others _ itself
    · obtain ⟨rfl, size⟩ := vends.copy reusable
      refine ⟨settled.update outline (fun other ne within => ?_)
        (fun _ id ne => vends.others id ne) vends.equipped vends.state fresh, fun other within => .inl ?_⟩
      · rw [size] at within
        omega
      · refine stateOf_same outline settled within ?_
        rw [after]
        exact vends.others _ (Nat.ne_of_lt within)

/-- An operation on one instance in a known state, of which something holds that follows from it. -/
theorem obeys_alone {operation : Operation} {state : Int64} {follows : Int64 → Prop}
    (inside : own < world.instances.size)
    (held : world.slot? own outline.shape.state = some (.int state))
    (outcome : ∃ next, State.IsKnown lowered.machine.points.length next ∧
      (operation.worldAfter lowered world).slot? own outline.shape.state = some (.int next) ∧
      Confined outline.shape outline.assigned own world (operation.worldAfter lowered world) ∧
      follows state) :
    Settled outline (operation.worldAfter lowered world) ∧
      (∀ other < world.instances.size, other ≠ own → operation.KeepsState lowered world other) ∧
      ∀ state, lowered.machine.stateOf world (.object own) = .ok state → follows state := by
  obtain ⟨next, known, held', confined, holds⟩ := outcome
  refine ⟨settled.confined outline inside confined held' known, fun other inside ne =>
    stateOf_same outline settled inside (confined.others _ ne), fun state' stated => ?_⟩
  rw [stateOf_of_slot outline held] at stated
  exact Except.ok.inj stated ▸ holds

include few

/-- Advancing touches the instance alone. -/
theorem obeys_moveNext (inside : own < world.instances.size)
    (lasts : ¬ IsExhausted ((Operation.moveNext own).perform lowered world)) :
    Settled outline ((Operation.moveNext own).worldAfter lowered world) ∧
      (Operation.moveNext own).Obeys lowered options world := by
  obtain ⟨_, state, held, known⟩ := settled own inside
  refine obeys_alone outline settled inside held ?_
  rw [Operation.worldAfter_eq]
  by_cases active : Active lowered.machine.points state
  · have stopped := moveNext_active outline few held active lasts
    have only : ¬ State.IsActive lowered.machine.points.length state →
        ∃ left, (Operation.moveNext own).perform lowered world = .ok (.bool false) (world.withFuel left) :=
      fun inactive => absurd ((active_iff outline few).mp active) inactive
    cases done : (Operation.moveNext own).perform lowered world with
    | ok value world' =>
      rw [done] at stopped
      obtain ⟨confined, ⟨rfl, point, member, held'⟩ | ⟨rfl, held'⟩⟩ := stopped
      · have above := Lowering.state_pos outline.numbered few member
        have below := Lowering.state_le outline.numbered few member
        refine ⟨point.state, .inr (.inr (.inr ⟨by omega, below⟩)), held', confined, fun _ => .inl ?_, only⟩
        exact ⟨world', point.state, done, stateOf_of_slot outline held', by omega, below⟩
      · refine ⟨State.finished, .inr (.inr (.inl rfl)), held', confined, fun _ => .inr (.inl ?_), only⟩
        exact ⟨world', done, stateOf_of_slot outline held'⟩
    | error e world' =>
      rw [done] at stopped lasts
      refine ⟨State.running, .inr (.inl rfl), stopped.2, stopped.1, fun _ => .inr (.inr ?_), only⟩
      exact ⟨e, world', done, by simpa using lasts, stateOf_of_slot outline stopped.2⟩
  · obtain ⟨left, done⟩ := moveNext_inactive outline held active lasts
    rw [done]
    refine ⟨state, known, held, .withFuel left, fun other => ?_, fun _ => ⟨left, done⟩⟩
    exact absurd ((active_iff outline few).mpr other) active

/-- Disposal touches the instance alone. -/
theorem obeys_dispose (inside : own < world.instances.size)
    (lasts : ¬ IsExhausted ((Operation.dispose own).perform lowered world)) :
    Settled outline ((Operation.dispose own).worldAfter lowered world) ∧
      (Operation.dispose own).Obeys lowered options world := by
  obtain ⟨_, state, held, known⟩ := settled own inside
  refine obeys_alone outline settled inside held ?_
  rw [Operation.worldAfter_eq]
  by_cases active : Active lowered.machine.points state
  · have stopped := dispose_active outline few held active lasts
    have only : ¬ State.IsActive lowered.machine.points.length state →
        ∃ left, (Operation.dispose own).perform lowered world = .ok .null (world.withFuel left) :=
      fun inactive => absurd ((active_iff outline few).mp active) inactive
    cases done : (Operation.dispose own).perform lowered world with
    | ok value world' =>
      rw [done] at stopped
      obtain ⟨rfl, confined, held'⟩ := stopped
      refine ⟨State.finished, .inr (.inr (.inl rfl)), held', confined, fun _ => .inl ?_, only⟩
      exact ⟨world', done, stateOf_of_slot outline held'⟩
    | error e world' =>
      rw [done] at stopped
      refine ⟨state, known, stopped.2, stopped.1, fun _ => .inr ?_, only⟩
      exact ⟨e, world', done, stateOf_of_slot outline stopped.2⟩
  · obtain ⟨left, done⟩ := dispose_inactive outline held active lasts
    rw [done]
    refine ⟨state, known, held, .withFuel left, fun other => ?_, fun _ => ⟨left, done⟩⟩
    exact absurd ((active_iff outline few).mpr other) active

/-- One operation keeps to the protocol. -/
theorem obeys_operation {operation : Operation} (lasts : operation.Lasts lowered world) :
    Settled outline (operation.worldAfter lowered world) ∧ operation.Obeys lowered options world := by
  obtain ⟨possible, lasts⟩ := lasts
  -- An operation that changes nothing but the fuel.
  have unchanged {operation : Operation} (left : Nat)
      (after : operation.worldAfter lowered world = world.withFuel left) :
      Settled outline (operation.worldAfter lowered world) ∧
        ∀ other < world.instances.size, operation.KeepsState lowered world other :=
    ⟨settled.of_slots outline (by rw [after]; rfl) (by rw [after]; exact fun _ _ => rfl),
      keepsState_of_slots outline settled (by rw [after]; exact fun _ _ => rfl)⟩
  cases operation with
  | invoke receiver args => exact obeys_invoke outline settled lasts
  | setThread thread =>
    exact ⟨settled.of_slots outline rfl fun _ _ => rfl, keepsState_of_slots outline settled fun _ _ => rfl⟩
  | getEnumerator object => exact obeys_vend outline settled (.inl rfl) (possible object rfl) lasts
  | objectGetEnumerator object => exact obeys_vend outline settled (.inr rfl) (possible object rfl) lasts
  | moveNext object => exact obeys_moveNext outline few settled (possible object rfl) lasts
  | dispose object => exact obeys_dispose outline few settled (possible object rfl) lasts
  | current object =>
    obtain ⟨_, left, _, done⟩ :=
      current_stops outline (settled object (possible object rfl)).1 (.inl rfl) lasts
    exact unchanged left (by rw [Operation.worldAfter_eq, done]; rfl)
  | objectCurrent object =>
    obtain ⟨_, left, _, done⟩ :=
      current_stops outline (settled object (possible object rfl)).1 (.inr rfl) lasts
    exact unchanged left (by rw [Operation.worldAfter_eq, done]; rfl)
  | reset object =>
    obtain ⟨left, done⟩ := reset_stops outline lasts
    exact unchanged left (by rw [Operation.worldAfter_eq, done]; rfl)

omit settled in
theorem settled_of_reachable (reachable : lowered.Reachable (Operation.Lasts lowered) world) :
    Settled outline world := by
  induction reachable with
  | start empty => simp [Settled, empty]
  | step _ lasts settled => exact (obeys_operation outline few settled lasts).1

end

end

end Simulation

/-- The state-field protocol. As long as no operation has run out of fuel, the state of every
instance is one that the protocol knows, and the next operation changes states only as the protocol
says. -/
theorem Lowered.obeys_of_reachable {method : Method} {platform : Platform} {options : Options}
    {supply supply' : NameSupply} {lowered : Lowered}
    (lowers : method.lower platform options supply = .ok lowered supply')
    (few : lowered.machine.points.length < 2 ^ 63) {world : World}
    (reachable : lowered.Reachable (Operation.Lasts lowered) world) :
    (∀ object < world.instances.size, ∃ state,
      lowered.machine.stateOf world (.object object) = .ok state ∧
      State.IsKnown lowered.machine.points.length state) ∧
    ∀ operation : Operation, operation.Lasts lowered world → operation.Obeys lowered options world := by
  obtain ⟨outline⟩ := Lowering.outline_of_lower lowers
  have settled := Simulation.settled_of_reachable outline few reachable
  refine ⟨fun object inside => ?_, fun operation lasts =>
    (Simulation.obeys_operation outline few settled lasts).2⟩
  obtain ⟨_, state, held, known⟩ := settled object inside
  exact ⟨state, Simulation.stateOf_of_slot outline held, known⟩

/-- Two enumerators of one call on two threads, one of them disposed of between its values. -/
def Method.eachItemHistory : List Operation :=
  [.invoke none [.array 0 [.int 1, .int 2]], .getEnumerator 0, .moveNext 0, .setThread 2,
    .objectGetEnumerator 0, .moveNext 1, .dispose 0, .reset 1]

theorem Method.eachItem_reaches : ∃ lowered supply,
    eachItem.lower .standard .standard .empty = .ok lowered supply ∧
    lowered.machine.points.length = 1 ∧
    lowered.Permitted (Operation.Lasts lowered) eachItemHistory (.start 200) ∧
    (lowered.worldAfterAll eachItemHistory (.start 200)).instances.size = 2 := by
  have evaluated : (result? (eachItem.lower .standard .standard .empty)).map (fun lowered =>
      (lowered.machine.points.length,
        decide (lowered.Permitted (Operation.Lasts lowered) eachItemHistory (.start 200)),
        (lowered.worldAfterAll eachItemHistory (.start 200)).instances.size)) =
      some (1, true, 2) := by decide +kernel
  obtain ⟨lowered, found, same⟩ := Option.map_eq_some_iff.mp evaluated
  obtain ⟨supply, lowers⟩ := result?_eq_some.mp found
  simp only [Prod.mk.injEq, decide_eq_true_eq] at same
  exact ⟨lowered, supply, lowers, same⟩

theorem Lowered.obeys_of_reachable_eachItem : ∃ lowered supply,
    Method.eachItem.lower .standard .standard .empty = .ok lowered supply ∧
    lowered.machine.points.length = 1 ∧
    lowered.Permitted (Operation.Lasts lowered) Method.eachItemHistory (.start 200) ∧
    ∃ world, world = lowered.worldAfterAll Method.eachItemHistory (.start 200) ∧
    world.instances.size = 2 ∧
    (∀ object < world.instances.size, ∃ state,
      lowered.machine.stateOf world (.object object) = .ok state ∧
      State.IsKnown lowered.machine.points.length state) ∧
    ∀ operation : Operation, operation.Lasts lowered world →
      operation.Obeys lowered Options.standard world := by
  obtain ⟨lowered, supply, lowers, single, permitted, size⟩ := Method.eachItem_reaches
  have start : lowered.Reachable (Operation.Lasts lowered) (.start 200) := .start rfl
  exact ⟨lowered, supply, lowers, single, permitted, _, rfl, size,
    Lowered.obeys_of_reachable lowers (by omega) (start.after permitted)⟩

end Resumable
