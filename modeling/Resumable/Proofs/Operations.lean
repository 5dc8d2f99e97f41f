import Resumable.Proofs.Completion
import Resumable.Proofs.Custody
import Resumable.Semantics.History

/-!
Single operations on instances. Each of them runs one routine, so it does what the routine
does as long as the fuel lasts.
-/

namespace Resumable

theorem Value.onlyData_asObject (value : Value) : OnlyData value.asObject := by
  cases value with
  | object reference => exact .ok reference
  | _ => exact .error rfl

namespace Machine

theorem frugal_callKind (machine : Machine) (kind : RoutineKind) (object : Value) (limit : Nat) :
    (machine.callKind kind object).Frugal limit := by
  unfold callKind
  split
  · exact .throw nofun
  · exact (Frugal.checked object.onlyData_asObject).bind fun _ =>
      (frugal_call machine limit _ object []).bind fun _ => .pure _

/-- Asking an instance runs a routine on it. -/
theorem callKind_run {machine : Machine} {kind : RoutineKind} {routine : Routine}
    (found : machine.routine? kind = some routine) (own : Nat) (world : World) :
    machine.callKind kind (.object own) world =
      match run machine routine.body (Simulation.ownFrame own) routine.body ⟨.empty, world⟩ with
      | .ok result act => .ok (result.getD .null) act.world
      | .error e act => .error e act.world := by
  simp only [callKind, found, call_eq_activate]
  simp only [bind, EStateM.bind, activate, Simulation.ownFrame, pure, EStateM.pure, Value.asObject,
    checked]
  cases run machine routine.body ⟨.object own, []⟩ routine.body ⟨.empty, world⟩ <;> rfl

end Machine

section
variable (lowered : Lowered) (receiver : Option Value) (args : List Value) (world : Machine.World)

/-- Calling the method runs its kick-off routine. -/
theorem Lowered.invoke_run : lowered.invoke receiver args world =
    match Machine.run lowered.machine lowered.kickoff.body ⟨receiver.getD .null, args⟩
      lowered.kickoff.body ⟨.empty, world⟩ with
    | .ok (some value) act => .ok value act.world
    | .ok none act => .error (.malformed .kickoffWithoutResult) act.world
    | .error e act => .error e act.world := by
  simp only [invoke, Machine.call_eq_activate, bind, EStateM.bind, Machine.activate]
  cases Machine.run lowered.machine lowered.kickoff.body ⟨receiver.getD .null, args⟩
    lowered.kickoff.body ⟨.empty, world⟩ with
  | ok result act => cases result <;> rfl
  | error e act => rfl

theorem Lowered.isExhausted_invoke : IsExhausted (lowered.invoke receiver args world) ↔
    IsExhausted (Machine.run lowered.machine lowered.kickoff.body ⟨receiver.getD .null, args⟩
      lowered.kickoff.body ⟨.empty, world⟩) := by
  rw [invoke_run]
  cases Machine.run lowered.machine lowered.kickoff.body ⟨receiver.getD .null, args⟩
    lowered.kickoff.body ⟨.empty, world⟩ with
  | ok result act => cases result <;> simp
  | error e act => simp

end

namespace Operation

theorem worldAfter_eq (lowered : Lowered) (operation : Operation) (world : Machine.World) :
    operation.worldAfter lowered world = finalState (operation.perform lowered world) := by
  unfold worldAfter
  cases operation.perform lowered world <;> rfl

theorem worldAfter_of_ok {lowered : Lowered} {operation : Operation} {world world' : Machine.World}
    {value : Value} (done : operation.perform lowered world = .ok value world') :
    operation.worldAfter lowered world = world' := by
  rw [worldAfter_eq, done]
  rfl

/-- The instance that is asked exists, and the fuel lasts. -/
def Lasts (lowered : Lowered) (world : Machine.World) (operation : Operation) : Prop :=
  operation.IsPossible world ∧ ¬ IsExhausted (operation.perform lowered world)

instance (lowered : Lowered) (world : Machine.World) (operation : Operation) :
    Decidable (operation.Lasts lowered world) :=
  inferInstanceAs (Decidable (operation.IsPossible world ∧ ¬ IsExhausted (operation.perform lowered world)))

theorem frugal_perform (lowered : Lowered) (operation : Operation) (limit : Nat) :
    (operation.perform lowered).Frugal limit := by
  have asks (kind : Machine.RoutineKind) (object : Nat) :=
    Machine.frugal_callKind lowered.machine kind (.object object) limit
  cases operation with
  | invoke receiver args =>
    refine (Machine.frugal_call lowered.machine limit lowered.kickoff _ args).bind fun result => ?_
    split
    · exact .pure _
    · exact .throw (by simp)
  | setThread thread => exact .of_free (fun _ => id) (fun _ => rfl) fun _ _ => rfl
  | getEnumerator object => exact asks .getEnumeratorGeneric object
  | objectGetEnumerator object => exact asks .getEnumeratorObject object
  | moveNext object =>
    refine Frugal.bind ?_ fun _ => .pure _
    exact (asks .moveNext object).bind fun value => .checked value.onlyData_asBool
  | current object => exact asks .currentGeneric object
  | objectCurrent object => exact asks .currentObject object
  | dispose object => exact ((asks .dispose object).bind fun _ => .pure _).bind fun _ => .pure _
  | reset object => exact ((asks .reset object).bind fun _ => .pure _).bind fun _ => .pure _

end Operation

namespace Simulation
open Lowering (Outline Shape)
open Machine (Activation Code Exec Field FieldId Frame Point Role Term World call evalTerm run)

section
variable {shape : Shape} {assigned : List Var} {own : Nat} {world world' : World}

theorem Equipped.of_slots (equipped : Equipped shape own world)
    (same : ∀ id, world'.slot? own id = world.slot? own id) : Equipped shape own world' where
  present bears := by rw [same]; exact equipped.present bears
  state := by simpa only [same] using equipped.state
  creator found := by simpa only [same] using equipped.creator found

/-- An instance that went on by itself has all its fields, whatever its state is now. -/
theorem Equipped.confined (sound : shape.Sound) (equipped : Equipped shape own world)
    (confined : Confined shape assigned own world world')
    (stated : ∃ state, world'.slot? own shape.state = some (.int state)) : Equipped shape own world' where
  present bears := confined.present (equipped.present bears)
  state := stated
  creator found := by
    rw [confined.kept (sound.thread found) id]
    exact equipped.creator found

theorem Constructed.equipped {state : Int64} (constructed : Constructed shape state world world') :
    Equipped shape world.instances.size world' :=
  ⟨constructed.present, ⟨state, constructed.state⟩, fun found => ⟨_, constructed.creator found⟩⟩

theorem Vended.equipped {object : Nat} (vended : Vended shape own world object world') :
    Equipped shape object world' :=
  ⟨vended.present, ⟨_, vended.state⟩, vended.creator⟩

theorem Constructed.withFuel {state : Int64} (constructed : Constructed shape state world world') (fuel : Nat) :
    Constructed shape state world (world'.withFuel fuel) :=
  ⟨constructed.size, constructed.others, constructed.present, constructed.state, constructed.creator,
    constructed.calls, constructed.arrays, constructed.thread⟩

theorem Vends.withFuel {options : Options} {object : Nat} (vends : Vends shape options own world object world')
    (fuel : Nat) : Vends shape options own world object (world'.withFuel fuel) where
  state := vends.state
  present := vends.present
  creator := vends.creator
  captured := vends.captured
  restored := vends.restored
  others := vends.others
  copied := vends.copied
  stamped := vends.stamped
  remains := vends.remains
  calls := vends.calls
  arrays := vends.arrays
  thread := vends.thread
  itself := vends.itself
  copy := vends.copy

/-- Inputs are handed to the new instance one after another, as far as there are any. -/
theorem handing_stops (sound : shape.Sound) {machine : Machine} {body : Code} {frame : Frame}
    {locals : Table LocalId Value} {state : Int64} {base : World} {pairs : List (FieldId × Term)}
    (held : locals.get? Lowering.held = some (.object base.instances.size))
    (given : ∀ pair ∈ pairs, Handed shape pair.1 pair.2)
    (constructed : Constructed shape state base world) :
    Stops (fun _ act => Constructed shape state base act.world)
      (fun _ act => Constructed shape state base act.world)
      (run machine body frame (storing pairs ++ [.ret (some (.load (.frame Lowering.held)))])
        ⟨locals, world⟩) := by
  induction pairs generalizing world with
  | nil =>
    cases left : world.fuel with
    | zero =>
      rw [storing, List.map_nil, List.nil_append, Machine.run_cons_empty _ _ _ _ _ left]
      exact constructed
    | succ fuel =>
      have read : Machine.execInstr machine (call machine) frame
          (.ret (some (.load (.frame Lowering.held)))) ⟨locals, world.withFuel fuel⟩ =
            .ok (.done (some (.object base.instances.size))) ⟨locals, world.withFuel fuel⟩ := by
        simp only [Machine.execInstr, evalTerm, Frame.load, Machine.Step.readLocal, bind, EStateM.bind,
          held]
        rfl
      rw [storing, List.map_nil, List.nil_append, Machine.run_cons _ _ _ _ _ _ left,
        Activation.withFuel_mk, bind_of_ok read]
      exact constructed.withFuel fuel
  | cons pair rest ih =>
    obtain ⟨first, others⟩ := List.forall_mem_cons.mp given
    cases left : world.fuel with
    | zero =>
      rw [storing, List.map_cons, List.cons_append, Machine.run_cons_empty _ _ _ _ _ left]
      exact constructed
    | succ fuel =>
      rw [storing, List.map_cons, List.cons_append, Machine.run_cons _ _ _ _ _ _ left,
        Activation.withFuel_mk]
      simp only [Machine.execInstr, bind_assoc]
      have spent := constructed.withFuel fuel
      have evaluated : (∃ value, evalTerm machine (call machine) frame pair.2
          ⟨locals, world.withFuel fuel⟩ = .ok value ⟨locals, world.withFuel fuel⟩) ∨
          ∃ e, evalTerm machine (call machine) frame pair.2 ⟨locals, world.withFuel fuel⟩ =
            .error e ⟨locals, world.withFuel fuel⟩ := by
        rcases first with ⟨itself, _⟩ | ⟨index, param, _⟩
        · rw [itself]
          exact .inl ⟨frame.self, by simp only [evalTerm]; rfl⟩
        · rw [param]
          simp only [evalTerm]
          cases frame.arg index with
          | ok value => exact .inl ⟨value, rfl⟩
          | error e => exact .inr ⟨e, rfl⟩
      rcases evaluated with ⟨value, evaluated⟩ | ⟨e, evaluated⟩
      · obtain ⟨role, bears, captured⟩ := first.bears sound
        have stored : (frame.store value (.fieldOf Lowering.held pair.1)).Gives ⟨locals, world⟩ ()
            ⟨locals, world.setSlot base.instances.size pair.1 value⟩ :=
          Machine.gives_store_fieldOf held (constructed.present bears) value
        have filled : Constructed shape state base
            (world.setSlots base.instances.size [(pair.1, value)]) :=
          constructed.fill sound (by simpa using ⟨role, bears, captured⟩)
        have stored := stored fuel
        rw [Activation.withFuel_mk] at stored
        rw [bind_of_ok evaluated, bind_of_ok stored, pure_bind]
        exact ih others (filled.withFuel fuel)
      · rw [bind_of_error evaluated]
        exact spent

end

section
variable {method : Method} {options : Options} {lowered : Lowered}
  (outline : Outline method options lowered) {own : Nat} {world : World}
include outline

/-- A call of the method builds an instance, whether or not there are enough arguments. -/
theorem invoke_stops {receiver : Option Value} {args : List Value}
    (lasts : ¬ IsExhausted (lowered.invoke receiver args world)) :
    Constructed outline.shape (Lowering.initialState outline.kind) world
      (finalState (lowered.invoke receiver args world)) := by
  obtain ⟨pairs, code, listed⟩ := kickoff_body outline
  obtain ⟨built, constructed, _, reaches⟩ : ∃ built,
      Constructed outline.shape (Lowering.initialState outline.kind) world built ∧
      Blank outline.shape (fun role => role ≠ .state ∧ role ≠ .initialThread) world.instances.size
        built ∧
      Machine.Reaches lowered.machine lowered.kickoff.body ⟨receiver.getD .null, args⟩
        lowered.kickoff.body ⟨.empty, world⟩
        (storing pairs ++ [.ret (some (.load (.frame Lowering.held)))])
        ⟨Table.empty.set Lowering.held (.object world.instances.size), built⟩ := by
    rw [code]
    exact reaches_construct outline _
  rw [lowered.isExhausted_invoke] at lasts
  have stopped : Stops
      (fun _ act => Constructed outline.shape (Lowering.initialState outline.kind) world act.world)
      (fun _ act => Constructed outline.shape (Lowering.initialState outline.kind) world act.world)
      (run lowered.machine lowered.kickoff.body ⟨receiver.getD .null, args⟩ lowered.kickoff.body
        ⟨.empty, world⟩) :=
    reaches.stops lasts
      (fun fuel _ => handing_stops outline.built.toSound (Table.get?_set_self _ _ _)
        (fun pair member => (listed pair).mp member) (constructed.withFuel fuel))
      (fun _ act _ holds => holds.withFuel act.fuel) fun _ act _ holds => holds.withFuel act.fuel
  rw [lowered.invoke_run]
  cases done : run lowered.machine lowered.kickoff.body ⟨receiver.getD .null, args⟩
      lowered.kickoff.body ⟨.empty, world⟩ with
  | ok result act =>
    rw [done] at stopped
    cases result <;> exact stopped
  | error e act =>
    rw [done] at stopped
    exact stopped

/-- Advancing an instance runs its body. -/
theorem moveNext_run : (Operation.moveNext own).perform lowered world =
    match run lowered.machine outline.body (ownFrame own) outline.body ⟨.empty, world⟩ with
    | .ok result act =>
      match (result.getD .null).asBool with
      | .ok answer => .ok (.bool answer) act.world
      | .error e => .error e act.world
    | .error e act => .error e act.world := by
  obtain ⟨routine, found, code⟩ := outline.routine_moveNext
  simp only [Operation.perform, Machine.moveNext, bind, EStateM.bind, Machine.callKind_run found, code]
  cases run lowered.machine outline.body (ownFrame own) outline.body ⟨.empty, world⟩ with
  | ok result act =>
    cases result with
    | none => rfl
    | some value => cases value <;> rfl
  | error e act => rfl

/-- Disposing of an instance runs its disposal routine. -/
theorem dispose_run : (Operation.dispose own).perform lowered world =
    match run lowered.machine (Lowering.disposeCode outline.shape lowered.machine.points) (ownFrame own)
      (Lowering.disposeCode outline.shape lowered.machine.points) ⟨.empty, world⟩ with
    | .ok _ act => .ok .null act.world
    | .error e act => .error e act.world := by
  obtain ⟨routine, found, code⟩ := outline.routine_dispose
  simp only [Operation.perform, Machine.dispose, bind, EStateM.bind, Machine.callKind_run found, code]
  cases run lowered.machine (Lowering.disposeCode outline.shape lowered.machine.points) (ownFrame own)
    (Lowering.disposeCode outline.shape lowered.machine.points) ⟨.empty, world⟩ <;> rfl

section
variable (few : lowered.machine.points.length < 2 ^ 63) {state : Int64}
  (held : world.slot? own outline.shape.state = some (.int state))
include few held

/-- An active instance that is advanced suspends, ends or fails. -/
theorem moveNext_active (active : Active lowered.machine.points state)
    (lasts : ¬ IsExhausted ((Operation.moveNext own).perform lowered world)) :
    Stops (fun value world' => Confined outline.shape outline.assigned own world world' ∧
        ((value = .bool true ∧ ∃ point ∈ lowered.machine.points,
            world'.slot? own outline.shape.state = some (.int point.state)) ∨
          (value = .bool false ∧ world'.slot? own outline.shape.state = some (.int State.finished))))
      (fun _ world' => Confined outline.shape outline.assigned own world world' ∧
        world'.slot? own outline.shape.state = some (.int State.running))
      ((Operation.moveNext own).perform lowered world) := by
  rw [moveNext_run outline] at lasts ⊢
  have stopped := body_stops outline few active held
  cases done : run lowered.machine outline.body (ownFrame own) outline.body ⟨.empty, world⟩ with
  | ok result act =>
    rw [done] at stopped
    obtain ⟨confined, ⟨rfl, suspended⟩ | ⟨rfl, finished⟩⟩ := stopped (not_isExhausted_ok _ _)
    · exact ⟨confined, .inl ⟨rfl, suspended⟩⟩
    · exact ⟨confined, .inr ⟨rfl, finished⟩⟩
  | error e act =>
    rw [done] at stopped lasts
    have other : e ≠ .outOfFuel := by simpa using lasts
    have stopped := stopped (by simpa using other)
    exact ⟨stopped.1, stopped.2 other⟩

/-- Disposing of an active instance finishes it, or fails and leaves its state. -/
theorem dispose_active (active : Active lowered.machine.points state)
    (lasts : ¬ IsExhausted ((Operation.dispose own).perform lowered world)) :
    Stops (fun value world' => value = .null ∧ Confined outline.shape outline.assigned own world world' ∧
        world'.slot? own outline.shape.state = some (.int State.finished))
      (fun _ world' => Confined outline.shape outline.assigned own world world' ∧
        world'.slot? own outline.shape.state = some (.int state))
      ((Operation.dispose own).perform lowered world) := by
  rw [dispose_run outline] at lasts ⊢
  have stopped := disposal_stops outline few active held
  cases done : run lowered.machine (Lowering.disposeCode outline.shape lowered.machine.points)
      (ownFrame own) (Lowering.disposeCode outline.shape lowered.machine.points) ⟨.empty, world⟩ with
  | ok result act =>
    rw [done] at stopped
    obtain ⟨_, confined, finished⟩ := stopped (not_isExhausted_ok _ _)
    exact ⟨rfl, confined, finished⟩
  | error e act =>
    rw [done] at stopped lasts
    have other : e ≠ .outOfFuel := by simpa using lasts
    have stopped := stopped (by simpa using other)
    exact ⟨stopped.1, stopped.2 other⟩

omit few in
/-- An instance that cannot be advanced answers so, without any effect. -/
theorem moveNext_declines (inactive : ¬ Active lowered.machine.points state) :
    ((Operation.moveNext own).perform lowered).Does world (.bool false) world := by
  have returns : Machine.Returns lowered.machine outline.body (ownFrame own) outline.body ⟨.empty, world⟩
      (some (.bool false)) ⟨.empty, world⟩ :=
    returns_exhausted outline held (fun fresh => inactive (.inl fresh))
      fun point member same => inactive (.inr ⟨point, member, same⟩)
  exact (moveNext_of_returns outline returns).bind (Exec.does_pure _ _)

omit few in
/-- Disposing of an instance that cannot be advanced has no effect. -/
theorem dispose_declines (inactive : ¬ Active lowered.machine.points state) :
    ((Operation.dispose own).perform lowered).Does world .null world :=
  (dispose_idle outline held (fun fresh => inactive (.inl fresh))
    fun point member same => inactive (.inr ⟨point, member, same⟩)).bind (Exec.does_pure _ _)

omit few in
theorem moveNext_inactive (inactive : ¬ Active lowered.machine.points state)
    (lasts : ¬ IsExhausted ((Operation.moveNext own).perform lowered world)) :
    ∃ left, (Operation.moveNext own).perform lowered world = .ok (.bool false) (world.withFuel left) :=
  (moveNext_declines outline held inactive).lasting (Operation.frugal_perform lowered _ _) lasts

omit few in
theorem dispose_inactive (inactive : ¬ Active lowered.machine.points state)
    (lasts : ¬ IsExhausted ((Operation.dispose own).perform lowered world)) :
    ∃ left, (Operation.dispose own).perform lowered world = .ok .null (world.withFuel left) :=
  (dispose_declines outline held inactive).lasting (Operation.frugal_perform lowered _ _) lasts

end

/-- An enumerator hands out nothing. -/
theorem vend_enumerator (enumerator : outline.kind = .enumerator) {kind : Machine.RoutineKind}
    (vending : kind = .getEnumeratorGeneric ∨ kind = .getEnumeratorObject) (object : Value) :
    lowered.machine.callKind kind object world = .error (.unknownMethod kind.text) world := by
  have missing : lowered.machine.routine? kind = none := by
    rw [Machine.routine?, outline.routines_eq, outline.vending_enumerator enumerator]
    rcases vending with rfl | rfl <;>
      simp [Lowering.enumeratorRoutines, Lowering.cleanupRoutine]
  simp only [Machine.callKind, missing]
  rfl

theorem vend_does (enumerable : outline.kind = .enumerable) (equipped : Equipped outline.shape own world)
    {operation : Operation} (vending : operation = .getEnumerator own ∨ operation = .objectGetEnumerator own) :
    ∃ object world', (operation.perform lowered).Does world (.object object) world' ∧
      Vends outline.shape options own world object world' := by
  rcases vending with rfl | rfl
  · exact getEnumerator_spec outline enumerable equipped
  · exact objectGetEnumerator_spec outline enumerable equipped

/-- Handing out an enumerator leaves the world in which it is handed out, if the fuel lasts. -/
theorem vend_enumerable (enumerable : outline.kind = .enumerable) (equipped : Equipped outline.shape own world)
    {operation : Operation} (vending : operation = .getEnumerator own ∨ operation = .objectGetEnumerator own)
    (lasts : ¬ IsExhausted (operation.perform lowered world)) : ∃ object world',
    operation.perform lowered world = .ok (.object object) world' ∧
    Vends outline.shape options own world object world' := by
  obtain ⟨object, world', does, vends⟩ := vend_does outline enumerable equipped vending
  obtain ⟨left, done⟩ := does.lasting (operation.frugal_perform lowered _) lasts
  exact ⟨object, _, done, vends.withFuel left⟩

theorem current_does {value : Value} (held : world.slot? own outline.shape.current = some value)
    {operation : Operation} (reading : operation = .current own ∨ operation = .objectCurrent own) :
    (operation.perform lowered).Does world value world := by
  rcases reading with rfl | rfl
  · exact current_of_slot outline held
  · obtain ⟨routine, found, code⟩ := outline.routine_currentObject
    have returns : Machine.Returns lowered.machine routine.body (ownFrame own) routine.body
        ⟨.empty, world⟩ (some value) ⟨.empty, world⟩ := by
      rw [code]
      exact .ret (gives_field held)
    exact callKind_of_returns found returns

/-- The value of an instance is read without any effect. -/
theorem current_stops (equipped : Equipped outline.shape own world) {operation : Operation}
    (reading : operation = .current own ∨ operation = .objectCurrent own)
    (lasts : ¬ IsExhausted (operation.perform lowered world)) : ∃ value left,
    world.slot? own outline.shape.current = some value ∧
    operation.perform lowered world = .ok value (world.withFuel left) := by
  obtain ⟨value, held⟩ := Option.isSome_iff_exists.mp (equipped.present outline.built.current)
  obtain ⟨left, done⟩ :=
    (current_does outline held reading).lasting (operation.frugal_perform lowered _) lasts
  exact ⟨value, left, held, done⟩

/-- Resetting is not supported and has no effect. -/
theorem reset_run : (Operation.reset own).perform lowered world =
    match world.fuel with
    | 0 => .error .outOfFuel world
    | fuel + 1 => .error (Machine.raised outline.shape.members.notSupported) (world.withFuel fuel) := by
  obtain ⟨routine, found, code⟩ := outline.routine_reset
  have ran : (Operation.reset own).perform lowered world =
      match run lowered.machine routine.body (ownFrame own) routine.body ⟨.empty, world⟩ with
      | .ok _ act => .ok .null act.world
      | .error e act => .error e act.world := by
    simp only [Operation.perform, Machine.reset, bind, EStateM.bind, Machine.callKind_run found]
    cases run lowered.machine routine.body (ownFrame own) routine.body ⟨.empty, world⟩ <;> rfl
  rw [ran, code]
  cases left : world.fuel with
  | zero => rw [Machine.run_cons_empty _ _ _ _ _ left]
  | succ fuel =>
    rw [Machine.run_cons _ _ _ _ _ _ left]
    rfl

theorem reset_stops (lasts : ¬ IsExhausted ((Operation.reset own).perform lowered world)) : ∃ left,
    (Operation.reset own).perform lowered world =
      .error (Machine.raised outline.shape.members.notSupported) (world.withFuel left) := by
  rw [reset_run outline] at lasts ⊢
  cases left : world.fuel with
  | zero =>
    rw [left] at lasts
    exact absurd trivial lasts
  | succ fuel => exact ⟨fuel, rfl⟩

end

end Simulation
end Resumable
