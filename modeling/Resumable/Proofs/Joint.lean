import Resumable.Proofs.Lockstep

/-!
Two lowerings of one method that are asked the same. As long as the fuel lasts, their answers
and failures are the same and their worlds stay level.
-/

namespace Resumable

/-- The code is at fault, not its data. -/
def EvalError.IsStructural : EvalError → Prop
  | .malformed _ | .unknownMethod _ => True
  | _ => False

theorem EvalError.not_isStructural_of_isData {e : EvalError} (data : e.isData) : ¬ e.IsStructural := by
  cases e <;> simp_all [EvalError.isData, IsStructural]

theorem Machine.not_isStructural_raised (constructor : MemberRef) :
    ¬ (raised constructor).IsStructural := by
  unfold raised
  split <;> exact id

namespace Operation

/-- A call of the method gives every parameter a value. -/
def IsComplete (method : Method) : Operation → Prop
  | .invoke _ args => method.params.length ≤ args.length
  | _ => True

instance (method : Method) : (operation : Operation) → Decidable (operation.IsComplete method)
  | .invoke _ args => inferInstanceAs (Decidable (method.params.length ≤ args.length))
  | .setThread _ | .getEnumerator _ | .objectGetEnumerator _ | .moveNext _ | .current _
  | .objectCurrent _ | .dispose _ | .reset _ => .isTrue trivial

/-- The protocol of machines of this kind has the operation. -/
def IsSupported (kind : IteratorKind) : Operation → Prop
  | .getEnumerator _ | .objectGetEnumerator _ => kind = .enumerable
  | _ => True

instance (kind : IteratorKind) : (operation : Operation) → Decidable (operation.IsSupported kind)
  | .getEnumerator _ | .objectGetEnumerator _ => inferInstanceAs (Decidable (kind = .enumerable))
  | .invoke _ _ | .setThread _ | .moveNext _ | .current _ | .objectCurrent _ | .dispose _ | .reset _ =>
    .isTrue trivial

end Operation

namespace Simulation
open Lowering (Outline Pairing Shape)
open Machine (Activation Exec World run)

section
variable {left right : Shape} {world world' next next' : World}

/-- Both have failed in the same way, and not because of the code if this is excluded. -/
def Halted (left right : Shape) (excluded : Prop) (e : EvalError) (world world' : World) : Prop :=
  (excluded → ¬ e.IsStructural) ∧ Level left right world world'

/-- Whatever both came to, their worlds are level. -/
theorem level_finalState {α : Type} {excluded : Prop} {result result' : EStateM.Result EvalError World α}
    (along : Alongside (fun _ => Level left right) (Halted left right excluded) result result') :
    Level left right (finalState result) (finalState result') := by
  cases result with
  | ok a next =>
    cases result' with
    | ok a' next' => exact along.2
    | error e' next' => exact along.elim
  | error e next =>
    cases result' with
    | ok a' next' => exact along.elim
    | error e' next' => exact along.2.2

/-- What both do with enough fuel they do whenever it lasts. -/
theorem does_alongside {α : Type} {exec exec' : Exec α} {a : α} {excluded : Prop}
    (does : exec.Does world a next) (does' : exec'.Does world' a next') (frugal : exec.Frugal world.fuel)
    (lasts : ¬ IsExhausted (exec world)) (level : Level left right next next') :
    ∃ need, Alongside (fun _ => Level left right) (Halted left right excluded) (exec world)
      (exec' (world'.withFuel need)) := by
  obtain ⟨rest, done⟩ := does.lasting frugal lasts
  obtain ⟨cost, does'⟩ := does'
  refine ⟨cost, ?_⟩
  have done' := does' 0
  rw [Nat.zero_add] at done'
  rw [done, done']
  exact ⟨rfl, level.withFuel rest 0⟩

end

section
variable {method : Method} {options options' : Options} {lowered lowered' : Lowered}
  (outline : Outline method options lowered) (outline' : Outline method options' lowered')
  {world world' : World} (level : Level outline.shape outline'.shape world world') {own : Nat}
include level

theorem invoke_lockstep {receiver : Option Value} {args : List Value}
    (complete : method.params.length ≤ args.length) {excluded : Prop}
    (lasts : ¬ IsExhausted (lowered.invoke receiver args world)) :
    ∃ need, Alongside (fun _ => Level outline.shape outline'.shape)
      (Halted outline.shape outline'.shape excluded) (lowered.invoke receiver args world)
      (lowered'.invoke receiver args (world'.withFuel need)) := by
  obtain ⟨next, does, constructed, primed, blank⟩ := invoke_builds outline complete world
  obtain ⟨next', does', constructed', primed', blank'⟩ := invoke_builds outline' complete world'
  rw [level.size] at does'
  rw [outline.kind_unique outline'] at constructed'
  have frugal := (Operation.invoke receiver args).frugal_perform lowered world.fuel
  exact does_alongside does does' frugal lasts
    (level.invoked (outline.kin outline') constructed constructed' primed primed' blank blank')

theorem vend_lockstep (reuse : options'.reuseTemplate = options.reuseTemplate)
    (inside : own < world.instances.size) {operation : Operation}
    (vending : operation = .getEnumerator own ∨ operation = .objectGetEnumerator own)
    (lasts : ¬ IsExhausted (operation.perform lowered world)) :
    ∃ need, Alongside (fun _ => Level outline.shape outline'.shape)
      (Halted outline.shape outline'.shape (outline.kind = .enumerable)) (operation.perform lowered world)
      (operation.perform lowered' (world'.withFuel need)) := by
  cases kind : outline.kind with
  | enumerator =>
    have kind' := (outline.kind_unique outline').trans kind
    have missing : ¬ IteratorKind.enumerator = .enumerable := nofun
    rcases vending with rfl | rfl
    · refine ⟨world'.fuel, ?_⟩
      simp only [Operation.perform, Machine.getEnumerator, vend_enumerator outline kind (.inl rfl),
        vend_enumerator outline' kind' (.inl rfl)]
      exact ⟨rfl, fun supported => absurd supported missing, level⟩
    · refine ⟨world'.fuel, ?_⟩
      simp only [Operation.perform, Machine.objectGetEnumerator, vend_enumerator outline kind (.inr rfl),
        vend_enumerator outline' kind' (.inr rfl)]
      exact ⟨rfl, fun supported => absurd supported missing, level⟩
  | enumerable =>
    have kind' := (outline.kind_unique outline').trans kind
    obtain ⟨object, next, does, vends⟩ := vend_does outline kind (level.equipped inside) vending
    obtain ⟨object', next', does', vends'⟩ := vend_does outline' kind' (level.equipped' inside) vending
    obtain ⟨rfl, after⟩ := level.vended (outline.kin outline') reuse inside vends vends'
    exact does_alongside does does' (operation.frugal_perform lowered _) lasts after

theorem current_lockstep (inside : own < world.instances.size) {operation : Operation}
    (reading : operation = .current own ∨ operation = .objectCurrent own) {excluded : Prop}
    (lasts : ¬ IsExhausted (operation.perform lowered world)) :
    ∃ need, Alongside (fun _ => Level outline.shape outline'.shape)
      (Halted outline.shape outline'.shape excluded) (operation.perform lowered world)
      (operation.perform lowered' (world'.withFuel need)) := by
  have bears := outline.built.current
  obtain ⟨value, held⟩ := Option.isSome_iff_exists.mp ((level.equipped inside).present bears)
  have held' := (level.same bears outline'.built.current).trans held
  exact does_alongside (current_does outline held reading) (current_does outline' held' reading)
    (operation.frugal_perform lowered _) lasts level

theorem reset_lockstep (members : outline'.shape.members = outline.shape.members) {excluded : Prop}
    (lasts : ¬ IsExhausted ((Operation.reset own).perform lowered world)) :
    ∃ need, Alongside (fun _ => Level outline.shape outline'.shape)
      (Halted outline.shape outline'.shape excluded) ((Operation.reset own).perform lowered world)
      ((Operation.reset own).perform lowered' (world'.withFuel need)) := by
  obtain ⟨rest, done⟩ := reset_stops outline lasts
  refine ⟨1, ?_⟩
  rw [done, reset_run outline', members]
  exact ⟨rfl, fun _ => Machine.not_isStructural_raised _, level.withFuel rest 0⟩

/-- Both begin to run a routine of an instance. -/
theorem abreast_start (inside : own < world.instances.size) :
    Abreast outline.shape outline'.shape own ⟨.empty, world⟩ ⟨.empty, world'.withFuel world.fuel⟩ :=
  ⟨rfl, inside, level.withFuel world.fuel world.fuel⟩

omit level in
theorem Stumbled.halted {e : EvalError} {act act' : Activation} {excluded : Prop}
    (stumbled : Stumbled outline.shape outline'.shape own e act act') :
    Halted outline.shape outline'.shape excluded e act.world act'.world := by
  refine ⟨fun _ => ?_, stumbled.2.level⟩
  rcases stumbled.1 with data | rfl
  · exact EvalError.not_isStructural_of_isData data
  · exact id

section
variable (wellScoped : method.WellScoped) (inside : own < world.instances.size) {excluded : Prop}
include wellScoped inside

theorem moveNext_lockstep : ∃ need, Alongside (fun _ => Level outline.shape outline'.shape)
    (Halted outline.shape outline'.shape excluded) ((Operation.moveNext own).perform lowered world)
    ((Operation.moveNext own).perform lowered' (world'.withFuel need)) := by
  obtain ⟨harvest, bodies⟩ := outline.bodies_scoped outline' wellScoped
  have along := body_lockstep outline outline' bodies (abreast_start outline outline' level inside)
  refine ⟨world.fuel, ?_⟩
  rw [moveNext_run outline, moveNext_run outline']
  revert along
  cases run lowered.machine outline.body (ownFrame own) outline.body ⟨.empty, world⟩ with
  | ok result act =>
    cases run lowered'.machine outline'.body (ownFrame own) outline'.body
        ⟨.empty, world'.withFuel world.fuel⟩ with
    | error e' act' => exact False.elim
    | ok result' act' =>
      rintro ⟨rfl, abreast⟩
      cases answer : (result.getD .null).asBool with
      | ok advanced =>
        simp only [answer]
        exact ⟨rfl, abreast.level⟩
      | error e =>
        have data : e.isData := (result.getD .null).onlyData_asBool e answer
        simp only [answer]
        exact ⟨rfl, fun _ => EvalError.not_isStructural_of_isData data, abreast.level⟩
  | error e act =>
    cases run lowered'.machine outline'.body (ownFrame own) outline'.body
        ⟨.empty, world'.withFuel world.fuel⟩ with
    | ok result' act' => exact False.elim
    | error e' act' =>
      rintro ⟨rfl, stumbled⟩
      exact ⟨rfl, stumbled.halted outline outline'⟩

theorem dispose_lockstep : ∃ need, Alongside (fun _ => Level outline.shape outline'.shape)
    (Halted outline.shape outline'.shape excluded) ((Operation.dispose own).perform lowered world)
    ((Operation.dispose own).perform lowered' (world'.withFuel need)) := by
  obtain ⟨harvest, bodies⟩ := outline.bodies_scoped outline' wellScoped
  have along := disposal_lockstep outline outline' bodies (abreast_start outline outline' level inside)
  refine ⟨world.fuel, ?_⟩
  rw [dispose_run outline, dispose_run outline']
  revert along
  cases run lowered.machine (Lowering.disposeCode outline.shape lowered.machine.points) (ownFrame own)
      (Lowering.disposeCode outline.shape lowered.machine.points) ⟨.empty, world⟩ <;>
    cases run lowered'.machine (Lowering.disposeCode outline'.shape lowered'.machine.points) (ownFrame own)
      (Lowering.disposeCode outline'.shape lowered'.machine.points) ⟨.empty, world'.withFuel world.fuel⟩
  · rintro ⟨rfl, abreast⟩
    exact ⟨rfl, abreast.level⟩
  · exact False.elim
  · exact False.elim
  · rintro ⟨rfl, stumbled⟩
    exact ⟨rfl, stumbled.halted outline outline'⟩

end

/-- What both are asked they answer in the same way. -/
theorem perform_lockstep (wellScoped : method.WellScoped) (reuse : options'.reuseTemplate = options.reuseTemplate)
    (members : outline'.shape.members = outline.shape.members) {operation : Operation}
    (possible : operation.IsPossible world) (complete : operation.IsComplete method)
    (lasts : ¬ IsExhausted (operation.perform lowered world)) :
    ∃ need, Alongside (fun _ => Level outline.shape outline'.shape)
      (Halted outline.shape outline'.shape (operation.IsSupported outline.kind))
      (operation.perform lowered world) (operation.perform lowered' (world'.withFuel need)) := by
  cases operation with
  | invoke receiver args => exact invoke_lockstep outline outline' level complete lasts
  | setThread thread =>
    refine ⟨world'.fuel, rfl, ?_⟩
    exact {
      thread := rfl
      calls := level.calls
      arrays := level.arrays
      size := level.size
      equipped := fun inside => (level.equipped inside).of_slots fun _ => rfl
      equipped' := fun inside => (level.equipped' inside).of_slots fun _ => rfl
      same := level.same }
  | getEnumerator object =>
    exact vend_lockstep outline outline' level reuse (possible object rfl) (.inl rfl) lasts
  | objectGetEnumerator object =>
    exact vend_lockstep outline outline' level reuse (possible object rfl) (.inr rfl) lasts
  | moveNext object => exact moveNext_lockstep outline outline' level wellScoped (possible object rfl)
  | current object => exact current_lockstep outline outline' level (possible object rfl) (.inl rfl) lasts
  | objectCurrent object =>
    exact current_lockstep outline outline' level (possible object rfl) (.inr rfl) lasts
  | dispose object => exact dispose_lockstep outline outline' level wellScoped (possible object rfl)
  | reset object => exact reset_lockstep outline outline' level members lasts

end

end Simulation
end Resumable
