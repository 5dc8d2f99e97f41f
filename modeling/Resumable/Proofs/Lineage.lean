import Resumable.Proofs.Lowerable
import Resumable.Proofs.Protocol
import Resumable.Proofs.Safety

/-!
Where instances come from. All instances that go back to one call of the method still have its
arguments, in the parameters or beside them, whatever happened to them since. An enumerator that
is handed out by any of them starts with these arguments. It starts with the receiver of the call
as well, unless the body assigns the receiver, which nothing keeps a copy of.
-/

namespace Resumable

open Machine (World)

/-- The instances that go back to a call of the method in the world `base`: the one that the call
returned and, in turn, those that one of them handed out. Other operations may come in between. -/
inductive Lowered.Stems (lowered : Lowered) (permits : World → Operation → Prop)
    (receiver : Option Value) (args : List Value) (base : World) : World → Nat → Prop where
  | called {world : World} {object : Nat}
      (called : (Operation.invoke receiver args).perform lowered base = .ok (.object object) world) :
      lowered.Stems permits receiver args base world object
  | handed {world world' : World} {source object : Nat} {operation : Operation}
      (stems : lowered.Stems permits receiver args base world source)
      (vending : operation = .getEnumerator source ∨ operation = .objectGetEnumerator source)
      (handed : operation.perform lowered world = .ok (.object object) world') :
      lowered.Stems permits receiver args base world' object
  | later {world : World} {object : Nat} {operation : Operation}
      (stems : lowered.Stems permits receiver args base world object)
      (permitted : permits world operation) :
      lowered.Stems permits receiver args base (operation.worldAfter lowered world) object

namespace Operation

theorem isPossible_invoke (receiver : Option Value) (args : List Value) (world : World) :
    (invoke receiver args).IsPossible world := by
  simp [IsPossible, object?]

theorem isPossible_vending {operation : Operation} {object : Nat} {world : World}
    (vending : operation = .getEnumerator object ∨ operation = .objectGetEnumerator object)
    (inside : object < world.instances.size) : operation.IsPossible world := by
  rcases vending with rfl | rfl <;> simpa [IsPossible, object?] using inside

end Operation

namespace Simulation
open Lowering (Outline Shape)
open Machine (FieldId Role)

section
variable {shape : Shape} {object : Nat} {receiver : Option Value} {args : List Value} {world world' : World}

theorem Recalls.lt (sound : shape.Sound) (recalls : Recalls shape object receiver args world) :
    object < world.instances.size := by
  obtain ⟨_, held⟩ := Option.isSome_iff_exists.mp (recalls.present sound.state)
  exact World.lt_of_slot? held

theorem Recalls.of_slots (recalls : Recalls shape object receiver args world)
    (same : ∀ id, world'.slot? object id = world.slot? object id) :
    Recalls shape object receiver args world' where
  present bears := by rw [same]; exact recalls.present bears
  receiver slot := (same _).trans (recalls.receiver slot)
  kept slot plain := (same _).trans (recalls.kept slot plain)
  proxy proxied := (same _).trans (recalls.proxy proxied)

end

section
variable {method : Method} {options : Options} {lowered : Lowered}
  (outline : Outline method options lowered)

/-- What an operation does to the instances there are. -/
inductive Effect (world : World) : Operation → World → Prop where
  | builds {receiver : Option Value} {args : List Value} {world' : World}
      (constructed : Constructed outline.shape (Lowering.initialState outline.kind) world world') :
      Effect world (.invoke receiver args) world'
  | hands {operation : Operation} {own object : Nat} {world' : World}
      (vending : operation = .getEnumerator own ∨ operation = .objectGetEnumerator own)
      (vends : Vends outline.shape options own world object world') : Effect world operation world'
  | moves {operation : Operation} {own : Nat} {world' : World}
      (moving : operation = .moveNext own ∨ operation = .dispose own)
      (confined : Confined outline.shape outline.assigned own world world') :
      Effect world operation world'
  | idles {operation : Operation} {world' : World}
      (size : world'.instances.size = world.instances.size) (arrays : world'.arrays = world.arrays)
      (same : ∀ object id, world'.slot? object id = world.slot? object id) :
      Effect world operation world'

variable {object : Nat} {receiver : Option Value} {args : List Value} {world world' : World}
  {operation : Operation}

theorem Effect.of_fuel {result : EStateM.Result EvalError World Value} {left : Nat}
    (done : operation.perform lowered world = result) (final : finalState result = world.withFuel left) :
    Effect outline world operation (operation.worldAfter lowered world) := by
  rw [Operation.worldAfter_eq, done, final]
  exact .idles rfl rfl fun _ _ => rfl

theorem effect_vend {own : Nat}
    (vending : operation = .getEnumerator own ∨ operation = .objectGetEnumerator own)
    (equipped : Equipped outline.shape own world)
    (lasts : ¬ IsExhausted (operation.perform lowered world)) :
    Effect outline world operation (operation.worldAfter lowered world) := by
  cases kind : outline.kind with
  | enumerator =>
    have refused : ∃ e, operation.perform lowered world = .error e world := by
      rcases vending with rfl | rfl
      · exact ⟨_, vend_enumerator outline kind (.inl rfl) (.object own)⟩
      · exact ⟨_, vend_enumerator outline kind (.inr rfl) (.object own)⟩
    obtain ⟨e, refused⟩ := refused
    exact .of_fuel outline refused world.withFuel_self.symm
  | enumerable =>
    obtain ⟨object, world', done, vends⟩ := vend_enumerable outline kind equipped vending lasts
    rw [Operation.worldAfter_eq, done]
    exact .hands vending vends

theorem effect_moveNext (few : lowered.machine.points.length < 2 ^ 63) {own : Nat} {state : Int64}
    (held : world.slot? own outline.shape.state = some (.int state))
    (lasts : ¬ IsExhausted ((Operation.moveNext own).perform lowered world)) :
    Effect outline world (.moveNext own) ((Operation.moveNext own).worldAfter lowered world) := by
  by_cases active : Active lowered.machine.points state
  · have stopped := moveNext_active outline few held active lasts
    rw [Operation.worldAfter_eq]
    cases done : (Operation.moveNext own).perform lowered world with
    | ok value world' => rw [done] at stopped; exact .moves (.inl rfl) stopped.1
    | error e world' => rw [done] at stopped; exact .moves (.inl rfl) stopped.1
  · obtain ⟨left, done⟩ := moveNext_inactive outline held active lasts
    exact .of_fuel outline done rfl

theorem effect_dispose (few : lowered.machine.points.length < 2 ^ 63) {own : Nat} {state : Int64}
    (held : world.slot? own outline.shape.state = some (.int state))
    (lasts : ¬ IsExhausted ((Operation.dispose own).perform lowered world)) :
    Effect outline world (.dispose own) ((Operation.dispose own).worldAfter lowered world) := by
  by_cases active : Active lowered.machine.points state
  · have stopped := dispose_active outline few held active lasts
    rw [Operation.worldAfter_eq]
    cases done : (Operation.dispose own).perform lowered world with
    | ok value world' => rw [done] at stopped; exact .moves (.inr rfl) stopped.2.1
    | error e world' => rw [done] at stopped; exact .moves (.inr rfl) stopped.1
  · obtain ⟨left, done⟩ := dispose_inactive outline held active lasts
    exact .of_fuel outline done rfl

/-- Every operation that the fuel lasts for has one of these effects. -/
theorem effect_operation (few : lowered.machine.points.length < 2 ^ 63) (settled : Settled outline world)
    (lasts : operation.Lasts lowered world) :
    Effect outline world operation (operation.worldAfter lowered world) := by
  obtain ⟨possible, lasts⟩ := lasts
  cases operation with
  | invoke receiver args =>
    rw [Operation.worldAfter_eq]
    exact .builds (invoke_stops outline lasts)
  | setThread thread => exact .idles rfl rfl fun _ _ => rfl
  | getEnumerator own => exact effect_vend outline (.inl rfl) (settled own (possible own rfl)).1 lasts
  | objectGetEnumerator own =>
    exact effect_vend outline (.inr rfl) (settled own (possible own rfl)).1 lasts
  | moveNext own =>
    obtain ⟨_, state, held, _⟩ := settled own (possible own rfl)
    exact effect_moveNext outline few held lasts
  | dispose own =>
    obtain ⟨_, state, held, _⟩ := settled own (possible own rfl)
    exact effect_dispose outline few held lasts
  | current own =>
    obtain ⟨_, left, _, done⟩ := current_stops outline (settled own (possible own rfl)).1 (.inl rfl) lasts
    exact .of_fuel outline done rfl
  | objectCurrent own =>
    obtain ⟨_, left, _, done⟩ := current_stops outline (settled own (possible own rfl)).1 (.inr rfl) lasts
    exact .of_fuel outline done rfl
  | reset own =>
    obtain ⟨left, done⟩ := reset_stops outline lasts
    exact .of_fuel outline done rfl

theorem Effect.arrays_le (effect : Effect outline world operation world') : world.arrays ≤ world'.arrays := by
  cases effect with
  | builds constructed => exact Nat.le_of_eq constructed.arrays.symm
  | hands vending vends => exact Nat.le_of_eq vends.arrays.symm
  | moves moving confined => exact confined.arrays
  | idles size arrays same => exact Nat.le_of_eq arrays.symm

/-- In an enumerable, a parameter without a proxy is never assigned. -/
theorem unassigned_of_plain (enumerable : outline.kind = .enumerable) {index : Nat}
    (plain : ∀ proxy, (index, proxy) ∉ outline.shape.proxies) : .param index ∉ outline.assigned := by
  intro assigned
  have listed : index ∈ outline.shape.proxies.map (·.1) := by
    rw [outline.built.proxies_eq, enumerable]
    exact List.mem_filterMap.mpr ⟨.param index, assigned, rfl⟩
  obtain ⟨⟨_, id⟩, proxied, rfl⟩ := List.mem_map.mp listed
  exact plain id proxied

/-- An instance that went on by itself has its arguments still, and its receiver unless that is assigned. -/
theorem Recalls.confined (enumerable : outline.kind = .enumerable)
    (recalls : Recalls outline.shape object receiver args world)
    (confined : Confined outline.shape outline.assigned object world world') : ∃ receiver',
    Recalls outline.shape object receiver' args world' ∧
      (.receiver ∉ outline.assigned → receiver' = receiver) := by
  have sound := outline.built.toSound
  have present {id : FieldId} {role : Role} (bears : outline.shape.Bears id role) :
      (world'.slot? object id).isSome := confined.present (recalls.present bears)
  have kept {index : Nat} {id : FieldId} (slot : outline.shape.slot? (.param index) = some id)
      (plain : ∀ proxy, (index, proxy) ∉ outline.shape.proxies) : world'.slot? object id = args[index]? :=
    (confined.kept (sound.slot slot) (unassigned_of_plain outline enumerable plain)).trans
      (recalls.kept slot plain)
  have proxy {index : Nat} {id : FieldId} (proxied : (index, id) ∈ outline.shape.proxies) :
      world'.slot? object id = args[index]? :=
    (confined.kept (sound.proxy proxied) fun never => never).trans (recalls.proxy proxied)
  by_cases assigned : .receiver ∈ outline.assigned
  · cases slot : outline.shape.slot? .receiver with
    | none =>
      exact ⟨receiver, ⟨present, fun slot' => by simp [slot] at slot', kept, proxy⟩,
        fun unassigned => absurd assigned unassigned⟩
    | some id =>
      obtain ⟨value, held⟩ := Option.isSome_iff_exists.mp (present (sound.slot slot))
      refine ⟨some value, ⟨present, fun slot' => ?_, kept, proxy⟩,
        fun unassigned => absurd assigned unassigned⟩
      rw [← Option.some.inj (slot.symm.trans slot')]
      exact held
  · refine ⟨receiver, ⟨present, fun slot => ?_, kept, proxy⟩, fun _ => rfl⟩
    exact (confined.kept (sound.slot slot) assigned).trans (recalls.receiver slot)

/-- No operation makes an instance lose the arguments of its call. -/
theorem Recalls.effect (enumerable : outline.kind = .enumerable)
    (recalls : Recalls outline.shape object receiver args world)
    (effect : Effect outline world operation world') : ∃ receiver',
    Recalls outline.shape object receiver' args world' ∧
      (.receiver ∉ outline.assigned → receiver' = receiver) := by
  have inside := recalls.lt outline.built.toSound
  cases effect with
  | builds constructed =>
    exact ⟨receiver, recalls.of_slots fun id => constructed.others id (Nat.ne_of_lt inside), fun _ => rfl⟩
  | @hands _ own vended world' vending vends =>
    by_cases itself : object = vended
    · -- only an instance that there was can be handed out a second time, by itself
      have reusable : Reusable outline.shape options own world := by
        by_contra fresh
        have new := (vends.copy fresh).1
        omega
      obtain rfl : object = own := itself.trans (vends.itself reusable).1
      obtain rfl := itself
      exact ⟨receiver, (vends.primed outline.built.toSound recalls).toRecalls, fun _ => rfl⟩
    · exact ⟨receiver, recalls.of_slots fun id => vends.others id itself, fun _ => rfl⟩
  | @moves _ own world' moving confined =>
    by_cases itself : object = own
    · subst itself
      exact recalls.confined outline enumerable confined
    · exact ⟨receiver, recalls.of_slots fun id => confined.others id itself, fun _ => rfl⟩
  | idles size arrays same => exact ⟨receiver, recalls.of_slots (same object), fun _ => rfl⟩

omit outline in
theorem lasts_of_done {value : Value} (possible : operation.IsPossible world)
    (done : operation.perform lowered world = .ok value world') : operation.Lasts lowered world :=
  ⟨possible, by simp [done]⟩

omit outline in
theorem reachable_of_done {value : Value} (reachable : lowered.Reachable (Operation.Lasts lowered) world)
    (possible : operation.IsPossible world) (done : operation.perform lowered world = .ok value world') :
    lowered.Reachable (Operation.Lasts lowered) world' :=
  Operation.worldAfter_of_ok done ▸ .step reachable (lasts_of_done possible done)

/-- A call of the method that returned has built an instance with its inputs. -/
theorem primed_of_invoke (complete : method.params.length ≤ args.length)
    (done : (Operation.invoke receiver args).perform lowered world = .ok (.object object) world') :
    Primed outline.shape object receiver args world' ∧ world'.arrays = world.arrays := by
  have lasts := lasts_of_done (Operation.isPossible_invoke receiver args world) done
  obtain ⟨built, does, constructed, primed⟩ := invoke_spec outline complete world
  obtain ⟨left, done'⟩ := does.lasting (Operation.frugal_perform lowered (.invoke receiver args) _) lasts.2
  obtain ⟨same, rfl⟩ := EStateM.Result.ok.inj (done.symm.trans done')
  obtain rfl := Value.object.inj same
  exact ⟨⟨⟨primed.present, primed.receiver, primed.kept, primed.proxy⟩, primed.params⟩, constructed.arrays⟩

/-- An enumerator that was handed out. -/
theorem vends_of_done {source : Nat} (enumerable : outline.kind = .enumerable)
    (equipped : Equipped outline.shape source world)
    (vending : operation = .getEnumerator source ∨ operation = .objectGetEnumerator source)
    (done : operation.perform lowered world = .ok (.object object) world') :
    Vends outline.shape options source world object world' := by
  obtain ⟨object', vended, done', vends⟩ :=
    vend_enumerable outline enumerable equipped vending (by simp [done])
  obtain ⟨same, rfl⟩ := EStateM.Result.ok.inj (done.symm.trans done')
  obtain rfl := Value.object.inj same
  exact vends

/-- Every instance that goes back to a call recalls it. -/
theorem recalls_of_stems (few : lowered.machine.points.length < 2 ^ 63)
    (enumerable : outline.kind = .enumerable) (complete : method.params.length ≤ args.length) {base : World}
    (reachable : lowered.Reachable (Operation.Lasts lowered) base)
    (stems : lowered.Stems (Operation.Lasts lowered) receiver args base world object) :
    lowered.Reachable (Operation.Lasts lowered) world ∧ base.arrays ≤ world.arrays ∧ ∃ receiver',
      Recalls outline.shape object receiver' args world ∧
        (.receiver ∉ outline.assigned → receiver' = receiver) := by
  have sound := outline.built.toSound
  induction stems with
  | called done =>
    obtain ⟨primed, arrays⟩ := primed_of_invoke outline complete done
    exact ⟨reachable_of_done reachable (Operation.isPossible_invoke receiver args base) done,
      Nat.le_of_eq arrays.symm, receiver, primed.toRecalls, fun _ => rfl⟩
  | @handed world world' source object operation stems vending done ih =>
    obtain ⟨reached, arrays, receiver', recalls, same⟩ := ih
    have inside := recalls.lt sound
    have equipped := (settled_of_reachable outline few reached source inside).1
    have vends := vends_of_done outline enumerable equipped vending done
    exact ⟨reachable_of_done reached (Operation.isPossible_vending vending inside) done,
      vends.arrays ▸ arrays, receiver', (vends.primed sound recalls).toRecalls, same⟩
  | later stems lasts ih =>
    obtain ⟨reached, arrays, receiver', recalls, same⟩ := ih
    have effect := effect_operation outline few (settled_of_reachable outline few reached) lasts
    obtain ⟨receiver'', recalls', same'⟩ := recalls.effect outline enumerable effect
    exact ⟨.step reached lasts, Nat.le_trans arrays (effect.arrays_le outline), receiver'', recalls',
      fun unassigned => (same' unassigned).trans (same unassigned)⟩

omit outline in
theorem isSupported_enumerable (operation : Operation) : operation.IsSupported .enumerable := by
  cases operation <;> trivial

/-- A routine that has returned was begun with fuel. -/
theorem fuel_of_done (enumerable : outline.kind = .enumerable)
    (asks : ∀ thread, operation ≠ .setThread thread) {value : Value}
    (done : operation.perform lowered world = .ok value world') : world.fuel ≠ 0 := by
  intro empty
  have supported : operation.IsSupported outline.kind := enumerable ▸ isSupported_enumerable operation
  rcases perform_empty outline empty supported with ⟨thread, same⟩ | exhausted
  · exact asks thread same
  · simp [done] at exhausted

theorem fuel_of_vend (enumerable : outline.kind = .enumerable) {source : Nat}
    (vending : operation = .getEnumerator source ∨ operation = .objectGetEnumerator source) {value : Value}
    (done : operation.perform lowered world = .ok value world') : world.fuel ≠ 0 := by
  refine fuel_of_done outline enumerable ?_ done
  rcases vending with rfl | rfl <;> simp

/-- Without fuel, an operation leaves none. -/
theorem fuel_of_empty (enumerable : outline.kind = .enumerable) (empty : world.fuel = 0) :
    (operation.worldAfter lowered world).fuel = 0 := by
  have supported : operation.IsSupported outline.kind := enumerable ▸ isSupported_enumerable operation
  rcases perform_empty outline empty supported with ⟨thread, rfl⟩ | exhausted
  · exact empty
  · rw [Operation.worldAfter_eq]
    exact (operation.frugal_perform lowered world.fuel).spent (Nat.le_refl _) exhausted

/-- As long as there is fuel, no operation has run out of it. -/
theorem lasts_or_empty (possible : operation.IsPossible world) :
    operation.Lasts lowered world ∨ (operation.worldAfter lowered world).fuel = 0 := by
  by_cases exhausted : IsExhausted (operation.perform lowered world)
  · rw [Operation.worldAfter_eq]
    exact .inr ((operation.frugal_perform lowered world.fuel).spent (Nat.le_refl _) exhausted)
  · exact .inl ⟨possible, exhausted⟩

/-- A history in which there is fuel left has not run out of it before. -/
theorem lasting_of_reachable (enumerable : outline.kind = .enumerable)
    (reachable : lowered.Reachable (fun world operation => operation.IsPossible world) world) :
    lowered.Reachable (Operation.Lasts lowered) world ∨ world.fuel = 0 := by
  induction reachable with
  | start empty => exact .inl (.start empty)
  | step before possible ih =>
    rcases ih with reached | empty
    · exact (lasts_or_empty possible).imp_left (.step reached)
    · exact .inr (fuel_of_empty outline enumerable empty)

theorem lasting_of_stems (enumerable : outline.kind = .enumerable) {base : World}
    (stems : lowered.Stems (fun world operation => operation.IsPossible world) receiver args base world
      object) :
    base.fuel ≠ 0 ∧ lowered.Stems (Operation.Lasts lowered) receiver args base world object ∨
      world.fuel = 0 := by
  induction stems with
  | called done => exact .inl ⟨fuel_of_done outline enumerable (by simp) done, .called done⟩
  | handed stems vending done ih =>
    have fuelled := fuel_of_vend outline enumerable vending done
    obtain ⟨fuelled', stems⟩ := ih.resolve_right fuelled
    exact .inl ⟨fuelled', .handed stems vending done⟩
  | later stems possible ih =>
    rcases ih with ⟨fuelled, stems⟩ | empty
    · exact (lasts_or_empty possible).imp_left fun lasts => ⟨fuelled, .later stems lasts⟩
    · exact .inr (fuel_of_empty outline enumerable empty)

/-- Only an enumerable hands out enumerators. -/
theorem enumerable_of_vend {source : Nat} {value : Value}
    (vending : operation = .getEnumerator source ∨ operation = .objectGetEnumerator source)
    (done : operation.perform lowered world = .ok value world') : outline.kind = .enumerable := by
  cases kind : outline.kind with
  | enumerable => rfl
  | enumerator =>
    rcases vending with rfl | rfl
    · cases (vend_enumerator outline kind (.inl rfl) (.object source)).symm.trans done
    · cases (vend_enumerator outline kind (.inr rfl) (.object source)).symm.trans done

end

end Simulation

/-- Handing out an enumerator restores the inputs of the call. Whatever consumers have asked since
the method was called, and on whatever instance that goes back to the call the request is made, each
parameter of the enumerator holds the argument of the call. The receiver is copied from the instance
that was asked, so it is the receiver of the call if the body never assigns it. -/
theorem Lowered.inputs_of_vend {method : Method} {platform : Platform} {options : Options}
    {supply supply' : NameSupply} {lowered : Lowered}
    (lowers : method.lower platform options supply = .ok lowered supply')
    (few : lowered.machine.points.length < 2 ^ 63) {receiver : Option Value} {args : List Value}
    (complete : method.params.length ≤ args.length) {base world world' : World} {source object : Nat}
    (reachable : lowered.Reachable (fun world operation => operation.IsPossible world) base)
    (stems : lowered.Stems (fun world operation => operation.IsPossible world) receiver args base world
      source) {operation : Operation}
    (vending : operation = .getEnumerator source ∨ operation = .objectGetEnumerator source)
    (done : operation.perform lowered world = .ok (.object object) world') {field : Machine.Field}
    (member : field ∈ lowered.machine.fields) :
    (∀ index, field.role = .hoisted (.param index) → index < args.length ∧
      world'.slot? object field.id = args[index]?) ∧
    (field.role = .hoisted .receiver → world'.slot? object field.id = world.slot? source field.id ∧
      (.receiver ∉ method.body.assignedVars →
        world'.slot? object field.id = some (receiver.getD .null))) := by
  obtain ⟨outline⟩ := Lowering.outline_of_lower lowers
  have sound := outline.built.toSound
  have enumerable := Simulation.enumerable_of_vend outline vending done
  have fuelled := Simulation.fuel_of_vend outline enumerable vending done
  obtain ⟨fuelled', stems⟩ := (Simulation.lasting_of_stems outline enumerable stems).resolve_right fuelled
  have reachable := (Simulation.lasting_of_reachable outline enumerable reachable).resolve_right fuelled'
  obtain ⟨reached, _, receiver', recalls, same⟩ :=
    Simulation.recalls_of_stems outline few enumerable complete reachable stems
  have equipped := (Simulation.settled_of_reachable outline few reached source (recalls.lt sound)).1
  have vends := Simulation.vends_of_done outline enumerable equipped vending done
  have primed := vends.primed sound recalls
  have bears : outline.shape.Bears field.id field.role := ⟨field, outline.fields_eq ▸ member, rfl, rfl⟩
  refine ⟨fun index role => ?_, fun role => ?_⟩
  · rw [role] at bears
    have slot := outline.slot_of_bears bears
    exact ⟨Nat.lt_of_lt_of_le (Simulation.takes_lt outline (.inl slot)) complete, primed.params slot⟩
  · rw [role] at bears
    refine ⟨vends.captured bears rfl (by simp), fun unassigned => ?_⟩
    have unassigned : .receiver ∉ outline.assigned := fun assigned =>
      unassigned (Lowering.assignedVars_expanded outline.expands nofun assigned)
    rw [← same unassigned]
    exact primed.receiver (outline.slot_of_bears bears)

theorem Lowered.Stems.after {lowered : Lowered} {permits : World → Operation → Prop}
    {receiver : Option Value} {args : List Value} {base world : World} {object : Nat}
    {operations : List Operation} (stems : lowered.Stems permits receiver args base world object)
    (permitted : lowered.Permitted permits operations world) :
    lowered.Stems permits receiver args base (lowered.worldAfterAll operations world) object := by
  induction operations generalizing world with
  | nil => exact stems
  | cons operation rest ih => exact ih (.later stems permitted.1) permitted.2

/-- The operations by which the instance of a call becomes an enumerator and is advanced twice. -/
def Operation.advancingTwice : List Operation := [.getEnumerator 0, .moveNext 0, .moveNext 0]

/-- In words, what the field of a role holds in a copy of an instance that was advanced twice. -/
def Lowered.copied? (lowered : Lowered) (args : List Value) (role : Machine.Role) : Option String :=
  match (Operation.invoke (some (.int 7)) args).perform lowered (.start 100) with
  | .ok (.object 0) called =>
    if lowered.Permitted (fun world operation => operation.IsPossible world) Operation.advancingTwice
        called then
      match (Operation.getEnumerator 0).perform lowered
          (lowered.worldAfterAll Operation.advancingTwice called) with
      | .ok (.object 1) world' =>
        (lowered.machine.fields.find? (·.role = role)).bind fun field =>
          (world'.slot? 1 field.id).map Value.text
      | _ => none
    else none
  | _ => none

theorem Lowered.stems_of_copied? {lowered : Lowered} {args : List Value} {role : Machine.Role}
    {text : String} (shows : lowered.copied? args role = some text) : ∃ world world' field,
    lowered.Stems (fun world operation => operation.IsPossible world) (some (.int 7)) args (.start 100)
      world 0 ∧
    (Operation.getEnumerator 0).perform lowered world = .ok (.object 1) world' ∧
    field ∈ lowered.machine.fields ∧ field.role = role ∧
    (world'.slot? 1 field.id).map Value.text = some text := by
  unfold copied? at shows
  split at shows
  · next called done =>
    split at shows
    · next permitted =>
      split at shows
      · next world' handed =>
        obtain ⟨field, found, held⟩ := Option.bind_eq_some_iff.mp shows
        have role_eq : field.role = role := by simpa using List.find?_some found
        exact ⟨_, world', field, Stems.after (.called done) permitted, handed,
          List.mem_of_find?_eq_some found, role_eq, held⟩
      · cases shows
    · cases shows
  · cases shows

/-- Yields its receiver, assigns it, and yields it again. -/
def Method.reassigned : Method :=
  { Method.draft "reassigned" (.enumerableOf .int) with
    receiver := some .int
    body := [.yield (.var .receiver), .eval (.assign .receiver (.int 5)), .yield (.var .receiver)] }

/-- A receiver that the body assigns is not restored: a copy has what was assigned. -/
theorem Method.reassigned_receiver_lost : ∃ lowered supply,
    reassigned.lower .standard .standard .empty = .ok lowered supply ∧ ∃ world world' field,
    lowered.Stems (fun world operation => operation.IsPossible world) (some (.int 7)) [] (.start 100)
      world 0 ∧
    (Operation.getEnumerator 0).perform lowered world = .ok (.object 1) world' ∧
    field ∈ lowered.machine.fields ∧ field.role = .hoisted .receiver ∧
    (world'.slot? 1 field.id).map Value.text = some "5" ∧
    world'.slot? 1 field.id ≠ some (.int 7) := by
  have evaluated : (result? (reassigned.lower .standard .standard .empty)).map
      (·.copied? [] (.hoisted .receiver)) = some (some "5") := by decide +kernel
  obtain ⟨lowered, found, shows⟩ := Option.map_eq_some_iff.mp evaluated
  obtain ⟨supply, lowers⟩ := result?_eq_some.mp found
  obtain ⟨world, world', field, stems, handed, member, role, held⟩ := Lowered.stems_of_copied? shows
  refine ⟨lowered, supply, lowers, world, world', field, stems, handed, member, role, held, ?_⟩
  intro restored
  rw [restored] at held
  exact absurd held (by decide)

/-- Yields its receiver as often as its parameter says, which it counts down. -/
def Method.repeated : Method :=
  { Method.draft "repeated" (.enumerableOf .int) with
    receiver := some .int
    params := [⟨"times", .int⟩]
    body :=
      [.whileLoop (.binary .gt (.var (.param 0)) (.int 0))
        [.yield (.var .receiver), .eval (.assign (.param 0) (.binary .sub (.var (.param 0)) (.int 1)))]] }

theorem Lowered.inputs_of_vend_repeated : ∃ lowered supply,
    Method.repeated.lower .standard .standard .empty = .ok lowered supply ∧
    .receiver ∉ Method.repeated.body.assignedVars ∧ ∃ world world' field,
    lowered.Stems (fun world operation => operation.IsPossible world) (some (.int 7)) [.int 3]
      (.start 100) world 0 ∧
    (Operation.getEnumerator 0).perform lowered world = .ok (.object 1) world' ∧
    field ∈ lowered.machine.fields ∧ field.role = .hoisted (.param 0) ∧
    world'.slot? 1 field.id = some (.int 3) ∧
    ∀ other ∈ lowered.machine.fields, other.role = .hoisted .receiver →
      world'.slot? 1 other.id = some (.int 7) := by
  have evaluated : (result? (Method.repeated.lower .standard .standard .empty)).map (fun lowered =>
      (lowered.machine.points.length, lowered.copied? [.int 3] (.hoisted (.param 0)))) =
      some (1, some "3") := by decide +kernel
  obtain ⟨lowered, found, same⟩ := Option.map_eq_some_iff.mp evaluated
  obtain ⟨supply, lowers⟩ := result?_eq_some.mp found
  obtain ⟨single, shows⟩ := Prod.mk.inj same
  obtain ⟨world, world', field, stems, handed, member, role, _⟩ := Lowered.stems_of_copied? shows
  have unassigned : .receiver ∉ Method.repeated.body.assignedVars := by decide +kernel
  have inputs {other : Machine.Field} (member : other ∈ lowered.machine.fields) :=
    Lowered.inputs_of_vend lowers (by omega) (by decide) (.start rfl) stems (.inl rfl) handed member
  exact ⟨lowered, supply, lowers, unassigned, world, world', field, stems, handed, member, role,
    ((inputs member).1 0 role).2, fun other member role => ((inputs member).2 role).2 unassigned⟩

end Resumable
