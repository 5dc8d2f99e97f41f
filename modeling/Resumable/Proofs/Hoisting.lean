import Resumable.Proofs.Movable
import Resumable.Proofs.Safety

/-!
Where locals are stored cannot be observed. Lowerings that hoist more or fewer locals into fields
succeed together, and whatever consumers ask of the two machines, they get the same answers and
failures, see the same host calls and find the same states.
-/

namespace Resumable

namespace Operation
variable {lowered : Lowered} {world : Machine.World} {operation : Operation}

/-- More fuel changes nothing but what is left over. -/
theorem perform_grow (lasts : ¬ IsExhausted (operation.perform lowered world)) (extra : Nat) :
    operation.perform lowered (world.grow extra) =
      mapState (Machine.World.grow extra) (operation.perform lowered world) :=
  (operation.frugal_perform lowered world.fuel).more extra (Nat.le_refl _) lasts

theorem worldAfter_grow (lasts : ¬ IsExhausted (operation.perform lowered world)) (extra : Nat) :
    operation.worldAfter lowered (world.grow extra) = (operation.worldAfter lowered world).grow extra := by
  rw [worldAfter_eq, worldAfter_eq, perform_grow lasts, finalState_mapState]

/-- The instance that is asked exists, a call gives every parameter a value, and the fuel lasts. -/
def Finishes (lowered : Lowered) (world : Machine.World) (operation : Operation) : Prop :=
  operation.Lasts lowered world ∧ operation.IsComplete lowered.source

instance : Decidable (operation.Finishes lowered world) :=
  inferInstanceAs (Decidable (operation.Lasts lowered world ∧ operation.IsComplete lowered.source))

end Operation

/-- Two worlds in which consumers see the same. -/
structure Lowered.LooksLike (lowered lowered' : Lowered) (world world' : Machine.World) : Prop where
  calls : world'.calls = world.calls
  size : world'.instances.size = world.instances.size
  states (object : Nat) :
    lowered'.machine.stateOf world' (.object object) = lowered.machine.stateOf world (.object object)

namespace Simulation
open Lowering (Outline Shape)
open Machine (World)

section
variable {left right : Shape} {α : Type} {excluded : Prop} {result result' : EStateM.Result EvalError World α}

theorem alongside_grow (extra extra' : Nat)
    (along : Alongside (fun _ => Level left right) (Halted left right excluded) result result') :
    Alongside (fun _ => Level left right) (fun _ => Level left right)
      (mapState (World.grow extra) result) (mapState (World.grow extra') result') := by
  cases result with
  | ok a next =>
    cases result' with
    | ok a' next' => exact ⟨along.1, along.2.withFuel _ _⟩
    | error e' next' => exact along.elim
  | error e next =>
    cases result' with
    | ok a' next' => exact along.elim
    | error e' next' => exact ⟨along.1, along.2.2.withFuel _ _⟩

theorem not_isExhausted_alongside {post : α → World → World → Prop} {fault : EvalError → World → World → Prop}
    (along : Alongside post fault result result') (lasts : ¬ IsExhausted result) : ¬ IsExhausted result' := by
  cases result with
  | ok a next =>
    cases result' with
    | ok a' next' => exact id
    | error e' next' => exact along.elim
  | error e next =>
    cases result' with
    | ok a' next' => exact along.elim
    | error e' next' =>
      rw [isExhausted_error] at lasts ⊢
      rwa [← along.1]

end

section
variable {method : Method} {options options' : Options} {lowered lowered' : Lowered}
  (outline : Outline method options lowered) (outline' : Outline method options' lowered')
  {world world' : World}

theorem members_eq (same : outline'.platform = outline.platform) :
    outline'.shape.members = outline.shape.members := by
  have resolved := outline'.resolved
  rw [outline.kind_unique outline', same, outline.resolved] at resolved
  rw [outline.built.members_eq, outline'.built.members_eq, Except.ok.inj resolved]

/-- The state of an instance is what its state field holds. -/
theorem stateOf_slot (object : Nat) : lowered.machine.stateOf world (.object object) =
    match world.slot? object outline.shape.state with
    | some value => value.asInt
    | none => .error (.malformed .stateFieldMissing) := by
  obtain ⟨field, found, same⟩ := Option.map_eq_some_iff.mp outline.built.stateFirst
  have first : lowered.machine.fieldOf? .state = some field := by
    rw [Machine.fieldOf?, outline.fields_eq, found]
  rw [Machine.stateOf, first, ← same]
  rfl

theorem Level.looksLike (level : Level outline.shape outline'.shape world world') :
    lowered.LooksLike lowered' world world' where
  calls := level.calls
  size := level.size
  states object := by
    rw [stateOf_slot outline, stateOf_slot outline', level.same outline.built.state outline'.built.state]

/-- What both are asked one after another they answer in the same way. -/
theorem results_lockstep (wellScoped : method.WellScoped) (reuse : options'.reuseTemplate = options.reuseTemplate)
    (members : outline'.shape.members = outline.shape.members) {operations : List Operation}
    (level : Level outline.shape outline'.shape world world')
    (permitted : lowered.Permitted (Operation.Finishes lowered) operations world) :
    ∃ need, ∀ extra, ∀ fuel ≥ need, List.Forall₂
      (Alongside (fun _ => Level outline.shape outline'.shape) (fun _ => Level outline.shape outline'.shape))
      (lowered.results operations (world.grow extra)) (lowered'.results operations (world'.withFuel fuel)) := by
  induction operations generalizing world world' with
  | nil => exact ⟨0, fun _ _ _ => .nil⟩
  | cons operation rest ih =>
    obtain ⟨⟨⟨possible, lasts⟩, complete⟩, later⟩ := permitted
    rw [outline.source_eq] at complete
    obtain ⟨first, along⟩ :=
      perform_lockstep outline outline' level wellScoped reuse members possible complete lasts
    have lasts' := not_isExhausted_alongside along lasts
    have after := level_finalState along
    rw [← operation.worldAfter_eq, ← operation.worldAfter_eq] at after
    obtain ⟨second, follows⟩ := ih after later
    refine ⟨first + second, fun extra fuel enough => ?_⟩
    -- What the first operation of the right machine does not need is left for the others.
    have split : world'.withFuel fuel = (world'.withFuel first).grow (fuel - first) := by
      rw [World.grow_withFuel]
      congr 1
      omega
    rw [split]
    simp only [Lowered.results]
    rw [Operation.perform_grow lasts, Operation.perform_grow lasts', Operation.worldAfter_grow lasts,
      Operation.worldAfter_grow lasts']
    refine .cons (alongside_grow _ _ along) (follows extra _ ?_)
    omega

end

end Simulation

/-- The policy by which locals are hoisted cannot be observed. A lowering that succeeds under one
policy succeeds under any, and with enough fuel consumers who ask the same of both machines get
the same answers and failures, after which the host calls and the states of all instances are the
same. -/
theorem Lowered.looksLike_of_hoisting {method : Method} {platform : Platform} {options : Options}
    {supply supply' : NameSupply} {lowered : Lowered} (wellScoped : method.WellScoped)
    (lowers : method.lower platform options supply = .ok lowered supply') (policy : HoistPolicy) :
    ∃ lowered' supply'',
      method.lower platform { options with hoisting := policy } supply = .ok lowered' supply'' ∧
      ∀ operations world, world.instances = #[] →
        lowered.Permitted (Operation.Finishes lowered) operations world →
        ∃ need, ∀ fuel ≥ need, ∀ fuel' ≥ need, List.Forall₂
          (Alongside (fun _ => lowered.LooksLike lowered') fun _ => lowered.LooksLike lowered')
          (lowered.results operations (world.withFuel fuel))
          (lowered'.results operations (world.withFuel fuel')) := by
  obtain ⟨lowered', supply'', lowers', _⟩ :=
    Lowering.succeeds_of_lower lowers { options with hoisting := policy } supply
  obtain ⟨outline, platformed⟩ := Lowering.exists_outline lowers
  obtain ⟨outline', platformed'⟩ := Lowering.exists_outline lowers'
  refine ⟨lowered', supply'', lowers', fun operations world empty permitted => ?_⟩
  have members := Simulation.members_eq outline outline' (platformed'.trans platformed.symm)
  obtain ⟨need, follows⟩ := Simulation.results_lockstep outline outline' wellScoped rfl members
    (Simulation.Level.start empty) permitted
  refine ⟨world.fuel + need, fun fuel enough fuel' enough' => ?_⟩
  have grown : world.withFuel fuel = world.grow (fuel - world.fuel) := by
    rw [Machine.World.grow]
    congr 1
    omega
  rw [grown]
  exact (follows _ fuel' (by omega)).imp fun _ _ along =>
    along.imp (fun _ _ _ level => level.looksLike outline outline') fun _ _ _ level =>
      level.looksLike outline outline'

theorem Method.reportedItems_finishes : ∃ lowered supply,
    reportedItems.lower .standard .standard .empty = .ok lowered supply ∧
    lowered.Permitted (Operation.Finishes lowered) reportedItemsHistory (.start 300) := by
  have evaluated : (result? (reportedItems.lower .standard .standard .empty)).map (fun lowered =>
      decide (lowered.Permitted (Operation.Finishes lowered) reportedItemsHistory (.start 300))) =
      some true := by decide +kernel
  obtain ⟨lowered, found, same⟩ := Option.map_eq_some_iff.mp evaluated
  obtain ⟨supply, lowers⟩ := result?_eq_some.mp found
  exact ⟨lowered, supply, lowers, of_decide_eq_true same⟩

theorem Lowered.looksLike_of_hoisting_reportedItems : ∃ lowered supply lowered' supply',
    Method.reportedItems.lower .standard .standard .empty = .ok lowered supply ∧
    Method.reportedItems.lower .standard { Options.standard with hoisting := .all } .empty =
      .ok lowered' supply' ∧
    lowered.Permitted (Operation.Finishes lowered) Method.reportedItemsHistory (.start 300) ∧
    ∃ need, ∀ fuel ≥ need, ∀ fuel' ≥ need, List.Forall₂
      (Alongside (fun _ => lowered.LooksLike lowered') fun _ => lowered.LooksLike lowered')
      (lowered.results Method.reportedItemsHistory (.start fuel))
      (lowered'.results Method.reportedItemsHistory (.start fuel')) := by
  obtain ⟨lowered, supply, lowers, permitted⟩ := Method.reportedItems_finishes
  obtain ⟨lowered', supply', lowers', same⟩ :=
    Lowered.looksLike_of_hoisting Method.reportedItems_wellScoped lowers .all
  exact ⟨lowered, supply, lowered', supply', lowers, lowers', permitted, same _ _ rfl permitted⟩

end Resumable
