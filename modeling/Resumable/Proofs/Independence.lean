import Resumable.Proofs.Lineage

/-!
Enumerators do not disturb one another. An enumerator of a call goes through the values of the run
of the method, one with each advance, no matter what is asked of other instances in between and
which of them it was handed out by.
-/

namespace Resumable

open Machine (World)

/-- The values are alike under one renaming of arrays, which fixes those below `count`. -/
def Value.AlikeFixing (count : Nat) (values values' : List Value) : Prop :=
  ∃ names : Renaming, names.Consistent ∧ (Renaming.fixing count).Extends names ∧
    AlikeAll names values values'

/-- Enumerators in use that go back to a call of the method in the world `base`: how often each has
been advanced since it was handed out, and the values that it then showed. It has not been disposed
of since. -/
inductive Lowered.Enumerates (lowered : Lowered) (receiver : Option Value) (args : List Value)
    (base : World) : World → Nat → Nat → List Value → Prop where
  | handed {world world' : World} {source object : Nat} {operation : Operation}
      (stems : lowered.Stems (Operation.Lasts lowered) receiver args base world source)
      (vending : operation = .getEnumerator source ∨ operation = .objectGetEnumerator source)
      (handed : operation.perform lowered world = .ok (.object object) world') :
      lowered.Enumerates receiver args base world' object 0 []
  | advanced {world world' : World} {object advances : Nat} {values : List Value} {value : Value}
      (before : lowered.Enumerates receiver args base world object advances values)
      (advanced : (Operation.moveNext object).perform lowered world = .ok (.bool true) world')
      (shown : ((Operation.current object).perform lowered).Does world' value world') :
      lowered.Enumerates receiver args base world' object (advances + 1) (values ++ [value])
  | declined {world world' : World} {object advances : Nat} {values : List Value}
      (before : lowered.Enumerates receiver args base world object advances values)
      (declined : (Operation.moveNext object).perform lowered world = .ok (.bool false) world') :
      lowered.Enumerates receiver args base world' object (advances + 1) values
  | beside {world : World} {object advances : Nat} {values : List Value} {operation : Operation}
      (before : lowered.Enumerates receiver args base world object advances values)
      (lasts : operation.Lasts lowered world) (other : operation ≠ .moveNext object)
      (undisposed : operation ≠ .dispose object) :
      lowered.Enumerates receiver args base (operation.worldAfter lowered world) object advances values

namespace Simulation
open Lowering (Outline)
open Structured (State)

theorem Undisturbed.withFuel (own : Nat) (world : World) (fuel : Nat) :
    Undisturbed own world (world.withFuel fuel) :=
  ⟨fun _ => rfl, Nat.le_refl _⟩

section
variable {method : Method} {options : Options} {lowered : Lowered}
  (outline : Outline method options lowered) {own : Nat} {world world' : World}

/-- An operation on other instances leaves an instance as it is, once it has been handed out. -/
theorem undisturbed_of_effect {operation : Operation} (effect : Effect outline world operation world')
    (other : operation ≠ .moveNext own) (undisposed : operation ≠ .dispose own) {state : Int64}
    (held : world.slot? own outline.shape.state = some (.int state)) (started : state ≠ State.notStarted) :
    Undisturbed own world world' := by
  have inside : own < world.instances.size := World.lt_of_slot? held
  refine ⟨fun id => ?_, effect.arrays_le outline⟩
  cases effect with
  | builds constructed => exact constructed.others id (Nat.ne_of_lt inside)
  | @hands _ source object _ vending vends =>
    refine vends.others id ?_
    rintro rfl
    by_cases reusable : Reusable outline.shape options source world
    · obtain ⟨rfl, _⟩ := vends.itself reusable
      have untouched := reusable.2.1
      rw [held] at untouched
      exact started (Value.int.inj (Option.some.inj untouched))
    · have new := (vends.copy reusable).1
      omega
  | @moves _ object _ moving confined =>
    refine confined.others id ?_
    rintro rfl
    exact moving.elim other undisposed
  | idles size arrays same => exact same own id

/-- How far an enumerator has come in a run whose last state is `last`. -/
inductive Underway (own count : Nat) (last : State) (world : World) (advances : Nat)
    (values : List Value) : Prop where
  | suspended {st : State} {names : Renaming} {state : Int64} (size : st.values.size = advances)
      (alike : Value.AlikeAll names st.values.toList values)
      (wider : (Renaming.fixing count).Extends names)
      (shows : ∀ value ∈ values.getLast?, world.slot? own outline.shape.current = some value)
      (held : world.slot? own outline.shape.state = some (.int state))
      (active : Active lowered.machine.points state)
      (proceeds : ∀ world', Undisturbed own world world' →
        Proceeds outline own none (.ok () last) st names outline.body ⟨.empty, world'⟩) :
      Underway own count last world advances values
  | past {names : Renaming} (size : last.values.size < advances)
      (alike : Value.AlikeAll names last.values.toList values)
      (wider : (Renaming.fixing count).Extends names) (consistent : names.Consistent)
      (finished : world.slot? own outline.shape.state = some (.int State.finished)) :
      Underway own count last world advances values

variable {count advances : Nat} {last : State} {values : List Value}

theorem Underway.undisturbed (underway : Underway outline own count last world advances values)
    (undisturbed : Undisturbed own world world') :
    Underway outline own count last world' advances values := by
  cases underway with
  | suspended size alike wider shows held active proceeds =>
    exact .suspended size alike wider (fun value member => (undisturbed.slots _).trans (shows value member))
      ((undisturbed.slots _).trans held) active fun next later => proceeds next (undisturbed.trans later)
  | past size alike wider consistent finished =>
    exact .past size alike wider consistent ((undisturbed.slots _).trans finished)

section
variable (few : lowered.machine.points.length < 2 ^ 63)

include outline few in
theorem not_active_finished : ¬ Active lowered.machine.points State.finished := by
  rw [active_iff outline few]
  exact fun active => absurd active.1 (by decide)

include few in
theorem Underway.state (underway : Underway outline own count last world advances values) :
    ∃ state, world.slot? own outline.shape.state = some (.int state) ∧ state ≠ State.notStarted := by
  cases underway with
  | @suspended _ _ state size alike wider shows held active proceeds =>
    refine ⟨state, held, ?_⟩
    rintro rfl
    exact absurd ((active_iff outline few).mp active).1 (by decide)
  | past size alike wider consistent finished => exact ⟨_, finished, by decide⟩

include few in
theorem Underway.isPossible_moveNext (underway : Underway outline own count last world advances values) :
    (Operation.moveNext own).IsPossible world := by
  obtain ⟨_, held, _⟩ := underway.state outline few
  simpa [Operation.IsPossible, Operation.object?] using World.lt_of_slot? held

include few in
/-- A new enumerator is at the beginning of the run. -/
theorem underway_start (inside : method.WellScoped) (plain : method.PlainHeaders)
    {receiver : Option Value} {args : List Value} {fuel arrays : Nat} {last : State}
    (ended : Structured.runBody outline.expanded none (Structured.startState receiver args fuel arrays) =
      .ok () last)
    (known : KnownInputs count receiver args) (old : count ≤ arrays) (old' : count ≤ world.arrays)
    (primed : Primed outline.shape own receiver args world)
    (fresh : world.slot? own outline.shape.state = some (.int State.fresh)) :
    Underway outline own count last world 0 [] := by
  have proceeds (world' : World) (undisturbed : Undisturbed own world world') :
      Proceeds outline own none (.ok () last) (Structured.startState receiver args fuel arrays)
        (.fixing count) outline.body ⟨.empty, world'⟩ := by
    have recalls := primed.toRecalls.of_slots undisturbed.slots
    have params {index : Nat} {id : Machine.FieldId} (slot : outline.shape.slot? (.param index) = some id) :
        world'.slot? own id = args[index]? := (undisturbed.slots id).trans (primed.params slot)
    rw [← ended]
    exact proceeds_of_expanded outline few inside plain (by simp) (by simp [ended]) known old
      (Nat.le_trans old' undisturbed.arrays) ⟨recalls, params⟩ ((undisturbed.slots _).trans fresh)
  refine .suspended ?_ ?_ (fun _ _ linked => linked) (by simp) fresh (.inl rfl) proceeds
  · rfl
  · exact .nil

omit few in
/-- What the rest of a run produces comes behind what there is. -/
theorem values_of_proceeds {st : State} {names : Renaming}
    (proceeds : Proceeds outline own none (.ok () last) st names outline.body ⟨.empty, world⟩) :
    ∃ names', names.Extends names' ∧ names'.Consistent ∧
      ∃ more, last.values.toList = st.values.toList ++ more := by
  obtain ⟨_, names', _, _, produces, consistent, _⟩ := drains outline proceeds rfl rfl rfl
  obtain ⟨more, listed, _⟩ := produces.values
  exact ⟨names', produces.wider, consistent, more, listed⟩

section
variable (underway : Underway outline own count last world advances values)
include underway

omit few in
/-- The values so far are those at the beginning of the run. -/
theorem Underway.shown : Value.AlikeFixing count (last.values.toList.take advances) values := by
  cases underway with
  | suspended size alike wider shows held active proceeds =>
    obtain ⟨names, wider', consistent, more, listed⟩ :=
      values_of_proceeds outline (proceeds world (.refl own world))
    refine ⟨names, consistent, wider.trans wider', ?_⟩
    rw [listed, List.take_left' (by simpa using size)]
    exact alike.mono wider'
  | @past names size alike wider consistent finished =>
    refine ⟨names, consistent, wider, ?_⟩
    rw [List.take_of_length_le (by simpa using Nat.le_of_lt size)]
    exact alike

omit few in
/-- Until the run is over, the last value can be read. -/
theorem Underway.showing (within : advances ≤ last.values.size) :
    ∀ value ∈ values.getLast?, world.slot? own outline.shape.current = some value := by
  cases underway with
  | suspended size alike wider shows held active proceeds => exact shows
  | past size alike wider consistent finished => omega

include few

/-- One advance: there is another value to show, or the run is over. -/
theorem Underway.next :
    (advances < last.values.size ∧ ∃ value world',
      ((Operation.moveNext own).perform lowered).Does world (.bool true) world' ∧
      world'.slot? own outline.shape.current = some value ∧
      Underway outline own count last world' (advances + 1) (values ++ [value])) ∨
    (last.values.size ≤ advances ∧ ∃ world',
      ((Operation.moveNext own).perform lowered).Does world (.bool false) world' ∧
      Underway outline own count last world' (advances + 1) values) := by
  cases underway with
  | @suspended st names state size alike wider shows held active proceeds =>
    cases proceeds world (.refl own world) with
    | @yields _ st' _ names' _ _ act' value point returns advance paused early again =>
      obtain ⟨value', present, alike'⟩ := paused.current
      have size' : (produced st' value).values.size = advances + 1 := by
        simp [produced, advance.values, size]
      have later : advances < last.values.size := by
        obtain ⟨_, _, _, more, listed⟩ := values_of_proceeds outline (again _ (.refl own act'.world))
        have lengths := congrArg List.length listed
        simp only [Array.length_toList, List.length_append, size'] at lengths
        omega
      refine .inl ⟨later, value', act'.world,
        (moveNext_of_returns outline returns).bind (Machine.Exec.does_pure _ _), present,
        .suspended size' ?_ (wider.trans advance.wider) (by simpa using present) paused.state
          (.inr ⟨point, paused.known, rfl⟩) again⟩
      simpa [produced, advance.values] using (alike.mono advance.wider).append (.cons alike' .nil)
    | stops returns advance paused reached unwinding => cases reached
    | @ends _ last' _ names' _ _ act' returns advance finished consistent ended =>
      obtain ⟨_, rfl⟩ := EStateM.Result.ok.inj ended
      have size' : last.values.size = advances := by rw [advance.values, size]
      refine .inr ⟨Nat.le_of_eq size', act'.world,
        (moveNext_of_returns outline returns).bind (Machine.Exec.does_pure _ _),
        .past (by omega) ?_ (wider.trans advance.wider) consistent finished⟩
      rw [advance.values]
      exact alike.mono advance.wider
    | fails fails failed => cases failed
  | past size alike wider consistent finished =>
    exact .inr ⟨Nat.le_of_lt size, world,
      moveNext_declines outline finished (not_active_finished outline few),
      .past (by omega) alike wider consistent finished⟩

/-- An advance that has answered is the next one of the run. -/
theorem Underway.moved {answer : Value}
    (moved : (Operation.moveNext own).perform lowered world = .ok answer world') :
    (answer = .bool true ∧ ∃ value, world'.slot? own outline.shape.current = some value ∧
      Underway outline own count last world' (advances + 1) (values ++ [value])) ∨
    (answer = .bool false ∧ Underway outline own count last world' (advances + 1) values) := by
  have lasts : ¬ IsExhausted ((Operation.moveNext own).perform lowered world) := by simp [moved]
  have frugal := Operation.frugal_perform lowered (.moveNext own) world.fuel
  rcases underway.next outline few with ⟨_, value, next, does, present, later⟩ | ⟨_, next, does, later⟩
  · obtain ⟨left, done⟩ := does.lasting frugal lasts
    obtain ⟨rfl, rfl⟩ := EStateM.Result.ok.inj (moved.symm.trans done)
    exact .inl ⟨rfl, value, present, later.undisturbed outline (.withFuel own next left)⟩
  · obtain ⟨left, done⟩ := does.lasting frugal lasts
    obtain ⟨rfl, rfl⟩ := EStateM.Result.ok.inj (moved.symm.trans done)
    exact .inr ⟨rfl, later.undisturbed outline (.withFuel own next left)⟩

end

include few in
/-- An enumerator in use is underway in a run of the expanded method. -/
theorem underway_of_enumerates (inside : method.WellScoped) (plain : method.PlainHeaders)
    {receiver : Option Value} {args : List Value} {fuel arrays : Nat} {base : World}
    (complete : method.params.length ≤ args.length) (unassigned : .receiver ∉ outline.assigned)
    (ended : Structured.runBody outline.expanded none (Structured.startState receiver args fuel arrays) =
      .ok () last)
    (known : KnownInputs count receiver args) (old : count ≤ arrays) (old' : count ≤ base.arrays)
    (reachable : lowered.Reachable (Operation.Lasts lowered) base)
    (enumerates : lowered.Enumerates receiver args base world own advances values) :
    lowered.Reachable (Operation.Lasts lowered) world ∧
      Underway outline own count last world advances values := by
  have sound := outline.built.toSound
  induction enumerates with
  | @handed world world' source object operation stems vending done =>
    have enumerable := enumerable_of_vend outline vending done
    obtain ⟨reached, grown, receiver', recalls, same⟩ :=
      recalls_of_stems outline few enumerable complete reachable stems
    obtain rfl := same unassigned
    have inside' := recalls.lt sound
    have equipped := (settled_of_reachable outline few reached source inside').1
    have vends := vends_of_done outline enumerable equipped vending done
    refine ⟨reachable_of_done reached (Operation.isPossible_vending vending inside') done, ?_⟩
    exact underway_start outline few inside plain ended known old
      (vends.arrays ▸ Nat.le_trans old' grown) (vends.primed sound recalls) vends.state
  | @advanced world world' object advances values value before moved shown ih =>
    obtain ⟨reached, underway⟩ := ih
    refine ⟨reachable_of_done reached (underway.isPossible_moveNext outline few) moved, ?_⟩
    rcases underway.moved outline few moved with ⟨_, value', present, later⟩ | ⟨declined, _⟩
    · obtain rfl := shown.unique (current_of_slot outline present)
      exact later
    · cases declined
  | @declined world world' object advances values before moved ih =>
    obtain ⟨reached, underway⟩ := ih
    refine ⟨reachable_of_done reached (underway.isPossible_moveNext outline few) moved, ?_⟩
    rcases underway.moved outline few moved with ⟨advanced, _⟩ | ⟨_, later⟩
    · cases advanced
    · exact later
  | @beside world object advances values operation before lasts other undisposed ih =>
    obtain ⟨reached, underway⟩ := ih
    obtain ⟨state, held, started⟩ := underway.state outline few
    have effect := effect_operation outline few (settled_of_reachable outline few reached) lasts
    exact ⟨.step reached lasts, underway.undisturbed outline
      (undisturbed_of_effect outline effect other undisposed held started)⟩

end

end

end Simulation

open Simulation (KnownInputs)

/-- Every enumeration is independent and starts from the inputs of the call. An enumerator that has
been advanced some times since it was handed out has shown the first values of the run of the
method. The next advance finds the next value, or none if there are no more, and until then the
value can be read. None of this depends on what is asked of the other instances in between, on which
of them handed out the enumerator, or in what state that one was. -/
theorem Lowered.enumeration_of_run {method : Method} {platform : Platform} {options : Options}
    {supply supply' : NameSupply} {lowered : Lowered}
    (lowers : method.lower platform options supply = .ok lowered supply')
    (few : lowered.machine.points.length < 2 ^ 63) (inside : method.WellScoped)
    (plain : method.PlainHeaders) (unassigned : .receiver ∉ method.body.assignedVars)
    {receiver : Option Value} {args : List Value} (complete : method.params.length ≤ args.length)
    {fuel arrays count : Nat} {observed : Structured.Observation}
    (ran : Structured.run method receiver args none fuel arrays = .ok observed)
    (known : KnownInputs count receiver args) (old : count ≤ arrays) {base world : World}
    (reachable : lowered.Reachable (Operation.Lasts lowered) base) (old' : count ≤ base.arrays)
    {object advances : Nat} {values : List Value}
    (enumerates : lowered.Enumerates receiver args base world object advances values) :
    Value.AlikeFixing count (observed.values.take advances) values ∧
    (advances < observed.values.length → ∃ value world',
      ((Operation.moveNext object).perform lowered).Does world (.bool true) world' ∧
      ((Operation.current object).perform lowered).Does world' value world' ∧
      Value.AlikeFixing count (observed.values.take (advances + 1)) (values ++ [value])) ∧
    (observed.values.length ≤ advances → ∃ world',
      ((Operation.moveNext object).perform lowered).Does world (.bool false) world') ∧
    (advances ≤ observed.values.length → ∀ value ∈ values.getLast?,
      ((Operation.current object).perform lowered).Does world value world ∧
      ((Operation.objectCurrent object).perform lowered).Does world value world) := by
  obtain ⟨outline⟩ := Lowering.outline_of_lower lowers
  have unassigned : .receiver ∉ outline.assigned := fun assigned =>
    unassigned (Lowering.assignedVars_expanded outline.expands nofun assigned)
  obtain ⟨need, again⟩ := Structured.run_expanded outline.passed outline.expands ran (by simp)
  obtain ⟨last, ended, same, _⟩ := Simulation.runBody_of_run (by simp) (again need (Nat.le_refl _))
  obtain ⟨_, underway⟩ := Simulation.underway_of_enumerates outline few inside plain complete unassigned
    ended known old old' reachable enumerates
  have size : observed.values.length = last.values.size := by rw [← same, Array.length_toList]
  rw [size, ← same]
  refine ⟨underway.shown outline, fun more => ?_, fun enough => ?_, fun within value member => ?_⟩
  · rcases underway.next outline few with ⟨_, value, world', moved, present, later⟩ | ⟨past, _⟩
    · exact ⟨value, world', moved, Simulation.current_does outline present (.inl rfl), later.shown outline⟩
    · omega
  · rcases underway.next outline few with ⟨more, _⟩ | ⟨_, world', declined, _⟩
    · omega
    · exact ⟨world', declined⟩
  · have present := underway.showing outline within value member
    exact ⟨Simulation.current_does outline present (.inl rfl),
      Simulation.current_does outline present (.inr rfl)⟩

/-- An enumerator is used by turns with the one that handed it out, which had been advanced before. -/
def Operation.byTurns : List Operation :=
  [.getEnumerator 0, .moveNext 0, .getEnumerator 0, .moveNext 0, .moveNext 1, .current 1]

/-- In words, the value that is read in the end. -/
def Lowered.byTurns? (lowered : Lowered) (args : List Value) (base : World) : Option String :=
  match (Operation.invoke none args).perform lowered base with
  | .ok (.object 0) called =>
    if lowered.Permitted (Operation.Lasts lowered) Operation.byTurns called then
      match lowered.results Operation.byTurns called with
      | [_, _, .ok (.object 1) _, _, .ok (.bool true) _, .ok value _] => some value.text
      | _ => none
    else none
  | _ => none

theorem Simulation.does_current {method : Method} {options : Options} {lowered : Lowered}
    (outline : Lowering.Outline method options lowered) {own : Nat} {world world' : World} {value : Value}
    (equipped : Equipped outline.shape own world)
    (done : (Operation.current own).perform lowered world = .ok value world') :
    ((Operation.current own).perform lowered).Does world value world := by
  obtain ⟨value', left, present, done'⟩ := current_stops outline equipped (.inl rfl) (by simp [done])
  obtain ⟨rfl, _⟩ := EStateM.Result.ok.inj (done.symm.trans done')
  exact current_does outline present (.inl rfl)

theorem Lowered.enumerates_of_byTurns? {method : Method} {platform : Platform} {options : Options}
    {supply supply' : NameSupply} {lowered : Lowered}
    (lowers : method.lower platform options supply = .ok lowered supply')
    (few : lowered.machine.points.length < 2 ^ 63) {args : List Value} {base : World} {text : String}
    (reachable : lowered.Reachable (Operation.Lasts lowered) base)
    (shows : lowered.byTurns? args base = some text) : ∃ world value,
    lowered.Enumerates none args base world 1 1 [value] ∧ value.text = text := by
  obtain ⟨outline⟩ := Lowering.outline_of_lower lowers
  unfold byTurns? at shows
  split at shows
  · next called done =>
    split at shows
    · next permitted =>
      split at shows
      · next value _ results =>
        obtain ⟨first, second, third, fourth, fifth, sixth, _⟩ := permitted
        simp only [Operation.byTurns, Lowered.results, List.cons.injEq] at results
        obtain ⟨_, _, handed, _, advanced, read, _⟩ := results
        have reached := Simulation.reachable_of_done reachable
          (Operation.isPossible_invoke none args base) done
        have reached : lowered.Reachable (Operation.Lasts lowered) _ :=
          .step (.step (.step (.step (.step reached first) second) third) fourth) fifth
        have settled := Simulation.settled_of_reachable outline few reached
        have shown := Simulation.does_current outline (settled 1 (sixth.1 1 rfl)).1 read
        rw [Operation.worldAfter_of_ok handed] at advanced shown fourth
        rw [Operation.worldAfter_of_ok advanced] at shown
        exact ⟨_, value, .advanced (.beside (.handed (.later (.later (.called done) first) second)
          (.inl rfl) handed) fourth (by simp) (by simp)) advanced shown, Option.some.inj shows⟩
      · cases shows
    · cases shows
  · cases shows

theorem Lowered.enumeration_of_run_eachItem : ∃ lowered supply observed,
    Method.eachItem.lower .standard .standard .empty = .ok lowered supply ∧
    .receiver ∉ Method.eachItem.body.assignedVars ∧
    Structured.run Method.eachItem none [.array 0 [.int 1, .int 2]] none 100 1 = .ok observed ∧
    observed.values.map Value.text = ["1", "2"] ∧ ∃ world value,
    lowered.Enumerates none [.array 0 [.int 1, .int 2]] { World.start 200 with arrays := 1 } world 1 1
      [value] ∧
    value.text = "1" ∧
    Value.AlikeFixing 1 (observed.values.take 1) [value] ∧
    (∃ value' world',
      ((Operation.moveNext 1).perform lowered).Does world (.bool true) world' ∧
      ((Operation.current 1).perform lowered).Does world' value' world' ∧
      Value.AlikeFixing 1 (observed.values.take 2) [value, value']) ∧
    ((Operation.current 1).perform lowered).Does world value world := by
  have evaluated : (result? (Method.eachItem.lower .standard .standard .empty)).map (fun lowered =>
      (lowered.machine.points.length, lowered.byTurns? [.array 0 [.int 1, .int 2]]
        { World.start 200 with arrays := 1 })) = some (1, some "1") := by decide +kernel
  obtain ⟨lowered, found, same⟩ := Option.map_eq_some_iff.mp evaluated
  obtain ⟨supply, lowers⟩ := result?_eq_some.mp found
  obtain ⟨single, shows⟩ := Prod.mk.inj same
  have few : lowered.machine.points.length < 2 ^ 63 := by omega
  have reachable : lowered.Reachable (Operation.Lasts lowered) { World.start 200 with arrays := 1 } :=
    .start rfl
  obtain ⟨world, value, enumerates, text⟩ := Lowered.enumerates_of_byTurns? lowers few reachable shows
  have shows : Method.eachItemShows none = some (["1", "2"], ["closed(null)"]) := by decide +kernel
  obtain ⟨observed, ran, values, _⟩ := Method.eachItem_runs shows
  have two : observed.values.length = 2 := by simpa using congrArg List.length values
  have unassigned : .receiver ∉ Method.eachItem.body.assignedVars := by decide +kernel
  obtain ⟨alike, next, _, showing⟩ := Lowered.enumeration_of_run lowers few Method.eachItem_wellScoped
    Method.eachItem_plainHeaders unassigned (by decide) ran Simulation.knownInputs_items (Nat.le_refl 1)
    reachable (Nat.le_refl 1) enumerates
  exact ⟨lowered, supply, observed, lowers, unassigned, ran, values, world, value, enumerates, text, alike,
    next (by omega), (showing (by omega) value rfl).1⟩

end Resumable
