import Resumable.Method.Build
import Resumable.Proofs.Expansion
import Resumable.Proofs.Vending

/-!
Complete runs. A consumer that obtains an enumerator and drains it gets the values of a run
of the method, the host is called as in that run, and the instance ends finished.
-/

namespace Resumable

namespace Simulation
open Lowering (Outline Shape)
open Machine (Activation Code Exec FieldId World)
open Structured (Observation State)

/-- Both sides went on and the consumer got these values. -/
structure Produces (st : State) (names : Renaming) (world : World) (last : State) (names' : Renaming)
    (world' : World) (values : List Value) : Prop where
  values : ∃ more, last.values.toList = st.values.toList ++ more ∧ Value.AlikeAll names' more values
  wider : names.Extends names'
  calls : ∃ made made', last.calls.toList = st.calls.toList ++ made ∧
    world'.calls.toList = world.calls.toList ++ made' ∧ HostCall.AlikeAll names' made made'

section
variable {st st' last : State} {names names' names'' : Renaming} {world world' world'' : World}

theorem Advance.produces (advance : Advance st names world last names' world') :
    Produces st names world last names' world' [] where
  values := ⟨[], by simp [advance.values], .nil⟩
  wider := advance.wider
  calls := advance.calls

theorem Produces.cons {value value' : Value} {values : List Value}
    (advance : Advance st names world st' names' world') (alike : Value.Alike names' value value')
    (rest : Produces (produced st' value) names' world' last names'' world'' values) :
    Produces st names world last names'' world'' (value' :: values) where
  values := by
    obtain ⟨more, listed, others⟩ := rest.values
    refine ⟨value :: more, ?_, .cons (alike.mono rest.wider) others⟩
    rw [listed, produced, Array.toList_push, advance.values, List.append_assoc]
    rfl
  wider := advance.wider.trans rest.wider
  calls := by
    obtain ⟨made, made', reference, actual, alike⟩ := advance.calls
    obtain ⟨more, more', reference', actual', alike'⟩ := rest.calls
    refine ⟨made ++ more, made' ++ more', ?_, ?_, (alike.mono rest.wider).append alike'⟩
    · rw [reference', produced, reference, List.append_assoc]
    · rw [actual', actual, List.append_assoc]

end

section
variable {method : Method} {options : Options} {lowered : Lowered}
  (outline : Outline method options lowered) {own : Nat} {world : World}
include outline

theorem stateOf_of_slot {state : Int64}
    (held : world.slot? own outline.shape.state = some (.int state)) :
    lowered.machine.stateOf world (.object own) = .ok state := by
  obtain ⟨field, found, same⟩ := Option.map_eq_some_iff.mp outline.built.stateFirst
  have held : (world.instances[own]?.bind fun i => i.slots.get? field.id) = some (.int state) := by
    rw [same]
    exact held
  simp [Machine.stateOf, Machine.fieldOf?, outline.fields_eq, found, held, Value.asObject,
    Value.asInt, bind, Except.bind]

theorem moveNext_of_returns {answer : Bool} {act' : Activation}
    (returns : Machine.Returns lowered.machine outline.body (ownFrame own) outline.body
      ⟨.empty, world⟩ (some (.bool answer)) act') :
    (lowered.machine.moveNext (.object own)).Does world answer act'.world := by
  obtain ⟨routine, found, code⟩ := outline.routine_moveNext
  rw [← code] at returns
  exact (callKind_of_returns found returns).bind (Exec.does_pure answer _)

theorem current_of_slot {value : Value}
    (held : world.slot? own outline.shape.current = some value) :
    (lowered.machine.current (.object own)).Does world value world := by
  obtain ⟨routine, found, code⟩ := outline.routine_current
  have returns : Machine.Returns lowered.machine routine.body (ownFrame own) routine.body
      ⟨.empty, world⟩ (some value) ⟨.empty, world⟩ := by
    rw [code]
    exact .ret (gives_field held)
  exact callKind_of_returns found returns

/-- Obtaining an enumerator gives an instance that can start with the inputs of the call. -/
theorem enumerate_spec {receiver : Option Value} {args : List Value}
    (complete : method.params.length ≤ args.length) (world : World) : ∃ own world',
    (lowered.enumerate receiver args).Does world (.object own) world' ∧
    Primed outline.shape own receiver args world' ∧
    world'.slot? own outline.shape.state = some (.int State.fresh) ∧
    world'.calls = world.calls ∧ world'.arrays = world.arrays := by
  obtain ⟨called, invoked, constructed, primed⟩ := invoke_spec outline complete world
  have kind := outline.kind_eq
  cases which : outline.kind with
  | enumerator =>
    rw [which] at kind constructed
    refine ⟨_, called, invoked.bind ?_, primed, constructed.state, constructed.calls,
      constructed.arrays⟩
    simp only [kind]
    exact Exec.does_pure _ _
  | enumerable =>
    rw [which] at kind
    have equipped : Equipped outline.shape world.instances.size called :=
      ⟨constructed.present, ⟨_, constructed.state⟩, fun found => ⟨_, constructed.creator found⟩⟩
    obtain ⟨own, vended, gotten, vends⟩ := getEnumerator_spec outline which equipped
    refine ⟨own, vended, invoked.bind ?_, vends.primed outline.built.toSound primed.toRecalls,
      vends.state, vends.calls.trans constructed.calls, vends.arrays.trans constructed.arrays⟩
    simp only [kind]
    exact gotten

/-- A consumer that drains an enumerator gets what the rest of the run produces. -/
theorem drains {result : EStateM.Result EvalError State Unit} {st last : State} {names : Renaming}
    {code : Code} {act : Activation} (proceeds : Proceeds outline own none result st names code act)
    (ended : result = .ok () last) (start : code = outline.body) (entered : act = ⟨.empty, world⟩) :
    ∃ values names' world' cost, Produces st names world last names' world' values ∧
      names'.Consistent ∧ world'.slot? own outline.shape.state = some (.int State.finished) ∧
      ∀ bound fuel, values.length < bound → lowered.machine.drainWithin (.object own) bound
        (world.withFuel (fuel + cost)) = .ok values (world'.withFuel fuel) := by
  induction proceeds generalizing world with
  | @yields st st' names names' code act act' value point returns advance paused early again ih =>
    subst start entered
    obtain ⟨value', held, alike⟩ := paused.current
    obtain ⟨values, names'', world', cost, produces, consistent, finished, drains⟩ :=
      ih act'.world (.refl own act'.world) rfl rfl
    obtain ⟨moving, moved⟩ := moveNext_of_returns outline returns
    obtain ⟨reading, read⟩ := current_of_slot outline held
    refine ⟨value' :: values, names'', world', cost + reading + moving, produces.cons advance alike,
      consistent, finished, fun bound fuel enough => ?_⟩
    obtain ⟨bound, rfl⟩ : ∃ n, bound = n + 1 := ⟨bound - 1, by omega⟩
    have enough : values.length < bound := by simpa using enough
    simp only [Machine.drainWithin, ← Nat.add_assoc]
    rw [bind_of_ok (moved _)]
    simp only [if_true]
    rw [bind_of_ok (read _), bind_of_ok (drains bound fuel enough)]
    rfl
  | stops returns advance paused reached unwinding => cases reached
  | @ends st last' names names' code act act' returns advance finished consistent ended' =>
    subst start entered
    obtain rfl : last = last' := by
      rw [ended] at ended'
      exact (EStateM.Result.ok.inj ended').2
    obtain ⟨cost, moved⟩ := moveNext_of_returns outline returns
    refine ⟨[], names', act'.world, cost, advance.produces, consistent, finished,
      fun bound fuel enough => ?_⟩
    obtain ⟨bound, rfl⟩ : ∃ n, bound = n + 1 := ⟨bound - 1, by omega⟩
    rw [Machine.drainWithin, bind_of_ok (moved _)]
    rfl
  | fails fails failed =>
    rw [ended] at failed
    cases failed

omit outline in
theorem runBody_of_run {limit : Option Nat} {receiver : Option Value} {args : List Value}
    {fuel arrays : Nat} {observed : Observation} (something : limit ≠ some 0)
    (ran : Structured.run method receiver args limit fuel arrays = .ok observed) : ∃ last,
    Structured.runBody method limit (Structured.startState receiver args fuel arrays) = .ok () last ∧
      last.values.toList = observed.values ∧ last.calls.toList = observed.calls := by
  rw [Structured.run, if_neg something] at ran
  split at ran
  · cases ran
  · next last ended =>
    obtain rfl := Except.ok.inj ran
    exact ⟨last, ended, rfl, rfl⟩

/-- A new enumerator goes on as a run of the expanded method does that fails only on its data. -/
theorem proceeds_of_expanded (few : lowered.machine.points.length < 2 ^ 63) (inside : method.WellScoped)
    (plain : method.PlainHeaders) {receiver : Option Value} {args : List Value} {limit : Option Nat}
    {fuel arrays count : Nat} (something : limit ≠ some 0)
    (data : ∀ e last, Structured.runBody outline.expanded limit
      (Structured.startState receiver args fuel arrays) = .error e last → e.isData)
    (known : KnownInputs count receiver args) (old : count ≤ arrays) (old' : count ≤ world.arrays)
    (primed : Primed outline.shape own receiver args world)
    (fresh : world.slot? own outline.shape.state = some (.int State.fresh)) :
    Proceeds outline own limit
      (Structured.runBody outline.expanded limit (Structured.startState receiver args fuel arrays))
      (Structured.startState receiver args fuel arrays) (.fixing count) outline.body
      ⟨.empty, world⟩ := by
  have ready := Lowering.ready_expanded options.hoisting outline.passed inside plain outline.expands
    fun var member => (outline.built.slot_isSome var).mpr member
  exact proceeds_start outline few ready (primed.matches known fuel old old') fresh something data

/-- A new enumerator goes on as a run of the method does, unless that run fails other than on its data. -/
theorem proceeds_of_result (few : lowered.machine.points.length < 2 ^ 63) (inside : method.WellScoped)
    (plain : method.PlainHeaders) {receiver : Option Value} {args : List Value} {limit : Option Nat}
    {fuel arrays count : Nat} {result : Except EvalError Observation} (something : limit ≠ some 0)
    (ran : Structured.run method receiver args limit fuel arrays = result) (data : OnlyData result)
    (known : KnownInputs count receiver args) (old : count ≤ arrays) (old' : count ≤ world.arrays)
    (primed : Primed outline.shape own receiver args world)
    (fresh : world.slot? own outline.shape.state = some (.int State.fresh)) : ∃ need,
    Structured.run outline.expanded receiver args limit need arrays = result ∧
      Proceeds outline own limit
        (Structured.runBody outline.expanded limit (Structured.startState receiver args need arrays))
        (Structured.startState receiver args need arrays) (.fixing count) outline.body
        ⟨.empty, world⟩ := by
  have lasts : result ≠ .error .outOfFuel := fun exhausted => by
    simpa [EvalError.isData] using data _ exhausted
  obtain ⟨need, again⟩ := Structured.run_expanded outline.passed outline.expands ran lasts
  have again := again need (Nat.le_refl _)
  refine ⟨need, again, proceeds_of_expanded outline few inside plain something (fun e last failed => data e ?_)
    known old old' primed fresh⟩
  rw [← again, Structured.run, if_neg something, failed]

/-- A new enumerator does what a run of the method that succeeds does. -/
theorem proceeds_of_run (few : lowered.machine.points.length < 2 ^ 63) (inside : method.WellScoped)
    (plain : method.PlainHeaders) {receiver : Option Value} {args : List Value} {limit : Option Nat}
    {fuel arrays count : Nat} {observed : Observation} (something : limit ≠ some 0)
    (ran : Structured.run method receiver args limit fuel arrays = .ok observed)
    (known : KnownInputs count receiver args) (old : count ≤ arrays) (old' : count ≤ world.arrays)
    (primed : Primed outline.shape own receiver args world)
    (fresh : world.slot? own outline.shape.state = some (.int State.fresh)) : ∃ st last,
    st.values = #[] ∧ st.calls = #[] ∧ last.values.toList = observed.values ∧
      last.calls.toList = observed.calls ∧
      Proceeds outline own limit (.ok () last) st (.fixing count) outline.body ⟨.empty, world⟩ := by
  obtain ⟨need, again, proceeds⟩ := proceeds_of_result outline few inside plain something ran
    (.ok observed) known old old' primed fresh
  obtain ⟨last, ended, values, calls⟩ := runBody_of_run something again
  exact ⟨_, last, rfl, rfl, values, calls, ended ▸ proceeds⟩

end

end Simulation

open Simulation (KnownInputs)
open Machine (World)

/-- Lowering preserves complete runs. Given enough fuel, a consumer that obtains an enumerator and
drains it gets the values of the run, the same host calls are made in the same order, and the
enumerator ends finished. Arrays are the same up to one renaming, which fixes those that the caller
passed. -/
theorem Lowered.drain_of_run {method : Method} {platform : Platform} {options : Options}
    {supply supply' : NameSupply} {lowered : Lowered}
    (lowers : method.lower platform options supply = .ok lowered supply')
    (few : lowered.machine.points.length < 2 ^ 63) (inside : method.WellScoped)
    (plain : method.PlainHeaders) {receiver : Option Value} {args : List Value}
    (complete : method.params.length ≤ args.length) {fuel arrays count : Nat}
    {observed : Structured.Observation}
    (ran : Structured.run method receiver args none fuel arrays = .ok observed)
    (known : KnownInputs count receiver args) (old : count ≤ arrays) (world : World)
    (old' : count ≤ world.arrays) :
    ∃ (names : Renaming) (values : List Value) (calls : List HostCall) (need : Nat),
      names.Consistent ∧ (Renaming.fixing count).Extends names ∧
      Value.AlikeAll names observed.values values ∧ HostCall.AlikeAll names observed.calls calls ∧
      ∀ fuel, need ≤ fuel → ∃ object world',
        (do
          let object ← lowered.enumerate receiver args
          let values ← lowered.machine.drain object
          return (object, values)) (world.withFuel fuel) = .ok (object, values) world' ∧
        world'.calls.toList = world.calls.toList ++ calls ∧
        lowered.machine.stateOf world' object = .ok State.finished := by
  obtain ⟨outline⟩ := Lowering.outline_of_lower lowers
  obtain ⟨own, opened, ⟨opening, opens⟩, primed, fresh, sameCalls, sameArrays⟩ :=
    Simulation.enumerate_spec outline complete world
  obtain ⟨st, last, noValues, noCalls, values, calls, proceeds⟩ := Simulation.proceeds_of_run outline
    few inside plain (by simp) ran known old (sameArrays ▸ old') primed fresh
  obtain ⟨read, names, closed, cost, produces, consistent, finished, drains⟩ :=
    Simulation.drains outline proceeds rfl rfl rfl
  obtain ⟨more, produced, alike⟩ := produces.values
  obtain ⟨made, made', reference, actual, alikeCalls⟩ := produces.calls
  simp only [noValues, noCalls, List.nil_append, values, calls] at produced reference
  subst produced reference
  refine ⟨names, read, made', read.length + cost + opening, consistent, produces.wider, alike,
    alikeCalls, fun fuel enough => ?_⟩
  obtain ⟨spare, rfl⟩ := Nat.exists_eq_add_of_le enough
  refine ⟨.object own, closed.withFuel (spare + read.length), ?_, ?_, ?_⟩
  · have total : read.length + cost + opening + spare = spare + read.length + cost + opening := by
      omega
    have drained : lowered.machine.drain (.object own)
        (opened.withFuel (spare + read.length + cost)) =
          .ok read (closed.withFuel (spare + read.length)) :=
      drains _ _ (by simp only [World.withFuel_fuel]; omega)
    rw [total, bind_of_ok (opens _), bind_of_ok drained]
    rfl
  · rw [World.withFuel_calls, actual, sameCalls]
  · exact Simulation.stateOf_of_slot outline finished

/-- Yields the items of its parameter, which it then assigns, and always reports it. -/
def Method.eachItem : Method :=
  { Method.draft "each_item" (.enumerableOf .int) with
    params := [⟨"items", .array .int⟩]
    locals := [⟨0, "item", .int, false⟩]
    body :=
      [.tryFinally
        [.foreach 0 (.var (.param 0)) [.yield (.ofLocal 0)], .eval (.assign (.param 0) .null)]
        [.eval (.call "closed" [.var (.param 0)])]] }

theorem Method.eachItem_lowers : ∃ lowered supply,
    eachItem.lower .standard .standard .empty = .ok lowered supply ∧
      lowered.machine.points.length = 1 := by
  have evaluated : (result? (eachItem.lower .standard .standard .empty)).map
      (·.machine.points.length) = some 1 := by decide +kernel
  obtain ⟨lowered, found, single⟩ := Option.map_eq_some_iff.mp evaluated
  obtain ⟨supply, lowers⟩ := result?_eq_some.mp found
  exact ⟨lowered, supply, lowers, single⟩

theorem Method.eachItem_wellScoped : eachItem.WellScoped := by
  unfold WellScoped
  decide +kernel

theorem Method.eachItem_plainHeaders : eachItem.PlainHeaders := by
  unfold PlainHeaders
  decide +kernel

theorem Simulation.knownInputs_items : KnownInputs 1 none [.array 0 [.int 1, .int 2]] :=
  ⟨by simp, by simp [Value.BelowAll, Value.Below]⟩

/-- What a run of the method with this limit shows to its consumer, in words. -/
def Method.eachItemShows (limit : Option Nat) : Option (List String × List String) :=
  (Structured.run eachItem none [.array 0 [.int 1, .int 2]] limit 100 1).toOption.map
    fun observed => (observed.values.map Value.text, observed.calls.map HostCall.text)

theorem Method.eachItem_runs {limit : Option Nat} {values calls : List String}
    (shows : eachItemShows limit = some (values, calls)) : ∃ observed,
    Structured.run eachItem none [.array 0 [.int 1, .int 2]] limit 100 1 = .ok observed ∧
      observed.values.map Value.text = values ∧ observed.calls.map HostCall.text = calls := by
  obtain ⟨observed, ran, same⟩ := Option.map_eq_some_iff.mp shows
  obtain ⟨sameValues, sameCalls⟩ := Prod.mk.inj same
  cases result : Structured.run eachItem none [.array 0 [.int 1, .int 2]] limit 100 1 with
  | error e => simp [result, Except.toOption] at ran
  | ok other =>
    obtain rfl : other = observed := by simpa [result, Except.toOption] using ran
    exact ⟨other, rfl, sameValues, sameCalls⟩

theorem Lowered.drain_of_run_eachItem : ∃ lowered supply observed,
    Method.eachItem.lower .standard .standard .empty = .ok lowered supply ∧
    Structured.run Method.eachItem none [.array 0 [.int 1, .int 2]] none 100 1 = .ok observed ∧
    observed.values.map Value.text = ["1", "2"] ∧
    observed.calls.map HostCall.text = ["closed(null)"] ∧
    ∃ (names : Renaming) (values : List Value) (calls : List HostCall) (need : Nat),
      names.Consistent ∧ (Renaming.fixing 1).Extends names ∧
      Value.AlikeAll names observed.values values ∧ HostCall.AlikeAll names observed.calls calls ∧
      ∀ fuel, need ≤ fuel → ∃ object world',
        (do
          let object ← lowered.enumerate none [.array 0 [.int 1, .int 2]]
          let values ← lowered.machine.drain object
          return (object, values))
            (World.withFuel { World.start 0 with arrays := 1 } fuel) = .ok (object, values) world' ∧
        world'.calls.toList = calls ∧
        lowered.machine.stateOf world' object = .ok State.finished := by
  obtain ⟨lowered, supply, lowers, single⟩ := Method.eachItem_lowers
  have shows : Method.eachItemShows none = some (["1", "2"], ["closed(null)"]) := by decide +kernel
  obtain ⟨observed, ran, values, calls⟩ := Method.eachItem_runs shows
  exact ⟨lowered, supply, observed, lowers, ran, values, calls, Lowered.drain_of_run lowers
    (by omega) Method.eachItem_wellScoped Method.eachItem_plainHeaders (by decide) ran
    Simulation.knownInputs_items (Nat.le_refl 1) { World.start 0 with arrays := 1 } (Nat.le_refl 1)⟩

end Resumable
