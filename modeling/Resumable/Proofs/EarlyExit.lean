import Resumable.Proofs.Completion
import Resumable.Proofs.Disposal

/-!
Early exit. A consumer that advances an enumerator a number of times and then disposes of it
gets the values of a run that is cut off there, and the cleanups run as when that run unwinds.
From then on the enumerator has nothing to give and does nothing.
-/

namespace Resumable

namespace Machine

/-- What may still be asked of an enumerator that is done. -/
inductive Request where
  | moveNext
  | dispose

/-- Whether there is a value, if that was asked. -/
def ask (machine : Machine) (object : Value) : Request → Exec (Option Bool)
  | .moveNext => do
    let answer ← machine.moveNext object
    return some answer
  | .dispose => do
    machine.dispose object
    return none

def askAll (machine : Machine) (object : Value) : List Request → Exec (List (Option Bool))
  | [] => return []
  | request :: rest => do
    let answer ← machine.ask object request
    let answers ← askAll machine object rest
    return answer :: answers

/-- The answer of an enumerator that is done. -/
def Request.denied : Request → Option Bool
  | .moveNext => some false
  | .dispose => none

end Machine

namespace Simulation
open Lowering (Outline Shape)
open Machine (Activation Code Exec Request World)
open Structured (Observation State)

section
variable {method : Method} {options : Options} {lowered : Lowered}
  (outline : Outline method options lowered) {own : Nat} {world : World}
  (few : lowered.machine.points.length < 2 ^ 63)

section
variable (finished : world.slot? own outline.shape.state = some (.int State.finished))
include few finished

theorem moveNext_finished : (lowered.machine.moveNext (.object own)).Does world false world := by
  refine moveNext_of_returns outline (returns_exhausted outline finished (by decide) ?_)
  intro point member same
  have := Lowering.state_pos outline.numbered few member
  rw [same] at this
  exact absurd this (by decide)

theorem dispose_finished : (lowered.machine.dispose (.object own)).Does world () world := by
  refine dispose_idle outline finished (by decide) ?_
  intro point member same
  have := Lowering.state_pos outline.numbered few member
  rw [same] at this
  exact absurd this (by decide)

theorem advance_finished (count : Nat) :
    (lowered.machine.advance (.object own) count).Does world [] world := by
  induction count with
  | zero => exact Exec.does_pure [] world
  | succ count ih => exact (moveNext_finished outline few finished).bind ih

theorem ask_finished (request : Request) :
    (lowered.machine.ask (.object own) request).Does world request.denied world := by
  cases request with
  | moveNext => exact (moveNext_finished outline few finished).bind (Exec.does_pure _ _)
  | dispose => exact (dispose_finished outline few finished).bind (Exec.does_pure _ _)

theorem askAll_finished (requests : List Request) :
    (lowered.machine.askAll (.object own) requests).Does world (requests.map Request.denied)
      world := by
  induction requests with
  | nil => exact Exec.does_pure [] world
  | cons request rest ih =>
    exact (ask_finished outline few finished request).bind (ih.bind (Exec.does_pure _ _))

end

/-- Disposal brings the enumerator to the end of a run. -/
def Disposable (own : Nat) (last st : State) (names : Renaming) (world : World) : Prop :=
  ∃ names' world', (lowered.machine.dispose (.object own)).Does world () world' ∧
    Advance st names world last names' world' ∧ names'.Consistent ∧
    world'.slot? own outline.shape.state = some (.int State.finished)

theorem Produces.then {st mid last : State} {names names' names'' : Renaming}
    {world world' world'' : World} {values : List Value}
    (first : Produces st names world mid names' world' values)
    (second : Advance mid names' world' last names'' world'') :
    Produces st names world last names'' world'' values where
  values := by
    obtain ⟨more, listed, alike⟩ := first.values
    exact ⟨more, by rw [second.values, listed], alike.mono second.wider⟩
  wider := first.wider.trans second.wider
  calls := by
    obtain ⟨made, made', reference, actual, alike⟩ := first.calls
    obtain ⟨more, more', reference', actual', alike'⟩ := second.calls
    refine ⟨made ++ more, made' ++ more', ?_, ?_, (alike.mono second.wider).append alike'⟩
    · rw [reference', reference, List.append_assoc]
    · rw [actual', actual, List.append_assoc]

include few in
/-- A consumer that advances as often as the run has values left can dispose at its end. -/
theorem advances {limit : Nat} {last st : State} {names : Renaming} {code : Code} {act : Activation}
    {result : EStateM.Result EvalError State Unit}
    (proceeds : Proceeds outline own (some limit) result st names code act)
    (ended : result = .ok () last) (start : code = outline.body) (entered : act = ⟨.empty, world⟩)
    {count : Nat} (room : st.values.size + (count + 1) = limit) : ∃ mid values names' world',
    (lowered.machine.advance (.object own) (count + 1)).Does world values world' ∧
    Produces st names world mid names' world' values ∧
    Disposable outline own last mid names' world' := by
  induction proceeds generalizing world count with
  | @yields st st' names names' code act act' value point returns advance paused early again ih =>
    subst start entered
    obtain ⟨value', held, alike⟩ := paused.current
    have size : (produced st' value).values.size = st.values.size + 1 := by
      simp [produced, advance.values]
    obtain ⟨count, rfl⟩ : ∃ n, count = n + 1 := by
      cases count with
      | zero => exact absurd (by rw [size, ← room]) early
      | succ n => exact ⟨n, rfl⟩
    have left : (produced st' value).values.size + (count + 1) = limit := by omega
    obtain ⟨mid, values, names'', world', moves, produces, disposable⟩ :=
      ih act'.world (.refl own act'.world) rfl rfl left
    refine ⟨mid, value' :: values, names'', world', ?_, produces.cons advance alike, disposable⟩
    exact (moveNext_of_returns outline returns).bind ((current_of_slot outline held).bind
      (moves.bind (Exec.does_pure _ _)))
  | @stops st st' names names' code act act' value point returns advance paused reached unwinding =>
    subst start entered
    obtain ⟨value', held, alike⟩ := paused.current
    have size : (produced st' value).values.size = st.values.size + 1 := by
      simp [produced, advance.values]
    obtain rfl : count = 0 := by
      have := Option.some.inj reached
      omega
    subst ended
    refine ⟨produced st' value, [value'], names', act'.world, ?_,
      (Advance.refl (produced st' value) names' act'.world).produces.cons advance alike,
      dispose_suspended outline few paused.known paused.state
        (unwinding act'.world (.refl own act'.world))⟩
    exact (moveNext_of_returns outline returns).bind ((current_of_slot outline held).bind
      ((Exec.does_pure [] _).bind (Exec.does_pure _ _)))
  | @ends st last' names names' code act act' returns advance finished consistent ended' =>
    subst start entered
    obtain rfl : last = last' := by
      rw [ended] at ended'
      exact (EStateM.Result.ok.inj ended').2
    refine ⟨last, [], names', act'.world, ?_, advance.produces, names', act'.world,
      dispose_finished outline few finished, .refl _ _ _, consistent, finished⟩
    exact (moveNext_of_returns outline returns).bind (advance_finished outline few finished count)
  | fails fails failed =>
    rw [ended] at failed
    cases failed

include few in
/-- An enumerator that is advanced and disposed of ends where the run that is cut off ends. -/
theorem exits (inside : method.WellScoped) (plain : method.PlainHeaders) {receiver : Option Value}
    {args : List Value} {limit fuel arrays count : Nat} {observed : Observation}
    (ran : Structured.run method receiver args (some limit) fuel arrays = .ok observed)
    (known : KnownInputs count receiver args) (old : count ≤ arrays) (old' : count ≤ world.arrays)
    (primed : Primed outline.shape own receiver args world)
    (fresh : world.slot? own outline.shape.state = some (.int State.fresh)) :
    ∃ names values calls world', names.Consistent ∧ (Renaming.fixing count).Extends names ∧
      Value.AlikeAll names observed.values values ∧ HostCall.AlikeAll names observed.calls calls ∧
      (do
        let values ← lowered.machine.advance (.object own) limit
        lowered.machine.dispose (.object own)
        return (.object own, values) : Exec (Value × List Value)).Does world (.object own, values)
          world' ∧
      world'.calls.toList = world.calls.toList ++ calls ∧
      world'.slot? own outline.shape.state = some (.int State.finished) := by
  cases limit with
  | zero =>
    obtain rfl := Except.ok.inj ran
    refine ⟨.fixing count, [], [], _, (Renaming.between_fixing count).consistent, .refl _, .nil, .nil,
      (Exec.does_pure [] world).bind ((dispose_fresh outline fresh).bind (Exec.does_pure _ _)), ?_, ?_⟩
    · simp
    · exact World.slot?_setSlot_self _ (by simp [fresh])
  | succ limit =>
    obtain ⟨st, last, noValues, noCalls, values, calls, proceeds⟩ := proceeds_of_run outline few inside
      plain (by simp) ran known old old' primed fresh
    have room : st.values.size + (limit + 1) = limit + 1 := by simp [noValues]
    obtain ⟨mid, read, names, opened, moves, produces, names', world', disposes, advance, consistent,
      finished⟩ := advances outline few proceeds rfl rfl rfl room
    have whole := produces.then advance
    obtain ⟨more, produced, alike⟩ := whole.values
    obtain ⟨made, made', reference, actual, alikeCalls⟩ := whole.calls
    simp only [noValues, noCalls, List.nil_append, values, calls] at produced reference
    subst produced reference
    exact ⟨names', read, made', world', consistent, whole.wider, alike, alikeCalls,
      moves.bind (disposes.bind (Exec.does_pure _ _)), actual, finished⟩

end

end Simulation

open Simulation (KnownInputs)
open Machine (Request World)

/-- Lowering preserves runs that are cut off. Given enough fuel, a consumer that obtains an
enumerator, advances it as often as it wants values and disposes of it gets the values of the run
with that limit. The host calls are those of the run, including the cleanups on its way out. The
enumerator is then finished, and whatever is still asked of it, it has nothing to give and calls
nobody. -/
theorem Lowered.dispose_of_run {method : Method} {platform : Platform} {options : Options}
    {supply supply' : NameSupply} {lowered : Lowered}
    (lowers : method.lower platform options supply = .ok lowered supply')
    (few : lowered.machine.points.length < 2 ^ 63) (inside : method.WellScoped)
    (plain : method.PlainHeaders) {receiver : Option Value} {args : List Value}
    (complete : method.params.length ≤ args.length) {limit fuel arrays count : Nat}
    {observed : Structured.Observation}
    (ran : Structured.run method receiver args (some limit) fuel arrays = .ok observed)
    (known : KnownInputs count receiver args) (old : count ≤ arrays) (world : World)
    (old' : count ≤ world.arrays) :
    ∃ (names : Renaming) (values : List Value) (calls : List HostCall),
      names.Consistent ∧ (Renaming.fixing count).Extends names ∧
      Value.AlikeAll names observed.values values ∧ HostCall.AlikeAll names observed.calls calls ∧
      ∀ requests : List Request, ∃ need, ∀ fuel, need ≤ fuel → ∃ object world' world'',
        (do
          let object ← lowered.enumerate receiver args
          let values ← lowered.machine.advance object limit
          lowered.machine.dispose object
          return (object, values)) (world.withFuel fuel) = .ok (object, values) world' ∧
        world'.calls.toList = world.calls.toList ++ calls ∧
        lowered.machine.stateOf world' object = .ok State.finished ∧
        lowered.machine.askAll object requests world' =
          .ok (requests.map Request.denied) world'' ∧
        world''.calls = world'.calls ∧
        lowered.machine.stateOf world'' object = .ok State.finished := by
  obtain ⟨outline⟩ := Lowering.outline_of_lower lowers
  obtain ⟨own, opened, opens, primed, fresh, sameCalls, sameArrays⟩ :=
    Simulation.enumerate_spec outline complete world
  obtain ⟨names, values, calls, closed, consistent, wider, alike, alikeCalls, exits, actual,
    finished⟩ := Simulation.exits outline few inside plain ran known old (sameArrays ▸ old') primed
      fresh
  refine ⟨names, values, calls, consistent, wider, alike, alikeCalls, fun requests => ?_⟩
  obtain ⟨cost, done⟩ : Machine.Exec.Does (do
      let object ← lowered.enumerate receiver args
      let values ← lowered.machine.advance object limit
      lowered.machine.dispose object
      return (object, values)) world (.object own, values) closed := opens.bind exits
  obtain ⟨asking, asked⟩ := Simulation.askAll_finished outline few finished requests
  refine ⟨asking + cost, fun fuel enough => ?_⟩
  obtain ⟨spare, rfl⟩ := Nat.exists_eq_add_of_le' enough
  refine ⟨.object own, closed.withFuel (spare + asking), closed.withFuel spare, ?_, ?_, ?_,
    asked spare, rfl, ?_⟩
  · rw [← Nat.add_assoc]
    exact done _
  · rw [World.withFuel_calls, actual, sameCalls]
  · exact Simulation.stateOf_of_slot outline finished
  · exact Simulation.stateOf_of_slot outline finished

theorem Lowered.dispose_of_run_eachItem : ∃ lowered supply observed,
    Method.eachItem.lower .standard .standard .empty = .ok lowered supply ∧
    Structured.run Method.eachItem none [.array 0 [.int 1, .int 2]] (some 1) 100 1 = .ok observed ∧
    observed.values.map Value.text = ["1"] ∧
    observed.calls.map HostCall.text = ["closed([1, 2])"] ∧
    ∃ (names : Renaming) (values : List Value) (calls : List HostCall),
      names.Consistent ∧ (Renaming.fixing 1).Extends names ∧
      Value.AlikeAll names observed.values values ∧ HostCall.AlikeAll names observed.calls calls ∧
      ∀ requests : List Request, ∃ need, ∀ fuel, need ≤ fuel → ∃ object world' world'',
        (do
          let object ← lowered.enumerate none [.array 0 [.int 1, .int 2]]
          let values ← lowered.machine.advance object 1
          lowered.machine.dispose object
          return (object, values))
            (World.withFuel { World.start 0 with arrays := 1 } fuel) = .ok (object, values) world' ∧
        world'.calls.toList = calls ∧
        lowered.machine.stateOf world' object = .ok State.finished ∧
        lowered.machine.askAll object requests world' =
          .ok (requests.map Request.denied) world'' ∧
        world''.calls = world'.calls ∧
        lowered.machine.stateOf world'' object = .ok State.finished := by
  obtain ⟨lowered, supply, lowers, single⟩ := Method.eachItem_lowers
  have shows : Method.eachItemShows (some 1) = some (["1"], ["closed([1, 2])"]) := by
    decide +kernel
  obtain ⟨observed, ran, values, calls⟩ := Method.eachItem_runs shows
  exact ⟨lowered, supply, observed, lowers, ran, values, calls, Lowered.dispose_of_run lowers
    (by omega) Method.eachItem_wellScoped Method.eachItem_plainHeaders (by decide) ran
    Simulation.knownInputs_items (Nat.le_refl 1) { World.start 0 with arrays := 1 } (Nat.le_refl 1)⟩

end Resumable
