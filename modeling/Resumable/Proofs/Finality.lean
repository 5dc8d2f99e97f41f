import Resumable.Proofs.Protocol

/-!
Disposal is final. Once an instance has been disposed of, nothing that consumers ask makes it
advance or run a cleanup again. A disposal that fails is not one: the cleanup that failed leaves
the state as it was, so that it can be disposed of, and even advanced, once more.
-/

namespace Resumable

open Machine (World)

/-- Whatever is asked from here on, the instance neither advances nor runs a cleanup. -/
def Lowered.IsOver (lowered : Lowered) (world : World) (object : Nat) : Prop :=
  ∀ operations, lowered.Permitted (Operation.Lasts lowered) operations world →
    ((Operation.moveNext object).perform lowered).Does (lowered.worldAfterAll operations world)
      (.bool false) (lowered.worldAfterAll operations world) ∧
    ((Operation.dispose object).perform lowered).Does (lowered.worldAfterAll operations world)
      .null (lowered.worldAfterAll operations world)

namespace Simulation
open Lowering (Outline)

/-- The instance has been started, and cannot be advanced any more. -/
def Spent (lowered : Lowered) (world : World) (object : Nat) : Prop :=
  ∃ state, lowered.machine.stateOf world (.object object) = .ok state ∧ state ≠ State.notStarted ∧
    ¬ State.IsActive lowered.machine.points.length state

section
variable {method : Method} {options : Options} {lowered : Lowered}
  (outline : Outline method options lowered) (few : lowered.machine.points.length < 2 ^ 63)
  {own : Nat} {world : World}

theorem Spent.of_keepsState {operation : Operation} (spent : Spent lowered world own)
    (keeps : operation.KeepsState lowered world own) :
    Spent lowered (operation.worldAfter lowered world) own := by
  obtain ⟨state, stated, started, inactive⟩ := spent
  exact ⟨state, keeps.trans stated, started, inactive⟩

theorem lt_of_stateOf {state : Int64} (stated : lowered.machine.stateOf world (.object own) = .ok state) :
    own < world.instances.size := by
  by_contra outside
  have missing : world.instances[own]? = none := Array.getElem?_eq_none (Nat.le_of_not_lt outside)
  unfold Machine.stateOf at stated
  simp [missing, Value.asObject, bind, Except.bind] at stated
  split at stated <;> simp at stated

/-- An operation that only uses fuel. -/
theorem keepsState_of_fuel {operation : Operation} {value : Value} {left : Nat}
    (done : operation.perform lowered world = .ok value (world.withFuel left)) :
    operation.KeepsState lowered world own := by
  rw [Operation.KeepsState, Operation.worldAfter_eq, done]
  rfl

include few

/-- An operation does not revive an instance. -/
theorem Spent.step (settled : Settled outline world) (spent : Spent lowered world own)
    {operation : Operation} (lasts : operation.Lasts lowered world) :
    Spent lowered (operation.worldAfter lowered world) own := by
  have obeys := (obeys_operation outline few settled lasts).2
  have ⟨state, stated, started, inactive⟩ := spent
  have inside := lt_of_stateOf stated
  have vended (keeps : operation.KeepsState lowered world own ∨
      operation.Reuses lowered options world own) : operation.KeepsState lowered world own := by
    refine keeps.resolve_right fun reuses => started ?_
    exact Except.ok.inj (stated.symm.trans reuses.2.1)
  refine spent.of_keepsState ?_
  cases operation with
  | moveNext object =>
    by_cases itself : own = object
    · subst itself
      obtain ⟨left, done⟩ := (obeys.2 state stated).2 inactive
      exact keepsState_of_fuel done
    · exact obeys.1 own inside itself
  | dispose object =>
    by_cases itself : own = object
    · subst itself
      obtain ⟨left, done⟩ := (obeys.2 state stated).2 inactive
      exact keepsState_of_fuel done
    · exact obeys.1 own inside itself
  | getEnumerator object => exact vended ((obeys own inside).imp_right (·.2))
  | objectGetEnumerator object => exact vended ((obeys own inside).imp_right (·.2))
  | _ => exact obeys own inside

theorem Spent.isOver (settled : Settled outline world) (spent : Spent lowered world own) :
    lowered.IsOver world own := by
  intro operations
  induction operations generalizing world with
  | nil =>
    intro _
    obtain ⟨state', stated, _, inactive⟩ := spent
    obtain ⟨_, state, held, _⟩ := settled own (lt_of_stateOf stated)
    obtain rfl := Except.ok.inj ((stateOf_of_slot outline held).symm.trans stated)
    have inactive : ¬ Active lowered.machine.points state := fun active =>
      inactive ((active_iff outline few).mp active)
    exact ⟨moveNext_declines outline held inactive, dispose_declines outline held inactive⟩
  | cons operation rest ih =>
    rintro ⟨lasts, permitted⟩
    exact ih (obeys_operation outline few settled lasts).1 (spent.step outline few settled lasts) permitted

end

end Simulation

/-- Disposal is final unless a cleanup fails. An instance that has been disposed of never advances
and never runs a cleanup again, whatever is asked of it or of others. If a cleanup fails, the
instance is still in the state in which it was suspended. -/
theorem Lowered.isOver_of_dispose {method : Method} {platform : Platform} {options : Options}
    {supply supply' : NameSupply} {lowered : Lowered}
    (lowers : method.lower platform options supply = .ok lowered supply')
    (few : lowered.machine.points.length < 2 ^ 63) {world : World}
    (reachable : lowered.Reachable (Operation.Lasts lowered) world) {object : Nat}
    (lasts : (Operation.dispose object).Lasts lowered world)
    (vended : lowered.machine.stateOf world (.object object) ≠ .ok State.notStarted) :
    (∃ world', (Operation.dispose object).perform lowered world = .ok .null world' ∧
      lowered.IsOver world' object) ∨
    ∃ e world' state, (Operation.dispose object).perform lowered world = .error e world' ∧
      State.IsActive lowered.machine.points.length state ∧
      lowered.machine.stateOf world (.object object) = .ok state ∧
      lowered.machine.stateOf world' (.object object) = .ok state := by
  obtain ⟨outline⟩ := Lowering.outline_of_lower lowers
  have settled := Simulation.settled_of_reachable outline few reachable
  obtain ⟨settled', _, disposes⟩ := Simulation.obeys_operation outline few settled lasts
  obtain ⟨_, state, held, _⟩ := settled object (lasts.1 object rfl)
  have stated := Simulation.stateOf_of_slot outline held
  rw [Operation.worldAfter_eq] at settled'
  -- a disposal that was carried out leaves an instance that is spent
  have final {world' : World} {state' : Int64}
      (done : (Operation.dispose object).perform lowered world = .ok .null world')
      (stated' : lowered.machine.stateOf world' (.object object) = .ok state')
      (started : state' ≠ State.notStarted)
      (inactive : ¬ State.IsActive lowered.machine.points.length state') :
      ∃ world', (Operation.dispose object).perform lowered world = .ok .null world' ∧
        lowered.IsOver world' object := by
    rw [done] at settled'
    exact ⟨world', done, Simulation.Spent.isOver outline few settled'
      ⟨state', stated', started, inactive⟩⟩
  by_cases active : State.IsActive lowered.machine.points.length state
  · rcases (disposes state stated).1 active with ⟨world', done, finished⟩ | ⟨e, world', failed, same⟩
    · exact .inl (final done finished (by decide) fun active => absurd active.1 (by decide))
    · exact .inr ⟨e, world', state, failed, active, stated, same⟩
  · obtain ⟨left, done⟩ := (disposes state stated).2 active
    exact .inl (final done stated (fun fresh => vended (fresh ▸ stated)) active)

/-- Its cleanup reports to the host and then divides by zero. -/
def Method.faultyCleanup : Method :=
  { Method.draft "faulty_cleanup" (.enumeratorOf .int) with
    body :=
      [.tryFinally [.yield (.int 1), .yield (.int 2)]
        [.eval (.call "closed" []), .eval (.binary .div (.int 1) (.int 0))]] }

/-- Disposing of the first instance fails, as often as it is tried, and does not stop it. -/
def Lowered.failsAgain (lowered : Lowered) (world : World) : Bool :=
  match (Operation.dispose 0).perform lowered world with
  | .error .divisionByZero world' =>
    match (Operation.dispose 0).perform lowered world', (Operation.moveNext 0).perform lowered world' with
    | .error .divisionByZero world'', .ok (.bool true) _ =>
      world'.calls.size = 1 ∧ world''.calls.size = 2
    | _, _ => false
  | _ => false

/-- A failed disposal is not final: the cleanup runs again, and the instance goes on. -/
theorem Method.faultyCleanup_not_isOver : ∃ lowered supply,
    faultyCleanup.lower .standard .standard .empty = .ok lowered supply ∧
    lowered.Permitted (Operation.Lasts lowered) [.invoke none [], .moveNext 0] (.start 100) ∧
    ∃ world world' again, world = lowered.worldAfterAll [.invoke none [], .moveNext 0] (.start 100) ∧
      (Operation.dispose 0).perform lowered world = .error .divisionByZero world' ∧
      world'.calls.size = 1 ∧
      (Operation.dispose 0).perform lowered world' = .error .divisionByZero again ∧
      again.calls.size = 2 ∧
      (∃ resumed, (Operation.moveNext 0).perform lowered world' = .ok (.bool true) resumed) ∧
      ¬ lowered.IsOver world' 0 := by
  have evaluated : (result? (faultyCleanup.lower .standard .standard .empty)).map (fun lowered =>
      (decide (lowered.Permitted (Operation.Lasts lowered) [.invoke none [], .moveNext 0] (.start 100)),
        Lowered.failsAgain lowered (lowered.worldAfterAll [.invoke none [], .moveNext 0] (.start 100)))) =
      some (true, true) := by decide +kernel
  obtain ⟨lowered, found, same⟩ := Option.map_eq_some_iff.mp evaluated
  obtain ⟨supply, lowers⟩ := result?_eq_some.mp found
  simp only [Prod.mk.injEq, decide_eq_true_eq] at same
  obtain ⟨permitted, fails⟩ := same
  refine ⟨lowered, supply, lowers, permitted, ?_⟩
  generalize lowered.worldAfterAll [.invoke none [], .moveNext 0] (.start 100) = world at fails
  unfold Lowered.failsAgain at fails
  split at fails
  · next world' failed =>
    split at fails
    · next again resumed failed' advanced =>
      obtain ⟨once, twice⟩ := of_decide_eq_true fails
      refine ⟨world, world', again, rfl, failed, once, failed', twice, ⟨resumed, advanced⟩, ?_⟩
      intro isOver
      have lasts : ¬ IsExhausted ((Operation.dispose 0).perform lowered world') := by simp [failed']
      obtain ⟨left, done⟩ :=
        (isOver [] trivial).2.lasting (Operation.frugal_perform lowered _ _) lasts
      have impossible := failed'.symm.trans done
      cases impossible
    · cases fails
  · cases fails

theorem Lowered.isOver_of_dispose_eachItem : ∃ lowered supply,
    Method.eachItem.lower .standard .standard .empty = .ok lowered supply ∧
    ∃ world, lowered.Reachable (Operation.Lasts lowered) world ∧
    (Operation.dispose 1).Lasts lowered world ∧
    lowered.machine.stateOf world (.object 1) ≠ .ok State.notStarted ∧
    ((∃ world', (Operation.dispose 1).perform lowered world = .ok .null world' ∧
      lowered.IsOver world' 1) ∨
    ∃ e world' state, (Operation.dispose 1).perform lowered world = .error e world' ∧
      State.IsActive lowered.machine.points.length state ∧
      lowered.machine.stateOf world (.object 1) = .ok state ∧
      lowered.machine.stateOf world' (.object 1) = .ok state) := by
  have evaluated : (result? (Method.eachItem.lower .standard .standard .empty)).map (fun lowered =>
      (lowered.machine.points.length,
        decide (lowered.Permitted (Operation.Lasts lowered) Method.eachItemHistory (.start 200)),
        decide ((Operation.dispose 1).Lasts lowered
          (lowered.worldAfterAll Method.eachItemHistory (.start 200))),
        (lowered.machine.stateOf (lowered.worldAfterAll Method.eachItemHistory (.start 200))
          (.object 1)).toOption)) =
      some (1, true, true, some 1) := by decide +kernel
  obtain ⟨lowered, found, same⟩ := Option.map_eq_some_iff.mp evaluated
  obtain ⟨supply, lowers⟩ := result?_eq_some.mp found
  simp only [Prod.mk.injEq, decide_eq_true_eq] at same
  obtain ⟨single, permitted, lasts, stated⟩ := same
  have start : lowered.Reachable (Operation.Lasts lowered) (.start 200) := .start rfl
  have vended : lowered.machine.stateOf (lowered.worldAfterAll Method.eachItemHistory (.start 200))
      (.object 1) ≠ .ok State.notStarted := by
    intro fresh
    rw [fresh] at stated
    exact absurd stated (by decide)
  exact ⟨lowered, supply, lowers, _, start.after permitted, lasts, vended,
    Lowered.isOver_of_dispose lowers (by omega) (start.after permitted) lasts vended⟩

end Resumable
