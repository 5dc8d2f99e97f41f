import Mathlib.Control.Monad.Basic
import Resumable.Proofs.Operations
import Resumable.Semantics.Equality

/-!
Failing runs. A run of the method that fails on its data fails in the same way for a consumer,
after as many values, and leaves the enumerator running.
-/

namespace Resumable

namespace Simulation
open Lowering (Outline)
open Machine (Activation Code World)
open Structured (Observation State)

theorem runBody_of_failed_run {method : Method} {limit : Option Nat} {receiver : Option Value}
    {args : List Value} {fuel arrays : Nat} {e : EvalError} (something : limit ≠ some 0)
    (ran : Structured.run method receiver args limit fuel arrays = .error e) : ∃ last,
    Structured.runBody method limit (Structured.startState receiver args fuel arrays) =
      .error e last := by
  rw [Structured.run, if_neg something] at ran
  split at ran
  · next last failed =>
    obtain rfl := Except.error.inj ran
    exact ⟨last, failed⟩
  · cases ran

section
variable {method : Method} {options : Options} {lowered : Lowered}
  (outline : Outline method options lowered) {own : Nat} {world : World}
include outline

/-- An advance whose body fails for another reason than a lack of fuel leaves the instance running. -/
theorem moveNext_of_fails (few : lowered.machine.points.length < 2 ^ 63) {state : Int64}
    (active : Active lowered.machine.points state)
    (held : world.slot? own outline.shape.state = some (.int state)) {e : EvalError}
    (other : e ≠ .outOfFuel)
    (fails : Machine.Fails lowered.machine outline.body (ownFrame own) outline.body
      ⟨.empty, world⟩ e) : ∃ (cost : Nat) (world' : World),
    world'.slot? own outline.shape.state = some (.int State.running) ∧
    ∀ fuel, lowered.machine.moveNext (.object own) (world.withFuel (fuel + cost)) =
      .error e (world'.withFuel fuel) := by
  obtain ⟨routine, found, code⟩ := outline.routine_moveNext
  obtain ⟨cost, act, failed⟩ := fails
  refine ⟨cost, act.world, ?_, fun fuel => bind_of_error ?_⟩
  · -- the state does not depend on the fuel that is left, so any of these runs shows it
    have held : (world.withFuel (0 + cost)).slot? own outline.shape.state = some (.int state) := held
    have stopped := body_stops outline few active held
    have failed := failed 0
    rw [Activation.withFuel_mk] at failed
    rw [failed] at stopped
    exact (stopped (by simpa using other)).2 other
  · have failed := failed fuel
    rw [Activation.withFuel_mk] at failed
    rw [Machine.callKind_run found, code, failed]
    rfl

/-- A consumer that drains an enumerator fails as the rest of the run does. -/
theorem drains_until_failure (few : lowered.machine.points.length < 2 ^ 63)
    {result : EStateM.Result EvalError State Unit} {st last : State} {names : Renaming}
    {code : Code} {act : Activation} {e : EvalError} (other : e ≠ .outOfFuel)
    (proceeds : Proceeds outline own none result st names code act)
    (failed : result = .error e last) (start : code = outline.body) (entered : act = ⟨.empty, world⟩)
    {state : Int64} (active : Active lowered.machine.points state)
    (held : world.slot? own outline.shape.state = some (.int state)) :
    ∃ (count cost : Nat) (world' : World), world'.slot? own outline.shape.state = some (.int State.running) ∧
      ∀ bound fuel, count < bound → lowered.machine.drainWithin (.object own) bound
        (world.withFuel (fuel + cost)) = .error e (world'.withFuel fuel) := by
  induction proceeds generalizing world state with
  | @yields st st' names names' code act act' value point returns advance paused early again ih =>
    subst start entered
    obtain ⟨value', present, _⟩ := paused.current
    obtain ⟨count, cost, world', running, drains⟩ := ih act'.world (.refl own act'.world) rfl rfl
      (.inr ⟨point, paused.known, rfl⟩) paused.state
    obtain ⟨moving, moved⟩ := moveNext_of_returns outline returns
    obtain ⟨reading, read⟩ := current_of_slot outline present
    refine ⟨count + 1, cost + reading + moving, world', running, fun bound fuel enough => ?_⟩
    obtain ⟨bound, rfl⟩ : ∃ n, bound = n + 1 := ⟨bound - 1, by omega⟩
    simp only [Machine.drainWithin, ← Nat.add_assoc]
    rw [bind_of_ok (moved _)]
    simp only [if_true]
    rw [bind_of_ok (read _)]
    exact bind_of_error (drains bound fuel (by omega))
  | stops returns advance paused reached unwinding => cases reached
  | ends returns advance finished consistent ended =>
    rw [failed] at ended
    cases ended
  | @fails st last' names code act e' fails failed' =>
    subst start entered
    obtain rfl : e = e' := by
      rw [failed] at failed'
      exact (EStateM.Result.error.inj failed').1
    obtain ⟨cost, world', running, moved⟩ := moveNext_of_fails outline few active held other fails
    refine ⟨0, cost, world', running, fun bound fuel enough => ?_⟩
    obtain ⟨bound, rfl⟩ : ∃ n, bound = n + 1 := ⟨bound - 1, by omega⟩
    exact bind_of_error (moved fuel)

end

end Simulation

open Simulation (KnownInputs)
open Machine (World)

/-- Lowering preserves failures. If a run of the method fails on its data, then, given enough
fuel, a consumer obtains an enumerator, fails to drain it with the very same error, and leaves it
running. -/
theorem Lowered.drain_fails_of_run {method : Method} {platform : Platform} {options : Options}
    {supply supply' : NameSupply} {lowered : Lowered}
    (lowers : method.lower platform options supply = .ok lowered supply')
    (few : lowered.machine.points.length < 2 ^ 63) (inside : method.WellScoped)
    (plain : method.PlainHeaders) {receiver : Option Value} {args : List Value}
    (complete : method.params.length ≤ args.length) {fuel arrays count : Nat} {e : EvalError}
    (ran : Structured.run method receiver args none fuel arrays = .error e) (data : e.isData)
    (known : KnownInputs count receiver args) (old : count ≤ arrays) (world : World)
    (old' : count ≤ world.arrays) :
    ∃ need, ∀ fuel, need ≤ fuel → ∃ object opened world',
      lowered.enumerate receiver args (world.withFuel fuel) = .ok object opened ∧
      lowered.machine.drain object opened = .error e world' ∧
      lowered.machine.stateOf world' object = .ok State.running := by
  obtain ⟨outline⟩ := Lowering.outline_of_lower lowers
  obtain ⟨own, opened, ⟨opening, opens⟩, primed, fresh, _, sameArrays⟩ :=
    Simulation.enumerate_spec outline complete world
  obtain ⟨enough, again, proceeds⟩ := Simulation.proceeds_of_result outline few inside plain (by simp)
    ran (.error data) known old (sameArrays ▸ old') primed fresh
  obtain ⟨last, failed⟩ := Simulation.runBody_of_failed_run (by simp) again
  have other : e ≠ .outOfFuel := by
    rintro rfl
    cases data
  obtain ⟨steps, cost, world', running, drains⟩ := Simulation.drains_until_failure outline few other
    proceeds failed rfl rfl (.inl rfl) fresh
  refine ⟨steps + cost + opening, fun fuel enough => ?_⟩
  obtain ⟨spare, rfl⟩ := Nat.exists_eq_add_of_le enough
  have total : steps + cost + opening + spare = spare + steps + cost + opening := by omega
  refine ⟨.object own, opened.withFuel (spare + steps + cost), world'.withFuel (spare + steps), ?_,
    drains _ _ (by simp only [World.withFuel_fuel]; omega), ?_⟩
  · rw [total]
    exact opens _
  · exact Simulation.stateOf_of_slot outline running

/-- Divides twelve by each item of its parameter. -/
def Method.shares : Method :=
  { Method.draft "shares" (.enumerableOf .int) with
    params := [⟨"items", .array .int⟩]
    locals := [⟨0, "item", .int, false⟩]
    body :=
      [.tryFinally
        [.foreach 0 (.var (.param 0)) [.yield (.binary .div (.int 12) (.ofLocal 0))]]
        [.eval (.call "closed" [.var (.param 0)])]] }

theorem Method.shares_lowers : ∃ lowered supply,
    shares.lower .standard .standard .empty = .ok lowered supply ∧
      lowered.machine.points.length = 1 := by
  have evaluated : (result? (shares.lower .standard .standard .empty)).map
      (·.machine.points.length) = some 1 := by decide +kernel
  obtain ⟨lowered, found, single⟩ := Option.map_eq_some_iff.mp evaluated
  obtain ⟨supply, lowers⟩ := result?_eq_some.mp found
  exact ⟨lowered, supply, lowers, single⟩

theorem Method.shares_fails :
    Structured.run shares none [.array 0 [.int 4, .int 0]] none 100 1 = .error .divisionByZero := by
  decide +kernel

theorem Lowered.drain_fails_of_run_shares : ∃ lowered supply,
    Method.shares.lower .standard .standard .empty = .ok lowered supply ∧
    Structured.run Method.shares none [.array 0 [.int 4, .int 0]] none 100 1 =
      .error .divisionByZero ∧
    ∃ need, ∀ fuel, need ≤ fuel → ∃ object opened world',
      lowered.enumerate none [.array 0 [.int 4, .int 0]]
        (World.withFuel { World.start 0 with arrays := 1 } fuel) = .ok object opened ∧
      lowered.machine.drain object opened = .error .divisionByZero world' ∧
      lowered.machine.stateOf world' object = .ok State.running := by
  obtain ⟨lowered, supply, lowers, single⟩ := Method.shares_lowers
  have known : KnownInputs 1 none [.array 0 [.int 4, .int 0]] :=
    ⟨by simp, by simp [Value.BelowAll, Value.Below]⟩
  exact ⟨lowered, supply, lowers, Method.shares_fails, Lowered.drain_fails_of_run lowers (by omega)
    (by unfold Method.WellScoped; decide +kernel) (by unfold Method.PlainHeaders; decide +kernel)
    (by decide) Method.shares_fails rfl known (Nat.le_refl 1) { World.start 0 with arrays := 1 }
    (Nat.le_refl 1)⟩

end Resumable
