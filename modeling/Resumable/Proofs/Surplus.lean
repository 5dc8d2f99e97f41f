import Resumable.Method.Build
import Resumable.Proofs.Operations

/-!
Fuel decides whether there is an answer, never which. Whatever is asked of a machine, even of one
whose code nobody checked, an answer or a failure that comes with some fuel comes with more of it,
and the surplus is left over.
-/

namespace Resumable

namespace Machine

/-- A routine that returns a value has executed an instruction. -/
theorem run_fuel_lt {machine : Machine} {body code : Code} {frame : Frame} {act act' : Activation}
    {value : Value} (returned : run machine body frame code act = .ok (some value) act') :
    act'.fuel < act.fuel := by
  cases code with
  | nil => simp at returned
  | cons instr rest =>
    cases left : act.fuel with
    | zero =>
      rw [run_cons_empty machine body frame instr rest left] at returned
      cases returned
    | succ fuel =>
      have paid := ((frugal_execInstr machine (frugal_call machine fuel) frame instr).bind
        (frugal_followBy (frugal_run machine fuel body frame) body rest)).less
        (s := act.withFuel fuel) (Nat.le_refl fuel)
      rw [← run_cons machine body frame instr rest act left, returned] at paid
      exact Nat.lt_succ_of_le paid

/-- No answer to an advance is for free: what is returned for nothing is null, not a boolean. -/
theorem moveNext_fuel_lt {machine : Machine} {object : Value} {world world' : World} {advanced : Bool}
    (moved : machine.moveNext object world = .ok advanced world') : world'.fuel < world.fuel := by
  simp only [moveNext, bind_eq_ok, checked_eq_ok] at moved
  obtain ⟨value, _, called, isBool, rfl⟩ := moved
  unfold callKind at called
  cases found : machine.routine? .moveNext with
  | none =>
    rw [found] at called
    cases called
  | some routine =>
    simp only [found, bind_eq_ok, checked_eq_ok, pure_eq_ok] at called
    obtain ⟨_, _, ⟨_, rfl⟩, result, _, entered, rfl, rfl⟩ := called
    cases result with
    | none => cases isBool
    | some value =>
      rw [call_eq_activate] at entered
      unfold activate at entered
      split at entered
      · next done =>
        obtain ⟨rfl, rfl⟩ := EStateM.Result.ok.inj entered
        exact run_fuel_lt done
      · cases entered

section
variable (machine : Machine) (object : Value)

theorem frugal_moveNext (limit : Nat) : (machine.moveNext object).Frugal limit :=
  (frugal_callKind machine .moveNext object limit).bind fun value => .checked value.onlyData_asBool

/-- The bound on the number of advances is not reached while it exceeds the fuel. -/
theorem frugal_drainWithin (bound limit : Nat) (enough : limit < bound) :
    (machine.drainWithin object bound).Frugal limit := by
  induction bound generalizing limit with
  | zero => omega
  | succ bound ih =>
    unfold drainWithin
    refine (frugal_moveNext machine object limit).bindAfter fun {world advanced world'} small moved => ?_
    have paid := moveNext_fuel_lt moved
    cases advanced with
    | false => exact .pure _
    | true =>
      exact (frugal_callKind machine .currentGeneric object _).bind fun value =>
        (ih world'.fuel (by omega)).bind fun rest => .pure _

theorem drainWithin_congr {bound bound' : Nat} {world : World} (enough : world.fuel < bound)
    (enough' : world.fuel < bound') :
    machine.drainWithin object bound world = machine.drainWithin object bound' world := by
  induction bound generalizing bound' world with
  | zero => omega
  | succ bound ih =>
    obtain ⟨bound', rfl⟩ : ∃ n, bound' = n + 1 := ⟨bound' - 1, by omega⟩
    unfold drainWithin
    cases moved : machine.moveNext object world with
    | error e world' => rw [bind_of_error moved, bind_of_error moved]
    | ok advanced world' =>
      have paid := moveNext_fuel_lt moved
      rw [bind_of_ok moved, bind_of_ok moved]
      cases advanced with
      | false => rfl
      | true =>
        have less := (frugal_callKind machine .currentGeneric object world'.fuel).less (Nat.le_refl _)
        simp only [if_true]
        cases read : machine.current object world' with
        | error e world'' => rw [bind_of_error read, bind_of_error read]
        | ok value world'' =>
          rw [show machine.callKind .currentGeneric object world' = _ from read] at less
          have left : world''.fuel ≤ world'.fuel := less
          have rest : machine.drainWithin object bound world'' = machine.drainWithin object bound' world'' :=
            ih (by omega) (by omega)
          rw [bind_of_ok read, bind_of_ok read]
          simp only [bind, EStateM.bind, rest]

theorem frugal_drain (limit : Nat) : (machine.drain object).Frugal limit where
  more {world} surplus _ enough := by
    -- With one bound above both amounts of fuel the two runs are runs of the same computation.
    have bounded := frugal_drainWithin machine object (world.fuel + surplus + 1) world.fuel (by omega)
    have same : machine.drain object world =
        machine.drainWithin object (world.fuel + surplus + 1) world :=
      drainWithin_congr machine object (by omega) (by omega)
    rw [same] at enough ⊢
    exact bounded.more surplus (Nat.le_refl _) enough
  spent {world} _ := (frugal_drainWithin machine object (world.fuel + 1) world.fuel (by omega)).spent
    (Nat.le_refl _)
  less {world} _ := (frugal_drainWithin machine object (world.fuel + 1) world.fuel (by omega)).less
    (Nat.le_refl _)

end
end Machine

/-- What a consumer can ask. It may be asked of any value, also of one that is no instance. -/
inductive Inquiry where
  | invoke (receiver : Option Value) (args : List Value)
  | moveNext (object : Value)
  | current (object : Value)
  | objectCurrent (object : Value)
  | dispose (object : Value)
  | reset (object : Value)
  | getEnumerator (object : Value)
  | objectGetEnumerator (object : Value)
  | drain (object : Value)

namespace Inquiry
open Machine (World)

/-- What an answer consists of. -/
def Answer : Inquiry → Type
  | .moveNext _ => Bool
  | .dispose _ | .reset _ => Unit
  | .drain _ => List Value
  | .invoke _ _ | .current _ | .objectCurrent _ | .getEnumerator _ | .objectGetEnumerator _ => Value

def perform (lowered : Lowered) : (inquiry : Inquiry) → Machine.Exec inquiry.Answer
  | .invoke receiver args => lowered.invoke receiver args
  | .moveNext object => lowered.machine.moveNext object
  | .current object => lowered.machine.current object
  | .objectCurrent object => lowered.machine.objectCurrent object
  | .dispose object => lowered.machine.dispose object
  | .reset object => lowered.machine.reset object
  | .getEnumerator object => lowered.machine.getEnumerator object
  | .objectGetEnumerator object => lowered.machine.objectGetEnumerator object
  | .drain object => lowered.machine.drain object

theorem frugal_perform (lowered : Lowered) (inquiry : Inquiry) (limit : Nat) :
    (inquiry.perform lowered).Frugal limit := by
  have asks (kind : Machine.RoutineKind) (object : Value) :=
    Machine.frugal_callKind lowered.machine kind object limit
  cases inquiry with
  | invoke receiver args => exact (Operation.invoke receiver args).frugal_perform lowered limit
  | moveNext object => exact Machine.frugal_moveNext lowered.machine object limit
  | current object => exact asks .currentGeneric object
  | objectCurrent object => exact asks .currentObject object
  | dispose object => exact (asks .dispose object).bind fun _ => .pure _
  | reset object => exact (asks .reset object).bind fun _ => .pure _
  | getEnumerator object => exact asks .getEnumeratorGeneric object
  | objectGetEnumerator object => exact asks .getEnumeratorObject object
  | drain object => exact Machine.frugal_drain lowered.machine object limit

/-- An answer or a failure that is not for lack of fuel is the same with more fuel, and so is the
world after it, with its instances, host calls and thread reads; the surplus is left over. -/
theorem perform_surplus (lowered : Lowered) (inquiry : Inquiry) (world : World) (surplus : Nat)
    (answered : ¬ IsExhausted (inquiry.perform lowered world)) :
    inquiry.perform lowered { world with fuel := world.fuel + surplus } =
      mapState (fun after => { after with fuel := after.fuel + surplus })
        (inquiry.perform lowered world) :=
  (frugal_perform lowered inquiry world.fuel).more surplus (Nat.le_refl _) answered

end Inquiry

def Machine.Routine.plain (name : String) (kind : RoutineKind) (body : Code) : Routine :=
  ⟨name, kind, [], none, none, .hidden, [], body⟩

/-- No lowering builds this machine: advancing it counts down, reports to the host, and calls itself
to skip the odd numbers. -/
def Lowered.evenCountdown : Lowered where
  source := .draft "evens" (.enumeratorOf .int)
  kickoff := .plain "evens" .kickoff
    [.assign (.frame 0) (.construct [.int 3]), .ret (some (.load (.frame 0)))]
  machine := {
    name := "evens$Iterator"
    typeParams := []
    kind := .enumerator
    elementType := .int
    contracts := [.enumeratorOf .int]
    visibility := .hidden
    fields := [⟨0, "$state", .int, .state, .hidden, false⟩]
    constructor := .plain ".ctor" .constructor [.setField 0 (.param 0)]
    routines := [
      .plain "move_next" .moveNext
        [.gotoUnless (.binary .lt (.int 0) (.field 0)) 0,
          .setField 0 (.binary .sub (.field 0) (.int 1)),
          .eval (.call "at" [.field 0]),
          .gotoUnless (.binary .eq (.binary .rem (.field 0) (.int 2)) (.int 0)) 1,
          .ret (some (.bool true)),
          .label 1,
          .ret (some (.callSelf "move_next")),
          .label 0,
          .ret (some (.bool false))],
      .plain "current" .currentGeneric [.ret (some (.field 0))]]
    points := [] }

/-- The world after the countdown has been called with some fuel. -/
def Lowered.evenCountdownWorld (fuel : Nat) : Machine.World :=
  finalState (evenCountdown.invoke none [] (.start fuel))

theorem Inquiry.perform_surplus_evenCountdown :
    IsExhausted ((drain (.object 0)).perform .evenCountdown (Lowered.evenCountdownWorld 12)) ∧
    ¬ IsExhausted ((drain (.object 0)).perform .evenCountdown (Lowered.evenCountdownWorld 32)) ∧
    ∀ surplus, (drain (.object 0)).perform .evenCountdown
        { Lowered.evenCountdownWorld 32 with fuel := (Lowered.evenCountdownWorld 32).fuel + surplus } =
      mapState (fun after => { after with fuel := after.fuel + surplus })
        ((drain (.object 0)).perform .evenCountdown (Lowered.evenCountdownWorld 32)) := by
  have answered : ¬ IsExhausted
      ((drain (.object 0)).perform .evenCountdown (Lowered.evenCountdownWorld 32)) := by decide +kernel
  exact ⟨by decide +kernel, answered, fun surplus => perform_surplus .evenCountdown _ _ surplus answered⟩

end Resumable
