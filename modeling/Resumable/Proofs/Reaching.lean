import Resumable.Proofs.Running
import Resumable.Proofs.Slots

/-!
Runs with enough fuel. A position of a routine is the code that is left to execute. One
position reaches another when, with some units of fuel more, the run from the first is
the run from the second; so what the second returns, the first returns too.
-/

namespace Resumable.Machine

namespace Code

/-- The labels placed in the code. -/
def labels : Code → List Label
  | [] => []
  | .label l :: rest => l :: labels rest
  | _ :: rest => labels rest

@[simp] theorem labels_nil : labels [] = [] := rfl

@[simp] theorem labels_label (l : Label) (rest : Code) :
    labels (.label l :: rest) = l :: labels rest := rfl

@[simp] theorem labels_append (first second : Code) :
    labels (first ++ second) = labels first ++ labels second := by
  induction first with
  | nil => rfl
  | cons instr rest ih => cases instr <;> simp_all [labels]

theorem from?_eq_none {target : Label} {code : Code} (absent : target ∉ code.labels) :
    from? target code = none := by
  induction code with
  | nil => rfl
  | cons instr rest ih =>
    cases instr with
    | label l =>
      simp only [labels_label, List.mem_cons, not_or] at absent
      simp [from?, ih absent.2, Ne.symm absent.1]
    | _ => simp_all [from?, labels]

/-- A label that is placed once leads to its place. -/
theorem from?_of_suffix {target : Label} {rest body : Code} (once : body.labels.Nodup)
    (placed : .label target :: rest <:+ body) :
    from? target body = some (.label target :: rest) := by
  obtain ⟨before, rfl⟩ := placed
  induction before with
  | nil =>
    simp only [List.nil_append, labels_label, List.nodup_cons] at once
    simp [from?, from?_eq_none once.1]
  | cons instr before ih =>
    have onceRest : (labels (before ++ .label target :: rest)).Nodup := by
      cases instr with
      | label l => exact (List.nodup_cons.mp once).2
      | _ => exact once
    simp only [List.cons_append, from?, ih onceRest]

end Code

namespace Step
variable {α β : Type}

/-- A step that spends no fuel has a result. -/
def Gives (step : Step α) (act : Activation) (a : α) (act' : Activation) : Prop :=
  ∀ fuel, step (act.withFuel fuel) = .ok a (act'.withFuel fuel)

/-- A step that spends no fuel fails. -/
def Raises (step : Step α) (act : Activation) (e : EvalError) : Prop :=
  ∃ act' : Activation, ∀ fuel, step (act.withFuel fuel) = .error e (act'.withFuel fuel)

section
variable {step : Step α} {next : α → Step β} {act act' act'' : Activation} {a : α} {b : β}
  {e : EvalError}

theorem gives_pure (a : α) (act : Activation) : Gives (pure a) act a act := fun _ => rfl

theorem Gives.bind (first : Gives step act a act') (second : Gives (next a) act' b act'') :
    Gives (step >>= next) act b act'' := by
  intro fuel
  rw [bind_of_ok (first fuel), second fuel]

theorem Raises.bind (first : Raises step act e) : Raises (step >>= next) act e := by
  obtain ⟨act', first⟩ := first
  exact ⟨act', fun fuel => bind_of_error (first fuel)⟩

theorem Gives.bind_raises (first : Gives step act a act') (second : Raises (next a) act' e) :
    Raises (step >>= next) act e := by
  obtain ⟨act'', second⟩ := second
  refine ⟨act'', fun fuel => ?_⟩
  rw [bind_of_ok (first fuel), second fuel]

end
end Step

namespace Exec
variable {α β : Type}

/-- With enough fuel the step has a result. -/
def Does (exec : Exec α) (world : World) (a : α) (world' : World) : Prop :=
  ∃ cost, ∀ fuel, exec (world.withFuel (fuel + cost)) = .ok a (world'.withFuel fuel)

theorem does_pure (a : α) (world : World) : Does (pure a) world a world := ⟨0, fun _ => rfl⟩

/-- A step has one result. -/
theorem Does.unique {exec : Exec α} {world world' world'' : World} {a b : α}
    (does : exec.Does world a world') (does' : exec.Does world b world'') : a = b := by
  obtain ⟨cost, does⟩ := does
  obtain ⟨cost', does'⟩ := does'
  have same := does' cost
  rw [Nat.add_comm cost cost', does cost'] at same
  exact (EStateM.Result.ok.inj same).1

theorem Does.bind {exec : Exec α} {next : α → Exec β} {world world' world'' : World} {a : α} {b : β}
    (first : exec.Does world a world') (second : (next a).Does world' b world'') :
    (exec >>= next).Does world b world'' := by
  obtain ⟨cost, first⟩ := first
  obtain ⟨cost', second⟩ := second
  refine ⟨cost' + cost, fun fuel => ?_⟩
  rw [← Nat.add_assoc, bind_of_ok (first _), second fuel]

end Exec

section
variable (machine : Machine) (body : Code) (frame : Frame)

/-- With enough fuel the run from the first position is the run from the second. -/
def Reaches (code : Code) (activation : Activation) (code' : Code) (activation' : Activation) :
    Prop :=
  ∃ cost, ∀ fuel, run machine body frame code (activation.withFuel (fuel + cost)) =
    run machine body frame code' (activation'.withFuel fuel)

/-- With enough fuel the run from a position ends with a result. -/
def Returns (code : Code) (activation : Activation) (result : Option Value)
    (activation' : Activation) : Prop :=
  ∃ cost, ∀ fuel, run machine body frame code (activation.withFuel (fuel + cost)) =
    .ok result (activation'.withFuel fuel)

/-- With enough fuel the run from a position fails. -/
def Fails (code : Code) (activation : Activation) (e : EvalError) : Prop :=
  ∃ (cost : Nat) (activation' : Activation), ∀ fuel,
    run machine body frame code (activation.withFuel (fuel + cost)) =
      .error e (activation'.withFuel fuel)

end

section
variable {machine : Machine} {body : Code} {frame : Frame}
variable {code code' code'' rest : Code} {act act' act'' : Activation} {instr : Instr}
variable {e : EvalError}

theorem run_step (outcome : Outcome) (cost : Nat)
    (executed : ∀ fuel, execInstr machine (call machine) frame instr (act.withFuel (fuel + cost)) =
      .ok outcome (act'.withFuel fuel)) (fuel : Nat) :
    run machine body frame (instr :: rest) (act.withFuel (fuel + (cost + 1))) =
      followBy (run machine body frame) body rest outcome (act'.withFuel fuel) := by
  have paid := run_cons machine body frame instr rest (act.withFuel (fuel + (cost + 1)))
    (Nat.add_assoc fuel cost 1).symm
  exact paid.trans (bind_of_ok (executed fuel))

theorem run_step_error (cost : Nat)
    (failed : ∀ fuel, execInstr machine (call machine) frame instr (act.withFuel (fuel + cost)) =
      .error e (act'.withFuel fuel)) (fuel : Nat) :
    run machine body frame (instr :: rest) (act.withFuel (fuel + (cost + 1))) =
      .error e (act'.withFuel fuel) := by
  have paid := run_cons machine body frame instr rest (act.withFuel (fuel + (cost + 1)))
    (Nat.add_assoc fuel cost 1).symm
  exact paid.trans (bind_of_error (failed fuel))

theorem Reaches.refl (code : Code) (act : Activation) : Reaches machine body frame code act code act :=
  ⟨0, fun _ => rfl⟩

theorem Reaches.trans (first : Reaches machine body frame code act code' act')
    (second : Reaches machine body frame code' act' code'' act'') :
    Reaches machine body frame code act code'' act'' := by
  obtain ⟨cost, first⟩ := first
  obtain ⟨cost', second⟩ := second
  refine ⟨cost' + cost, fun fuel => ?_⟩
  rw [← Nat.add_assoc, first, second]

theorem Reaches.returns {result : Option Value} (first : Reaches machine body frame code act code' act')
    (second : Returns machine body frame code' act' result act'') :
    Returns machine body frame code act result act'' := by
  obtain ⟨cost, first⟩ := first
  obtain ⟨cost', second⟩ := second
  refine ⟨cost' + cost, fun fuel => ?_⟩
  rw [← Nat.add_assoc, first, second]

theorem Reaches.fails (first : Reaches machine body frame code act code' act')
    (second : Fails machine body frame code' act' e) : Fails machine body frame code act e := by
  obtain ⟨cost, first⟩ := first
  obtain ⟨cost', act'', second⟩ := second
  refine ⟨cost' + cost, act'', fun fuel => ?_⟩
  rw [← Nat.add_assoc, first, second]

theorem Reaches.next (executed : (execInstr machine (call machine) frame instr).Gives act .next act') :
    Reaches machine body frame (instr :: rest) act rest act' :=
  ⟨0 + 1, fun fuel => run_step .next 0 executed fuel⟩

theorem Reaches.jump {target : Label}
    (executed : (execInstr machine (call machine) frame instr).Gives act (.goto target) act')
    (placed : body.from? target = some code') :
    Reaches machine body frame (instr :: rest) act code' act' := by
  refine ⟨0 + 1, fun fuel => ?_⟩
  rw [run_step (.goto target) 0 executed fuel]
  simp only [followBy, placed]

theorem Fails.here (failed : (execInstr machine (call machine) frame instr).Raises act e) :
    Fails machine body frame (instr :: rest) act e := by
  obtain ⟨act', failed⟩ := failed
  exact ⟨0 + 1, act', fun fuel => run_step_error 0 failed fuel⟩

theorem Reaches.label (l : Label) : Reaches machine body frame (.label l :: rest) act rest act :=
  Reaches.next fun _ => rfl

theorem Reaches.goto {target : Label} (placed : body.from? target = some code') :
    Reaches machine body frame (.goto target :: rest) act code' act :=
  Reaches.jump (fun _ => rfl) placed

theorem Reaches.switch {term : Term} {value : Int64} {cases : List (Int64 × Label)} {default : Label}
    (evaluated : (evalTerm machine (call machine) frame term).Gives act (.int value) act')
    (placed : body.from? (caseTarget value cases default) = some code') :
    Reaches machine body frame (.switch term cases default :: rest) act code' act' := by
  refine Reaches.jump (evaluated.bind fun _ => ?_) placed
  rfl

theorem Reaches.assign {place : Place} {term : Term} {value : Value}
    (evaluated : (evalTerm machine (call machine) frame term).Gives act value act')
    (stored : (frame.store value place).Gives act' () act'') :
    Reaches machine body frame (.assign place term :: rest) act rest act'' :=
  Reaches.next (evaluated.bind (stored.bind (Step.gives_pure _ _)))

/-- A routine that ends is left behind: its activation is dropped, its world is kept. -/
theorem call_of_returns {routine : Routine} {self : Value} {args : List Value} {world : World}
    {result : Option Value}
    (returns : Returns machine routine.body ⟨self, args⟩ routine.body ⟨.empty, world⟩ result act') :
    (call machine routine self args).Does world result act'.world := by
  obtain ⟨cost, returns⟩ := returns
  refine ⟨cost, fun fuel => ?_⟩
  have ended := returns fuel
  simp only [Activation.withFuel_mk] at ended
  simp only [call_eq_activate, activate, ended]
  rfl

theorem call_of_fails {routine : Routine} {self : Value} {args : List Value} {world : World}
    (fails : Fails machine routine.body ⟨self, args⟩ routine.body ⟨.empty, world⟩ e) :
    ∃ (cost : Nat) (world' : World), ∀ fuel,
      call machine routine self args (world.withFuel (fuel + cost)) =
        .error e (world'.withFuel fuel) := by
  obtain ⟨cost, act', fails⟩ := fails
  refine ⟨cost, act'.world, fun fuel => ?_⟩
  have ended := fails fuel
  simp only [Activation.withFuel_mk] at ended
  simp only [call_eq_activate, activate, ended]
  rfl

section
variable {name : String} {routine : Routine} (named : machine.routineNamed? name = some routine)
include named

theorem Reaches.callSelf {result : Option Value}
    (returns : Returns machine routine.body ⟨frame.self, []⟩ routine.body ⟨.empty, act.world⟩
      result act') :
    Reaches machine body frame (.eval (.callSelf name) :: rest) act rest
      ⟨act.locals, act'.world⟩ := by
  obtain ⟨cost, called⟩ := call_of_returns returns
  refine ⟨cost + 1, fun fuel => run_step .next cost (fun fuel => ?_) fuel⟩
  have evaluated : evalTerm machine (call machine) frame (.callSelf name)
      (act.withFuel (fuel + cost)) =
      .ok (result.getD .null) (Activation.withFuel ⟨act.locals, act'.world⟩ fuel) := by
    simp only [evalTerm, Step.inWorld, callRoutine, named, Activation.withFuel]
    rw [bind_of_ok (called fuel)]
    rfl
  simp only [execInstr]
  rw [bind_of_ok evaluated]
  rfl

theorem Fails.callSelf
    (fails : Fails machine routine.body ⟨frame.self, []⟩ routine.body ⟨.empty, act.world⟩ e) :
    Fails machine body frame (.eval (.callSelf name) :: rest) act e := by
  obtain ⟨cost, world', called⟩ := call_of_fails fails
  refine ⟨cost + 1, ⟨act.locals, world'⟩, fun fuel => run_step_error cost (fun fuel => ?_) fuel⟩
  have evaluated : evalTerm machine (call machine) frame (.callSelf name)
      (act.withFuel (fuel + cost)) = .error e (Activation.withFuel ⟨act.locals, world'⟩ fuel) := by
    simp only [evalTerm, Step.inWorld, callRoutine, named, Activation.withFuel]
    rw [bind_of_error (called fuel)]
  simp only [execInstr]
  rw [bind_of_error evaluated]

end

theorem Returns.ret_none : Returns machine body frame (.ret none :: rest) act none act :=
  ⟨0 + 1, fun fuel => run_step (.done none) 0 (fun _ => rfl) fuel⟩

theorem Returns.ret {term : Term} {value : Value}
    (evaluated : (evalTerm machine (call machine) frame term).Gives act value act') :
    Returns machine body frame (.ret (some term) :: rest) act (some value) act' := by
  have executed : (execInstr machine (call machine) frame (.ret (some term))).Gives act
      (.done (some value)) act' := evaluated.bind (Step.gives_pure _ _)
  exact ⟨0 + 1, fun fuel => run_step (.done (some value)) 0 executed fuel⟩

end
end Resumable.Machine
