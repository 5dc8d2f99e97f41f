import Resumable.Proofs.Slots
import Resumable.Semantics.Execution

/-!
Execution without the bound. The bound of an execution is never reached when it exceeds
the fuel, so code runs by two equations: the end of the code ends the routine, and an
instruction is paid for, executed, and followed by what it leads to.
-/

namespace Resumable.Machine

namespace Activation

/-- The fuel an activation has left. -/
abbrev fuel (activation : Activation) : Nat := activation.world.fuel

def withFuel (activation : Activation) (fuel : Nat) : Activation :=
  ⟨activation.locals, activation.world.withFuel fuel⟩

@[simp] theorem withFuel_withFuel (activation : Activation) (fuel fuel' : Nat) :
    (activation.withFuel fuel).withFuel fuel' = activation.withFuel fuel' := rfl

@[simp] theorem withFuel_mk (locals : Table LocalId Value) (world : World) (fuel : Nat) :
    withFuel ⟨locals, world⟩ fuel = ⟨locals, world.withFuel fuel⟩ := rfl

end Activation

/-- Entering routines in either way gives the same as long as there is at most `limit` fuel. -/
def SameEntry (limit : Nat) (enter enter' : Enter) : Prop :=
  ∀ routine self args, Agree World.fuel limit (enter routine self args) (enter' routine self args)

namespace Step
variable {α : Type}

theorem agree_inWorld {limit : Nat} {x y : Exec α} (agree : Agree World.fuel limit x y) :
    Agree Activation.fuel limit (inWorld x) (inWorld y) := by
  rintro ⟨locals, world⟩ small
  obtain ⟨same, less⟩ := agree world small
  simp only [inWorld, ← same]
  cases result : x world with
  | ok a world' => exact ⟨trivial, by simpa [result] using less⟩
  | error e world' => exact ⟨trivial, by simpa [result] using less⟩

theorem agree_readLocal (limit : Nat) (id : LocalId) :
    Agree Activation.fuel limit (readLocal id) (readLocal id) := by
  apply Agree.of_le
  intro activation
  unfold readLocal
  split <;> exact Nat.le_refl _

theorem agree_writeLocal (limit : Nat) (id : LocalId) (value : Value) :
    Agree Activation.fuel limit (writeLocal id value) (writeLocal id value) :=
  Agree.of_le fun _ => Nat.le_refl _

end Step

namespace Exec

theorem agree_readField (limit : Nat) (object : Value) (id : FieldId) :
    Agree World.fuel limit (readField object id) (readField object id) := by
  apply Agree.of_le
  intro world
  unfold readField
  split
  · exact Nat.le_refl _
  · split <;> exact Nat.le_refl _

theorem agree_writeField (limit : Nat) (object : Value) (id : FieldId) (value : Value) :
    Agree World.fuel limit (writeField object id value) (writeField object id value) := by
  apply Agree.of_le
  intro world
  unfold writeField
  split
  · exact Nat.le_refl _
  · split
    · exact Nat.le_refl _
    · split <;> exact Nat.le_refl _

theorem agree_allocate (limit : Nat) (fields : List Field) :
    Agree World.fuel limit (allocate fields) (allocate fields) :=
  Agree.of_le fun _ => Nat.le_refl _

end Exec

theorem agree_load (limit : Nat) (frame : Frame) (place : Place) :
    Agree Activation.fuel limit (frame.load place) (frame.load place) := by
  cases place with
  | field id => exact Step.agree_inWorld (Exec.agree_readField limit frame.self id)
  | fieldOf holder id =>
    exact (Step.agree_readLocal limit holder).bind
      fun object => Step.agree_inWorld (Exec.agree_readField limit object id)
  | frame id => exact Step.agree_readLocal limit id

theorem agree_store (limit : Nat) (frame : Frame) (value : Value) (place : Place) :
    Agree Activation.fuel limit (frame.store value place) (frame.store value place) := by
  cases place with
  | field id => exact Step.agree_inWorld (Exec.agree_writeField limit frame.self id value)
  | fieldOf holder id =>
    exact (Step.agree_readLocal limit holder).bind
      fun object => Step.agree_inWorld (Exec.agree_writeField limit object id value)
  | frame id => exact Step.agree_writeLocal limit id value

section
variable (machine : Machine) {limit : Nat} {enter enter' : Enter}

theorem agree_newInstance (same : SameEntry limit enter enter') (args : List Value) :
    Agree World.fuel limit (newInstance machine enter args) (newInstance machine enter' args) :=
  (Exec.agree_allocate limit machine.fields).bind fun object =>
    (same machine.constructor object args).bind fun _ => Agree.pure object

theorem agree_callRoutine (same : SameEntry limit enter enter') (name : String) (self : Value) :
    Agree World.fuel limit (callRoutine machine enter name self)
      (callRoutine machine enter' name self) := by
  unfold callRoutine
  split
  · exact Agree.throw _
  · exact (same _ self []).bind fun _ => Agree.pure _

mutual
theorem agree_evalTerm (same : SameEntry limit enter enter') (frame : Frame) :
    (t : Term) → Agree Activation.fuel limit (evalTerm machine enter frame t)
      (evalTerm machine enter' frame t)
  | .int value => by simpa only [evalTerm] using Agree.pure _
  | .bool value => by simpa only [evalTerm] using Agree.pure _
  | .str value => by simpa only [evalTerm] using Agree.pure _
  | .null => by simpa only [evalTerm] using Agree.pure _
  | .load place => by simpa only [evalTerm] using agree_load limit frame place
  | .self => by simpa only [evalTerm] using Agree.pure _
  | .param index => by simpa only [evalTerm] using Agree.checked _
  | .assign place value => by
    simp only [evalTerm]
    exact (agree_evalTerm same frame value).bind fun v =>
      (agree_store limit frame v place).bind fun _ => Agree.pure v
  | .unary op operand => by
    simp only [evalTerm]
    exact (agree_evalTerm same frame operand).bind fun _ => Agree.checked _
  | .binary op left right => by
    have first := agree_evalTerm same frame left
    have second := agree_evalTerm same frame right
    have decided : ∀ v : Value, Agree Activation.fuel limit
        (do let holds ← checked v.asBool; return Value.bool holds : Step Value)
        (do let holds ← checked v.asBool; return Value.bool holds) :=
      fun v => (Agree.checked _).bind fun _ => Agree.pure _
    by_cases conjunction : op = .and
    · subst conjunction
      simp only [evalTerm]
      refine first.bind fun v => (Agree.checked _).bind fun holds => ?_
      cases holds with
      | true => exact second.bind decided
      | false => exact Agree.pure _
    · by_cases disjunction : op = .or
      · subst disjunction
        simp only [evalTerm]
        refine first.bind fun v => (Agree.checked _).bind fun holds => ?_
        cases holds with
        | true => exact Agree.pure _
        | false => exact second.bind decided
      · simp only [evalTerm]
        exact first.bind fun _ => second.bind fun _ => Agree.checked _
  | .array items => by
    simp only [evalTerm]
    exact (agree_evalTerms same frame items).bind fun _ =>
      Step.agree_inWorld (Agree.of_le fun _ => Nat.le_refl _)
  | .index base position => by
    simp only [evalTerm]
    exact (agree_evalTerm same frame base).bind fun _ =>
      (agree_evalTerm same frame position).bind fun _ => Agree.checked _
  | .len base => by
    simp only [evalTerm]
    exact (agree_evalTerm same frame base).bind fun _ => Agree.checked _
  | .call callee args => by
    simp only [evalTerm]
    exact (agree_evalTerms same frame args).bind fun _ =>
      (Step.agree_inWorld (Agree.of_le fun _ => Nat.le_refl _)).bind fun _ => Agree.pure _
  | .callSelf name => by
    simp only [evalTerm]
    exact Step.agree_inWorld (agree_callRoutine machine same name frame.self)
  | .construct args => by
    simp only [evalTerm]
    exact (agree_evalTerms same frame args).bind fun values =>
      Step.agree_inWorld (agree_newInstance machine same values)
  | .threadId source => by
    simp only [evalTerm]
    exact Step.agree_inWorld (Agree.of_le fun _ => Nat.le_refl _)

theorem agree_evalTerms (same : SameEntry limit enter enter') (frame : Frame) :
    (ts : List Term) → Agree Activation.fuel limit (evalTerms machine enter frame ts)
      (evalTerms machine enter' frame ts)
  | [] => by simpa only [evalTerms] using Agree.pure _
  | t :: rest => by
    simp only [evalTerms]
    exact (agree_evalTerm same frame t).bind fun _ =>
      (agree_evalTerms same frame rest).bind fun _ => Agree.pure _
end

theorem agree_execInstr (same : SameEntry limit enter enter') (frame : Frame) (instr : Instr) :
    Agree Activation.fuel limit (execInstr machine enter frame instr)
      (execInstr machine enter' frame instr) := by
  have eval := fun t => agree_evalTerm machine same frame t
  cases instr with
  | label l => exact Agree.pure _
  | goto target => exact Agree.pure _
  | gotoUnless cond target =>
    exact (eval cond).bind fun _ => (Agree.checked _).bind fun _ => Agree.pure _
  | switch value cases default =>
    exact (eval value).bind fun _ => (Agree.checked _).bind fun _ => Agree.pure _
  | assign place value =>
    exact (eval value).bind fun v => (agree_store limit frame v place).bind fun _ => Agree.pure _
  | eval value => exact (eval value).bind fun _ => Agree.pure _
  | ret value =>
    cases value with
    | none => exact Agree.pure _
    | some value => exact (eval value).bind fun _ => Agree.pure _
  | raise constructor => exact Agree.throw _

end

theorem burn_zero {world : World} (empty : world.fuel = 0) :
    Exec.burn world = .error .outOfFuel world := by
  simp [Exec.burn, empty]

theorem burn_succ {world : World} {fuel : Nat} (left : world.fuel = fuel + 1) :
    Exec.burn world = .ok () { world with fuel := fuel } := by
  simp [Exec.burn, left]

/-- Entry through an execution whose bound exceeds the fuel does not depend on the bound. -/
theorem agree_activate {limit : Nat} {run run' : Code → Frame → Code → Step (Option Value)}
    (same : ∀ body frame code, Agree Activation.fuel limit (run body frame code)
      (run' body frame code)) : SameEntry limit (activate run) (activate run') := by
  intro routine self args world small
  obtain ⟨equal, less⟩ := same routine.body ⟨self, args⟩ routine.body ⟨.empty, world⟩ small
  simp only [activate, ← equal]
  cases result : run routine.body ⟨self, args⟩ routine.body ⟨.empty, world⟩ with
  | ok a activation => exact ⟨trivial, by simpa [result] using less⟩
  | error e activation => exact ⟨trivial, by simpa [result] using less⟩

/-- What follows an instruction, when `run` executes the code that comes next. -/
def followBy (run : Code → Step (Option Value)) (body rest : Code) : Outcome → Step (Option Value)
  | .next => run rest
  | .goto target =>
    match body.from? target with
    | some rest => run rest
    | none => throw (.malformed (.undefinedLabel target))
  | .done result => return result

theorem agree_followBy {limit : Nat} {run run' : Code → Step (Option Value)}
    (same : ∀ code, Agree Activation.fuel limit (run code) (run' code)) (body rest : Code)
    (outcome : Outcome) :
    Agree Activation.fuel limit (followBy run body rest outcome)
      (followBy run' body rest outcome) := by
  cases outcome with
  | next => exact same rest
  | goto target =>
    simp only [followBy]
    split
    · exact same _
    · exact Agree.throw _
  | done result => exact Agree.pure _

theorem runCode_cons (machine : Machine) (bound : Nat) (body : Code) (frame : Frame)
    (instr : Instr) (rest : Code) :
    runCode machine (bound + 1) body frame (instr :: rest) = (do
      Step.inWorld Exec.burn
      let outcome ← execInstr machine (activate (runCode machine bound)) frame instr
      followBy (runCode machine bound body frame) body rest outcome) := by
  simp only [runCode]
  congr 1

theorem agree_runCode (machine : Machine) (bound bound' limit : Nat) (enough : limit < bound)
    (enough' : limit < bound') (body : Code) (frame : Frame) (code : Code) :
    Agree Activation.fuel limit (runCode machine bound body frame code)
      (runCode machine bound' body frame code) := by
  induction bound generalizing bound' limit body frame code with
  | zero => omega
  | succ bound ih =>
    obtain ⟨bound', rfl⟩ : ∃ n, bound' = n + 1 := ⟨bound' - 1, by omega⟩
    cases code with
    | nil => simpa only [runCode] using Agree.pure _
    | cons instr rest =>
      rintro ⟨locals, world⟩ small
      rw [runCode_cons, runCode_cons]
      cases left : world.fuel with
      | zero =>
        have stuck : Step.inWorld Exec.burn ⟨locals, world⟩ = .error .outOfFuel ⟨locals, world⟩ := by
          simp [Step.inWorld, burn_zero left]
        rw [bind_of_error stuck, bind_of_error stuck]
        exact ⟨rfl, Nat.le_refl _⟩
      | succ fuel =>
        have paid : Step.inWorld Exec.burn ⟨locals, world⟩ =
            .ok () ⟨locals, { world with fuel := fuel }⟩ := by
          simp [Step.inWorld, burn_succ left]
        rw [bind_of_ok paid, bind_of_ok paid]
        have less : fuel < limit := by
          have : world.fuel ≤ limit := small
          omega
        have inner := fun body frame code =>
          ih bound' fuel (by omega) (by omega) body frame code
        have agree := (agree_execInstr machine (agree_activate inner) frame instr).bind
          (agree_followBy (inner body frame) body rest)
        obtain ⟨same, spent⟩ := agree ⟨locals, { world with fuel := fuel }⟩ (Nat.le_refl _)
        refine ⟨same, Nat.le_trans spent ?_⟩
        change fuel ≤ world.fuel
        omega

/-- Executes the rest of a routine's code with all the fuel there is. -/
def run (machine : Machine) (body : Code) (frame : Frame) (code : Code) : Step (Option Value) :=
  fun activation => runCode machine (activation.fuel + 1) body frame code activation

theorem runCode_eq_run (machine : Machine) {bound : Nat} {activation : Activation}
    (enough : activation.fuel < bound) (body : Code) (frame : Frame) (code : Code) :
    runCode machine bound body frame code activation = run machine body frame code activation :=
  (agree_runCode machine bound (activation.fuel + 1) activation.fuel enough (by omega) body frame
    code activation (Nat.le_refl _)).1

theorem run_fuel_le (machine : Machine) (body : Code) (frame : Frame) (code : Code)
    (activation : Activation) :
    (finalState (run machine body frame code activation)).fuel ≤ activation.fuel :=
  (agree_runCode machine (activation.fuel + 1) (activation.fuel + 1) activation.fuel (by omega)
    (by omega) body frame code activation (Nat.le_refl _)).2

/-- Entering a routine runs its body in a fresh activation. -/
theorem call_eq_activate (machine : Machine) :
    call machine = activate (run machine) := rfl

theorem sameEntry_call (machine : Machine) (bound limit : Nat) (enough : limit < bound) :
    SameEntry limit (activate (runCode machine bound)) (call machine) := by
  rw [call_eq_activate]
  refine agree_activate fun body frame code activation small => ?_
  exact ⟨runCode_eq_run machine (by omega) body frame code,
    (agree_runCode machine bound bound limit enough enough body frame code activation small).2⟩

@[simp] theorem run_nil (machine : Machine) (body : Code) (frame : Frame)
    (activation : Activation) : run machine body frame [] activation = .ok none activation := rfl

theorem run_cons_empty (machine : Machine) (body : Code) (frame : Frame) (instr : Instr)
    (rest : Code) {activation : Activation} (empty : activation.fuel = 0) :
    run machine body frame (instr :: rest) activation = .error .outOfFuel activation := by
  obtain ⟨locals, world⟩ := activation
  have stuck : Step.inWorld Exec.burn ⟨locals, world⟩ = .error .outOfFuel ⟨locals, world⟩ := by
    simp [Step.inWorld, burn_zero empty]
  simp only [run, runCode]
  exact bind_of_error stuck

theorem run_cons (machine : Machine) (body : Code) (frame : Frame) (instr : Instr) (rest : Code)
    (activation : Activation) {fuel : Nat} (left : activation.fuel = fuel + 1) :
    run machine body frame (instr :: rest) activation =
      (execInstr machine (call machine) frame instr >>=
        followBy (run machine body frame) body rest) (activation.withFuel fuel) := by
  have paid : Step.inWorld Exec.burn activation = .ok () (activation.withFuel fuel) := by
    obtain ⟨locals, world⟩ := activation
    simp [Step.inWorld, burn_succ left, World.withFuel]
  have bounded : run machine body frame (instr :: rest) activation =
      runCode machine (fuel + 1 + 1) body frame (instr :: rest) activation := by
    rw [← left]
    rfl
  rw [bounded, runCode_cons, bind_of_ok paid]
  have same : ∀ code, Agree Activation.fuel fuel (runCode machine (fuel + 1) body frame code)
      (run machine body frame code) := fun code activation small =>
    ⟨runCode_eq_run machine (by omega) body frame code,
      (agree_runCode machine (fuel + 1) (fuel + 1) fuel (by omega) (by omega) body frame code
        activation small).2⟩
  have agree := (agree_execInstr machine (sameEntry_call machine (fuel + 1) fuel (by omega)) frame
    instr).bind (agree_followBy same body rest)
  exact (agree (activation.withFuel fuel) (Nat.le_refl _)).1

end Resumable.Machine
