import Resumable.Proofs.Expressions
import Resumable.Proofs.Layout
import Resumable.Proofs.Readiness

/-!
What the code of a statement has to achieve. A goal is a property of positions that holds
earlier in a run when it holds later. The code of a statement achieves a goal when, however
the statement ends, the goal holds at the place where the machine then goes on: after the
code, at an exit, at a resume label, or in a cleanup routine on the way out.
-/

namespace Resumable

/-- An exit leads through this code. -/
def Lowering.Exit.Emits (exit : Lowering.Exit) (code : Machine.Code) : Prop :=
  ∃ p p', exit.take p = .ok code p'

theorem Lowering.Exit.emits_to {target : Machine.Label} {code : Machine.Code}
    (emits : (Exit.to target).Emits code) : code = [.goto target] := by
  obtain ⟨p, p', taken⟩ := emits
  exact (pure_eq_ok.mp taken).1.symm

theorem Lowering.Exit.emits_after {cleanup : Emit Machine.Code} {exit : Exit} {code : Machine.Code}
    (emits : (exit.after cleanup).Emits code) :
    ∃ first rest p q, code = first ++ rest ∧ cleanup p = .ok first q ∧ exit.Emits rest := by
  obtain ⟨p, p', taken⟩ := emits
  obtain ⟨first, q, rest, cleaned, left, rfl⟩ := Exit.take_after.mp taken
  exact ⟨first, rest, p, q, rfl, cleaned, q, p', left⟩

namespace Simulation
open Lowering (Exit Exits Shape)
open Machine (Activation Code Frame Instr Label Point Step World call execInstr)
open Structured (Flow Run State Unreached burn)

/-- The frame in which the routines of an instance run. -/
def ownFrame (own : Nat) : Frame := ⟨.object own, []⟩

@[simp] theorem ownFrame_self (own : Nat) : (ownFrame own).self = .object own := rfl

/-- What may happen between two calls: nothing to the fields of the instance. -/
structure Undisturbed (own : Nat) (world world' : World) : Prop where
  slots (id : Machine.FieldId) : world'.slot? own id = world.slot? own id
  arrays : world.arrays ≤ world'.arrays

theorem Undisturbed.refl (own : Nat) (world : World) : Undisturbed own world world :=
  ⟨fun _ => rfl, Nat.le_refl _⟩

theorem Undisturbed.trans {own : Nat} {world world' world'' : World}
    (first : Undisturbed own world world') (second : Undisturbed own world' world'') :
    Undisturbed own world world'' :=
  ⟨fun id => (second.slots id).trans (first.slots id), Nat.le_trans first.arrays second.arrays⟩

/-- When all locals in scope live in fields, a new activation finds them. -/
theorem Matches.reenter {shape : Shape} {own : Nat} {scope : List LocalId} {names : Renaming}
    {st st' : State} {act : Activation} (matching : Matches shape own scope names st act)
    (stores : shape.Stores scope) {world : World} (undisturbed : Undisturbed own act.world world)
    (vars : st'.vars = st.vars) (arrays : st'.arrays = st.arrays) (locals : Table LocalId Value) :
    Matches shape own scope names st' ⟨locals, world⟩ :=
  matching.transfer vars arrays undisturbed.arrays undisturbed.slots fun id inside noSlot => by
    have := stores id inside
    simp [noSlot] at this

structure Goal (machine : Machine) (own : Nat) (body : Code) where
  Holds : State → Renaming → Code → Activation → Prop
  /-- The limit is reached and these cleanup routines are left to run. -/
  Unwinds : List String → State → Renaming → World → Prop
  Fails : EvalError → Prop
  back {st st' : State} {names names' : Renaming} {code code' : Code} {act act' : Activation} :
    Advance st names act.world st' names' act'.world →
    Machine.Reaches machine body (ownFrame own) code act code' act' →
    Holds st' names' code' act' → Holds st names code act
  fail {st : State} {names : Renaming} {code : Code} {act : Activation} {e : EvalError} :
    Machine.Fails machine body (ownFrame own) code act e → Fails e → Holds st names code act

/-- The state in which the next value has been produced. -/
def produced (st : State) (value : Value) : State := { st with values := st.values.push value }

@[simp] theorem produced_vars (st : State) (value : Value) : (produced st value).vars = st.vars := rfl

@[simp] theorem produced_arrays (st : State) (value : Value) :
    (produced st value).arrays = st.arrays := rfl

theorem produce_then (limit : Option Nat) (value : Value) (st : State) :
    (do let reached ← Structured.produce limit value
        return if reached then Flow.stopping else .next : Run Flow) st =
      .ok (if limit = some (produced st value).values.size then .stopping else .next)
        (produced st value) := by
  simp [bind, EStateM.bind, Structured.produce, produced, pure, EStateM.pure]

/-- The machine has answered with a value and can be found again at a resume label. -/
structure PausedAt (shape : Shape) (own : Nat) (points : List Point) (names : Renaming)
    (value : Value) (point : Point) (act : Activation) : Prop where
  known : point ∈ points
  state : act.world.slot? own shape.state = some (.int point.state)
  current : ∃ value', act.world.slot? own shape.current = some value' ∧
    Value.Alike names value value'

/-- A goal that can be achieved across suspensions, or by disposal after the last value. -/
structure Goal.Pauses {machine : Machine} {own : Nat} {body : Code} (goal : Goal machine own body)
    (shape : Shape) (limit : Option Nat) (points : List Point) : Prop where
  pause {st : State} {names : Renaming} {rest : Code} {act : Activation} {value : Value}
    {point : Point} : PausedAt shape own points names value point act →
    Unreached limit (produced st value) →
    .ret (some (.bool true)) :: .label point.resume :: rest <:+ body →
    (∀ world, Undisturbed own act.world world →
      goal.Holds (produced st value) names rest ⟨.empty, world⟩) →
    goal.Holds st names (.ret (some (.bool true)) :: .label point.resume :: rest) act
  last {st : State} {names : Renaming} {rest : Code} {act : Activation} {value : Value}
    {point : Point} : PausedAt shape own points names value point act →
    limit = some (produced st value).values.size →
    (∀ world, Undisturbed own act.world world →
      goal.Unwinds point.cleanup (produced st value) names world) →
    goal.Holds st names (.ret (some (.bool true)) :: .label point.resume :: rest) act
  unwind {st st' : State} {names names' : Renaming} {name : String} {chain : List String}
    {routine : Machine.Routine} {world : World} {act' : Activation} :
    machine.routineNamed? name = some routine →
    Machine.Returns machine routine.body (ownFrame own) routine.body ⟨.empty, world⟩ none act' →
    Advance st names world st' names' act'.world → goal.Unwinds chain st' names' act'.world →
    goal.Unwinds (name :: chain) st names world
  unwindFails {st : State} {names : Renaming} {name : String} {chain : List String}
    {routine : Machine.Routine} {world : World} {e : EvalError} :
    machine.routineNamed? name = some routine →
    Machine.Fails machine routine.body (ownFrame own) routine.body ⟨.empty, world⟩ e →
    goal.Fails e → goal.Unwinds (name :: chain) st names world

section
variable {machine : Machine} {own : Nat} {body : Code} (goal : Goal machine own body)
  (shape : Shape) (limit : Option Nat)

/-- The goal holds wherever the exit is taken. -/
def Leaves (scope : List LocalId) (st : State) (exit : Exit) : Prop :=
  ∀ code rest names act, exit.Emits code → code ++ rest <:+ body →
    Matches shape own scope names st act → goal.Holds st names (code ++ rest) act

/-- The goal holds where the machine goes on after a statement that ended so. -/
def Continues (exits : Exits) (post : Code) (scope after : List LocalId) :
    EStateM.Result EvalError State Flow → Prop
  | .ok .next st =>
    ∀ names act, Matches shape own after names st act → goal.Holds st names post act
  | .ok .breaking st => Leaves goal shape scope st exits.onBreak
  | .ok .continuing st => Leaves goal shape scope st exits.onContinue
  | .ok .stopping st =>
    (Unreached limit st → Leaves goal shape scope st exits.onStop) ∧
      (¬Unreached limit st → (∃ code, exits.onStop.Emits code) →
        ∀ names world, Matches shape own scope names st ⟨.empty, world⟩ →
          goal.Unwinds exits.cleanups st names world)
  | .error e _ => e.isData ∧ goal.Fails e

end

section
variable {machine : Machine} {own : Nat} {body : Code} {goal : Goal machine own body}
  {shape : Shape} {limit : Option Nat} {exits : Exits} {post : Code}
  {scope scope' after after' : List LocalId}

theorem Leaves.widen {st : State} {exit : Exit} (leaves : Leaves goal shape scope st exit)
    (within : scope ⊆ scope') : Leaves goal shape scope' st exit :=
  fun code rest names act emits placed matching =>
    leaves code rest names act emits placed (matching.narrow within)

/-- A larger scope says more about the machine where it goes on. -/
theorem Continues.widen {result : EStateM.Result EvalError State Flow}
    (continues : Continues goal shape limit exits post scope after result)
    (within : scope ⊆ scope') (within' : after ⊆ after') :
    Continues goal shape limit exits post scope' after' result := by
  cases result with
  | error e st => exact continues
  | ok flow st =>
    cases flow with
    | next => exact fun names act matching => continues names act (matching.narrow within')
    | breaking => exact Leaves.widen continues within
    | continuing => exact Leaves.widen continues within
    | stopping =>
      exact ⟨fun early => (continues.1 early).widen within,
        fun reached emits names world matching =>
          continues.2 reached emits names world (matching.narrow within)⟩

end

section
variable {machine : Machine} {own : Nat} {body : Code} {goal : Goal machine own body}
  {shape : Shape} {scope : List LocalId} {names : Renaming} {st : State} {act : Activation}
  {α β : Type}

theorem Goal.along (goal : Goal machine own body) {code code' : Code}
    (reaches : Machine.Reaches machine body (ownFrame own) code act code' act)
    (later : goal.Holds st names code' act) : goal.Holds st names code act :=
  goal.back (.refl st names act.world) reaches later

/-- What is claimed of the results of a computation when errors lie with the data. -/
def Sane (goal : Goal machine own body) (claim : EStateM.Result EvalError State α → Prop) : Prop :=
  ∀ e st, claim (.error e st) → e.isData ∧ goal.Fails e

theorem sane_continues (limit : Option Nat) (exits : Exits) (post : Code)
    (scope after : List LocalId) :
    Sane goal (Continues goal shape limit exits post scope after) :=
  fun _ _ claimed => claimed

/-- Fuel of the method is of no concern to the machine. -/
theorem Goal.burn (goal : Goal machine own body) {f : Unit → Run β}
    {claim : EStateM.Result EvalError State β → Prop} (sane : Sane goal claim) {code : Code}
    (matching : Matches shape own scope names st act) (claimed : claim ((Structured.burn >>= f) st))
    (next : ∀ st', st'.values = st.values → Matches shape own scope names st' act →
      claim (f () st') → goal.Holds st' names code act) : goal.Holds st names code act := by
  cases left : st.fuel with
  | zero =>
    have empty : Structured.burn st = .error .outOfFuel st := by simp [Structured.burn, left]
    rw [bind_of_error empty] at claimed
    obtain ⟨data, _⟩ := sane _ _ claimed
    cases data
  | succ fuel =>
    have paid : Structured.burn st = .ok () { st with fuel := fuel } := by
      simp [Structured.burn, left]
    rw [bind_of_ok paid] at claimed
    have later := next { st with fuel := fuel } rfl
      (matching.transfer rfl rfl (Nat.le_refl _) (fun _ => rfl) fun _ _ _ => rfl) claimed
    have advance : Advance st names act.world { st with fuel := fuel } names act.world :=
      .of_same rfl rfl rfl (.refl names)
    exact goal.back advance (.refl code act) later

/-- Where an instruction leads. -/
def destination (body rest : Code) : Machine.Outcome → Option Code
  | .next => some rest
  | .goto target => body.from? target
  | .done _ => none

theorem reaches_destination {instr : Instr} {rest code' : Code} {outcome : Machine.Outcome}
    {act' : Activation}
    (executed : (execInstr machine (call machine) (ownFrame own) instr).Gives act outcome act')
    (leads : destination body rest outcome = some code') :
    Machine.Reaches machine body (ownFrame own) (instr :: rest) act code' act' := by
  cases outcome with
  | next =>
    obtain rfl := Option.some.inj leads
    exact .next executed
  | goto target => exact .jump executed leads
  | done result => simp [destination] at leads

/-- An instruction that simulates the first part of a computation. -/
theorem Goal.step (goal : Goal machine own body) {x : Run α} {f : α → Run β} {instr : Instr}
    {rest : Code} {related : Renaming → α → Machine.Outcome → Prop}
    {claim : EStateM.Result EvalError State β → Prop} (sane : Sane goal claim)
    (simulates : Simulates shape own scope names x
      (execInstr machine (call machine) (ownFrame own) instr) related)
    (matching : Matches shape own scope names st act) (claimed : claim ((x >>= f) st))
    (next : ∀ a st' names' act' outcome, x st = .ok a st' →
      Matches shape own scope names' st' act' → related names' a outcome → claim (f a st') →
      ∃ code', destination body rest outcome = some code' ∧ goal.Holds st' names' code' act') :
    goal.Holds st names (instr :: rest) act := by
  have simulated := simulates st act matching
  cases result : x st with
  | error e st' =>
    rw [result] at simulated
    rw [bind_of_error result] at claimed
    obtain ⟨data, fails⟩ := sane _ _ claimed
    exact goal.fail (.here (simulated data)) fails
  | ok a st' =>
    rw [result] at simulated
    rw [bind_of_ok result] at claimed
    obtain ⟨outcome, names', act', gives, matching', advance, both⟩ := simulated
    obtain ⟨code', leads, later⟩ := next a st' names' act' outcome result matching' both claimed
    exact goal.back advance (reaches_destination gives leads) later

end

end Simulation
end Resumable
