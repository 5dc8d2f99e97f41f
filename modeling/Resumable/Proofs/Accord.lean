import Resumable.Proofs.Fuel
import Resumable.Proofs.Goals
import Resumable.Proofs.Mentions

/-!
Running two listings that go together. Whoever relates the activations of two machines and
shows that the relation outlives each single effect has it wherever the two runs stop, and the
runs stop in the same way.
-/

namespace Resumable

namespace Machine

theorem Code.suffix_of_from? {target : Label} {code found : Code} (placed : code.from? target = some found) :
    found <:+ code := by
  induction code with
  | nil => cases placed
  | cons instr rest ih =>
    simp only [from?] at placed
    split at placed
    · next later =>
      obtain rfl := Option.some.inj placed
      exact (ih later).trans (List.suffix_cons _ _)
    · split at placed
      · split at placed
        · obtain rfl := Option.some.inj placed
          exact List.suffix_refl _
        · cases placed
      · cases placed

theorem caseTarget_mem (value : Int64) (cases : List (Int64 × Label)) (default : Label) :
    caseTarget value cases default = default ∨ ∃ arm ∈ cases, caseTarget value cases default = arm.2 := by
  unfold caseTarget
  split
  · next arm found => exact .inr ⟨arm, List.mem_of_find?_eq_some found, rfl⟩
  · exact .inl rfl

/-- An assignment does what the term that assigns does. -/
theorem execInstr_assign (machine : Machine) (enter : Enter) (frame : Frame) (place : Place) (t : Term) :
    execInstr machine enter frame (.assign place t) = (do
      let _ ← evalTerm machine enter frame (.assign place t)
      return .next) := by
  simp only [execInstr, evalTerm, bind_assoc, pure_bind]

theorem execInstr_fuel_le (machine : Machine) (frame : Frame) (instr : Instr) (act : Activation) :
    (finalState (execInstr machine (call machine) frame instr act)).fuel ≤ act.fuel :=
  (frugal_execInstr machine (frugal_call machine act.fuel) frame instr).less (Nat.le_refl _)

end Machine

namespace Lowering
open Machine (Activation Code Instr Label Place Step Term call evalTerm evalTerms execInstr followBy run)
open Simulation (ownFrame)

section
variable {left right : Shape} {machine machine' : Machine} {own : Nat}
variable {rel : Activation → Activation → Prop} {fault : EvalError → Activation → Activation → Prop}

/-- The relation outlives what an expression may do to the variables it uses. -/
structure Effects (left right : Shape) (own : Nat) (rel : Activation → Activation → Prop)
    (fault : EvalError → Activation → Activation → Prop) (uses assigns : Var → Prop) : Prop where
  data {e : EvalError} {act act' : Activation} : e.isData → rel act act' → fault e act act'
  load {var : Var} {place place' : Place} : uses var → left.place var = .ok place →
    right.place var = .ok place' →
    InStep rel (fun _ => rel) fault ((ownFrame own).load place) ((ownFrame own).load place')
  store {var : Var} {place place' : Place} (value : Value) : uses var → assigns var →
    left.place var = .ok place → right.place var = .ok place' →
    InStep rel (fun _ => rel) fault ((ownFrame own).store value place) ((ownFrame own).store value place')
  array (items : List Value) : InStep rel (fun _ => rel) fault
    (Step.inWorld (Machine.Exec.newArray items)) (Step.inWorld (Machine.Exec.newArray items))
  host (callee : String) (args : List Value) : InStep rel (fun _ => rel) fault
    (Step.inWorld (Machine.Exec.callHost callee args)) (Step.inWorld (Machine.Exec.callHost callee args))

namespace Effects
variable {uses assigns : Var → Prop} (effects : Effects left right own rel fault uses assigns)
include effects

theorem checked {α : Type} {x : Except EvalError α} (data : OnlyData x) :
    InStep rel (fun _ => rel) fault (checked x) (checked x) :=
  .checked (fun _ _ _ _ related => related)
    fun e failed _ _ related => effects.data (data e failed) related

theorem decided (value : Value) : InStep rel (fun _ => rel) fault
    (do let holds ← Resumable.checked value.asBool; return Value.bool holds : Step Value)
    (do let holds ← Resumable.checked value.asBool; return Value.bool holds) :=
  (effects.checked value.onlyData_asBool).bind fun _ => .pure fun _ _ related => related

theorem binary {t t' u u' : Term} (op : BinaryOp)
    (first : InStep rel (fun _ => rel) fault (evalTerm machine (call machine) (ownFrame own) t)
      (evalTerm machine' (call machine') (ownFrame own) t'))
    (second : InStep rel (fun _ => rel) fault (evalTerm machine (call machine) (ownFrame own) u)
      (evalTerm machine' (call machine') (ownFrame own) u')) :
    InStep rel (fun _ => rel) fault (evalTerm machine (call machine) (ownFrame own) (.binary op t u))
      (evalTerm machine' (call machine') (ownFrame own) (.binary op t' u')) := by
  by_cases conjunction : op = .and
  · subst conjunction
    simp only [evalTerm]
    refine first.bind fun v => (effects.checked v.onlyData_asBool).bind fun holds => ?_
    cases holds with
    | true => exact second.bind effects.decided
    | false => exact .pure fun _ _ related => related
  · by_cases disjunction : op = .or
    · subst disjunction
      simp only [evalTerm]
      refine first.bind fun v => (effects.checked v.onlyData_asBool).bind fun holds => ?_
      cases holds with
      | true => exact .pure fun _ _ related => related
      | false => exact second.bind effects.decided
    · simp only [evalTerm]
      exact first.bind fun v => second.bind fun w => effects.checked (Value.onlyData_binary op v w)

end Effects

mutual
theorem inStep_term {uses assigns : Var → Prop} (effects : Effects left right own rel fault uses assigns) :
    (e : Expr) → (∀ var ∈ e.vars, uses var) → (∀ var ∈ e.targets, assigns var) → {t t' : Term} →
    left.term e = .ok t → right.term e = .ok t' →
    InStep rel (fun _ => rel) fault (evalTerm machine (call machine) (ownFrame own) t)
      (evalTerm machine' (call machine') (ownFrame own) t')
  | .int _, _, _, t, t', lowered, lowered' | .bool _, _, _, t, t', lowered, lowered'
  | .str _, _, _, t, t', lowered, lowered' | .null, _, _, t, t', lowered, lowered' => by
    obtain rfl := Except.ok.inj lowered
    obtain rfl := Except.ok.inj lowered'
    simp only [evalTerm]
    exact .pure fun _ _ related => related
  | .var var, used, _, t, t', lowered, lowered' => by
    simp only [Shape.term, except_bind_eq_ok, except_pure_eq_ok] at lowered lowered'
    obtain ⟨place, placed, rfl⟩ := lowered
    obtain ⟨place', placed', rfl⟩ := lowered'
    simp only [evalTerm]
    exact effects.load (used var (by simp [Expr.vars])) placed placed'
  | .assign var value, used, assigned, t, t', lowered, lowered' => by
    simp only [Shape.term, except_bind_eq_ok, except_pure_eq_ok] at lowered lowered'
    obtain ⟨place, placed, value', loweredValue, rfl⟩ := lowered
    obtain ⟨place', placed', value'', loweredValue', rfl⟩ := lowered'
    simp only [Expr.vars, List.forall_mem_cons] at used
    simp only [Expr.targets, Expr.subexprs, List.filterMap_cons, Expr.target?, List.forall_mem_cons]
      at assigned
    simp only [evalTerm]
    refine (inStep_term effects value used.2 assigned.2 loweredValue loweredValue').bind fun v =>
      (effects.store v used.1 assigned.1 placed placed').bind fun _ => ?_
    exact .pure fun _ _ related => related
  | .unary op operand, used, assigned, t, t', lowered, lowered' => by
    simp only [Shape.term, except_bind_eq_ok, except_pure_eq_ok] at lowered lowered'
    obtain ⟨_, loweredOperand, rfl⟩ := lowered
    obtain ⟨_, loweredOperand', rfl⟩ := lowered'
    simp only [Expr.targets, Expr.subexprs, List.filterMap_cons, Expr.target?] at assigned
    simp only [evalTerm]
    exact (inStep_term effects operand used assigned loweredOperand loweredOperand').bind fun v =>
      effects.checked (Value.onlyData_unary op v)
  | .binary op a b, used, assigned, t, t', lowered, lowered' => by
    simp only [Shape.term, except_bind_eq_ok, except_pure_eq_ok] at lowered lowered'
    obtain ⟨_, loweredA, _, loweredB, rfl⟩ := lowered
    obtain ⟨_, loweredA', _, loweredB', rfl⟩ := lowered'
    simp only [Expr.vars, List.forall_mem_append] at used
    simp only [Expr.targets, Expr.subexprs, List.filterMap_cons, Expr.target?, List.filterMap_append,
      List.forall_mem_append] at assigned
    exact effects.binary op (inStep_term effects a used.1 assigned.1 loweredA loweredA')
      (inStep_term effects b used.2 assigned.2 loweredB loweredB')
  | .array items, used, assigned, t, t', lowered, lowered' => by
    simp only [Shape.term, except_bind_eq_ok, except_pure_eq_ok] at lowered lowered'
    obtain ⟨_, loweredItems, rfl⟩ := lowered
    obtain ⟨_, loweredItems', rfl⟩ := lowered'
    simp only [Expr.targets, Expr.subexprs, List.filterMap_cons, Expr.target?] at assigned
    simp only [evalTerm]
    exact (inStep_terms effects items used assigned loweredItems loweredItems').bind effects.array
  | .index base position, used, assigned, t, t', lowered, lowered' => by
    simp only [Shape.term, except_bind_eq_ok, except_pure_eq_ok] at lowered lowered'
    obtain ⟨_, loweredBase, _, loweredPosition, rfl⟩ := lowered
    obtain ⟨_, loweredBase', _, loweredPosition', rfl⟩ := lowered'
    simp only [Expr.vars, List.forall_mem_append] at used
    simp only [Expr.targets, Expr.subexprs, List.filterMap_cons, Expr.target?, List.filterMap_append,
      List.forall_mem_append] at assigned
    simp only [evalTerm]
    exact (inStep_term effects base used.1 assigned.1 loweredBase loweredBase').bind fun v =>
      (inStep_term effects position used.2 assigned.2 loweredPosition loweredPosition').bind fun w =>
        effects.checked (Value.onlyData_index v w)
  | .len base, used, assigned, t, t', lowered, lowered' => by
    simp only [Shape.term, except_bind_eq_ok, except_pure_eq_ok] at lowered lowered'
    obtain ⟨_, loweredBase, rfl⟩ := lowered
    obtain ⟨_, loweredBase', rfl⟩ := lowered'
    simp only [Expr.targets, Expr.subexprs, List.filterMap_cons, Expr.target?] at assigned
    simp only [evalTerm]
    exact (inStep_term effects base used assigned loweredBase loweredBase').bind fun v =>
      effects.checked (Value.onlyData_len v)
  | .call callee args, used, assigned, t, t', lowered, lowered' => by
    simp only [Shape.term, except_bind_eq_ok, except_pure_eq_ok] at lowered lowered'
    obtain ⟨_, loweredArgs, rfl⟩ := lowered
    obtain ⟨_, loweredArgs', rfl⟩ := lowered'
    simp only [Expr.targets, Expr.subexprs, List.filterMap_cons, Expr.target?] at assigned
    simp only [evalTerm]
    refine (inStep_terms effects args used assigned loweredArgs loweredArgs').bind fun values =>
      (effects.host callee values).bind fun _ => ?_
    exact .pure fun _ _ related => related

theorem inStep_terms {uses assigns : Var → Prop} (effects : Effects left right own rel fault uses assigns) :
    (es : List Expr) → (∀ var ∈ Expr.varsAll es, uses var) →
    (∀ var ∈ (Expr.subexprsAll es).filterMap Expr.target?, assigns var) → {ts ts' : List Term} →
    left.terms es = .ok ts → right.terms es = .ok ts' →
    InStep rel (fun _ => rel) fault (evalTerms machine (call machine) (ownFrame own) ts)
      (evalTerms machine' (call machine') (ownFrame own) ts')
  | [], _, _, ts, ts', lowered, lowered' => by
    obtain rfl := Except.ok.inj lowered
    obtain rfl := Except.ok.inj lowered'
    simp only [evalTerms]
    exact .pure fun _ _ related => related
  | e :: rest, used, assigned, ts, ts', lowered, lowered' => by
    simp only [Shape.terms, except_bind_eq_ok, except_pure_eq_ok] at lowered lowered'
    obtain ⟨_, loweredFirst, _, loweredRest, rfl⟩ := lowered
    obtain ⟨_, loweredFirst', _, loweredRest', rfl⟩ := lowered'
    simp only [Expr.varsAll, List.forall_mem_append] at used
    simp only [Expr.subexprsAll, List.filterMap_append, List.forall_mem_append] at assigned
    simp only [evalTerms]
    refine (inStep_term effects e used.1 assigned.1 loweredFirst loweredFirst').bind fun _ =>
      (inStep_terms effects rest used.2 assigned.2 loweredRest loweredRest').bind fun _ => ?_
    exact .pure fun _ _ related => related
end

end

/-- Where a run is: before code that relies on a scope, or about to leave with a result. -/
inductive Stage where
  | before (scope : List LocalId)
  | leaving (result : Option Value)

/-- The relation of two activations outlives every single thing that twin listings may do. -/
structure Accord (pair : Pairing) (marks : Landmarks) (machine machine' : Machine) (own : Nat)
    (rel : Stage → Activation → Activation → Prop)
    (fault : EvalError → Activation → Activation → Prop) : Prop where
  fuel {stage : Stage} {act act' : Activation} : rel stage act act' → act.fuel = act'.fuel
  spend {stage : Stage} {act act' : Activation} (fuel : Nat) : rel stage act act' →
    rel stage (act.withFuel fuel) (act'.withFuel fuel)
  exhausted {stage : Stage} {act act' : Activation} : rel stage act act' → fault .outOfFuel act act'
  data {scope : List LocalId} {e : EvalError} {act act' : Activation} : e.isData →
    rel (.before scope) act act' → fault e act act'
  narrow {small large : List LocalId} {act act' : Activation} : small ⊆ large →
    rel (.before large) act act' → rel (.before small) act act'
  term {scope : List LocalId} {t t' : Term} : pair.Terms scope t t' →
    InStep (rel (.before scope)) (fun _ => rel (.before scope)) fault
      (evalTerm machine (call machine) (ownFrame own) t)
      (evalTerm machine' (call machine') (ownFrame own) t')
  declare {scope : List LocalId} {id : LocalId} {place place' : Place} (value : Value) :
    pair.left.place (.loc id) = .ok place → pair.right.place (.loc id) = .ok place' →
    InStep (rel (.before scope)) (fun _ => rel (.before (id :: scope))) fault
      ((ownFrame own).store value place) ((ownFrame own).store value place')
  hand {scope : List LocalId} {state : Int64} {label : Label} (value : Value) : marks.paused state label →
    InStep (rel (.before scope)) (fun _ => rel (.before scope)) fault
      ((ownFrame own).store value (.field pair.left.current))
      ((ownFrame own).store value (.field pair.right.current))
  resume {scope : List LocalId} {mark : Mark} : marks.placed mark → mark.resumes →
    InStep (rel (.before scope)) (fun _ => rel (.before scope)) fault
      ((ownFrame own).store (.int State.running) (.field pair.left.state))
      ((ownFrame own).store (.int State.running) (.field pair.right.state))
  cleanup {scope next : List LocalId} {name name' : String} : marks.called name name' → next ⊆ scope →
    (∀ id ∈ next, pair.keeps id) →
    InStep (rel (.before scope)) (fun _ => rel (.before next)) fault
      (evalTerm machine (call machine) (ownFrame own) (.callSelf name))
      (evalTerm machine' (call machine') (ownFrame own) (.callSelf name'))
  pause {scope : List LocalId} {state : Int64} {label : Label} : marks.paused state label →
    InStep (rel (.before scope)) (fun _ => rel (.leaving (some (.bool true)))) fault
      ((ownFrame own).store (.int state) (.field pair.left.state))
      ((ownFrame own).store (.int state) (.field pair.right.state))
  finish {scope : List LocalId} : marks.resumable →
    InStep (rel (.before scope)) (fun _ => rel (.leaving (some (.bool false)))) fault
      ((ownFrame own).store (.int State.finished) (.field pair.left.state))
      ((ownFrame own).store (.int State.finished) (.field pair.right.state))
  leave {scope : List LocalId} {act act' : Activation} : ¬ marks.resumable →
    rel (.before scope) act act' → rel (.leaving none) act act'

/-- Jumps in two listings lead to where the listings go together. -/
structure Grounds (pair : Pairing) (marks : Landmarks) (body body' : Code) (after : List LocalId) :
    Prop where
  lands {mark : Mark} : marks.placed mark → Twin.Lands pair marks after body body' mark.label
  unique {mark mark' : Mark} : marks.placed mark → marks.placed mark' → mark.label = mark'.label →
    mark = mark'
  ends : body.Ends

namespace Accord
variable {pair : Pairing} {marks : Landmarks} {machine machine' : Machine} {own : Nat}
variable {rel : Stage → Activation → Activation → Prop}
variable {fault : EvalError → Activation → Activation → Prop}
variable (accord : Accord pair marks machine machine' own rel fault)
variable {body body' rest rest' : Code} {act act' : Activation}
include accord

theorem checked {α : Type} {scope : List LocalId} {x : Except EvalError α} (data : OnlyData x) :
    InStep (rel (.before scope)) (fun _ => rel (.before scope)) fault (checked x) (checked x) :=
  .checked (fun _ _ _ _ related => related)
    fun e failed _ _ related => accord.data (data e failed) related

/-- Two instructions in step, and what follows them. -/
theorem step {stage : Stage} {instr instr' : Instr} (related : rel stage act act')
    (executed : InStep (rel stage)
      (fun outcome next next' => next.fuel < act.fuel →
        Alongside (fun result => rel (.leaving result)) fault
          (followBy (run machine body (ownFrame own)) body rest outcome next)
          (followBy (run machine' body' (ownFrame own)) body' rest' outcome next')) fault
      (execInstr machine (call machine) (ownFrame own) instr)
      (execInstr machine' (call machine') (ownFrame own) instr')) :
    Alongside (fun result => rel (.leaving result)) fault
      (run machine body (ownFrame own) (instr :: rest) act)
      (run machine' body' (ownFrame own) (instr' :: rest') act') := by
  have same := accord.fuel related
  cases left : act.fuel with
  | zero =>
    rw [Machine.run_cons_empty _ _ _ _ _ left, Machine.run_cons_empty _ _ _ _ _ (same ▸ left)]
    exact ⟨rfl, accord.exhausted related⟩
  | succ fuel =>
    rw [Machine.run_cons _ _ _ _ _ _ left, Machine.run_cons _ _ _ _ _ _ (same ▸ left)]
    have stepped := executed _ _ (accord.spend fuel related)
    have less := Machine.execInstr_fuel_le machine (ownFrame own) instr (act.withFuel fuel)
    cases done : execInstr machine (call machine) (ownFrame own) instr (act.withFuel fuel) with
    | ok outcome next =>
      cases done' : execInstr machine' (call machine') (ownFrame own) instr' (act'.withFuel fuel) with
      | ok outcome' next' =>
        rw [done, done'] at stepped
        obtain ⟨rfl, follows⟩ := stepped
        rw [bind_of_ok done, bind_of_ok done']
        rw [done] at less
        refine follows ?_
        rw [left]
        exact Nat.lt_succ_of_le less
      | error e' next' =>
        rw [done, done'] at stepped
        exact stepped.elim
    | error e next =>
      cases done' : execInstr machine' (call machine') (ownFrame own) instr' (act'.withFuel fuel) with
      | ok outcome' next' =>
        rw [done, done'] at stepped
        exact stepped.elim
      | error e' next' =>
        rw [done, done'] at stepped
        rw [bind_of_error done, bind_of_error done']
        exact stepped

/-- What follows when both machines go on with the next instruction. -/
theorem goOn {stage stage' : Stage} {instr instr' : Instr} (related : rel stage act act')
    (executed : InStep (rel stage) (fun outcome next next' => outcome = .next ∧ rel stage' next next')
      fault (execInstr machine (call machine) (ownFrame own) instr)
      (execInstr machine' (call machine') (ownFrame own) instr'))
    (follows : ∀ next next', next.fuel < act.fuel → rel stage' next next' →
      Alongside (fun result => rel (.leaving result)) fault
        (run machine body (ownFrame own) rest next) (run machine' body' (ownFrame own) rest' next')) :
    Alongside (fun result => rel (.leaving result)) fault
      (run machine body (ownFrame own) (instr :: rest) act)
      (run machine' body' (ownFrame own) (instr' :: rest') act') := by
  refine accord.step related fun s s' before => (executed s s' before).imp ?_ fun _ _ _ failed => failed
  rintro outcome next next' ⟨rfl, after⟩ less
  exact follows next next' less after

/-- What follows when both machines have evaluated a term and stored its value. -/
theorem assigns {stage stage' : Stage} {place place' : Place} {t t' : Term}
    {mid : Value → Activation → Activation → Prop} (related : rel stage act act')
    (evaluated : InStep (rel stage) mid fault (evalTerm machine (call machine) (ownFrame own) t)
      (evalTerm machine' (call machine') (ownFrame own) t'))
    (stored : ∀ value, InStep (mid value) (fun _ => rel stage') fault
      ((ownFrame own).store value place) ((ownFrame own).store value place'))
    (follows : ∀ next next', next.fuel < act.fuel → rel stage' next next' →
      Alongside (fun result => rel (.leaving result)) fault
        (run machine body (ownFrame own) rest next) (run machine' body' (ownFrame own) rest' next')) :
    Alongside (fun result => rel (.leaving result)) fault
      (run machine body (ownFrame own) (.assign place t :: rest) act)
      (run machine' body' (ownFrame own) (.assign place' t' :: rest') act') := by
  refine accord.goOn related ?_ follows
  exact evaluated.bind fun value => (stored value).bind fun _ => .pure fun _ _ after => ⟨rfl, after⟩

/-- What follows when both machines have changed the state. -/
theorem setsState {stage stage' : Stage} {state : Int64} (related : rel stage act act')
    (stored : InStep (rel stage) (fun _ => rel stage') fault
      ((ownFrame own).store (.int state) (.field pair.left.state))
      ((ownFrame own).store (.int state) (.field pair.right.state)))
    (follows : ∀ next next', next.fuel < act.fuel → rel stage' next next' →
      Alongside (fun result => rel (.leaving result)) fault
        (run machine body (ownFrame own) rest next) (run machine' body' (ownFrame own) rest' next')) :
    Alongside (fun result => rel (.leaving result)) fault
      (run machine body (ownFrame own) (pair.left.setState state :: rest) act)
      (run machine' body' (ownFrame own) (pair.right.setState state :: rest') act') := by
  have evaluated : InStep (rel stage) (fun value next next' => value = .int state ∧ rel stage next next')
      fault (evalTerm machine (call machine) (ownFrame own) (.int state))
      (evalTerm machine' (call machine') (ownFrame own) (.int state)) := by
    simp only [evalTerm]
    exact .pure fun _ _ before => ⟨rfl, before⟩
  refine accord.assigns related evaluated (fun value s s' before => ?_) follows
  obtain ⟨rfl, before⟩ := before
  exact stored s s' before

theorem returns {answer : Bool} (related : rel (.leaving (some (.bool answer))) act act') :
    Alongside (fun result => rel (.leaving result)) fault
      (run machine body (ownFrame own) (.ret (some (.bool answer)) :: rest) act)
      (run machine' body' (ownFrame own) (.ret (some (.bool answer)) :: rest') act') := by
  have done (m : Machine) (s : Activation) :
      execInstr m (call m) (ownFrame own) (.ret (some (.bool answer))) s =
        .ok (.done (some (.bool answer))) s := by
    simp only [execInstr, evalTerm]
    rfl
  refine accord.step related fun s s' before => ?_
  rw [done, done]
  exact ⟨rfl, fun _ => ⟨rfl, before⟩⟩

omit accord in
/-- What follows a jump to a label that is fine in the scope. -/
theorem jumps {scope after : List LocalId} {target : Label} (grounds : Grounds pair marks body body' after)
    (admits : marks.Admits scope target)
    (follows : ∀ code code', Twin pair marks scope code code' after → code.Ends →
      Alongside (fun result => rel (.leaving result)) fault
        (run machine body (ownFrame own) code act) (run machine' body' (ownFrame own) code' act')) :
    Alongside (fun result => rel (.leaving result)) fault
      (followBy (run machine body (ownFrame own)) body rest (.goto target) act)
      (followBy (run machine' body' (ownFrame own)) body' rest' (.goto target) act') := by
  obtain ⟨mark, placed, rfl, within⟩ := admits
  obtain ⟨mark', code, code', placed', same, kept, found, found', twin⟩ := grounds.lands placed
  obtain rfl := grounds.unique placed' placed same
  simp only [followBy, found, found']
  refine follows _ _ (.mark placed within kept twin) ?_
  refine grounds.ends.of_suffix (Machine.Code.suffix_of_from? found) ?_
  simp [Mark.opening]

/-- Two listings that go together keep step until they leave their routine. The induction is on the
fuel, which every instruction uses up, since a jump may lead back. -/
theorem alongside {after : List LocalId} (grounds : Grounds pair marks body body' after)
    {scope : List LocalId} {code code' : Code} (twin : Twin pair marks scope code code' after)
    (ends : code.Ends) (related : rel (.before scope) act act') :
    Alongside (fun result => rel (.leaving result)) fault
      (run machine body (ownFrame own) code act) (run machine' body' (ownFrame own) code' act') := by
  induction left : act.fuel using Nat.strongRecOn generalizing scope code code' act act' with
  | ind fuel ih =>
    subst left
    have again {scope : List LocalId} {code code' : Code} (twin : Twin pair marks scope code code' after)
        (ends : code.Ends) (next next' : Activation) (less : next.fuel < act.fuel)
        (related : rel (.before scope) next next') := ih next.fuel less twin ends related rfl
    cases twin with
    | nil _ =>
      obtain ⟨front, last, same, _⟩ := ends
      simp at same
    | @mark _ _ rest rest' mark placed within kept twin =>
      have labelled : InStep (rel (.before scope))
          (fun outcome next next' => outcome = .next ∧ rel (.before mark.scope) next next') fault
          (execInstr machine (call machine) (ownFrame own) (.label mark.label))
          (execInstr machine' (call machine') (ownFrame own) (.label mark.label)) :=
        .pure fun _ _ before => ⟨rfl, accord.narrow within before⟩
      by_cases resumes : mark.resumes
      · have opening (shape : Shape) :
            mark.opening shape = [.label mark.label, shape.setState State.running] := by
          simp [Mark.opening, resumes]
        rw [opening] at ends ⊢
        rw [opening]
        refine accord.goOn related labelled fun s s' less before => ?_
        refine accord.setsState before (accord.resume placed resumes) fun t t' less' after => ?_
        exact again twin ((ends.tail rfl).tail rfl) t t' (Nat.lt_trans less' less) after
      · have opening (shape : Shape) : mark.opening shape = [.label mark.label] := by
          simp [Mark.opening, resumes]
        rw [opening] at ends ⊢
        rw [opening]
        exact accord.goOn related labelled fun s s' less before =>
          again twin (ends.tail rfl) s s' less before
    | @goto _ next _ rest rest' target admits twin =>
      refine accord.step related fun s s' before => ⟨rfl, fun less => ?_⟩
      exact jumps grounds admits fun code code' twin ends => again twin ends s s' less before
    | @branch _ _ rest rest' t t' target terms admits twin =>
      refine accord.step related ?_
      refine (accord.term terms).bind fun value => ?_
      refine (accord.checked value.onlyData_asBool).bind fun holds => .pure fun s s' before less => ?_
      cases holds with
      | true => exact again twin (ends.tail rfl) s s' less before
      | false =>
        exact jumps grounds admits fun code code' twin ends => again twin ends s s' less before
    | @switch _ next _ rest rest' t t' cases default terms admits arms twin =>
      refine accord.step related ?_
      refine (accord.term terms).bind fun value => ?_
      refine (accord.checked value.onlyData_asInt).bind fun number => .pure fun s s' before less => ?_
      have target : marks.Admits scope (Machine.caseTarget number cases default) := by
        rcases Machine.caseTarget_mem number cases default with same | ⟨arm, member, same⟩
        · rw [same]
          exact admits
        · rw [same]
          exact arms arm member
      exact jumps grounds target fun code code' twin ends => again twin ends s s' less before
    | @declare _ _ rest rest' t t' id place place' terms placed placed' twin =>
      exact accord.assigns related (accord.term terms) (fun value => accord.declare value placed placed')
        fun s s' less before => again twin (ends.tail rfl) s s' less before
    | @assign _ _ rest rest' var e t t' place place' allowed placed placed' lowered lowered' twin =>
      have terms : pair.Terms scope (.assign place t) (.assign place' t') :=
        ⟨_, allowed, by simp [Shape.term, placed, lowered, bind, Except.bind, pure, Except.pure],
          by simp [Shape.term, placed', lowered', bind, Except.bind, pure, Except.pure]⟩
      refine accord.goOn related ?_ fun s s' less before => again twin (ends.tail rfl) s s' less before
      rw [Machine.execInstr_assign, Machine.execInstr_assign]
      exact (accord.term terms).bind fun _ => .pure fun _ _ before => ⟨rfl, before⟩
    | @eval _ _ rest rest' t t' terms twin =>
      refine accord.goOn related ?_ fun s s' less before => again twin (ends.tail rfl) s s' less before
      exact (accord.term terms).bind fun _ => .pure fun _ _ before => ⟨rfl, before⟩
    | @cleanup _ next _ rest rest' name name' called within kept twin =>
      refine accord.goOn related ?_ fun s s' less before => again twin (ends.tail rfl) s s' less before
      exact (accord.cleanup called within kept).bind fun _ => .pure fun _ _ before => ⟨rfl, before⟩
    | @pause _ next _ rest rest' t t' state resume terms paused twin =>
      refine accord.assigns related (accord.term terms) (fun value => accord.hand value paused)
        fun s s' _ before => ?_
      exact accord.setsState before (accord.pause paused) fun _ _ _ after => accord.returns after
    | @finish _ next _ rest rest' known twin =>
      exact accord.setsState related (accord.finish known) fun _ _ _ after => accord.returns after
    | @leave _ next _ rest rest' known twin =>
      refine accord.step related fun s s' before => ⟨rfl, fun _ => ⟨rfl, accord.leave known before⟩⟩

end Accord

/-- Calling a routine of the instance runs it there; only the world is handed on. -/
theorem evalTerm_callSelf {machine : Machine} {own : Nat} {name : String} {routine : Machine.Routine}
    (named : machine.routineNamed? name = some routine) (act : Activation) :
    evalTerm machine (call machine) (ownFrame own) (.callSelf name) act =
      match run machine routine.body (ownFrame own) routine.body ⟨.empty, act.world⟩ with
      | .ok result b => .ok (result.getD .null) ⟨act.locals, b.world⟩
      | .error e b => .error e ⟨act.locals, b.world⟩ := by
  simp only [evalTerm, Step.inWorld, Machine.callRoutine, named, Machine.call_eq_activate,
    Simulation.ownFrame_self]
  simp only [bind, EStateM.bind, Machine.activate, ownFrame, pure, EStateM.pure]
  cases run machine routine.body ⟨.object own, []⟩ routine.body ⟨.empty, act.world⟩ <;> rfl

/-- Two runs of a routine on the executing instance. -/
theorem inStep_callSelf {machine machine' : Machine} {own : Nat} {name name' : String}
    {routine routine' : Machine.Routine} {before after : Activation → Activation → Prop}
    {fault : EvalError → Activation → Activation → Prop}
    (named : machine.routineNamed? name = some routine)
    (named' : machine'.routineNamed? name' = some routine')
    (runs : ∀ act act', before act act' →
      Alongside (fun _ b b' => after ⟨act.locals, b.world⟩ ⟨act'.locals, b'.world⟩)
        (fun e b b' => fault e ⟨act.locals, b.world⟩ ⟨act'.locals, b'.world⟩)
        (run machine routine.body (ownFrame own) routine.body ⟨.empty, act.world⟩)
        (run machine' routine'.body (ownFrame own) routine'.body ⟨.empty, act'.world⟩)) :
    InStep before (fun _ => after) fault (evalTerm machine (call machine) (ownFrame own) (.callSelf name))
      (evalTerm machine' (call machine') (ownFrame own) (.callSelf name')) := by
  intro act act' related
  have ran := runs act act' related
  rw [evalTerm_callSelf named, evalTerm_callSelf named']
  cases done : run machine routine.body (ownFrame own) routine.body ⟨.empty, act.world⟩ <;>
    cases done' : run machine' routine'.body (ownFrame own) routine'.body ⟨.empty, act'.world⟩ <;>
    rw [done, done'] at ran
  · obtain ⟨rfl, holds⟩ := ran
    exact ⟨rfl, holds⟩
  · exact ran.elim
  · exact ran.elim
  · exact ran

/-- The jumps of cleanup routines. -/
theorem Pairing.Routines.grounds {pair : Pairing} {routine routine' : FlatBody}
    (routines : pair.Routines routine routine') : ∃ marks scope after,
    Grounds pair (.alone marks) routine.code routine'.code after ∧
    (∀ mark ∈ marks, mark.resumes = false) ∧ (∀ id ∈ scope, pair.keeps id) ∧
    Twin pair (.alone marks) scope routine.code routine'.code after := by
  obtain ⟨marks, scope, after, marked, plain, kept, twin⟩ := routines.twin
  have once : (marks.map Mark.label).Nodup := marked ▸ routines.once
  obtain ⟨front, ends⟩ := routines.ends
  refine ⟨marks, scope, after, ⟨fun {mark} placed => twin.lands ?_, fun placed placed' same => ?_,
    front, _, ends, rfl⟩, plain, kept, twin⟩
  · rw [← marked]
    exact List.mem_map_of_mem placed
  · exact List.inj_on_of_nodup_map once placed placed' same

/-- The jumps of resumable bodies, whatever stands before their first statement. -/
theorem Pairing.Bodies.grounds {pair : Pairing} {progress progress' : Progress} {code code' : Code}
    {harvest : Harvest} (bodies : pair.Bodies progress progress' code code' harvest)
    (once : (started pair.left code).labels.Nodup) (front front' : Code) :
    Grounds pair harvest.landmarks (front ++ started pair.left code)
      (front' ++ started pair.right code') [] where
  lands placed := (bodies.twin.lands (mem_labels_of_placed bodies placed)).prepend front front'
  unique placed placed' same := List.inj_on_of_nodup_map (bodies.marked ▸ once) placed placed' same
  ends := ⟨front ++ .label startLabel :: pair.left.setState State.running ::
    (code ++ [pair.left.setState State.finished]), .ret (some (.bool false)),
    by simp [started, Shape.finish], rfl⟩

end Lowering
end Resumable
