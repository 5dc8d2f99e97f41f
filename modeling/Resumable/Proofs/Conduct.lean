import Mathlib.Control.Monad.Basic
import Resumable.Method.Build
import Resumable.Proofs.Checking
import Resumable.Proofs.Relating
import Resumable.Semantics.Equality

/-!
How a method that passes the structural check can end. Control leaves each of its statements only in
ways that the surroundings allow, so no jump escapes the body or a cleanup block. A run fails on its
data, for lack of fuel, or at a variable that was never stored into; the last does not happen to a
well-scoped method that is given all its inputs.
-/

namespace Resumable

/-- How control may leave a statement in these surroundings. -/
def Lowering.Surroundings.Permits (around : Lowering.Surroundings) : Structured.Flow → Prop
  | .next => True
  | .breaking => around.breakable
  | .continuing => around.inLoop
  | .stopping => ¬around.inCleanup

/-- The variable is declared and in scope. -/
def Method.Offers (method : Method) (scope : List LocalId) (var : Var) : Prop :=
  (method.varType? var).isSome ∧ var.inScope scope

namespace Structured
open Lowering

/-- Unless nothing is promised, every variable that can be used here holds a value. -/
def Supplied (strict : Prop) (method : Method) (scope : List LocalId) (st : State) : Prop :=
  strict → ∀ var, method.Offers scope var → (st.vars.get? var).isSome

/-- The errors with which a checked method may end. -/
def Excusable (strict : Prop) (e : EvalError) : Prop :=
  e.isData ∨ e = .outOfFuel ∨ (¬strict ∧ ∃ var, e = .malformed (.unassignedVar var))

/-- From states as described before, the computation ends as described after or fails excusably. -/
structure Behaves (strict : Prop) {α : Type} (before : State → Prop) (after : α → State → Prop)
    (x : Run α) : Prop where
  returns (st : State) (a : α) (st' : State) : before st → x st = .ok a st' → after a st'
  fails (st : State) (e : EvalError) (st' : State) :
    before st → x st = .error e st' → Excusable strict e

/-- A computation that leaves every variable in scope with a value. -/
abbrev Steady (strict : Prop) (method : Method) (scope : List LocalId) {α : Type} (x : Run α) : Prop :=
  Behaves strict (Supplied strict method scope) (fun _ => Supplied strict method scope) x

/-- A steady computation that control leaves only in the ways allowed here. -/
abbrev Obeys (strict : Prop) (method : Method) (around : Surroundings) (scope : List LocalId)
    (x : Run Flow) : Prop :=
  Behaves strict (Supplied strict method scope)
    (fun flow st => around.Permits flow ∧ Supplied strict method scope st) x

section
variable {strict : Prop} {method : Method} {scope : List LocalId} {st : State} {α β : Type}

namespace Supplied

theorem mono {larger : List LocalId} (supplied : Supplied strict method larger st)
    (within : scope ⊆ larger) : Supplied strict method scope st :=
  fun promised var offered => supplied promised var ⟨offered.1, Var.inScope_mono within offered.2⟩

theorem assign (supplied : Supplied strict method scope st) (var : Var) (value : Value) :
    Supplied strict method scope { st with vars := st.vars.set var value } := by
  intro promised other offered
  rw [Table.get?_set]
  split
  · rfl
  · exact supplied promised other offered

/-- A local is in scope once a value has been stored into it. -/
theorem enter (supplied : Supplied strict method scope st) (id : LocalId) (value : Value) :
    Supplied strict method (id :: scope) { st with vars := st.vars.set (.loc id) value } := by
  intro promised var offered
  rw [Table.get?_set]
  split
  · rfl
  · next other =>
    apply supplied promised var
    refine ⟨offered.1, ?_⟩
    have inside := offered.2
    cases var with
    | loc id' =>
      simp only [Var.inScope, List.mem_cons, decide_eq_true_eq] at inside ⊢
      exact inside.resolve_left fun same => other (by rw [same])
    | _ => rfl

end Supplied

namespace Behaves
variable {before : State → Prop} {after : α → State → Prop}

theorem pure {a : α} (holds : ∀ st, before st → after a st) :
    Behaves strict before after (Pure.pure a) where
  returns st b st' ready done := by
    obtain ⟨rfl, rfl⟩ := pure_eq_ok.mp done
    exact holds st ready
  fails st e st' ready failed := by simp at failed

theorem bind {mid : β → State → Prop} {x : Run β} {f : β → Run α}
    (first : Behaves strict before mid x) (next : ∀ b, Behaves strict (mid b) after (f b)) :
    Behaves strict before after (x >>= f) where
  returns st a st'' ready done := by
    obtain ⟨b, st', begun, ended⟩ := bind_eq_ok.mp done
    exact (next b).returns st' a st'' (first.returns st b st' ready begun) ended
  fails st e st'' ready failed := by
    cases begun : x st with
    | error e' st' =>
      rw [bind_of_error begun] at failed
      obtain ⟨rfl, _⟩ := EStateM.Result.error.inj failed
      exact first.fails st e' st' ready begun
    | ok b st' =>
      rw [bind_of_ok begun] at failed
      exact (next b).fails st' e st'' (first.returns st b st' ready begun) failed

theorem imp {after' : α → State → Prop} {x : Run α} (behaves : Behaves strict before after x)
    (weaker : ∀ a st, after a st → after' a st) : Behaves strict before after' x where
  returns st a st' ready done := weaker a st' (behaves.returns st a st' ready done)
  fails := behaves.fails

theorem since {before' : State → Prop} {x : Run α} (behaves : Behaves strict before after x)
    (stronger : ∀ st, before' st → before st) : Behaves strict before' after x where
  returns st a st' ready done := behaves.returns st a st' (stronger st ready) done
  fails st e st' ready failed := behaves.fails st e st' (stronger st ready) failed

theorem within {larger : List LocalId} {x : Run α} (bounded : scope ⊆ larger)
    (behaves : Behaves strict (Supplied strict method scope) after x) :
    Behaves strict (Supplied strict method larger) after x :=
  behaves.since fun _ supplied => supplied.mono bounded

/-- A fact that does not depend on the state may be used right away. -/
theorem given {fact : Prop} {x : Run α} (behaves : fact → Behaves strict before after x) :
    Behaves strict (fun st => fact ∧ before st) after x where
  returns st a st' ready done := (behaves ready.1).returns st a st' ready.2 done
  fails st e st' ready failed := (behaves ready.1).fails st e st' ready.2 failed

theorem throw {e : EvalError} (excusable : Excusable strict e) :
    Behaves strict before after (MonadExcept.throw e) where
  returns st a st' ready done := by simp at done
  fails st e' st' ready failed := by
    obtain ⟨rfl, _⟩ := throw_eq_error.mp failed
    exact excusable

theorem checked {x : Except EvalError α} (data : OnlyData x) :
    Behaves strict before (fun _ => before) (Resumable.checked x) := by
  cases x with
  | ok a => exact .pure fun _ => id
  | error e => exact .throw (.inl (data e rfl))

end Behaves

theorem steady_burn : Steady strict method scope burn where
  returns st a st' ready done := by
    unfold burn at done
    split at done <;> cases done
    exact ready
  fails st e st' ready failed := by
    unfold burn at failed
    split at failed <;> cases failed
    exact .inr (.inl rfl)

theorem steady_readVar {var : Var} (usable : strict → method.Offers scope var) :
    Steady strict method scope (readVar var) where
  returns st a st' ready done := by
    unfold readVar at done
    split at done <;> cases done
    exact ready
  fails st e st' ready failed := by
    unfold readVar at failed
    split at failed
    · cases failed
    · next missing =>
      obtain ⟨rfl, _⟩ := EStateM.Result.error.inj failed
      refine .inr (.inr ⟨fun promised => ?_, var, rfl⟩)
      have held := ready promised var (usable promised)
      rw [missing] at held
      cases held

theorem behaves_enter (id : LocalId) (value : Value) :
    Behaves strict (Supplied strict method scope) (fun _ => Supplied strict method (id :: scope))
      (assignVar (.loc id) value) where
  returns st a st' ready done := by
    obtain ⟨_, rfl⟩ := EStateM.Result.ok.inj done
    exact ready.enter id value
  fails st e st' ready failed := by cases failed

theorem steady_assignVar (var : Var) (value : Value) :
    Steady strict method scope (assignVar var value) where
  returns st a st' ready done := by
    obtain ⟨_, rfl⟩ := EStateM.Result.ok.inj done
    exact ready.assign var value
  fails st e st' ready failed := by cases failed

theorem steady_newArray (items : List Value) : Steady strict method scope (newArray items) where
  returns st a st' ready done := by
    obtain ⟨_, rfl⟩ := EStateM.Result.ok.inj done
    exact ready
  fails st e st' ready failed := by cases failed

theorem steady_callHost (callee : String) (args : List Value) :
    Steady strict method scope (callHost callee args) where
  returns st a st' ready done := by
    obtain ⟨_, rfl⟩ := EStateM.Result.ok.inj done
    exact ready
  fails st e st' ready failed := by cases failed

theorem steady_produce (limit : Option Nat) (value : Value) :
    Steady strict method scope (produce limit value) where
  returns st a st' ready done := by
    obtain ⟨_, rfl⟩ := EStateM.Result.ok.inj done
    exact ready
  fails st e st' ready failed := by cases failed

mutual
theorem steady_expr : (e : Expr) → (strict → ∀ var ∈ e.vars, method.Offers scope var) →
    Steady strict method scope (evalExpr e)
  | .int _, _ | .bool _, _ | .str _, _ | .null, _ => by
    simp only [evalExpr]
    exact .pure fun _ => id
  | .var var, usable => by
    simp only [evalExpr]
    exact steady_readVar fun promised => usable promised var List.mem_cons_self
  | .assign var value, usable => by
    simp only [Expr.vars, List.forall_mem_cons, imp_and] at usable
    simp only [evalExpr]
    exact (steady_expr value usable.2).bind fun v =>
      (steady_assignVar var v).bind fun _ => .pure fun _ => id
  | .unary op operand, usable => by
    simp only [evalExpr]
    exact (steady_expr operand usable).bind fun v => .checked (Value.onlyData_unary op v)
  | .binary op left right, usable => by
    simp only [Expr.vars, List.forall_mem_append, imp_and] at usable
    have decided (v : Value) : Steady strict method scope
        (do let b ← Resumable.checked v.asBool; return Value.bool b) :=
      (Behaves.checked (Value.onlyData_asBool v)).bind fun _ => .pure fun _ => id
    by_cases conjunction : op = .and
    · subst conjunction
      simp only [evalExpr]
      refine (steady_expr left usable.1).bind fun v =>
        (Behaves.checked (Value.onlyData_asBool v)).bind fun holds => ?_
      cases holds with
      | true => exact (steady_expr right usable.2).bind decided
      | false => exact .pure fun _ => id
    · by_cases disjunction : op = .or
      · subst disjunction
        simp only [evalExpr]
        refine (steady_expr left usable.1).bind fun v =>
          (Behaves.checked (Value.onlyData_asBool v)).bind fun holds => ?_
        cases holds with
        | true => exact .pure fun _ => id
        | false => exact (steady_expr right usable.2).bind decided
      · simp only [evalExpr]
        exact (steady_expr left usable.1).bind fun v => (steady_expr right usable.2).bind fun w =>
          .checked (Value.onlyData_binary op v w)
  | .array items, usable => by
    simp only [evalExpr]
    exact (steady_exprs items usable).bind fun _ => steady_newArray _
  | .index base position, usable => by
    simp only [Expr.vars, List.forall_mem_append, imp_and] at usable
    simp only [evalExpr]
    exact (steady_expr base usable.1).bind fun v => (steady_expr position usable.2).bind fun w =>
      .checked (Value.onlyData_index v w)
  | .len base, usable => by
    simp only [evalExpr]
    exact (steady_expr base usable).bind fun v => .checked (Value.onlyData_len v)
  | .call callee args, usable => by
    simp only [evalExpr]
    exact (steady_exprs args usable).bind fun _ =>
      (steady_callHost callee _).bind fun _ => .pure fun _ => id

theorem steady_exprs : (es : List Expr) →
    (strict → ∀ var ∈ Expr.varsAll es, method.Offers scope var) →
    Steady strict method scope (evalExprs es)
  | [], _ => by
    simp only [evalExprs]
    exact .pure fun _ => id
  | e :: rest, usable => by
    simp only [Expr.varsAll, List.forall_mem_append, imp_and] at usable
    simp only [evalExprs]
    exact (steady_expr e usable.1).bind fun _ =>
      (steady_exprs rest usable.2).bind fun _ => .pure fun _ => id
end

/-- The variables of checked expressions that are well scoped can be used. -/
theorem offers_of_checkExprs {es : List Expr} (passed : checkExprs method es = .ok ())
    (inside : strict → es.all (Expr.isScoped scope)) :
    strict → ∀ var ∈ Expr.varsAll es, method.Offers scope var := by
  intro promised
  replace inside := inside promised
  induction es with
  | nil => exact List.forall_mem_nil _
  | cons e rest ih =>
    simp only [checkExprs, check_bind] at passed
    simp only [List.all_cons, Bool.and_eq_true] at inside
    simp only [Expr.varsAll, List.forall_mem_append]
    refine ⟨fun var member => ?_, ih passed.2 inside.2⟩
    exact ⟨(checkExpr_eq_ok e).mp passed.1 var member, List.all_eq_true.mp inside.1 var member⟩

theorem steady_checkExpr {e : Expr} (passed : checkExpr method e = .ok ())
    (inside : strict → e.isScoped scope) : Steady strict method scope (evalExpr e) :=
  steady_expr e fun promised var member =>
    ⟨(checkExpr_eq_ok e).mp passed var member, List.all_eq_true.mp (inside promised) var member⟩

theorem steady_cond {cond : Expr} (passed : checkExpr method cond = .ok ())
    (inside : strict → cond.isScoped scope) :
    Steady strict method scope (do let v ← evalExpr cond; checked v.asBool) :=
  (steady_checkExpr passed inside).bind fun v => .checked (Value.onlyData_asBool v)

theorem steady_holds {cond : Option Expr} (passed : checkExprs method cond.toList = .ok ())
    (inside : strict → cond.toList.all (Expr.isScoped scope)) :
    Steady strict method scope (holds cond) := by
  cases cond with
  | none => exact .pure fun _ => id
  | some cond =>
    simp only [Option.toList_some, checkExprs, check_bind, and_true] at passed
    simp only [Option.toList_some, List.all_cons, List.all_nil, Bool.and_true] at inside
    exact steady_cond passed inside

section
variable {around : Surroundings}

/-- How a loop is left is allowed around it when the flow of its body was allowed inside. -/
theorem permits_afterBody {flow left : Flow} (permitted : around.loop.Permits flow)
    (leaves : afterBody flow = some left) : around.Permits left := by
  cases flow with
  | next | continuing => cases leaves
  | breaking =>
    obtain rfl := Option.some.inj leaves
    trivial
  | stopping =>
    obtain rfl := Option.some.inj leaves
    exact permitted

theorem permits_afterSwitch {flow : Flow} (permitted : around.switch.Permits flow) :
    around.Permits (afterSwitch flow) := by
  cases flow with
  | breaking => trivial
  | next | continuing | stopping => exact permitted

theorem behaves_loop (around : Surroundings) {turn : Run (Option Flow)}
    (turns : Behaves strict (Supplied strict method scope)
      (fun left st => (∀ flow, left = some flow → around.Permits flow) ∧
        Supplied strict method scope st) turn) : Obeys strict method around scope (loop turn) := by
  have bounded (bound : Nat) : Obeys strict method around scope (repeatTurns turn bound) := by
    induction bound with
    | zero => exact .throw (.inr (.inl rfl))
    | succ bound ih =>
      rw [repeatTurns]
      apply turns.bind
      intro left
      apply Behaves.given
      intro permitted
      cases left with
      | none => exact ih
      | some flow => exact .pure fun st supplied => ⟨permitted flow rfl, supplied⟩
  exact ⟨fun st => (bounded (st.fuel + 1)).returns st, fun st => (bounded (st.fuel + 1)).fails st⟩

theorem behaves_eachItem {id : LocalId} {body : Run Flow}
    (turns : Obeys strict method around.loop (id :: scope) body) (items : List Value) :
    Obeys strict method around scope (eachItem id body items) := by
  induction items with
  | nil => exact .pure fun st supplied => ⟨trivial, supplied⟩
  | cons item rest ih =>
    rw [eachItem]
    refine steady_burn.bind fun _ => (behaves_enter id item).bind fun _ => turns.bind fun flow => ?_
    apply Behaves.given
    intro permitted
    apply Behaves.within (List.subset_cons_self id scope)
    cases leaves : afterBody flow with
    | none => exact ih
    | some left => exact .pure fun st supplied => ⟨permits_afterBody permitted leaves, supplied⟩

theorem behaves_foreachTurns {id : LocalId} {body : Run Flow}
    (turns : Obeys strict method around.loop (id :: scope) body) (collection : Value) :
    Obeys strict method around scope (foreachTurns id body collection) := by
  have unfit (value : Value) : Excusable strict (.typeMismatch .array value.kind) := .inl rfl
  cases collection with
  | array identity items => exact behaves_eachItem turns _
  | str text =>
    rw [foreachTurns]
    split
    · exact .pure fun st supplied => ⟨trivial, supplied⟩
    · exact steady_burn.bind fun _ => .throw (unfit (.str text))
  | int value => exact .throw (unfit (.int value))
  | bool value => exact .throw (unfit (.bool value))
  | null => exact .throw (unfit .null)
  | object reference => exact .throw (unfit (.object reference))

end

end

section
variable (strict : Prop) (method : Method) (limit : Option Nat)

mutual
theorem behaves_stmt : (s : Stmt) → {around : Surroundings} → checkStmt method around s = .ok () →
    {scope : List LocalId} → (strict → s.isScoped scope) →
    Behaves strict (Supplied strict method scope)
      (fun flow st => around.Permits flow ∧ Supplied strict method (declared s ++ scope) st)
      (execStmt method limit s)
  | .block body, around, passed, scope, inside => by
    simp only [execStmt]
    exact steady_burn.bind fun _ => behaves_block body passed inside
  | .declare id none, around, passed, scope, inside => by
    simp only [checkStmt, check_bind, checkVar_eq_ok] at passed
    obtain ⟨ty, typed⟩ := Option.isSome_iff_exists.mp passed.1
    simp only [execStmt, typed]
    exact steady_burn.bind fun _ => (behaves_enter id _).bind fun _ =>
      .pure fun st supplied => ⟨trivial, supplied⟩
  | .declare id (some init), around, passed, scope, inside => by
    simp only [checkStmt, check_bind, Option.toList_some, checkExprs, and_true] at passed
    simp only [execStmt]
    exact steady_burn.bind fun _ => (steady_checkExpr passed.2 inside).bind fun v =>
      (behaves_enter id v).bind fun _ => .pure fun st supplied => ⟨trivial, supplied⟩
  | .eval value, around, passed, scope, inside => by
    simp only [execStmt]
    exact steady_burn.bind fun _ => (steady_checkExpr passed inside).bind fun _ =>
      .pure fun st supplied => ⟨trivial, supplied⟩
  | .ite cond yes none, around, passed, scope, inside => by
    simp only [checkStmt, check_bind] at passed
    simp only [Stmt.isScoped, Bool.and_eq_true, imp_and] at inside
    simp only [execStmt]
    refine steady_burn.bind fun _ => (steady_cond passed.1 inside.1).bind fun holds => ?_
    cases holds with
    | true => exact behaves_block yes passed.2 inside.2
    | false => exact .pure fun st supplied => ⟨trivial, supplied⟩
  | .ite cond yes (some no), around, passed, scope, inside => by
    simp only [checkStmt, check_bind] at passed
    simp only [Stmt.isScoped, Bool.and_eq_true, imp_and] at inside
    simp only [execStmt]
    refine steady_burn.bind fun _ => (steady_cond passed.1 inside.1.1).bind fun holds => ?_
    cases holds with
    | true => exact behaves_block yes passed.2.1 inside.1.2
    | false => exact behaves_block no passed.2.2 inside.2
  | .whileLoop cond body, around, passed, scope, inside => by
    simp only [checkStmt, check_bind] at passed
    simp only [Stmt.isScoped, Bool.and_eq_true, imp_and] at inside
    simp only [execStmt]
    refine steady_burn.bind fun _ => behaves_loop around ?_
    unfold whileTurn
    refine (steady_cond passed.1 inside.1).bind fun holds => ?_
    cases holds with
    | true =>
      refine steady_burn.bind fun _ => (behaves_block body passed.2 inside.2).bind fun flow => ?_
      exact .pure fun st held => ⟨fun left leaves => permits_afterBody held.1 leaves, held.2⟩
    | false =>
      refine .pure fun st supplied => ⟨fun flow leaves => ?_, supplied⟩
      obtain rfl := Option.some.inj leaves
      trivial
  | .forLoop init cond step body, around, passed, scope, inside => by
    simp only [checkStmt, check_bind] at passed
    obtain ⟨passedInit, passedCond, passedStep, passedBody⟩ := passed
    simp only [Stmt.isScoped, Bool.and_eq_true, imp_and] at inside
    obtain ⟨⟨⟨insideInit, insideCond⟩, insideStep⟩, insideBody⟩ := inside
    simp only [execStmt]
    refine steady_burn.bind fun _ => (behaves_header init passedInit insideInit).bind fun _ => ?_
    -- the locals of the header are forgotten only when the loop is over
    refine (behaves_loop around ?_).imp fun flow st held =>
      ⟨held.1, held.2.mono (Stmt.subset_scopeAfter scope init)⟩
    unfold forTurn
    refine steady_burn.bind fun _ => (steady_holds passedCond insideCond).bind fun holds => ?_
    cases holds with
    | true =>
      refine (behaves_block body passedBody insideBody).bind fun flow => ?_
      apply Behaves.given
      intro permitted
      cases leaves : afterBody flow with
      | none =>
        have stepping := steady_exprs step (offers_of_checkExprs passedStep insideStep)
        exact stepping.bind fun _ => .pure fun st supplied => ⟨by simp, supplied⟩
      | some left =>
        refine .pure fun st supplied => ⟨fun flow same => ?_, supplied⟩
        obtain rfl := Option.some.inj same
        exact permits_afterBody permitted leaves
    | false =>
      refine .pure fun st supplied => ⟨fun flow leaves => ?_, supplied⟩
      obtain rfl := Option.some.inj leaves
      trivial
  | .foreach id collection body, around, passed, scope, inside => by
    simp only [checkStmt, check_bind] at passed
    simp only [Stmt.isScoped, Bool.and_eq_true, imp_and] at inside
    simp only [execStmt]
    exact steady_burn.bind fun _ => (steady_checkExpr passed.2.1 inside.1).bind fun value =>
      behaves_foreachTurns (behaves_block body passed.2.2 inside.2) value
  | .switch scrutinee cases none, around, passed, scope, inside => by
    simp only [checkStmt, check_bind] at passed
    simp only [Stmt.isScoped, Bool.and_eq_true, imp_and] at inside
    simp only [execStmt]
    refine steady_burn.bind fun _ => (steady_checkExpr passed.1 inside.1).bind fun v =>
      (Behaves.checked (Value.onlyData_asInt v)).bind fun value => ?_
    have otherwise : Obeys strict method around.switch scope (pure .next) :=
      .pure fun st supplied => ⟨trivial, supplied⟩
    exact (behaves_cases cases passed.2 inside.2 value otherwise).bind fun flow =>
      .pure fun st held => ⟨permits_afterSwitch held.1, held.2⟩
  | .switch scrutinee cases (some default), around, passed, scope, inside => by
    simp only [checkStmt, check_bind] at passed
    simp only [Stmt.isScoped, Bool.and_eq_true, imp_and] at inside
    simp only [execStmt]
    refine steady_burn.bind fun _ => (steady_checkExpr passed.1 inside.1.1).bind fun v =>
      (Behaves.checked (Value.onlyData_asInt v)).bind fun value => ?_
    have otherwise := behaves_block default passed.2.2 inside.2
    exact (behaves_cases cases passed.2.1 inside.1.2 value otherwise).bind fun flow =>
      .pure fun st held => ⟨permits_afterSwitch held.1, held.2⟩
  | .tryFinally body cleanup, around, passed, scope, inside => by
    simp only [checkStmt, check_bind] at passed
    simp only [Stmt.isScoped, Bool.and_eq_true, imp_and] at inside
    simp only [execStmt]
    refine steady_burn.bind fun _ => (behaves_block body passed.1 inside.1).bind fun flow => ?_
    apply Behaves.given
    intro permitted
    refine (behaves_block cleanup passed.2 inside.2).bind fun left => ?_
    apply Behaves.given
    intro clean
    -- nothing but the end of the block leaves a cleanup block
    cases left with
    | next => exact .pure fun st supplied => ⟨permitted, supplied⟩
    | breaking => cases clean
    | continuing => cases clean
    | stopping => exact (clean rfl).elim
  | .breakOut, around, passed, scope, inside => by
    have allowed : around.breakable := by
      simp only [checkStmt] at passed
      split at passed
      · assumption
      · cases passed
    simp only [execStmt]
    exact steady_burn.bind fun _ => .pure fun st supplied => ⟨allowed, supplied⟩
  | .continueLoop, around, passed, scope, inside => by
    have allowed : around.inLoop := by
      simp only [checkStmt] at passed
      split at passed
      · assumption
      · cases passed
    simp only [execStmt]
    exact steady_burn.bind fun _ => .pure fun st supplied => ⟨allowed, supplied⟩
  | .yield value, around, passed, scope, inside => by
    simp only [checkStmt] at passed
    split at passed
    · cases passed
    · next outside =>
      simp only [execStmt]
      refine steady_burn.bind fun _ => (steady_checkExpr passed inside).bind fun v =>
        (steady_produce limit v).bind fun reached => .pure fun st supplied => ⟨?_, supplied⟩
      split
      · exact outside
      · trivial
  | .stop, around, passed, scope, inside => by
    simp only [checkStmt] at passed
    split at passed
    · cases passed
    · next outside =>
      simp only [execStmt]
      exact steady_burn.bind fun _ => .pure fun st supplied => ⟨outside, supplied⟩

theorem behaves_block : (body : List Stmt) → {around : Surroundings} →
    checkBlock method around body = .ok () → {scope : List LocalId} →
    (strict → Stmt.isScopedAll scope body) →
    Obeys strict method around scope (execBlock method limit body)
  | [], around, passed, scope, inside => by
    simp only [execBlock]
    exact .pure fun st supplied => ⟨trivial, supplied⟩
  | s :: rest, around, passed, scope, inside => by
    simp only [checkBlock, check_bind] at passed
    simp only [Stmt.isScopedAll, Bool.and_eq_true, imp_and] at inside
    have outer : scope ⊆ declared s ++ scope := List.subset_append_right _ _
    simp only [execBlock]
    refine (behaves_stmt s passed.1 inside.1).bind fun flow => ?_
    apply Behaves.given
    intro permitted
    split
    · exact (behaves_block rest passed.2 inside.2).imp fun flow st held =>
        ⟨held.1, held.2.mono outer⟩
    · exact .pure fun st supplied => ⟨permitted, supplied.mono outer⟩

theorem behaves_header : (init : List Stmt) → {around : Surroundings} →
    checkBlock method around init = .ok () → {scope : List LocalId} →
    (strict → Stmt.isScopedAll scope init) →
    Behaves strict (Supplied strict method scope)
      (fun _ => Supplied strict method (Stmt.scopeAfter scope init)) (execInit method limit init)
  | [], around, passed, scope, inside => by
    simp only [execInit]
    exact .pure fun _ => id
  | s :: rest, around, passed, scope, inside => by
    simp only [checkBlock, check_bind] at passed
    simp only [Stmt.isScopedAll, Bool.and_eq_true, imp_and] at inside
    simp only [execInit]
    exact (behaves_stmt s passed.1 inside.1).bind fun flow =>
      (behaves_header rest passed.2 inside.2).since fun st held => held.2

theorem behaves_cases : (cases : List (List Int64 × List Stmt)) → {around : Surroundings} →
    checkCases method around cases = .ok () → {scope : List LocalId} →
    (strict → Stmt.isScopedCases scope cases) → (value : Int64) → {otherwise : Run Flow} →
    Obeys strict method around scope otherwise →
    Obeys strict method around scope (execCases method limit value otherwise cases)
  | [], around, passed, scope, inside, value, otherwise, default => by
    simp only [execCases]
    exact default
  | (values, body) :: rest, around, passed, scope, inside, value, otherwise, default => by
    simp only [checkCases, check_bind] at passed
    simp only [Stmt.isScopedCases, Bool.and_eq_true, imp_and] at inside
    simp only [execCases]
    split
    · exact behaves_block body passed.1 inside.1
    · exact behaves_cases rest passed.2 inside.2 value default
end

end

/-- No jump escapes the body. -/
theorem behaves_runBody (strict : Prop) {method : Method} (passed : checkStructure method = .ok ())
    (inside : strict → method.WellScoped) (limit : Option Nat) :
    Steady strict method [] (runBody method limit) := by
  refine (behaves_block strict method limit method.body passed inside).bind fun flow => ?_
  apply Behaves.given
  intro permitted
  cases flow with
  | next | stopping => exact .pure fun _ => id
  | breaking | continuing => cases permitted

/-- With all its inputs a method starts with a value in each variable that it can use. -/
theorem supplied_startState {method : Method} {receiver : Option Value} {args : List Value}
    (received : method.receiver.isSome → receiver.isSome)
    (complete : method.params.length ≤ args.length) (strict : Prop) (fuel arrays : Nat) :
    Supplied strict method [] (startState receiver args fuel arrays) := by
  rintro _ var ⟨declared, inside⟩
  have param {index : Nat} (given : index < args.length) :
      ((bindParams args).get? (.param index)).isSome := by
    apply Table.isSome_get?_ofList
    simp only [List.map_map, List.mem_map, Function.comp_apply, Var.param.injEq]
    have found : (args[index], index) ∈ args.zipIdx :=
      List.mem_zipIdx_iff_getElem?.mpr (List.getElem?_eq_getElem given)
    exact ⟨(args[index], index), found, rfl⟩
  cases var with
  | receiver =>
    obtain ⟨value, rfl⟩ := Option.isSome_iff_exists.mp (received declared)
    simp [startState]
  | param index =>
    have given : index < args.length := by
      simp only [Method.varType?, Option.isSome_map, isSome_getElem?] at declared
      omega
    cases receiver with
    | none => exact param given
    | some value =>
      rw [startState, Table.get?_set_of_ne _ _ (by simp)]
      exact param given
  | loc id => simp [Var.inScope] at inside

theorem excusable_of_run {strict : Prop} {method : Method} {receiver : Option Value} {args : List Value}
    {limit : Option Nat} {fuel arrays : Nat} {e : EvalError}
    (steady : Steady strict method [] (runBody method limit))
    (supplied : Supplied strict method [] (startState receiver args fuel arrays))
    (failed : run method receiver args limit fuel arrays = .error e) : Excusable strict e := by
  unfold run at failed
  split at failed
  · cases failed
  · split at failed
    · next e' st' ended =>
      obtain rfl := Except.error.inj failed
      exact steady.fails _ e' st' supplied ended
    · cases failed

/-- A method that passes the structural check ends without an escaped jump, without leaving a cleanup
block early and without meeting an undeclared local. When it is well scoped and has all its inputs,
only its data and its fuel can stop it. -/
theorem failure_of_checkStructure {method : Method} {receiver : Option Value} {args : List Value}
    {limit : Option Nat} {fuel arrays : Nat} {e : EvalError} (passed : checkStructure method = .ok ())
    (failed : run method receiver args limit fuel arrays = .error e) :
    (e.isData ∨ e = .outOfFuel ∨ ∃ var, e = .malformed (.unassignedVar var)) ∧
      (method.WellScoped → (method.receiver.isSome → receiver.isSome) →
        method.params.length ≤ args.length → e.isData ∨ e = .outOfFuel) := by
  constructor
  · have steady := behaves_runBody False passed False.elim limit
    rcases excusable_of_run steady (fun promised => promised.elim) failed with data | spent | unassigned
    · exact .inl data
    · exact .inr (.inl spent)
    · exact .inr (.inr unassigned.2)
  · intro inside received complete
    have steady := behaves_runBody True passed (fun _ => inside) limit
    have supplied := supplied_startState received complete True fuel arrays
    rcases excusable_of_run steady supplied failed with data | spent | unassigned
    · exact .inl data
    · exact .inr spent
    · exact (unassigned.1 trivial).elim

end Structured
open Lowering (checkStructure)

/-- Shares twelve among fewer and fewer, down to none. -/
def Method.shrinkingShares : Method :=
  { Method.draft "shrinking_shares" (.enumerableOf .int) with
    params := [⟨"among", .int⟩]
    locals := [⟨0, "share", .int, false⟩]
    body :=
      [.tryFinally
        [.whileLoop (.bool true)
          [.declare 0 (some (.binary .div (.int 12) (.var (.param 0)))),
            .switch (.ofLocal 0) [([1], [.breakOut]), ([2], [.continueLoop])]
              (some [.yield (.ofLocal 0)]),
            .eval (.assign (.param 0) (.binary .sub (.var (.param 0)) (.int 1)))]]
        [.whileLoop (.bool true) [.breakOut]]] }

theorem Method.shrinkingShares_fails :
    Structured.run shrinkingShares none [.int 2] none 100 0 = .error .divisionByZero := by
  decide +kernel

theorem Structured.failure_of_checkStructure_shrinkingShares :
    checkStructure Method.shrinkingShares = .ok () ∧
      run Method.shrinkingShares none [.int 2] none 100 0 = .error .divisionByZero ∧
      (EvalError.divisionByZero.isData ∨ EvalError.divisionByZero = .outOfFuel) := by
  have passed : checkStructure Method.shrinkingShares = .ok () := rfl
  refine ⟨passed, Method.shrinkingShares_fails, ?_⟩
  apply (failure_of_checkStructure passed Method.shrinkingShares_fails).2
  · unfold Method.WellScoped
    decide +kernel
  · simp [Method.shrinkingShares, Method.draft]
  · decide

end Resumable
