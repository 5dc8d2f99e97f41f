import Resumable.Lowering.Shape
import Resumable.Proofs.Binding
import Resumable.Proofs.Scoping
import Resumable.Semantics.Structured

/-!
Bodies that can be resumed: variables are in scope where they occur, and at each
suspension point all of them are stored in fields. The second part says what running such
a body produces: nothing without a suspension point, and nothing once the limit is reached.
-/

namespace Resumable

namespace Lowering

/-- All locals of a scope live in fields. -/
def Shape.Stores (shape : Shape) (scope : List LocalId) : Prop :=
  ∀ id ∈ scope, (shape.slot? (.loc id)).isSome

mutual
def Ready (shape : Shape) (scope : List LocalId) : Stmt → Prop
  | .block body => ReadyAll shape scope body
  | .declare _ none => True
  | .declare _ (some init) => init.isScoped scope
  | .eval value => value.isScoped scope
  | .ite cond yes none => cond.isScoped scope ∧ ReadyAll shape scope yes
  | .ite cond yes (some no) =>
    cond.isScoped scope ∧ ReadyAll shape scope yes ∧ ReadyAll shape scope no
  | .whileLoop cond body => cond.isScoped scope ∧ ReadyAll shape scope body
  | .forLoop init cond step body =>
    ReadyAll shape scope init ∧ init.all Stmt.isPlain ∧
      cond.toList.all (Expr.isScoped (Stmt.scopeAfter scope init)) ∧
      step.all (Expr.isScoped (Stmt.scopeAfter scope init)) ∧
      ReadyAll shape (Stmt.scopeAfter scope init) body
  | .foreach _ _ _ => False
  | .switch scrutinee cases none => scrutinee.isScoped scope ∧ ReadyCases shape scope cases
  | .switch scrutinee cases (some default) =>
    scrutinee.isScoped scope ∧ ReadyCases shape scope cases ∧ ReadyAll shape scope default
  | .tryFinally body cleanup =>
    ReadyAll shape scope body ∧ ReadyAll shape scope cleanup ∧ Stmt.suspensionsAll cleanup = 0 ∧
      (Stmt.suspensionsAll body ≠ 0 → shape.Stores scope)
  | .yield value => value.isScoped scope ∧ shape.Stores scope
  | .breakOut | .continueLoop | .stop => True

def ReadyAll (shape : Shape) (scope : List LocalId) : List Stmt → Prop
  | [] => True
  | s :: rest => Ready shape scope s ∧ ReadyAll shape (declared s ++ scope) rest

def ReadyCases (shape : Shape) (scope : List LocalId) : List (List Int64 × List Stmt) → Prop
  | [] => True
  | (_, body) :: rest => ReadyAll shape scope body ∧ ReadyCases shape scope rest
end

end Lowering

namespace Structured

section
variable {α β : Type}

/-- The computation produces no value. -/
def Silent (x : Run α) : Prop := ∀ st a st', x st = .ok a st' → st'.values = st.values

theorem Silent.pure (a : α) : Silent (Pure.pure a) := by
  intro st b st' done
  rw [(pure_eq_ok.mp done).2]

theorem Silent.bind {x : Run α} {f : α → Run β} (first : Silent x) (next : ∀ a, Silent (f a)) :
    Silent (x >>= f) := by
  intro st b st'' done
  obtain ⟨a, st', begun, ended⟩ := bind_eq_ok.mp done
  rw [next a st' b st'' ended, first st a st' begun]

theorem Silent.checked (x : Except EvalError α) : Silent (Resumable.checked x) := by
  intro st a st' done
  rw [(checked_eq_ok.mp done).2]

theorem silent_burn : Silent burn := by
  intro st a st' done
  unfold burn at done
  split at done
  · cases done
  · cases done
    rfl

theorem silent_readVar (var : Var) : Silent (readVar var) := by
  intro st a st' done
  unfold readVar at done
  split at done <;> cases done
  rfl

theorem silent_assignVar (var : Var) (value : Value) : Silent (assignVar var value) := by
  intro st a st' done
  cases done
  rfl

theorem silent_newArray (items : List Value) : Silent (newArray items) := by
  intro st a st' done
  cases done
  rfl

theorem silent_callHost (callee : String) (args : List Value) : Silent (callHost callee args) := by
  intro st a st' done
  cases done
  rfl

mutual
theorem silent_expr : (e : Expr) → Silent (evalExpr e)
  | .int _ | .bool _ | .str _ | .null => by
    simp only [evalExpr]
    exact .pure _
  | .var var => by
    simp only [evalExpr]
    exact silent_readVar var
  | .assign var value => by
    simp only [evalExpr]
    exact (silent_expr value).bind fun _ => (silent_assignVar var _).bind fun _ => .pure _
  | .unary op operand => by
    simp only [evalExpr]
    exact (silent_expr operand).bind fun _ => .checked _
  | .binary op left right => by
    have decided : ∀ v : Value, Silent (do let b ← checked v.asBool; return Value.bool b) :=
      fun _ => (Silent.checked _).bind fun _ => .pure _
    by_cases conjunction : op = .and
    · subst conjunction
      simp only [evalExpr]
      refine (silent_expr left).bind fun _ => (Silent.checked _).bind fun holds => ?_
      cases holds with
      | true => exact (silent_expr right).bind decided
      | false => exact .pure _
    · by_cases disjunction : op = .or
      · subst disjunction
        simp only [evalExpr]
        refine (silent_expr left).bind fun _ => (Silent.checked _).bind fun holds => ?_
        cases holds with
        | true => exact .pure _
        | false => exact (silent_expr right).bind decided
      · simp only [evalExpr]
        exact (silent_expr left).bind fun _ => (silent_expr right).bind fun _ => .checked _
  | .array items => by
    simp only [evalExpr]
    exact (silent_exprs items).bind fun _ => silent_newArray _
  | .index base position => by
    simp only [evalExpr]
    exact (silent_expr base).bind fun _ => (silent_expr position).bind fun _ => .checked _
  | .len base => by
    simp only [evalExpr]
    exact (silent_expr base).bind fun _ => .checked _
  | .call callee args => by
    simp only [evalExpr]
    exact (silent_exprs args).bind fun _ => (silent_callHost callee _).bind fun _ => .pure _

theorem silent_exprs : (es : List Expr) → Silent (evalExprs es)
  | [] => by
    simp only [evalExprs]
    exact .pure _
  | e :: rest => by
    simp only [evalExprs]
    exact (silent_expr e).bind fun _ => (silent_exprs rest).bind fun _ => .pure _
end

theorem silent_holds : (cond : Option Expr) → Silent (holds cond)
  | none => .pure _
  | some cond => (silent_expr cond).bind fun _ => .checked _

end

/-- Production has not come to the limit. -/
def Unreached (limit : Option Nat) (st : State) : Prop := limit ≠ some st.values.size

/-- A computation that produces nothing when it is `quiet`, and that does not reach the limit unless
its result says that the body stops. -/
def Orderly {α : Type} (limit : Option Nat) (quiet : Prop) (stops : α → Prop) (x : Run α) : Prop :=
  ∀ st a st', x st = .ok a st' →
    (quiet → st'.values = st.values) ∧ (¬stops a → Unreached limit st → Unreached limit st')

/-- What may follow a result that says the body stops: it says so as well, and when it is `quiet` it
produces nothing. -/
def Trails {α : Type} (quiet : Prop) (stops : α → Prop) (x : Run α) : Prop :=
  ∀ st a st', x st = .ok a st' → stops a ∧ (quiet → st'.values = st.values)

theorem Trails.pure {α : Type} {quiet : Prop} {stops : α → Prop} {a : α} (stop : stops a) :
    Trails quiet stops (Pure.pure a) := by
  intro st b st' done
  obtain ⟨rfl, rfl⟩ := pure_eq_ok.mp done
  exact ⟨stop, fun _ => rfl⟩

/-- The cleanup block of a region runs before the body stops. -/
theorem Trails.cleanup {quiet : Prop} {cleanup : Run Flow} (silent : quiet → Silent cleanup) :
    Trails quiet (· = Flow.stopping) (do
      let left ← cleanup
      if left = .next then return Flow.stopping else throw (.malformed .leftCleanup)) := by
  intro st flow st'' done
  obtain ⟨left, st', cleaned, ended⟩ := bind_eq_ok.mp done
  split at ended
  · obtain ⟨rfl, rfl⟩ := pure_eq_ok.mp ended
    exact ⟨rfl, fun quietly => silent quietly st left st' cleaned⟩
  · simp at ended

namespace Orderly
variable {α β : Type} {limit : Option Nat} {quiet quiet' : Prop} {stops : α → Prop}
  {stops' : β → Prop}

theorem of_silent {x : Run α} (silent : Silent x) : Orderly limit quiet stops x := by
  intro st a st' done
  have same := silent st a st' done
  exact ⟨fun _ => same, fun _ => by simp [Unreached, same]⟩

theorem mono {x : Run α} (orderly : Orderly limit quiet stops x) (less : quiet' → quiet) :
    Orderly limit quiet' stops x :=
  fun st a st' done => ⟨(orderly st a st' done).1 ∘ less, (orderly st a st' done).2⟩

theorem bind {x : Run α} {f : α → Run β} (first : Orderly limit quiet stops x)
    (next : ∀ a, ¬stops a → Orderly limit quiet stops' (f a))
    (stopped : ∀ a, stops a → Trails quiet stops' (f a)) : Orderly limit quiet stops' (x >>= f) := by
  intro st b st'' done
  obtain ⟨a, st', begun, ended⟩ := bind_eq_ok.mp done
  obtain ⟨quietly, reaching⟩ := first st a st' begun
  by_cases stop : stops a
  · obtain ⟨stop', quietly'⟩ := stopped a stop st' b st'' ended
    exact ⟨fun quiet => (quietly' quiet).trans (quietly quiet), fun goes => absurd stop' goes⟩
  · obtain ⟨quietly', reaching'⟩ := next a stop st' b st'' ended
    exact ⟨fun quiet => (quietly' quiet).trans (quietly quiet),
      fun goes before => reaching' goes (reaching stop before)⟩

theorem after_silent {x : Run α} {f : α → Run β} (first : Silent x)
    (next : ∀ a, Orderly limit quiet stops' (f a)) : Orderly limit quiet stops' (x >>= f) := by
  have never : Orderly limit quiet (fun _ => False) x := of_silent first
  exact never.bind (fun a _ => next a) fun _ stop => stop.elim

/-- A result that is only translated keeps saying that the body stops. -/
theorem map {x : Run α} {f : α → β} (orderly : Orderly limit quiet stops x)
    (keeps : ∀ a, stops a → stops' (f a)) :
    Orderly limit quiet stops' (do let a ← x; return f a) :=
  orderly.bind (fun _ _ => of_silent (.pure _)) fun a stop => .pure (keeps a stop)

theorem loop {turn : Run (Option Flow)} (turns : Orderly limit quiet (· = some .stopping) turn) :
    Orderly limit quiet (· = .stopping) (Structured.loop turn) := by
  have bounded (bound : Nat) : Orderly limit quiet (· = .stopping) (repeatTurns turn bound) := by
    induction bound with
    | zero =>
      intro st a st' done
      simp [repeatTurns] at done
    | succ bound ih =>
      simp only [repeatTurns]
      refine turns.bind (fun left _ => ?_) ?_
      · cases left with
        | none => exact ih
        | some flow => exact of_silent (.pure flow)
      · rintro _ rfl
        exact .pure rfl
  exact fun st => bounded (st.fuel + 1) st

theorem whileTurn {body : Run Flow} (cond : Expr) (orderly : Orderly limit quiet (· = .stopping) body) :
    Orderly limit quiet (· = some .stopping) (Structured.whileTurn cond body) := by
  refine after_silent (silent_holds _) fun holds => ?_
  cases holds with
  | true => exact after_silent silent_burn fun _ => orderly.map fun flow stop => by rw [stop]; rfl
  | false => exact of_silent (.pure _)

theorem forTurn {body : Run Flow} (cond : Option Expr) (step : List Expr)
    (orderly : Orderly limit quiet (· = .stopping) body) :
    Orderly limit quiet (· = some .stopping) (Structured.forTurn cond step body) := by
  refine after_silent silent_burn fun _ => after_silent (silent_holds _) fun holds => ?_
  cases holds with
  | true =>
    refine orderly.bind (fun flow _ => ?_) ?_
    · cases afterBody flow with
      | none => exact of_silent ((silent_exprs step).bind fun _ => .pure _)
      | some flow => exact of_silent (.pure _)
    · rintro _ rfl
      exact .pure rfl
  | false => exact of_silent (.pure _)

end Orderly

theorem silent_plain (method : Method) (limit : Option Nat) {s : Stmt} (plain : s.isPlain) :
    Silent (execStmt method limit s) := by
  cases s with
  | declare id init =>
    cases init with
    | none =>
      simp only [execStmt]
      refine silent_burn.bind fun _ => ?_
      split
      · exact (silent_assignVar _ _).bind fun _ => .pure _
      · intro st a st' done
        simp at done
    | some init =>
      simp only [execStmt]
      exact silent_burn.bind fun _ => (silent_expr init).bind fun _ =>
        (silent_assignVar _ _).bind fun _ => .pure _
  | eval value =>
    simp only [execStmt]
    exact silent_burn.bind fun _ => (silent_expr value).bind fun _ => .pure _
  | _ => simp [Stmt.isPlain] at plain

theorem silent_init (method : Method) (limit : Option Nat) {init : List Stmt}
    (plain : init.all Stmt.isPlain) : Silent (execInit method limit init) := by
  induction init with
  | nil =>
    simp only [execInit]
    exact .pure _
  | cons s rest ih =>
    simp only [List.all_cons, Bool.and_eq_true] at plain
    simp only [execInit]
    exact (silent_plain method limit plain.1).bind fun _ => ih plain.2

theorem flow_plain {method : Method} {limit : Option Nat} {s : Stmt} (plain : s.isPlain)
    {st st' : State} {flow : Flow} (done : execStmt method limit s st = .ok flow st') :
    flow = .next := by
  cases s with
  | declare id init =>
    cases init with
    | none =>
      simp only [execStmt] at done
      split at done <;> simp only [bind_eq_ok, pure_eq_ok, throw_eq_ok, and_false, exists_false] at done
      obtain ⟨_, _, _, _, _, _, rfl, _⟩ := done
      rfl
    | some init =>
      simp only [execStmt, bind_eq_ok, pure_eq_ok] at done
      obtain ⟨_, _, _, _, _, _, _, _, _, rfl, _⟩ := done
      rfl
  | eval value =>
    simp only [execStmt, bind_eq_ok, pure_eq_ok] at done
    obtain ⟨_, _, _, _, _, _, rfl, _⟩ := done
    rfl
  | _ => simp [Stmt.isPlain] at plain

/-- A missing branch is an empty one. -/
theorem execStmt_ite_none {method : Method} {limit : Option Nat} {cond : Expr} {yes : List Stmt} :
    execStmt method limit (.ite cond yes none) = execStmt method limit (.ite cond yes (some [])) := by
  simp only [execStmt, execBlock]

/-- A plain header is a block that is never left. -/
theorem execBlock_plain {method : Method} {limit : Option Nat} {init : List Stmt}
    (plain : init.all Stmt.isPlain) :
    execBlock method limit init = (do execInit method limit init; return .next) := by
  induction init with
  | nil => rfl
  | cons s rest ih =>
    simp only [List.all_cons, Bool.and_eq_true] at plain
    simp only [execBlock, execInit, bind_assoc, ih plain.2]
    funext st
    cases result : execStmt method limit s st with
    | error e st' => rw [bind_of_error result, bind_of_error result]
    | ok flow st' =>
      obtain rfl := flow_plain plain.1 result
      rw [bind_of_ok result, bind_of_ok result, if_pos rfl]

section
variable (method : Method) (limit : Option Nat) (shape : Lowering.Shape)
open Lowering (Ready ReadyAll ReadyCases)

mutual
theorem orderly_stmt : (s : Stmt) → (scope : List LocalId) → Ready shape scope s →
    Orderly limit (s.suspensions = 0) (· = .stopping) (execStmt method limit s)
  | .block body, scope, ready => by
    simp only [execStmt, Stmt.suspensions]
    exact .after_silent silent_burn fun _ => orderly_block body scope ready
  | .declare id init, scope, ready => .of_silent (silent_plain method limit rfl)
  | .eval value, scope, ready => .of_silent (silent_plain method limit rfl)
  | .ite cond yes none, scope, ready => by
    simp only [Ready] at ready
    simp only [execStmt, Stmt.suspensions]
    refine .after_silent silent_burn fun _ => .after_silent (silent_holds _) fun holds => ?_
    cases holds with
    | true => exact orderly_block yes scope ready.2
    | false => exact .of_silent (.pure _)
  | .ite cond yes (some no), scope, ready => by
    simp only [Ready] at ready
    simp only [execStmt, Stmt.suspensions]
    refine .after_silent silent_burn fun _ => .after_silent (silent_holds _) fun holds => ?_
    cases holds with
    | true => exact (orderly_block yes scope ready.2.1).mono (by omega)
    | false => exact (orderly_block no scope ready.2.2).mono (by omega)
  | .whileLoop cond body, scope, ready => by
    simp only [Ready] at ready
    simp only [execStmt, Stmt.suspensions]
    exact .after_silent silent_burn fun _ => .loop (.whileTurn cond (orderly_block body scope ready.2))
  | .forLoop init cond step body, scope, ready => by
    simp only [Ready] at ready
    simp only [execStmt, Stmt.suspensions]
    have turns := (orderly_block body _ ready.2.2.2.2).forTurn cond step
    refine .after_silent silent_burn fun _ => ?_
    exact .after_silent (silent_init method limit ready.2.1) fun _ => (turns.mono (by omega)).loop
  | .foreach _ _ _, scope, ready => by simp [Ready] at ready
  | .switch scrutinee cases none, scope, ready => by
    simp only [Ready] at ready
    simp only [execStmt, Stmt.suspensions]
    refine .after_silent silent_burn fun _ => .after_silent (silent_expr scrutinee) fun _ =>
      .after_silent (.checked _) fun value => ?_
    have chosen := orderly_cases cases scope ready.2 value id (.of_silent (.pure .next))
    exact chosen.map fun flow stop => by rw [stop]; rfl
  | .switch scrutinee cases (some default), scope, ready => by
    simp only [Ready] at ready
    simp only [execStmt, Stmt.suspensions]
    refine .after_silent silent_burn fun _ => .after_silent (silent_expr scrutinee) fun _ =>
      .after_silent (.checked _) fun value => ?_
    have otherwise := (orderly_block default scope ready.2.2).mono
      (fun quiet : Stmt.suspensionsCases cases + Stmt.suspensionsAll default = 0 => by omega)
    have chosen := orderly_cases cases scope ready.2.1 value (by omega) otherwise
    exact chosen.map fun flow stop => by rw [stop]; rfl
  | .tryFinally body cleanup, scope, ready => by
    simp only [Ready] at ready
    simp only [execStmt, Stmt.suspensions]
    refine .after_silent silent_burn fun _ => ?_
    have cleanly := orderly_block cleanup scope ready.2.1
    refine ((orderly_block body scope ready.1).mono (by omega)).bind (fun flow _ => ?_) ?_
    · refine (cleanly.mono (by omega)).bind (fun left _ => ?_) ?_
      · split
        · exact .of_silent (.pure _)
        · intro st a st' done
          simp at done
      · rintro left rfl st b st' done
        simp at done
    · rintro _ rfl
      exact .cleanup fun quiet st left st' cleaned => (cleanly st left st' cleaned).1 (by omega)
  | .breakOut, scope, ready => by
    simp only [execStmt]
    exact .after_silent silent_burn fun _ => .of_silent (.pure _)
  | .continueLoop, scope, ready => by
    simp only [execStmt]
    exact .after_silent silent_burn fun _ => .of_silent (.pure _)
  | .yield value, scope, ready => by
    simp only [execStmt, Stmt.suspensions]
    refine .after_silent silent_burn fun _ => .after_silent (silent_expr value) fun v => ?_
    intro st flow st'' done
    obtain ⟨reached, st', produced, ended⟩ := bind_eq_ok.mp done
    obtain ⟨rfl, rfl⟩ := EStateM.Result.ok.inj produced
    obtain ⟨rfl, rfl⟩ := pure_eq_ok.mp ended
    refine ⟨fun quiet => by omega, fun goes _ => ?_⟩
    intro reached
    simp [reached] at goes
  | .stop, scope, ready => by
    simp only [execStmt]
    exact .after_silent silent_burn fun _ => .of_silent (.pure _)

theorem orderly_block : (body : List Stmt) → (scope : List LocalId) → ReadyAll shape scope body →
    Orderly limit (Stmt.suspensionsAll body = 0) (· = .stopping) (execBlock method limit body)
  | [], scope, ready => by
    simp only [execBlock]
    exact .of_silent (.pure _)
  | s :: rest, scope, ready => by
    simp only [ReadyAll] at ready
    simp only [execBlock, Stmt.suspensionsAll]
    refine ((orderly_stmt s scope ready.1).mono (by omega)).bind (fun flow _ => ?_) ?_
    · split
      · exact (orderly_block rest _ ready.2).mono (by omega)
      · exact .of_silent (.pure _)
    · rintro _ rfl
      exact .pure rfl

theorem orderly_cases : (cases : List (List Int64 × List Stmt)) → (scope : List LocalId) →
    ReadyCases shape scope cases → (value : Int64) → {quiet : Prop} →
    (quiet → Stmt.suspensionsCases cases = 0) → {otherwise : Run Flow} →
    Orderly limit quiet (· = .stopping) otherwise →
    Orderly limit quiet (· = .stopping) (execCases method limit value otherwise cases)
  | [], scope, ready, value, quiet, calm, otherwise, orderly => by
    simp only [execCases]
    exact orderly
  | (values, body) :: rest, scope, ready, value, quiet, calm, otherwise, orderly => by
    simp only [ReadyCases] at ready
    simp only [Stmt.suspensionsCases] at calm
    simp only [execCases]
    split
    · exact (orderly_block body scope ready.1).mono fun quiet => by
        have := calm quiet
        omega
    · refine orderly_cases rest scope ready.2 value (fun quiet => ?_) orderly
      have := calm quiet
      omega
end

end

end Structured
end Resumable
