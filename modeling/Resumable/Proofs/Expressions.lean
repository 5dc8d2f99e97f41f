import Resumable.Proofs.Matching

/-!
Expressions in the method and their terms in the machine. The rules below follow the way
computations are put together, so that each kind of expression is one line of reasoning.
-/

namespace Resumable.Simulation
open Lowering (Shape)
open Machine (Activation Frame Place Step Term World call evalTerm evalTerms)
open Structured (Run State assignVar callHost evalExpr evalExprs newArray readVar)

section
variable (shape : Shape) (own : Nat) (scope : List LocalId)

/-- Wherever method and machine match, a computation of the method that succeeds is followed by a
step of the machine that keeps them matched, and one that fails on its data by a step that fails for
the same reason. -/
def Simulates {α β : Type} (names : Renaming) (x : Run α) (y : Step β)
    (related : Renaming → α → β → Prop) : Prop :=
  ∀ st act, Matches shape own scope names st act →
    match x st with
    | .ok a st' => ∃ b names' act', y.Gives act b act' ∧
        Matches shape own scope names' st' act' ∧
        Advance st names act.world st' names' act'.world ∧ related names' a b
    | .error e _ => e.isData → y.Raises act e

end

namespace Simulates
variable {shape : Shape} {own : Nat} {scope : List LocalId} {names : Renaming} {α β γ δ : Type}
  {related : Renaming → α → β → Prop} {related' : Renaming → γ → δ → Prop}

theorem pure {a : α} {b : β} (both : related names a b) :
    Simulates shape own scope names (Pure.pure a) (Pure.pure b) related :=
  fun st act matching =>
    ⟨b, names, act, Step.gives_pure b act, matching, .refl st names act.world, both⟩

theorem bind {x : Run α} {y : Step β} {f : α → Run γ} {g : β → Step δ}
    (first : Simulates shape own scope names x y related)
    (next : ∀ names' a b, names.Extends names' → related names' a b →
      Simulates shape own scope names' (f a) (g b) related') :
    Simulates shape own scope names (x >>= f) (y >>= g) related' := by
  intro st act matching
  have begun := first st act matching
  cases result : x st with
  | error e st' =>
    rw [result] at begun
    rw [bind_of_error result]
    exact fun data => (begun data).bind
  | ok a st' =>
    rw [result] at begun
    obtain ⟨b, names', act', gives, matching', advance, both⟩ := begun
    have ended := next names' a b advance.wider both st' act' matching'
    rw [bind_of_ok result]
    cases result' : f a st' with
    | error e st'' =>
      rw [result'] at ended
      exact fun data => gives.bind_raises (ended data)
    | ok c st'' =>
      rw [result'] at ended
      obtain ⟨d, names'', act'', gives', matching'', advance', both'⟩ := ended
      exact ⟨d, names'', act'', gives.bind gives', matching'', advance.trans advance', both'⟩

theorem checked {x : Except EvalError α} {y : Except EvalError β}
    (parallel : Parallel (related names) x y) :
    Simulates shape own scope names (Resumable.checked x) (Resumable.checked y) related := by
  cases parallel with
  | ok both => exact pure both
  | error e => exact fun st act _ _ => ⟨act, fun _ => rfl⟩

section
variable {frame : Frame} (itself : frame.self = .object own)
include itself

theorem load {var : Var} {place : Place} (placed : shape.place var = .ok place)
    (inside : var.inScope scope) :
    Simulates shape own scope names (readVar var) (frame.load place) Value.Alike := by
  intro st act matching
  cases found : st.vars.get? var with
  | none =>
    simp only [readVar, found]
    intro data
    cases data
  | some value =>
    obtain ⟨value', held, alike⟩ := matching.held inside placed found
    simp only [readVar, found]
    exact ⟨value', names, act, gives_load itself held, matching, .refl st names act.world, alike⟩

theorem store (sound : shape.Sound) {var : Var} {place : Place} {value value' : Value}
    (placed : shape.place var = .ok place) (alike : Value.Alike names value value') :
    Simulates shape own scope names (assignVar var value) (frame.store value' place)
      fun _ _ _ => True := by
  intro st act matching
  have stored := gives_store itself (matching.writable sound placed) value'
  refine ⟨(), names, _, stored, matching.assign sound placed alike fun _ => .inr, ?_, trivial⟩
  exact .of_same rfl rfl (by simp) (.refl names)

end

theorem array {items items' : List Value} (alike : Value.AlikeAll names items items') :
    Simulates shape own scope names (newArray items) (Step.inWorld (Machine.Exec.newArray items'))
      Value.Alike := by
  intro st act matching
  have wider := names.extends_link st.arrays act.world.arrays
  refine ⟨.array act.world.arrays items', names.link st.arrays act.world.arrays,
    ⟨act.locals, { act.world with arrays := act.world.arrays + 1 }⟩, fun _ => rfl, ?_,
    .of_same rfl rfl rfl wider, .array (names.link_self _ _) (alike.mono wider)⟩
  exact {
    between := matching.between.link
    present := matching.present
    held := fun inside placed found => by
      obtain ⟨value', held, alike⟩ := matching.held inside placed found
      refine ⟨value', ?_, alike.mono wider⟩
      rcases place_eq_ok.mp placed with ⟨id, _, rfl⟩ | ⟨id, _, _, rfl⟩ <;> exact held }

theorem host (callee : String) {args args' : List Value} (alike : Value.AlikeAll names args args') :
    Simulates shape own scope names (callHost callee args)
      (Step.inWorld (Machine.Exec.callHost callee args')) fun _ _ _ => True := by
  intro st act matching
  refine ⟨(), names, ⟨act.locals, { act.world with calls := act.world.calls.push ⟨callee, args'⟩ }⟩,
    fun _ => rfl, matching.transfer rfl rfl (Nat.le_refl _) (fun _ => rfl) (fun _ _ _ => rfl), ?_,
    trivial⟩
  exact {
    values := rfl
    wider := .refl names
    calls := ⟨[⟨callee, args⟩], [⟨callee, args'⟩], by simp, by simp, .cons ⟨rfl, alike⟩ .nil⟩ }

end Simulates

section
variable {shape : Shape} {own : Nat} {scope : List LocalId} {frame : Frame}
variable (machine : Machine)

/-- The right operand of a connective is a boolean when it is evaluated at all. -/
theorem simulates_decided {names : Renaming} {x : Run Value} {y : Step Value}
    (first : Simulates shape own scope names x y Value.Alike) :
    Simulates shape own scope names (do let v ← x; let b ← checked v.asBool; return .bool b)
      (do let v ← y; let b ← checked v.asBool; return .bool b) Value.Alike := by
  refine first.bind fun names' v v' _ alike => ?_
  rw [← alike.asBool_eq]
  cases v.asBool with
  | error e => exact fun st act _ _ => ⟨act, fun _ => rfl⟩
  | ok b => exact .pure (.bool b)

theorem simulates_binary {names : Renaming} (op : BinaryOp) {left right : Expr} {first second : Term}
    (firstly : Simulates shape own scope names (evalExpr left)
      (evalTerm machine (call machine) frame first) Value.Alike)
    (secondly : ∀ names, Simulates shape own scope names (evalExpr right)
      (evalTerm machine (call machine) frame second) Value.Alike) :
    Simulates shape own scope names (evalExpr (.binary op left right))
      (evalTerm machine (call machine) frame (.binary op first second)) Value.Alike := by
  by_cases conjunction : op = .and
  · subst conjunction
    simp only [evalExpr, evalTerm]
    refine firstly.bind fun names' v v' _ alike => ?_
    rw [← alike.asBool_eq]
    cases v.asBool with
    | error e => exact fun st act _ _ => ⟨act, fun _ => rfl⟩
    | ok holds =>
      cases holds with
      | true => exact simulates_decided (secondly names')
      | false => exact .pure (.bool false)
  · by_cases disjunction : op = .or
    · subst disjunction
      simp only [evalExpr, evalTerm]
      refine firstly.bind fun names' v v' _ alike => ?_
      rw [← alike.asBool_eq]
      cases v.asBool with
      | error e => exact fun st act _ _ => ⟨act, fun _ => rfl⟩
      | ok holds =>
        cases holds with
        | true => exact .pure (.bool true)
        | false => exact simulates_decided (secondly names')
    · simp only [evalExpr, evalTerm]
      refine firstly.bind fun names' v v' _ alike => ?_
      refine (secondly names').bind fun names'' w w' wider alike' => ?_
      intro st act matching
      have parallel := (alike.mono wider).binary matching.between.consistent op alike'
      exact Simulates.checked parallel st act matching

mutual
theorem simulates_expr (sound : shape.Sound) (itself : frame.self = .object own)
    (names : Renaming) : (e : Expr) → (t : Term) → shape.term e = .ok t →
    e.isScoped scope → Simulates shape own scope names (evalExpr e)
      (evalTerm machine (call machine) frame t) Value.Alike
  | .int n, t, lowered, _ => by
    obtain rfl := Except.ok.inj lowered
    simp only [evalExpr, evalTerm]
    exact .pure (.int n)
  | .bool b, t, lowered, _ => by
    obtain rfl := Except.ok.inj lowered
    simp only [evalExpr, evalTerm]
    exact .pure (.bool b)
  | .str text, t, lowered, _ => by
    obtain rfl := Except.ok.inj lowered
    simp only [evalExpr, evalTerm]
    exact .pure (.str text)
  | .null, t, lowered, _ => by
    obtain rfl := Except.ok.inj lowered
    simp only [evalExpr, evalTerm]
    exact .pure .null
  | .var var, t, lowered, inside => by
    simp only [Shape.term, except_bind_eq_ok, except_pure_eq_ok] at lowered
    obtain ⟨place, placed, rfl⟩ := lowered
    simp only [evalExpr, evalTerm]
    exact .load itself placed (by simpa [Expr.isScoped, Expr.vars] using inside)
  | .assign var value, t, lowered, inside => by
    simp only [Shape.term, except_bind_eq_ok, except_pure_eq_ok] at lowered
    obtain ⟨place, placed, term, loweredValue, rfl⟩ := lowered
    simp only [Expr.isScoped, Expr.vars, List.all_cons, Bool.and_eq_true] at inside
    simp only [evalExpr, evalTerm]
    refine (simulates_expr sound itself names value term loweredValue inside.2).bind fun names' v v' _ alike => ?_
    exact (Simulates.store itself sound placed alike).bind fun names'' _ _ wider _ =>
      .pure (alike.mono wider)
  | .unary op operand, t, lowered, inside => by
    simp only [Shape.term, except_bind_eq_ok, except_pure_eq_ok] at lowered
    obtain ⟨term, loweredOperand, rfl⟩ := lowered
    simp only [evalExpr, evalTerm]
    exact (simulates_expr sound itself names operand term loweredOperand
      (by simpa [Expr.isScoped, Expr.vars] using inside)).bind fun _ v v' _ alike =>
        .checked (alike.unary op)
  | .binary op left right, t, lowered, inside => by
    simp only [Shape.term, except_bind_eq_ok, except_pure_eq_ok] at lowered
    obtain ⟨first, loweredLeft, second, loweredRight, rfl⟩ := lowered
    simp only [Expr.isScoped, Expr.vars, List.all_append, Bool.and_eq_true] at inside
    exact simulates_binary machine op (simulates_expr sound itself names left first loweredLeft inside.1)
      fun names => simulates_expr sound itself names right second loweredRight inside.2
  | .array items, t, lowered, inside => by
    simp only [Shape.term, except_bind_eq_ok, except_pure_eq_ok] at lowered
    obtain ⟨terms, loweredItems, rfl⟩ := lowered
    simp only [evalExpr, evalTerm]
    exact (simulates_exprs sound itself names items terms loweredItems
      (by simpa [Expr.isScoped, Expr.vars] using inside)).bind fun _ vs vs' _ alike => .array alike
  | .index base position, t, lowered, inside => by
    simp only [Shape.term, except_bind_eq_ok, except_pure_eq_ok] at lowered
    obtain ⟨first, loweredBase, second, loweredPosition, rfl⟩ := lowered
    simp only [Expr.isScoped, Expr.vars, List.all_append, Bool.and_eq_true] at inside
    simp only [evalExpr, evalTerm]
    refine (simulates_expr sound itself names base first loweredBase inside.1).bind fun names' v v' _ alike => ?_
    exact (simulates_expr sound itself names' position second loweredPosition inside.2).bind
      fun _ w w' wider alike' => .checked ((alike.mono wider).index alike')
  | .len base, t, lowered, inside => by
    simp only [Shape.term, except_bind_eq_ok, except_pure_eq_ok] at lowered
    obtain ⟨term, loweredBase, rfl⟩ := lowered
    simp only [evalExpr, evalTerm]
    exact (simulates_expr sound itself names base term loweredBase
      (by simpa [Expr.isScoped, Expr.vars] using inside)).bind fun _ v v' _ alike =>
        .checked alike.len
  | .call callee args, t, lowered, inside => by
    simp only [Shape.term, except_bind_eq_ok, except_pure_eq_ok] at lowered
    obtain ⟨terms, loweredArgs, rfl⟩ := lowered
    simp only [evalExpr, evalTerm]
    exact (simulates_exprs sound itself names args terms loweredArgs
      (by simpa [Expr.isScoped, Expr.vars] using inside)).bind fun _ vs vs' _ alike =>
        (Simulates.host callee alike).bind fun _ _ _ _ _ => .pure .null

theorem simulates_exprs (sound : shape.Sound) (itself : frame.self = .object own)
    (names : Renaming) : (es : List Expr) → (ts : List Term) →
    shape.terms es = .ok ts → (Expr.varsAll es).all (Var.inScope scope) →
    Simulates shape own scope names (evalExprs es)
      (evalTerms machine (call machine) frame ts) Value.AlikeAll
  | [], ts, lowered, _ => by
    obtain rfl := Except.ok.inj lowered
    simp only [evalExprs, evalTerms]
    exact .pure .nil
  | e :: rest, ts, lowered, inside => by
    simp only [Shape.terms, except_bind_eq_ok, except_pure_eq_ok] at lowered
    obtain ⟨first, loweredFirst, others, loweredRest, rfl⟩ := lowered
    simp only [Expr.varsAll, List.all_append, Bool.and_eq_true] at inside
    simp only [evalExprs, evalTerms]
    refine (simulates_expr sound itself names e first loweredFirst inside.1).bind fun names' v v' _ alike => ?_
    exact (simulates_exprs sound itself names' rest others loweredRest inside.2).bind
      fun _ vs vs' wider alike' => .pure (.cons (alike.mono wider) alike')
end

end
end Resumable.Simulation
