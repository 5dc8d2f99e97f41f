import Resumable.Lowering.Capture

/-!
Well-scoped methods. A local is in scope after a declaration of it in the same or an
enclosing block or loop header, and in the body of a foreach loop over it. Within one
activation a local that is in scope has been stored to.
-/

namespace Resumable
open Lowering (declared)

/-- Receiver and parameters are always in scope. -/
def Var.inScope (scope : List LocalId) : Var → Bool
  | .loc id => id ∈ scope
  | _ => true

theorem Var.inScope_mono {small large : List LocalId} (within : small ⊆ large) {var : Var}
    (inside : var.inScope small) : var.inScope large := by
  cases var with
  | loc id =>
    simp only [inScope, decide_eq_true_eq] at inside ⊢
    exact within inside
  | _ => rfl

namespace Expr

mutual
/-- The variables that are read or assigned. -/
def vars : Expr → List Var
  | .var source => [source]
  | .assign target value => target :: vars value
  | .unary _ operand => vars operand
  | .binary _ left right => vars left ++ vars right
  | .array items => varsAll items
  | .index base position => vars base ++ vars position
  | .len base => vars base
  | .call _ args => varsAll args
  | .int _ | .bool _ | .str _ | .null => []

def varsAll : List Expr → List Var
  | [] => []
  | e :: rest => vars e ++ varsAll rest
end

def isScoped (scope : List LocalId) (e : Expr) : Bool := e.vars.all (Var.inScope scope)

theorem isScoped_mono {small large : List LocalId} (within : small ⊆ large) {e : Expr}
    (inside : e.isScoped small) : e.isScoped large := by
  simp only [isScoped, List.all_eq_true] at inside ⊢
  exact fun var member => Var.inScope_mono within (inside var member)

end Expr

namespace Stmt

/-- The scope after the statements of a block. -/
def scopeAfter (scope : List LocalId) : List Stmt → List LocalId
  | [] => scope
  | s :: rest => scopeAfter (declared s ++ scope) rest

mutual
/-- Every variable that occurs is in scope where it occurs. -/
def isScoped (scope : List LocalId) : Stmt → Bool
  | .block body => isScopedAll scope body
  | .declare _ none => true
  | .declare _ (some init) => init.isScoped scope
  | .eval value => value.isScoped scope
  | .ite cond yes none => cond.isScoped scope && isScopedAll scope yes
  | .ite cond yes (some no) => cond.isScoped scope && isScopedAll scope yes && isScopedAll scope no
  | .whileLoop cond body => cond.isScoped scope && isScopedAll scope body
  | .forLoop init cond step body =>
    isScopedAll scope init && cond.toList.all (Expr.isScoped (scopeAfter scope init)) &&
      step.all (Expr.isScoped (scopeAfter scope init)) && isScopedAll (scopeAfter scope init) body
  | .foreach id collection body => collection.isScoped scope && isScopedAll (id :: scope) body
  | .switch scrutinee cases none => scrutinee.isScoped scope && isScopedCases scope cases
  | .switch scrutinee cases (some default) =>
    scrutinee.isScoped scope && isScopedCases scope cases && isScopedAll scope default
  | .tryFinally body cleanup => isScopedAll scope body && isScopedAll scope cleanup
  | .yield value => value.isScoped scope
  | .breakOut | .continueLoop | .stop => true

def isScopedAll (scope : List LocalId) : List Stmt → Bool
  | [] => true
  | s :: rest => isScoped scope s && isScopedAll (declared s ++ scope) rest

def isScopedCases (scope : List LocalId) : List (List Int64 × List Stmt) → Bool
  | [] => true
  | (_, body) :: rest => isScopedAll scope body && isScopedCases scope rest
end

/-- Statements without statements in them that never leave their block. -/
def isPlain : Stmt → Bool
  | .declare _ _ | .eval _ => true
  | _ => false

/-- The header of a for loop only declares locals and evaluates expressions. -/
def hasPlainHeader : Stmt → Bool
  | .forLoop init _ _ _ => init.all isPlain
  | _ => true

theorem subset_scopeAfter (scope : List LocalId) (body : List Stmt) :
    scope ⊆ scopeAfter scope body := by
  induction body generalizing scope with
  | nil => exact List.Subset.refl _
  | cons s rest ih => exact List.Subset.trans (List.subset_append_right _ _) (ih _)

theorem scopeAfter_mono {small large : List LocalId} (within : small ⊆ large) (body : List Stmt) :
    scopeAfter small body ⊆ scopeAfter large body := by
  induction body generalizing small large with
  | nil => exact within
  | cons s rest ih =>
    exact ih (List.append_subset.mpr
      ⟨List.subset_append_left _ _, List.Subset.trans within (List.subset_append_right _ _)⟩)

end Stmt

namespace Method

def WellScoped (method : Method) : Prop := Stmt.isScopedAll [] method.body

def PlainHeaders (method : Method) : Prop := ∀ s ∈ Block.preorder method.body, s.hasPlainHeader

end Method
end Resumable
