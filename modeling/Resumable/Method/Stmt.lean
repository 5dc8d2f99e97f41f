import Resumable.Method.Expr

/-!
Statements of iterator methods.
-/

namespace Resumable

inductive Stmt where
  | block (body : List Stmt)
  /-- Declares a local in the enclosing block or loop header. -/
  | declare (id : LocalId) (init : Option Expr)
  | eval (value : Expr)
  | ite (cond : Expr) (yes : List Stmt) (no : Option (List Stmt))
  | whileLoop (cond : Expr) (body : List Stmt)
  | forLoop (init : List Stmt) (cond : Option Expr) (step : List Expr) (body : List Stmt)
  /-- Runs the body once per element of an array. -/
  | foreach (id : LocalId) (collection : Expr) (body : List Stmt)
  /-- Cases do not fall through, and a break leaves the switch. -/
  | switch (scrutinee : Expr) (cases : List (List Int64 × List Stmt))
      (default : Option (List Stmt))
  | tryFinally (body cleanup : List Stmt)
  | breakOut
  | continueLoop
  /-- Produces a value and suspends. -/
  | yield (value : Expr)
  /-- Ends the iteration. -/
  | stop

abbrev Block := List Stmt

end Resumable
