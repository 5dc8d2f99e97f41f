import Resumable.Method.Stmt
import Resumable.SortedSet

/-!
Traversals of method bodies. Statements are visited before the statements nested
in them, and expressions before their operands.
-/

namespace Resumable

namespace Expr

mutual
/-- The expression and its operands at every depth. -/
def subexprs (e : Expr) : List Expr :=
  e ::
    match e with
    | .assign _ value => subexprs value
    | .unary _ operand => subexprs operand
    | .binary _ left right => subexprs left ++ subexprs right
    | .array items => subexprsAll items
    | .index base position => subexprs base ++ subexprs position
    | .len base => subexprs base
    | .call _ args => subexprsAll args
    | _ => []

def subexprsAll : List Expr → List Expr
  | [] => []
  | e :: rest => subexprs e ++ subexprsAll rest
end

end Expr

namespace Stmt

/-- The statements nested directly inside, in program order. -/
def children : Stmt → List Stmt
  | .block body => body
  | .ite _ yes no => yes ++ no.getD []
  | .whileLoop _ body => body
  | .forLoop init _ _ body => init ++ body
  | .foreach _ _ body => body
  | .switch _ cases default => cases.flatMap (·.2) ++ default.getD []
  | .tryFinally body cleanup => body ++ cleanup
  | _ => []

/-- The expressions that belong to the statement itself. -/
def exprs : Stmt → List Expr
  | .declare _ init => init.toList
  | .eval e => [e]
  | .yield e => [e]
  | .ite cond _ _ => [cond]
  | .whileLoop cond _ => [cond]
  | .forLoop _ cond step _ => cond.toList ++ step
  | .foreach _ collection _ => [collection]
  | .switch scrutinee _ _ => [scrutinee]
  | _ => []

mutual
/-- The statement and those nested in it, without entering a statement that `prune` accepts. -/
def preorder (prune : Stmt → Bool) (s : Stmt) : List Stmt :=
  s :: if prune s then [] else
    match s with
    | .block body => preorderAll prune body
    | .ite _ yes none => preorderAll prune yes
    | .ite _ yes (some no) => preorderAll prune yes ++ preorderAll prune no
    | .whileLoop _ body => preorderAll prune body
    | .forLoop init _ _ body => preorderAll prune init ++ preorderAll prune body
    | .foreach _ _ body => preorderAll prune body
    | .switch _ cases none => preorderCases prune cases
    | .switch _ cases (some default) =>
      preorderCases prune cases ++ preorderAll prune default
    | .tryFinally body cleanup => preorderAll prune body ++ preorderAll prune cleanup
    | _ => []

def preorderAll (prune : Stmt → Bool) : List Stmt → List Stmt
  | [] => []
  | s :: rest => preorder prune s ++ preorderAll prune rest

def preorderCases (prune : Stmt → Bool) : List (List Int64 × List Stmt) → List Stmt
  | [] => []
  | (_, body) :: rest => preorderAll prune body ++ preorderCases prune rest
end

mutual
/-- Number of suspension points at any depth. -/
def suspensions : Stmt → Nat
  | .block body => suspensionsAll body
  | .declare _ _ => 0
  | .eval _ => 0
  | .ite _ yes none => suspensionsAll yes
  | .ite _ yes (some no) => suspensionsAll yes + suspensionsAll no
  | .whileLoop _ body => suspensionsAll body
  | .forLoop init _ _ body => suspensionsAll init + suspensionsAll body
  | .foreach _ _ body => suspensionsAll body
  | .switch _ cases none => suspensionsCases cases
  | .switch _ cases (some default) => suspensionsCases cases + suspensionsAll default
  | .tryFinally body cleanup => suspensionsAll body + suspensionsAll cleanup
  | .breakOut => 0
  | .continueLoop => 0
  | .yield _ => 1
  | .stop => 0

def suspensionsAll : List Stmt → Nat
  | [] => 0
  | s :: rest => suspensions s + suspensionsAll rest

def suspensionsCases : List (List Int64 × List Stmt) → Nat
  | [] => 0
  | (_, body) :: rest => suspensionsAll body + suspensionsCases rest
end

def suspends (s : Stmt) : Bool := s.suspensions ≠ 0

end Stmt

namespace Block

def preorder (body : Block) : List Stmt := Stmt.preorderAll (fun _ => false) body

/-- Every expression of the body, at any depth. -/
def subexprs (body : Block) : List Expr :=
  (preorder body).flatMap fun s => s.exprs.flatMap Expr.subexprs

def suspensions (body : Block) : Nat := Stmt.suspensionsAll body

def suspends (body : Block) : Bool := suspensions body ≠ 0

end Block

/-- The variables that an assignment somewhere in the body targets, in order. -/
def Block.assignedVars (body : Block) : List Var :=
  sortedSet Var.before <| (subexprs body).filterMap fun
    | .assign target _ => some target
    | _ => none

/-- The members of a list up to and including the first that `stop` accepts. -/
def takeThrough {α : Type} (stop : α → Bool) : List α → List α
  | [] => []
  | a :: rest => if stop a then [a] else a :: takeThrough stop rest

end Resumable
