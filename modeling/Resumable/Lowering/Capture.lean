import Resumable.Method.Basic
import Resumable.Method.Visit

/-!
Which variables live in fields. The receiver and the parameters always do. A
local does when the scope that declares it, a block or the header of a loop,
contains a suspension point.
-/

namespace Resumable.Lowering

structure Capture where
  /-- The receiver, then the parameters, then locals in the order of declaration. -/
  hoisted : List Var
  /-- Parameters that the body assigns. -/
  assignedParams : List Nat

/-- The local that a statement declares in its own scope. -/
def declared : Stmt → List LocalId
  | .declare id _ => [id]
  | _ => []

mutual
/-- Locals to hoist from the scopes nested in a statement. -/
def hoistedStmt (policy : HoistPolicy) : Stmt → List LocalId
  | .block body => hoistedScope policy (Block.suspends body) body
  | .ite _ yes none => hoistedScope policy (Block.suspends yes) yes
  | .ite _ yes (some no) =>
    hoistedScope policy (Block.suspends yes) yes ++ hoistedScope policy (Block.suspends no) no
  | .whileLoop _ body => hoistedScope policy (Block.suspends body) body
  | .forLoop init _ _ body =>
    hoistedScope policy (Block.suspends init || Block.suspends body) init ++
      hoistedScope policy (Block.suspends body) body
  | .foreach id _ body =>
    (if policy.hoists (Block.suspends body) then [id] else []) ++
      hoistedScope policy (Block.suspends body) body
  | .switch _ cases none => hoistedCases policy cases
  | .switch _ cases (some default) =>
    hoistedCases policy cases ++ hoistedScope policy (Block.suspends default) default
  | .tryFinally body cleanup =>
    hoistedScope policy (Block.suspends body) body ++
      hoistedScope policy (Block.suspends cleanup) cleanup
  | .declare _ _ | .eval _ | .breakOut | .continueLoop | .yield _ | .stop => []

/-- Locals to hoist from the rest of a scope that suspends or does not. -/
def hoistedScope (policy : HoistPolicy) (suspends : Bool) : List Stmt → List LocalId
  | [] => []
  | s :: rest =>
    (if policy.hoists suspends then declared s else []) ++
      hoistedStmt policy s ++ hoistedScope policy suspends rest

def hoistedCases (policy : HoistPolicy) : List (List Int64 × List Stmt) → List LocalId
  | [] => []
  | (_, body) :: rest =>
    hoistedScope policy (Block.suspends body) body ++ hoistedCases policy rest
end

/-- Locals to hoist, each once, in the order of their first declaration. -/
def hoistedLocals (policy : HoistPolicy) (body : Block) : List LocalId :=
  (hoistedScope policy (Block.suspends body) body).eraseDups

def assignedParams (body : Block) : List Nat :=
  body.assignedVars.filterMap fun
    | .param index => some index
    | _ => none

def capture (method : Method) (policy : HoistPolicy) : Capture where
  hoisted :=
    (if method.receiver.isSome then [.receiver] else []) ++
      (List.range method.params.length).map Var.param ++
      (hoistedLocals policy method.body).map Var.loc
  assignedParams := assignedParams method.body

end Resumable.Lowering
