import Resumable.Lowering.Error

/-!
The structural check: jumps have a target inside their cleanup block or body,
cleanup blocks do not suspend or stop, and every variable is declared.
-/

namespace Resumable.Lowering

/-- What surrounds a statement, up to the innermost cleanup block or the body. -/
structure Surroundings where
  inLoop : Bool
  breakable : Bool
  inCleanup : Bool

namespace Surroundings

def body : Surroundings := ⟨false, false, false⟩

def cleanup : Surroundings := ⟨false, false, true⟩

def loop (around : Surroundings) : Surroundings := { around with inLoop := true, breakable := true }

def switch (around : Surroundings) : Surroundings := { around with breakable := true }

end Surroundings

abbrev Check := Except LowerError Unit

def misplaced (method : Method) (around : Surroundings) (word : JumpWord) : Check :=
  .error <| .internal <|
    if around.inCleanup then .jumpLeavesCleanup word method.name
    else .jumpOutsideLoop word method.name

def checkVar (method : Method) (var : Var) : Check :=
  if (method.varType? var).isSome then .ok ()
  else .error (.internal (.undeclaredVar method.name var))

mutual
def checkExpr (method : Method) : Expr → Check
  | .int _ | .bool _ | .str _ | .null => .ok ()
  | .var var => checkVar method var
  | .assign var value => do
    checkVar method var
    checkExpr method value
  | .unary _ operand => checkExpr method operand
  | .binary _ left right => do
    checkExpr method left
    checkExpr method right
  | .array items => checkExprs method items
  | .index base position => do
    checkExpr method base
    checkExpr method position
  | .len base => checkExpr method base
  | .call _ args => checkExprs method args

def checkExprs (method : Method) : List Expr → Check
  | [] => .ok ()
  | e :: rest => do
    checkExpr method e
    checkExprs method rest
end

mutual
def checkStmt (method : Method) (around : Surroundings) : Stmt → Check
  | .block body => checkBlock method around body
  | .declare id init => do
    checkVar method (.loc id)
    checkExprs method init.toList
  | .eval value => checkExpr method value
  | .ite cond yes none => do
    checkExpr method cond
    checkBlock method around yes
  | .ite cond yes (some no) => do
    checkExpr method cond
    checkBlock method around yes
    checkBlock method around no
  | .whileLoop cond body => do
    checkExpr method cond
    checkBlock method around.loop body
  | .forLoop init cond step body => do
    checkBlock method around init
    checkExprs method cond.toList
    checkExprs method step
    checkBlock method around.loop body
  | .foreach id collection body => do
    checkVar method (.loc id)
    checkExpr method collection
    checkBlock method around.loop body
  | .switch scrutinee cases none => do
    checkExpr method scrutinee
    checkCases method around.switch cases
  | .switch scrutinee cases (some default) => do
    checkExpr method scrutinee
    checkCases method around.switch cases
    checkBlock method around.switch default
  | .tryFinally body cleanup => do
    checkBlock method around body
    checkBlock method .cleanup cleanup
  | .breakOut => if around.breakable then .ok () else misplaced method around .breakOut
  | .continueLoop => if around.inLoop then .ok () else misplaced method around .continueLoop
  | .yield value =>
    if around.inCleanup then .error (.internal (.yieldInCleanup method.name))
    else checkExpr method value
  | .stop =>
    if around.inCleanup then .error (.internal (.stopInCleanup method.name)) else .ok ()

def checkBlock (method : Method) (around : Surroundings) : List Stmt → Check
  | [] => .ok ()
  | s :: rest => do
    checkStmt method around s
    checkBlock method around rest

def checkCases (method : Method) (around : Surroundings) : List (List Int64 × List Stmt) → Check
  | [] => .ok ()
  | (_, body) :: rest => do
    checkBlock method around body
    checkCases method around rest
end

def checkStructure (method : Method) : Check :=
  checkBlock method .body method.body

end Resumable.Lowering
