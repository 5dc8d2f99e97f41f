import Resumable.Checked
import Resumable.Method.Basic
import Resumable.Table
import Resumable.Value.Operators

/-!
What an iterator method means: its body is run directly, and what a consumer
would observe is recorded. A run may be asked to leave the body after a number of
values, the way disposal does: the enclosing cleanup blocks still run.

Every statement and every turn of a loop costs one unit of fuel, so a loop that
starts with `n` units makes at most `n` turns.
-/

namespace Resumable.Structured

/-- How control leaves a statement. -/
inductive Flow where
  | next
  | breaking
  | continuing
  /-- Leaves the whole body. -/
  | stopping
deriving DecidableEq

structure State where
  vars : Table Var Value
  values : Array Value
  calls : Array HostCall
  fuel : Nat
  /-- The identity of the next array. -/
  arrays : Nat

abbrev Run := EStateM EvalError State

def burn : Run Unit := fun state =>
  match state.fuel with
  | 0 => .error .outOfFuel state
  | fuel + 1 => .ok () { state with fuel := fuel }

def readVar (var : Var) : Run Value := fun state =>
  match state.vars.get? var with
  | some value => .ok value state
  | none => .error (.malformed (.unassignedVar var)) state

def assignVar (var : Var) (value : Value) : Run Unit := fun state =>
  .ok () { state with vars := state.vars.set var value }

def newArray (items : List Value) : Run Value := fun state =>
  .ok (.array state.arrays items) { state with arrays := state.arrays + 1 }

def callHost (callee : String) (args : List Value) : Run Unit := fun state =>
  .ok () { state with calls := state.calls.push ⟨callee, args⟩ }

/-- Records a value and says whether the limit is reached. -/
def produce (limit : Option Nat) (value : Value) : Run Bool := fun state =>
  let values := state.values.push value
  .ok (limit = some values.size) { state with values := values }

mutual
def evalExpr : Expr → Run Value
  | .int value => return .int value
  | .bool value => return .bool value
  | .str value => return .str value
  | .null => return .null
  | .var var => readVar var
  | .assign var value => do
    let value ← evalExpr value
    assignVar var value
    return value
  | .unary op operand => do
    let operand ← evalExpr operand
    checked (Value.unary op operand)
  | .binary .and left right => do
    let left ← evalExpr left
    let holds ← checked left.asBool
    if holds then do
      let right ← evalExpr right
      let holds ← checked right.asBool
      return .bool holds
    else return .bool false
  | .binary .or left right => do
    let left ← evalExpr left
    let holds ← checked left.asBool
    if holds then return .bool true
    else do
      let right ← evalExpr right
      let holds ← checked right.asBool
      return .bool holds
  | .binary op left right => do
    let left ← evalExpr left
    let right ← evalExpr right
    checked (Value.binary op left right)
  | .array items => do
    let items ← evalExprs items
    newArray items
  | .index base position => do
    let base ← evalExpr base
    let position ← evalExpr position
    checked (Value.index base position)
  | .len base => do
    let base ← evalExpr base
    checked (Value.len base)
  | .call callee args => do
    let args ← evalExprs args
    callHost callee args
    return .null

def evalExprs : List Expr → Run (List Value)
  | [] => return []
  | e :: rest => do
    let value ← evalExpr e
    let rest ← evalExprs rest
    return value :: rest
end

/-- A condition; an absent one holds. -/
def holds : Option Expr → Run Bool
  | none => return true
  | some cond => do
    let value ← evalExpr cond
    checked value.asBool

/-- How a loop goes on after its body: another turn, or leave with a flow. -/
def afterBody : Flow → Option Flow
  | .next => none
  | .continuing => none
  | .breaking => some .next
  | .stopping => some .stopping

/-- Makes turns, at most `bound`, until one of them says how to leave the loop. -/
def repeatTurns (turn : Run (Option Flow)) : Nat → Run Flow
  | 0 => throw .outOfFuel
  | bound + 1 => do
    match ← turn with
    | none => repeatTurns turn bound
    | some flow => return flow

/-- A loop that pays for each turn, and so cannot make more turns than there is fuel. -/
def loop (turn : Run (Option Flow)) : Run Flow := fun state =>
  repeatTurns turn (state.fuel + 1) state

def whileTurn (cond : Expr) (body : Run Flow) : Run (Option Flow) := do
  if ← holds (some cond) then do
    burn
    let flow ← body
    return afterBody flow
  else return some .next

def forTurn (cond : Option Expr) (step : List Expr) (body : Run Flow) : Run (Option Flow) := do
  burn
  if ← holds cond then do
    let flow ← body
    match afterBody flow with
    | some flow => return some flow
    | none => do
      let _ ← evalExprs step
      return none
  else return some .next

/-- Runs the body once per item. -/
def eachItem (id : LocalId) (body : Run Flow) : List Value → Run Flow
  | [] => return .next
  | item :: rest => do
    burn
    assignVar (.loc id) item
    let flow ← body
    match afterBody flow with
    | some flow => return flow
    | none => eachItem id body rest

/-- How many positions lie below a length. Lengths, like positions, are 64 bit integers. -/
def reach (length : Nat) : Nat := (Int64.ofNat length).toInt.toNat

/-- Only arrays have items. A string has a length, so the empty one passes for no items. -/
def foreachTurns (id : LocalId) (body : Run Flow) : Value → Run Flow
  | .array _ items => eachItem id body (items.take (reach items.length))
  | .str text =>
    if reach text.length = 0 then return .next
    else do
      burn
      checked (Value.mismatch .array (.str text))
  | other => checked (Value.mismatch .array other)

/-- Leaving a switch by a break is leaving it normally. -/
def afterSwitch : Flow → Flow
  | .breaking => .next
  | flow => flow

mutual
def execStmt (method : Method) (limit : Option Nat) : Stmt → Run Flow
  | .block body => do
    burn
    execBlock method limit body
  | .declare id (some init) => do
    burn
    let value ← evalExpr init
    assignVar (.loc id) value
    return .next
  | .declare id none => do
    burn
    match method.varType? (.loc id) with
    | some ty => do
      assignVar (.loc id) ty.default
      return .next
    | none => throw (.malformed (.undeclaredLocal id))
  | .eval value => do
    burn
    let _ ← evalExpr value
    return .next
  | .ite cond yes none => do
    burn
    if ← holds (some cond) then execBlock method limit yes else return .next
  | .ite cond yes (some no) => do
    burn
    if ← holds (some cond) then execBlock method limit yes else execBlock method limit no
  | .whileLoop cond body => do
    burn
    loop (whileTurn cond (execBlock method limit body))
  | .forLoop init cond step body => do
    burn
    execInit method limit init
    loop (forTurn cond step (execBlock method limit body))
  | .foreach id collection body => do
    burn
    let collection ← evalExpr collection
    foreachTurns id (execBlock method limit body) collection
  | .switch scrutinee cases none => do
    burn
    let value ← evalExpr scrutinee
    let value ← checked value.asInt
    let flow ← execCases method limit value (pure .next) cases
    return afterSwitch flow
  | .switch scrutinee cases (some default) => do
    burn
    let value ← evalExpr scrutinee
    let value ← checked value.asInt
    let flow ← execCases method limit value (execBlock method limit default) cases
    return afterSwitch flow
  | .tryFinally body cleanup => do
    burn
    let flow ← execBlock method limit body
    let left ← execBlock method limit cleanup
    if left = .next then return flow else throw (.malformed .leftCleanup)
  | .breakOut => do
    burn
    return .breaking
  | .continueLoop => do
    burn
    return .continuing
  | .yield value => do
    burn
    let value ← evalExpr value
    let reached ← produce limit value
    return if reached then .stopping else .next
  | .stop => do
    burn
    return .stopping

def execBlock (method : Method) (limit : Option Nat) : List Stmt → Run Flow
  | [] => return .next
  | s :: rest => do
    let flow ← execStmt method limit s
    if flow = .next then execBlock method limit rest else return flow

/-- The header of a for loop: how control leaves its statements does not matter. -/
def execInit (method : Method) (limit : Option Nat) : List Stmt → Run Unit
  | [] => return ()
  | s :: rest => do
    let _ ← execStmt method limit s
    execInit method limit rest

/-- The first case that lists the value, else `otherwise`. -/
def execCases (method : Method) (limit : Option Nat) (value : Int64) (otherwise : Run Flow) :
    List (List Int64 × List Stmt) → Run Flow
  | [] => otherwise
  | (values, body) :: rest =>
    if value ∈ values then execBlock method limit body
    else execCases method limit value otherwise rest
end

/-- What a consumer observes. -/
structure Observation where
  values : List Value
  calls : List HostCall
  /-- Whether the body ended before the limit was reached. -/
  completed : Bool

def defaultFuel : Nat := 100000

def bindParams (args : List Value) : Table Var Value :=
  .ofList (args.zipIdx.map fun entry => (.param entry.2, entry.1))

def startState (receiver : Option Value) (args : List Value) (fuel arrays : Nat) : State where
  vars :=
    match receiver with
    | none => bindParams args
    | some value => (bindParams args).set .receiver value
  values := #[]
  calls := #[]
  fuel := fuel
  arrays := arrays

def runBody (method : Method) (limit : Option Nat) : Run Unit := do
  match ← execBlock method limit method.body with
  | .breaking => throw (.malformed (.breakEscaped method.name))
  | .continuing => throw (.malformed (.continueEscaped method.name))
  | .next => return ()
  | .stopping => return ()

/-- Runs the body with the given fuel; `arrays` is the first identity for new arrays. With a limit
of zero nothing runs at all. -/
def run (method : Method) (receiver : Option Value) (args : List Value) (limit : Option Nat)
    (fuel arrays : Nat) : Except EvalError Observation :=
  if limit = some 0 then .ok ⟨[], [], false⟩
  else
    match runBody method limit (startState receiver args fuel arrays) with
    | .error e _ => .error e
    | .ok () state =>
      .ok ⟨state.values.toList, state.calls.toList,
        limit.all fun limit => state.values.size < limit⟩

end Resumable.Structured
