import Resumable.EvalError
import Resumable.Ty

/-!
Operators on values. Integers have 64 bits and wrap around; division truncates.
-/

namespace Resumable

/-- The value with which storage of a type starts. -/
def Ty.default : Ty → Value
  | .int => .int 0
  | .bool => .bool false
  | _ => .null

namespace Value

def mismatch {α : Type} (expected : ValueKind) (found : Value) : Except EvalError α :=
  .error (.typeMismatch expected found.kind)

def asInt : Value → Except EvalError Int64
  | .int value => .ok value
  | other => mismatch .int other

def asBool : Value → Except EvalError Bool
  | .bool value => .ok value
  | other => mismatch .bool other

def asObject : Value → Except EvalError Nat
  | .object reference => .ok reference
  | other => mismatch .object other

def unary : UnaryOp → Value → Except EvalError Value
  | .neg, operand => do
    let n ← operand.asInt
    return .int (-n)
  | .not, operand => do
    let b ← operand.asBool
    return .bool !b

/-- Applies `op` to two integers, checking the left one first. -/
def arithmetic (op : Int64 → Int64 → Value) (left right : Value) : Except EvalError Value := do
  let a ← left.asInt
  let b ← right.asInt
  return op a b

def divide (op : Int64 → Int64 → Int64) (left right : Value) : Except EvalError Value := do
  let a ← left.asInt
  let b ← right.asInt
  if b = 0 then .error .divisionByZero else return .int (op a b)

/-- A left operand other than `neutral` decides; the right one then need not be a boolean. -/
def logical (neutral : Bool) (left right : Value) : Except EvalError Value := do
  let a ← left.asBool
  if a = neutral then do
    let b ← right.asBool
    return .bool b
  else return .bool a

/-- Operators on evaluated operands. -/
def binary : BinaryOp → Value → Value → Except EvalError Value
  | .eq, left, right => .ok (.bool (left.equals right))
  | .ne, left, right => .ok (.bool !(left.equals right))
  | .and, left, right => logical true left right
  | .or, left, right => logical false left right
  | .add, .str a, .str b => .ok (.str (a ++ b))
  | .add, left, right => arithmetic (fun a b => .int (a + b)) left right
  | .sub, left, right => arithmetic (fun a b => .int (a - b)) left right
  | .mul, left, right => arithmetic (fun a b => .int (a * b)) left right
  | .div, left, right => divide (· / ·) left right
  | .rem, left, right => divide (· % ·) left right
  | .lt, left, right => arithmetic (fun a b => .bool (decide (a < b))) left right
  | .le, left, right => arithmetic (fun a b => .bool (decide (a ≤ b))) left right
  | .gt, left, right => arithmetic (fun a b => .bool (decide (b < a))) left right
  | .ge, left, right => arithmetic (fun a b => .bool (decide (b ≤ a))) left right

/-- Negative positions are out of bounds like those past the end. -/
def item (items : List Value) (position : Int64) : Except EvalError Value :=
  if position < 0 then .error (.indexOutOfBounds position items.length)
  else
    match items[position.toInt.toNat]? with
    | some value => .ok value
    | none => .error (.indexOutOfBounds position items.length)

def index : Value → Value → Except EvalError Value
  | .array _ items, position => do
    let i ← position.asInt
    item items i
  | other, _ => mismatch .array other

/-- Number of items of an array, or of characters of a string. -/
def len : Value → Except EvalError Value
  | .array _ items => .ok (.int (Int64.ofNat items.length))
  | .str text => .ok (.int (Int64.ofNat text.length))
  | other => mismatch .array other

end Value
end Resumable
