import Resumable.Text.Quoted

/-!
Values of running methods. An array is its items together with an identity, since
arrays are never changed but can be told apart; an object is a reference to a
state-machine instance.
-/

namespace Resumable

inductive ValueKind where
  | int
  | bool
  | string
  | null
  | array
  | object
deriving DecidableEq

def ValueKind.text : ValueKind → String
  | .int => "int"
  | .bool => "bool"
  | .string => "string"
  | .null => "null"
  | .array => "array"
  | .object => "object"

inductive Value where
  | int (value : Int64)
  | bool (value : Bool)
  | str (value : String)
  | null
  | array (identity : Nat) (items : List Value)
  | object (reference : Nat)

namespace Value

def kind : Value → ValueKind
  | .int _ => .int
  | .bool _ => .bool
  | .str _ => .string
  | .null => .null
  | .array _ _ => .array
  | .object _ => .object

/-- Equality as a program sees it: arrays and objects are equal only to themselves. -/
def equals : Value → Value → Bool
  | .int a, .int b => a = b
  | .bool a, .bool b => a = b
  | .str a, .str b => a = b
  | .null, .null => true
  | .array a _, .array b _ => a = b
  | .object a, .object b => a = b
  | _, _ => false

def sameInstance : Value → Value → Bool
  | .object a, .object b => a = b
  | _, _ => false

mutual
def text : Value → String
  | .int value => toString value.toInt
  | .bool value => if value then "true" else "false"
  | .str value => Text.quoted value
  | .null => "null"
  | .array _ items => "[" ++ ", ".intercalate (texts items) ++ "]"
  | .object _ => "<object>"

def texts : List Value → List String
  | [] => []
  | value :: rest => text value :: texts rest
end

end Value

/-- A call of a host function. -/
structure HostCall where
  callee : String
  args : List Value

def HostCall.text (call : HostCall) : String :=
  call.callee ++ "(" ++ ", ".intercalate (Value.texts call.args) ++ ")"

end Resumable
