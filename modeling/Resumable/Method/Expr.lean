/-!
Variables, operators and expressions of iterator methods. Calls go to host
functions and are the only observable effects.
-/

namespace Resumable

/-- Identity of a local variable within one method. -/
abbrev LocalId := Nat

def localText (id : LocalId) : String := "%" ++ toString id

inductive Var where
  | receiver
  | param (index : Nat)
  | loc (id : LocalId)
deriving DecidableEq

namespace Var

def text : Var → String
  | .receiver => "Receiver"
  | .param index => "Param(" ++ toString index ++ ")"
  | .loc id => "Local(LocalId(" ++ toString id ++ "))"

/-- The receiver comes first, then parameters by position, then locals by identity. -/
def before : Var → Var → Bool
  | .receiver, .receiver => false
  | .receiver, _ => true
  | .param _, .receiver => false
  | .param i, .param j => i < j
  | .param _, .loc _ => true
  | .loc i, .loc j => i < j
  | .loc _, _ => false

end Var

inductive UnaryOp where
  | neg
  | not
deriving DecidableEq

def UnaryOp.symbol : UnaryOp → String
  | .neg => "-"
  | .not => "!"

inductive BinaryOp where
  | add
  | sub
  | mul
  | div
  | rem
  | eq
  | ne
  | lt
  | le
  | gt
  | ge
  | and
  | or
deriving DecidableEq

def BinaryOp.symbol : BinaryOp → String
  | .add => "+"
  | .sub => "-"
  | .mul => "*"
  | .div => "/"
  | .rem => "%"
  | .eq => "=="
  | .ne => "!="
  | .lt => "<"
  | .le => "<="
  | .gt => ">"
  | .ge => ">="
  | .and => "&&"
  | .or => "||"

inductive Expr where
  | int (value : Int64)
  | bool (value : Bool)
  | str (value : String)
  | null
  | var (source : Var)
  | assign (target : Var) (value : Expr)
  | unary (op : UnaryOp) (operand : Expr)
  | binary (op : BinaryOp) (left right : Expr)
  | array (items : List Expr)
  | index (base position : Expr)
  | len (base : Expr)
  | call (callee : String) (args : List Expr)

namespace Expr

def ofLocal (id : LocalId) : Expr := .var (.loc id)

end Expr
end Resumable
