import Resumable.Method.Expr
import Resumable.Platform

/-!
Flat code: routines of a state machine are lists of instructions, and all
control flow is by jumps to labels of the same list.
-/

namespace Resumable.Machine

abbrev FieldId := Nat

abbrev Label := Nat

def labelText (label : Label) : String := "L" ++ toString label

/-- Assignable storage. -/
inductive Place where
  /-- A field of the executing instance. -/
  | field (id : FieldId)
  /-- A field of the instance held by a frame variable. -/
  | fieldOf (holder : LocalId) (id : FieldId)
  /-- A frame variable. -/
  | frame (id : LocalId)
deriving DecidableEq

/-- How code learns the identity of the current thread. -/
inductive ThreadSource where
  | accessor (member : MemberRef)
  | viaThread (currentThread threadId : MemberRef)
deriving DecidableEq

inductive Term where
  | int (value : Int64)
  | bool (value : Bool)
  | str (value : String)
  | null
  | load (place : Place)
  /-- The instance, or the receiver of a kick-off routine. -/
  | self
  | param (index : Nat)
  | assign (place : Place) (value : Term)
  | unary (op : UnaryOp) (operand : Term)
  | binary (op : BinaryOp) (left right : Term)
  | array (items : List Term)
  | index (base position : Term)
  | len (base : Term)
  | call (callee : String) (args : List Term)
  /-- Runs a routine of the machine on the executing instance. -/
  | callSelf (routine : String)
  /-- Builds a new instance of the machine. -/
  | construct (args : List Term)
  | threadId (source : ThreadSource)

inductive Instr where
  | label (label : Label)
  | goto (target : Label)
  | gotoUnless (cond : Term) (target : Label)
  | switch (value : Term) (cases : List (Int64 × Label)) (default : Label)
  | assign (place : Place) (value : Term)
  | eval (value : Term)
  | ret (value : Option Term)
  /-- Throws the exception built by a constructor of the platform. -/
  | raise (constructor : MemberRef)

abbrev Code := List Instr

def Term.field (id : FieldId) : Term := .load (.field id)

def Instr.setField (id : FieldId) (value : Term) : Instr := .assign (.field id) value

namespace Place

/-- The frame variables that a place refers to. -/
def frameVars : Place → List LocalId
  | .field _ => []
  | .fieldOf holder _ => [holder]
  | .frame id => [id]

end Place

namespace Term

mutual
def frameVars : Term → List LocalId
  | .load place => place.frameVars
  | .assign place value => place.frameVars ++ frameVars value
  | .unary _ operand => frameVars operand
  | .binary _ left right => frameVars left ++ frameVars right
  | .array items => frameVarsAll items
  | .index base position => frameVars base ++ frameVars position
  | .len base => frameVars base
  | .call _ args => frameVarsAll args
  | .construct args => frameVarsAll args
  | _ => []

def frameVarsAll : List Term → List LocalId
  | [] => []
  | e :: rest => frameVars e ++ frameVarsAll rest
end

end Term

def Instr.frameVars : Instr → List LocalId
  | .gotoUnless cond _ => cond.frameVars
  | .switch value _ _ => value.frameVars
  | .assign place value => place.frameVars ++ value.frameVars
  | .eval value => value.frameVars
  | .ret (some value) => value.frameVars
  | _ => []

namespace Code

def frameVars (code : Code) : List LocalId := code.flatMap Instr.frameVars

/-- The code from a label on. When a label is placed twice the last place counts. -/
def from? (target : Label) : Code → Option Code
  | [] => none
  | instr :: rest =>
    match from? target rest with
    | some found => some found
    | none =>
      match instr with
      | .label l => if l = target then some (instr :: rest) else none
      | _ => none

end Code
end Resumable.Machine
