import Resumable.Checked
import Resumable.Method.Basic
import Resumable.Platform

/-!
Why a method cannot be lowered. A missing platform member is the platform's
affair and leaves the method as it is; every other cause is a fault of the input.
-/

namespace Resumable

/-- The two statements that jump to an enclosing loop or switch. -/
inductive JumpWord where
  | breakOut
  | continueLoop
deriving DecidableEq

def JumpWord.text : JumpWord → String
  | .breakOut => "break"
  | .continueLoop => "continue"

inductive Fault where
  | suspendsWithoutContract (method : String)
  | notIterator (method : String)
  | returnArity (returnType : Ty)
  | returnNotIterator (returnType : Ty) (method : String)
  | yieldInCleanup (method : String)
  | stopInCleanup (method : String)
  | jumpLeavesCleanup (word : JumpWord) (method : String)
  | jumpOutsideLoop (word : JumpWord) (method : String)
  | undeclaredVar (method : String) (var : Var)
  | undeclaredLoopVar (method : String) (id : LocalId)
  | undeclaredTypeParam (ty : Ty)
  | mixedTypeParams (ty : Ty)
  | noSymbol (var : Var)
  | noParameter (index : Nat)
  | undeclaredLocal (id : LocalId)
  | foreachLeft
  | exitLeavesCleanup (method : String)
  | exitWithoutTarget (method : String)
  | notInField (var : Var)
  | noThreadIdentity
  | proxyWithoutSlot (index : Nat)
  | threadFieldUnreadable
  | receiverWithoutSlot
  | parameterWithoutSlot (index : Nat)

namespace Fault

def ticked (text : String) : String := "`" ++ text ++ "`"

def message : Fault → String
  | .suspendsWithoutContract method =>
    ticked method ++ " suspends but does not return an enumerator or enumerable"
  | .notIterator method => ticked method ++ " is not an iterator method"
  | .returnArity ty =>
    "iterator return type " ++ ticked ty.text ++ " must have exactly one type argument"
  | .returnNotIterator ty method =>
    "return type " ++ ticked ty.text ++ " of " ++ ticked method ++ " is not an iterator"
  | .yieldInCleanup method => "suspension point inside a cleanup block of " ++ ticked method
  | .stopInCleanup method => "`yield break` inside a cleanup block of " ++ ticked method
  | .jumpLeavesCleanup word method =>
    ticked word.text ++ " escapes a cleanup block of " ++ ticked method
  | .jumpOutsideLoop word method =>
    ticked word.text ++ " outside of any enclosing loop in " ++ ticked method
  | .undeclaredVar method var =>
    ticked method ++ " refers to an undeclared variable " ++ var.text
  | .undeclaredLoopVar method id =>
    "`foreach` in " ++ ticked method ++ " iterates with an undeclared variable " ++ localText id
  | .undeclaredTypeParam ty => "type " ++ ticked ty.text ++ " names an undeclared type parameter"
  | .mixedTypeParams ty => "inconsistent substitution of " ++ ticked ty.text
  | .noSymbol var => "no symbol for " ++ var.text
  | .noParameter index => "no parameter at index " ++ toString index
  | .undeclaredLocal id => "undeclared local " ++ localText id
  | .foreachLeft => "`foreach` must be desugared before linearization"
  | .exitLeavesCleanup method => "jump escapes a cleanup block of " ++ ticked method
  | .exitWithoutTarget method => "jump without an enclosing target in " ++ ticked method
  | .notInField var => var.text ++ " must live in a field of the state machine"
  | .noThreadIdentity => "enumerable state machine without a thread identity"
  | .proxyWithoutSlot index =>
    "parameter " ++ toString index ++ " has a proxy but no slot"
  | .threadFieldUnreadable => "thread identity field without a way to read it"
  | .receiverWithoutSlot => "receiver was not hoisted"
  | .parameterWithoutSlot index => "parameter " ++ toString index ++ " was not hoisted"

end Fault

inductive LowerError where
  | missingMember (member : Member)
  | internal (fault : Fault)

namespace LowerError

def message : LowerError → String
  | .missingMember member => "Missing required platform member: " ++ member.purpose
  | .internal fault => "Internal error in iterator lowering: " ++ fault.message

/-- Whether the platform, and not the method, is at fault. -/
def isPrecondition : LowerError → Bool
  | .missingMember _ => true
  | .internal _ => false

end LowerError

/-- Steps of the lowering that may fail and that update `σ` even then. -/
abbrev Lower (σ : Type) := EStateM LowerError σ

namespace Lower
variable {σ α : Type}

def fail (fault : Fault) : Lower σ α := throw (.internal fault)

def require (fault : Fault) : Option α → Except LowerError α
  | some a => .ok a
  | none => .error (.internal fault)

end Lower
end Resumable
