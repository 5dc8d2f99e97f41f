import Resumable.Machine.Code
import Resumable.Value

/-!
Ways in which running a method or a state machine fails.
-/

namespace Resumable

/-- Why a program makes no sense, as opposed to failing on its data. -/
inductive Malformation where
  | kickoffWithoutResult
  | noStateField
  | stateFieldMissing
  | undefinedLabel (label : Machine.Label)
  | noArgument (index : Nat)
  | unassignedFrameVar (id : LocalId)
  | noField (id : Machine.FieldId)
  | unassignedVar (var : Var)
  | undeclaredLocal (id : LocalId)
  | breakEscaped (method : String)
  | continueEscaped (method : String)
  | leftCleanup

def Malformation.message : Malformation → String
  | .kickoffWithoutResult => "kick-off returned nothing"
  | .noStateField => "no state field"
  | .stateFieldMissing => "state field missing"
  | .undefinedLabel label => "undefined label " ++ Machine.labelText label
  | .noArgument index => "no argument " ++ toString index
  | .unassignedFrameVar id => "read of unassigned local " ++ localText id
  | .noField id => "no field " ++ toString id
  | .unassignedVar var => "read of unassigned " ++ var.text
  | .undeclaredLocal id => "undeclared " ++ localText id
  | .breakEscaped method => "Break escaped the body of `" ++ method ++ "`"
  | .continueEscaped method => "Continue escaped the body of `" ++ method ++ "`"
  | .leftCleanup => "control left a cleanup block"

inductive EvalError where
  /-- The not-supported exception of the platform was thrown. -/
  | notSupported (path : String)
  | thrown (path : String)
  | typeMismatch (expected found : ValueKind)
  | indexOutOfBounds (index : Int64) (length : Nat)
  | divisionByZero
  | unknownMethod (name : String)
  | malformed (cause : Malformation)
  | outOfFuel

def EvalError.message : EvalError → String
  | .notSupported path => "operation not supported (" ++ path ++ ")"
  | .thrown path => "exception thrown by " ++ path
  | .typeMismatch expected found =>
    "type mismatch: expected " ++ expected.text ++ ", found " ++ found.text
  | .indexOutOfBounds index length =>
    "index " ++ toString index.toInt ++ " out of bounds for length " ++ toString length
  | .divisionByZero => "division by zero"
  | .unknownMethod name => "no method `" ++ name ++ "` on the state machine"
  | .malformed cause => "malformed program: " ++ cause.message
  | .outOfFuel => "ran out of fuel"

end Resumable
