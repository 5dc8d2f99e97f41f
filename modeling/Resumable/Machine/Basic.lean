import Resumable.Machine.Code
import Resumable.Machine.State
import Resumable.Method.Basic

/-!
State machines: the type that replaces the body of an iterator method.
-/

namespace Resumable

namespace Machine

/-- Why a field exists. -/
inductive Role where
  | state
  | current
  /-- The thread that built the instance; enumerables only. -/
  | initialThread
  /-- Storage of a variable of the method. -/
  | hoisted (source : Var)
  /-- The argument given for a parameter that the body assigns. -/
  | proxy (index : Nat)
deriving DecidableEq

/-- Whether a copy of the instance receives the field. -/
def Role.isCaptured : Role → Bool
  | .hoisted _ => true
  | .proxy _ => true
  | _ => false

structure Field where
  id : FieldId
  name : String
  ty : Ty
  role : Role
  visibility : Visibility
  readonly : Bool

inductive RoutineKind where
  | constructor
  | kickoff
  | moveNext
  | currentGeneric
  | currentObject
  | dispose
  | reset
  | getEnumeratorGeneric
  | getEnumeratorObject
  /-- The cleanup block of a region that can suspend. -/
  | cleanup
deriving DecidableEq

def RoutineKind.text : RoutineKind → String
  | .constructor => "Constructor"
  | .kickoff => "Kickoff"
  | .moveNext => "MoveNext"
  | .currentGeneric => "CurrentGeneric"
  | .currentObject => "CurrentObject"
  | .dispose => "Dispose"
  | .reset => "Reset"
  | .getEnumeratorGeneric => "GetEnumeratorGeneric"
  | .getEnumeratorObject => "GetEnumeratorObject"
  | .cleanup => "Finally"

/-- A variable of one activation of a routine. -/
structure FrameVar where
  id : LocalId
  name : String
  ty : Ty

structure Routine where
  name : String
  kind : RoutineKind
  params : List (String × Ty)
  returnType : Option Ty
  /-- The member of a contract that the routine provides. -/
  implements : Option MemberRef
  visibility : Visibility
  locals : List FrameVar
  body : Code

def Routine.local? (routine : Routine) (id : LocalId) : Option FrameVar :=
  routine.locals.find? fun l => l.id = id

/-- A suspension point: its state, where to go on, and what to clean up on disposal. -/
structure Point where
  state : Int64
  resume : Label
  /-- Cleanup routines of the enclosing regions, innermost first. -/
  cleanup : List String

end Machine

open Machine in
structure Machine where
  name : String
  typeParams : List String
  kind : IteratorKind
  elementType : Ty
  contracts : List Ty
  visibility : Visibility
  fields : List Field
  constructor : Routine
  routines : List Routine
  points : List Point

namespace Machine

def field? (machine : Machine) (id : FieldId) : Option Field :=
  machine.fields.find? fun field => field.id = id

def fieldOf? (machine : Machine) (role : Role) : Option Field :=
  machine.fields.find? fun field => field.role = role

def routine? (machine : Machine) (kind : RoutineKind) : Option Routine :=
  machine.routines.find? fun routine => routine.kind = kind

def routineNamed? (machine : Machine) (name : String) : Option Routine :=
  machine.routines.find? fun routine => routine.name = name

end Machine

/-- An iterator method together with what replaces it. -/
structure Lowered where
  source : Method
  /-- Builds an instance, hands it the arguments and returns it. -/
  kickoff : Machine.Routine
  machine : Machine

end Resumable
