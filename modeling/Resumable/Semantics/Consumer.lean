import Resumable.Semantics.Execution

/-!
The iteration protocol as a consumer uses it.
-/

namespace Resumable

/-- Calls the method: its kick-off routine builds the instance. -/
def Lowered.invoke (lowered : Lowered) (receiver : Option Value) (args : List Value) :
    Machine.Exec Value := do
  match ← Machine.call lowered.machine lowered.kickoff (receiver.getD .null) args with
  | some value => return value
  | none => throw (.malformed .kickoffWithoutResult)

namespace Machine

/-- Runs the routine of a kind on an instance; one that returns nothing gives null. -/
def callKind (machine : Machine) (kind : RoutineKind) (object : Value) : Exec Value :=
  match machine.routine? kind with
  | none => throw (.unknownMethod kind.text)
  | some routine => do
    let _ ← checked object.asObject
    let result ← call machine routine object []
    return result.getD .null

def moveNext (machine : Machine) (object : Value) : Exec Bool := do
  let advanced ← machine.callKind .moveNext object
  checked advanced.asBool

def current (machine : Machine) (object : Value) : Exec Value :=
  machine.callKind .currentGeneric object

def objectCurrent (machine : Machine) (object : Value) : Exec Value :=
  machine.callKind .currentObject object

def dispose (machine : Machine) (object : Value) : Exec Unit := do
  let _ ← machine.callKind .dispose object

def reset (machine : Machine) (object : Value) : Exec Unit := do
  let _ ← machine.callKind .reset object

def getEnumerator (machine : Machine) (object : Value) : Exec Value :=
  machine.callKind .getEnumeratorGeneric object

def objectGetEnumerator (machine : Machine) (object : Value) : Exec Value :=
  machine.callKind .getEnumeratorObject object

/-- The state field of an instance. -/
def stateOf (machine : Machine) (world : World) (object : Value) : Except EvalError Int64 :=
  match machine.fieldOf? .state with
  | none => .error (.malformed .noStateField)
  | some field => do
    let reference ← object.asObject
    match world.instances[reference]?.bind fun i => i.slots.get? field.id with
    | some value => value.asInt
    | none => .error (.malformed .stateFieldMissing)

/-- Advances at most `bound` times, collecting what is produced. -/
def drainWithin (machine : Machine) (object : Value) : Nat → Exec (List Value)
  | 0 => throw .outOfFuel
  | bound + 1 => do
    if ← machine.moveNext object then do
      let value ← machine.current object
      let rest ← drainWithin machine object bound
      return value :: rest
    else return []

/-- Advances as often as asked, collecting what is produced; it goes on when there is nothing. -/
def advance (machine : Machine) (object : Value) : Nat → Exec (List Value)
  | 0 => return []
  | count + 1 => do
    if ← machine.moveNext object then do
      let value ← machine.current object
      let rest ← advance machine object count
      return value :: rest
    else advance machine object count

/-- Advances until exhausted. Each advance costs fuel, which bounds their number. -/
def drain (machine : Machine) (object : Value) : Exec (List Value) := fun world =>
  drainWithin machine object (world.fuel + 1) world

end Machine

/-- Calls the method and obtains an enumerator, which a call of an enumerable does not give. -/
def Lowered.enumerate (lowered : Lowered) (receiver : Option Value) (args : List Value) :
    Machine.Exec Value := do
  let object ← lowered.invoke receiver args
  match lowered.machine.kind with
  | .enumerator => return object
  | .enumerable => lowered.machine.getEnumerator object

end Resumable
