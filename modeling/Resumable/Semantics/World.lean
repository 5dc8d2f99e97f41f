import Resumable.Machine.Basic
import Resumable.Table
import Resumable.Value.Operators

/-!
The world in which state machines run: the current thread, the fuel that is left,
all instances, and a record of host calls and thread reads.
-/

namespace Resumable.Machine

/-- A state-machine instance: one slot per field. -/
structure Instance where
  slots : Table FieldId Value

/-- How code learned the current thread. -/
inductive ThreadRead where
  | accessor
  | viaThread
deriving DecidableEq

def ThreadSource.read : ThreadSource → ThreadRead
  | .accessor _ => .accessor
  | .viaThread _ _ => .viaThread

structure World where
  thread : Int64
  /-- Instructions that may still be executed. -/
  fuel : Nat
  calls : Array HostCall
  threadReads : Array ThreadRead
  /-- An object refers to an instance by its position. -/
  instances : Array Instance
  /-- The identity of the next array. -/
  arrays : Nat

namespace World

def defaultFuel : Nat := 100000

def start (fuel : Nat) : World where
  thread := 1
  fuel := fuel
  calls := #[]
  threadReads := #[]
  instances := #[]
  arrays := 0

end World

/-- Steps that keep their effects on the world when they fail. -/
abbrev Exec := EStateM EvalError World

namespace Exec

def burn : Exec Unit := fun world =>
  match world.fuel with
  | 0 => .error .outOfFuel world
  | fuel + 1 => .ok () { world with fuel := fuel }

def callHost (callee : String) (args : List Value) : Exec Unit := fun world =>
  .ok () { world with calls := world.calls.push ⟨callee, args⟩ }

def takeCalls : Exec (Array HostCall) := fun world =>
  .ok world.calls { world with calls := #[] }

def setThread (thread : Int64) : Exec Unit := fun world =>
  .ok () { world with thread := thread }

def readThread (source : ThreadSource) : Exec Value := fun world =>
  .ok (.int world.thread) { world with threadReads := world.threadReads.push source.read }

def newArray (items : List Value) : Exec Value := fun world =>
  .ok (.array world.arrays items) { world with arrays := world.arrays + 1 }

/-- An instance with every field at the default of its type. -/
def allocate (fields : List Field) : Exec Value := fun world =>
  .ok (.object world.instances.size)
    { world with
      instances := world.instances.push
        ⟨.ofList (fields.map fun field => (field.id, field.ty.default))⟩ }

def readField (object : Value) (id : FieldId) : Exec Value := fun world =>
  match object.asObject with
  | .error e => .error e world
  | .ok reference =>
    match world.instances[reference]?.bind fun i => i.slots.get? id with
    | some value => .ok value world
    | none => .error (.malformed (.noField id)) world

/-- Stores into a field that the instance has. -/
def writeField (object : Value) (id : FieldId) (value : Value) : Exec Unit := fun world =>
  match object.asObject with
  | .error e => .error e world
  | .ok reference =>
    match world.instances[reference]? with
    | none => .error (.malformed (.noField id)) world
    | some i =>
      match i.slots.get? id with
      | none => .error (.malformed (.noField id)) world
      | some _ =>
        .ok () { world with
          instances := world.instances.setIfInBounds reference ⟨i.slots.set id value⟩ }

end Exec

/-- The fields of an instance by increasing identity. -/
def World.fields (world : World) (object : Value) : Except EvalError (List (FieldId × Value)) := do
  let reference ← object.asObject
  match world.instances[reference]? with
  | some i => return i.slots.entries.mergeSort fun a b => a.1 ≤ b.1
  | none => return []

end Resumable.Machine
