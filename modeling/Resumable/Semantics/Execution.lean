import Resumable.Checked
import Resumable.Semantics.World

/-!
Execution of flat code. Each instruction costs one unit of fuel, the labels
included, and a routine is entered only from an instruction. So with `n` units
left at most `n` instructions run, in however many routines.
-/

namespace Resumable.Machine

/-- What a routine was entered with. -/
structure Frame where
  self : Value
  args : List Value

/-- The frame variables of an activation, and the world around it. -/
structure Activation where
  locals : Table LocalId Value
  world : World

abbrev Step := EStateM EvalError Activation

/-- Entering a routine on an instance with arguments. -/
abbrev Enter := Routine → Value → List Value → Exec (Option Value)

namespace Step

def inWorld {α : Type} (exec : Exec α) : Step α := fun ⟨locals, world⟩ =>
  match exec world with
  | .ok a world => .ok a ⟨locals, world⟩
  | .error e world => .error e ⟨locals, world⟩

def readLocal (id : LocalId) : Step Value := fun activation =>
  match activation.locals.get? id with
  | some value => .ok value activation
  | none => .error (.malformed (.unassignedFrameVar id)) activation

def writeLocal (id : LocalId) (value : Value) : Step Unit := fun ⟨locals, world⟩ =>
  .ok () ⟨locals.set id value, world⟩

end Step

namespace Frame
open Step

def arg (frame : Frame) (index : Nat) : Except EvalError Value :=
  match frame.args[index]? with
  | some value => .ok value
  | none => .error (.malformed (.noArgument index))

def load (frame : Frame) : Place → Step Value
  | .field id => inWorld (Exec.readField frame.self id)
  | .fieldOf holder id => do
    let object ← readLocal holder
    inWorld (Exec.readField object id)
  | .frame id => readLocal id

def store (frame : Frame) (value : Value) : Place → Step Unit
  | .field id => inWorld (Exec.writeField frame.self id value)
  | .fieldOf holder id => do
    let object ← readLocal holder
    inWorld (Exec.writeField object id value)
  | .frame id => writeLocal id value

end Frame

/-- Builds an instance and runs the constructor on it. -/
def newInstance (machine : Machine) (enter : Enter) (args : List Value) : Exec Value := do
  let object ← Exec.allocate machine.fields
  let _ ← enter machine.constructor object args
  return object

/-- Runs the routine of a name on the executing instance. -/
def callRoutine (machine : Machine) (enter : Enter) (name : String) (self : Value) :
    Exec Value :=
  match machine.routineNamed? name with
  | none => throw (.unknownMethod name)
  | some routine => do
    let result ← enter routine self []
    return result.getD .null

section
open Step

mutual
def evalTerm (machine : Machine) (enter : Enter) (frame : Frame) : Term → Step Value
  | .int value => return .int value
  | .bool value => return .bool value
  | .str value => return .str value
  | .null => return .null
  | .load place => frame.load place
  | .self => return frame.self
  | .param index => checked (frame.arg index)
  | .assign place value => do
    let value ← evalTerm machine enter frame value
    frame.store value place
    return value
  | .unary op operand => do
    let operand ← evalTerm machine enter frame operand
    checked (Value.unary op operand)
  | .binary .and left right => do
    let left ← evalTerm machine enter frame left
    let holds ← checked left.asBool
    if holds then do
      let right ← evalTerm machine enter frame right
      let holds ← checked right.asBool
      return .bool holds
    else return .bool false
  | .binary .or left right => do
    let left ← evalTerm machine enter frame left
    let holds ← checked left.asBool
    if holds then return .bool true
    else do
      let right ← evalTerm machine enter frame right
      let holds ← checked right.asBool
      return .bool holds
  | .binary op left right => do
    let left ← evalTerm machine enter frame left
    let right ← evalTerm machine enter frame right
    checked (Value.binary op left right)
  | .array items => do
    let items ← evalTerms machine enter frame items
    inWorld (Exec.newArray items)
  | .index base position => do
    let base ← evalTerm machine enter frame base
    let position ← evalTerm machine enter frame position
    checked (Value.index base position)
  | .len base => do
    let base ← evalTerm machine enter frame base
    checked (Value.len base)
  | .call callee args => do
    let args ← evalTerms machine enter frame args
    inWorld (Exec.callHost callee args)
    return .null
  | .callSelf name => inWorld (callRoutine machine enter name frame.self)
  | .construct args => do
    let args ← evalTerms machine enter frame args
    inWorld (newInstance machine enter args)
  | .threadId source => inWorld (Exec.readThread source)

def evalTerms (machine : Machine) (enter : Enter) (frame : Frame) : List Term → Step (List Value)
  | [] => return []
  | t :: rest => do
    let value ← evalTerm machine enter frame t
    let rest ← evalTerms machine enter frame rest
    return value :: rest
end

end

/-- The exception that a constructor of the platform builds. -/
def raised (constructor : MemberRef) : EvalError :=
  if constructor.member = .notSupported then .notSupported constructor.path
  else .thrown constructor.path

def caseTarget (value : Int64) (cases : List (Int64 × Label)) (default : Label) : Label :=
  match cases.find? fun arm => arm.1 = value with
  | some arm => arm.2
  | none => default

/-- Where an instruction leads: to the next one, to a label, or out of the routine. -/
inductive Outcome where
  | next
  | goto (target : Label)
  | done (result : Option Value)

def execInstr (machine : Machine) (enter : Enter) (frame : Frame) : Instr → Step Outcome
  | .label _ => return .next
  | .goto target => return .goto target
  | .gotoUnless cond target => do
    let cond ← evalTerm machine enter frame cond
    let holds ← checked cond.asBool
    return if holds then .next else .goto target
  | .switch value cases default => do
    let value ← evalTerm machine enter frame value
    let value ← checked value.asInt
    return .goto (caseTarget value cases default)
  | .assign place value => do
    let value ← evalTerm machine enter frame value
    frame.store value place
    return .next
  | .eval value => do
    let _ ← evalTerm machine enter frame value
    return .next
  | .ret none => return .done none
  | .ret (some value) => do
    let value ← evalTerm machine enter frame value
    return .done (some value)
  | .raise constructor => throw (raised constructor)

/-- Enters a routine whose code `run` executes. -/
def activate (run : Code → Frame → Code → Step (Option Value)) : Enter :=
  fun routine self args world =>
    match run routine.body ⟨self, args⟩ routine.body ⟨.empty, world⟩ with
    | .ok result activation => .ok result activation.world
    | .error e activation => .error e activation.world

/-- Executes the rest of a routine's code, jumping within `body`. The bound limits the instructions
on the way to the deepest one; it is never reached when it exceeds the fuel. -/
def runCode (machine : Machine) : Nat → Code → Frame → Code → Step (Option Value)
  | 0, _, _, _ => throw .outOfFuel
  | _ + 1, _, _, [] => return none
  | bound + 1, body, frame, instr :: rest => do
    Step.inWorld Exec.burn
    match ← execInstr machine (activate (runCode machine bound)) frame instr with
    | .next => runCode machine bound body frame rest
    | .goto target =>
      match body.from? target with
      | some rest => runCode machine bound body frame rest
      | none => throw (.malformed (.undefinedLabel target))
    | .done result => return result

/-- Runs a routine with the fuel of the world. -/
def call (machine : Machine) : Enter := fun routine self args world =>
  activate (runCode machine (world.fuel + 1)) routine self args world

end Resumable.Machine
