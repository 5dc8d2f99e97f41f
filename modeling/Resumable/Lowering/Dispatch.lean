import Resumable.Lowering.Shape
import Resumable.Method.Visit
import Resumable.SortedSet

/-!
Resumable bodies. A suspension point becomes

    current := value
    state := k
    return true
    resume label of k:
    state := running

and the body starts with a jump on the state that leads to the resume label.
Structured control flow becomes jumps. The cleanup block of a region that
suspends becomes a routine of its own, which disposal can run; any other cleanup
block is repeated at each exit of its region.
-/

namespace Resumable.Lowering
open Machine (Code Term Instr Label Place Point FrameVar)

/-- Code of one routine with the frame variables it uses. -/
structure FlatBody where
  locals : List FrameVar
  code : Code

/-- The resumable body with the cleanup routines and suspension points found in it. -/
structure Dispatch where
  moveNext : FlatBody
  cleanups : List (String × FlatBody)
  points : List Point

namespace Shape

/-- Where a variable is stored. -/
def place (shape : Shape) (var : Var) : Except LowerError Place :=
  match shape.slot? var, var with
  | some id, _ => .ok (.field id)
  | none, .loc id => .ok (.frame id)
  | none, other => .error (.internal (.notInField other))

mutual
def term (shape : Shape) : Expr → Except LowerError Term
  | .int value => .ok (.int value)
  | .bool value => .ok (.bool value)
  | .str value => .ok (.str value)
  | .null => .ok .null
  | .var var => do
    let place ← shape.place var
    return .load place
  | .assign var value => do
    let place ← shape.place var
    let value ← term shape value
    return .assign place value
  | .unary op operand => do
    let operand ← term shape operand
    return .unary op operand
  | .binary op left right => do
    let left ← term shape left
    let right ← term shape right
    return .binary op left right
  | .array items => do
    let items ← terms shape items
    return .array items
  | .index base position => do
    let base ← term shape base
    let position ← term shape position
    return .index base position
  | .len base => do
    let base ← term shape base
    return .len base
  | .call callee args => do
    let args ← terms shape args
    return .call callee args

def terms (shape : Shape) : List Expr → Except LowerError (List Term)
  | [] => .ok []
  | e :: rest => do
    let e ← term shape e
    let rest ← terms shape rest
    return e :: rest
end

/-- An expression evaluated for its effect. -/
def effect (shape : Shape) : Expr → Except LowerError Instr
  | .assign var value => do
    let place ← shape.place var
    let value ← shape.term value
    return .assign place value
  | e => do
    let value ← shape.term e
    return .eval value

def effects (shape : Shape) : List Expr → Except LowerError Code
  | [] => .ok []
  | e :: rest => do
    let instr ← shape.effect e
    let rest ← effects shape rest
    return instr :: rest

def setState (shape : Shape) (state : Int64) : Instr := .setField shape.state (.int state)

/-- The end of the iteration. -/
def finish (shape : Shape) : Code :=
  [shape.setState State.finished, .ret (some (.bool false))]

end Shape

/-- What a declaration without an initializer stores. -/
def initial (method : Method) (id : LocalId) : Except LowerError Term := do
  let l ← Lower.require (.undeclaredLocal id) (method.local? id)
  match l.ty with
  | .int => return .int 0
  | .bool => return .bool false
  | _ => return .null

/-- The symbols of frame variables, by increasing identity. -/
def frameSymbols (method : Method) : List LocalId → Except LowerError (List FrameVar)
  | [] => .ok []
  | id :: rest => do
    let l ← Lower.require (.undeclaredLocal id) (method.local? id)
    let ty ← rebind method.typeParams l.ty
    let rest ← frameSymbols method rest
    return ⟨id, l.name, ty⟩ :: rest

def flatBody (method : Method) (code : Code) : Except LowerError FlatBody := do
  let locals ← frameSymbols method (sortedSet (fun a b => decide (a < b)) code.frameVars)
  return ⟨locals, code⟩

/-- What has been handed out so far. -/
structure Progress where
  nextLabel : Label
  points : List Point
  cleanups : List (String × FlatBody)
  names : NameSupply

abbrev Emit := Lower Progress

/-- Takes `count` consecutive labels and returns the first. -/
def reserveLabels (count : Nat) : Emit Label := fun progress =>
  .ok progress.nextLabel { progress with nextLabel := progress.nextLabel + count }

def freshCleanup : Emit String := fun progress =>
  .ok (progress.names.fresh NameSupply.cleanupBase).1
    { progress with names := (progress.names.fresh NameSupply.cleanupBase).2 }

def addCleanup (name : String) (body : FlatBody) : Emit Unit := fun progress =>
  .ok () { progress with cleanups := progress.cleanups ++ [(name, body)] }

/-- Numbers a suspension point and returns its state. -/
def addPoint (resume : Label) (cleanup : List String) : Emit Int64 := fun progress =>
  let state := State.suspendedAt progress.points.length
  .ok state { progress with points := progress.points ++ [⟨state, resume, cleanup⟩] }

/-- A way out of the code being emitted: the code that takes it, or why there is none. -/
abbrev Exit := Except LowerError (Emit Code)

def Exit.to (target : Label) : Exit := .ok (pure [.goto target])

def Exit.none (fault : Fault) : Exit := .error (.internal fault)

def Exit.take : Exit → Emit Code
  | .ok emit => emit
  | .error e => throw e

/-- An exit that first runs a cleanup. -/
def Exit.after (cleanup : Emit Code) (exit : Exit) : Exit :=
  exit.map fun emit => do
    let first ← cleanup
    let rest ← emit
    return first ++ rest

/-- The ways out at one position, and the cleanup routines that disposal has to run there. -/
structure Exits where
  onBreak : Exit
  onContinue : Exit
  onStop : Exit
  cleanups : List String

namespace Exits

def body (method : Method) (shape : Shape) : Exits where
  onBreak := .none (.exitWithoutTarget method.name)
  onContinue := .none (.exitWithoutTarget method.name)
  onStop := .ok (pure shape.finish)
  cleanups := []

/-- Inside a cleanup block: nothing may leave it. -/
def sealed (method : Method) (cleanups : List String) : Exits where
  onBreak := .none (.exitLeavesCleanup method.name)
  onContinue := .none (.exitLeavesCleanup method.name)
  onStop := .none (.exitLeavesCleanup method.name)
  cleanups := cleanups

def loop (exits : Exits) (breakTo continueTo : Label) : Exits :=
  { exits with onBreak := .to breakTo, onContinue := .to continueTo }

def switch (exits : Exits) (breakTo : Label) : Exits :=
  { exits with onBreak := .to breakTo }

/-- Inside a region whose cleanup every exit runs first. -/
def guarded (exits : Exits) (cleanup : Emit Code) : Exits where
  onBreak := exits.onBreak.after cleanup
  onContinue := exits.onContinue.after cleanup
  onStop := exits.onStop.after cleanup
  cleanups := exits.cleanups

end Exits

/-- The jump table of a switch whose cases have consecutive labels from `first`. -/
def jumpTable (first : Label) : List (List Int64 × Block) → List (Int64 × Label)
  | [] => []
  | (values, _) :: rest => values.map (·, first) ++ jumpTable (first + 1) rest

def callCleanup (name : String) : Instr := .eval (.callSelf name)

mutual
def emitStmt (method : Method) (shape : Shape) (exits : Exits) : Stmt → Emit Code
  | .block body => emitBlock method shape exits body
  | .declare id none => do
    let value ← checked (initial method id)
    let place ← checked (shape.place (.loc id))
    return [.assign place value]
  | .declare id (some init) => do
    let value ← checked (shape.term init)
    let place ← checked (shape.place (.loc id))
    return [.assign place value]
  | .eval value => do
    let instr ← checked (shape.effect value)
    return [instr]
  | .ite cond yes none => do
    let cond ← checked (shape.term cond)
    let otherwise ← reserveLabels 2
    let yes ← emitBlock method shape exits yes
    return .gotoUnless cond otherwise ::
      (yes ++ [.goto (otherwise + 1), .label otherwise, .label (otherwise + 1)])
  | .ite cond yes (some no) => do
    let cond ← checked (shape.term cond)
    let otherwise ← reserveLabels 2
    let yes ← emitBlock method shape exits yes
    let no ← emitBlock method shape exits no
    return .gotoUnless cond otherwise ::
      (yes ++ .goto (otherwise + 1) :: .label otherwise :: (no ++ [.label (otherwise + 1)]))
  | .whileLoop cond body => do
    let top ← reserveLabels 2
    let cond ← checked (shape.term cond)
    let body ← emitBlock method shape (exits.loop (top + 1) top) body
    return .label top :: .gotoUnless cond (top + 1) ::
      (body ++ [.goto top, .label (top + 1)])
  | .forLoop init cond step body => do
    let init ← emitBlock method shape exits init
    let top ← reserveLabels 3
    let cond ← checked (shape.terms cond.toList)
    let body ← emitBlock method shape (exits.loop (top + 2) (top + 1)) body
    let step ← checked (shape.effects step)
    return init ++ .label top :: (cond.map (.gotoUnless · (top + 2)) ++ body ++
      .label (top + 1) :: (step ++ [.goto top, .label (top + 2)]))
  | .foreach _ _ _ => Lower.fail .foreachLeft
  | .switch scrutinee cases none => do
    let value ← checked (shape.term scrutinee)
    let breakTo ← reserveLabels 1
    let first ← reserveLabels cases.length
    let arms ← emitCases method shape (exits.switch breakTo) breakTo first cases
    return .switch value (jumpTable first cases) breakTo :: (arms ++ [.label breakTo])
  | .switch scrutinee cases (some default) => do
    let value ← checked (shape.term scrutinee)
    let breakTo ← reserveLabels 1
    let first ← reserveLabels cases.length
    let otherwise ← reserveLabels 1
    let arms ← emitCases method shape (exits.switch breakTo) breakTo first cases
    let default ← emitBlock method shape (exits.switch breakTo) default
    return .switch value (jumpTable first cases) otherwise ::
      (arms ++ .label otherwise :: (default ++ [.label breakTo]))
  | .tryFinally body cleanup =>
    if Block.suspends body then do
      let name ← freshCleanup
      let code ← emitBlock method shape (.sealed method []) cleanup
      let routine ← checked (flatBody method (code ++ [.ret none]))
      addCleanup name routine
      let guarded := exits.guarded (pure [callCleanup name])
      let body ← emitBlock method shape
        { guarded with cleanups := name :: exits.cleanups } body
      return body ++ [callCleanup name]
    else do
      let repeated := emitBlock method shape (.sealed method exits.cleanups) cleanup
      let body ← emitBlock method shape (exits.guarded repeated) body
      let last ← repeated
      return body ++ last
  | .breakOut => exits.onBreak.take
  | .continueLoop => exits.onContinue.take
  | .yield value => do
    let value ← checked (shape.term value)
    let resume ← reserveLabels 1
    let state ← addPoint resume exits.cleanups
    return [.setField shape.current value, shape.setState state, .ret (some (.bool true)),
      .label resume, shape.setState State.running]
  | .stop => exits.onStop.take

def emitBlock (method : Method) (shape : Shape) (exits : Exits) : List Stmt → Emit Code
  | [] => return []
  | s :: rest => do
    let code ← emitStmt method shape exits s
    let rest ← emitBlock method shape exits rest
    return code ++ rest

/-- The cases of a switch, at consecutive labels from `label`. -/
def emitCases (method : Method) (shape : Shape) (exits : Exits) (breakTo label : Label) :
    List (List Int64 × List Stmt) → Emit Code
  | [] => return []
  | (_, body) :: rest => do
    let body ← emitBlock method shape exits body
    let rest ← emitCases method shape exits breakTo (label + 1) rest
    return .label label :: (body ++ .goto breakTo :: rest)
end

/-- Label of the first statement of the body. -/
def startLabel : Label := 0

/-- Label of the answer in a state that cannot be resumed. -/
def failLabel : Label := 1

/-- The jump on the state that opens the resumable body. -/
def entry (shape : Shape) (points : List Point) : Code :=
  [.switch (.field shape.state)
      ((State.fresh, startLabel) :: points.map fun point => (point.state, point.resume)) failLabel,
    .label failLabel, .ret (some (.bool false))]

def emitDispatch (method : Method) (shape : Shape) : Emit Dispatch := do
  let body ← emitBlock method shape (.body method shape) method.body
  let progress ← get
  let code := entry shape progress.points ++ .label startLabel ::
    shape.setState State.running :: (body ++ shape.finish)
  let moveNext ← checked (flatBody method code)
  return ⟨moveNext, progress.cleanups, progress.points⟩

/-- Runs an emission from the two labels of the entry on, sharing the name supply. -/
def buildDispatch (method : Method) (shape : Shape) : Named Dispatch := fun names =>
  match emitDispatch method shape ⟨2, [], [], names⟩ with
  | .ok dispatch progress => .ok dispatch progress.names
  | .error e progress => .error e progress.names

end Resumable.Lowering
