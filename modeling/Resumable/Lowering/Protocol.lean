import Resumable.Lowering.Dispatch

/-!
The routines of a state machine: its constructor, the iteration protocol, and the
kick-off routine that replaces the body of the iterator method.
-/

namespace Resumable.Lowering
open Machine (Code Instr Label Place Point Routine FrameVar)

/-- Records the creating thread in the field for it, if there is one. -/
def threadCode (shape : Shape) : Except LowerError Code :=
  match shape.initialThread with
  | none => .ok []
  | some id => do
    let source ← Lower.require .threadFieldUnreadable shape.members.threadId
    return [.setField id (.threadId source)]

/-- Stores the initial state, and for enumerables the creating thread. -/
def buildConstructor (shape : Shape) (options : Options) : Except LowerError Routine := do
  let thread ← threadCode shape
  return {
    name := ".ctor"
    kind := .constructor
    params := [("$initial_state", .int)]
    returnType := none
    implements := none
    visibility := options.visibility.constructor
    locals := []
    body := .setField shape.state (.param 0) :: (thread ++ [.ret none]) }

/-- The one frame variable of the kick-off and vending routines. -/
def held : LocalId := 0

/-- An enumerable waits to be handed out; an enumerator can start at once. -/
def initialState : IteratorKind → Int64
  | .enumerable => State.notStarted
  | .enumerator => State.fresh

def wireReceiver (method : Method) (shape : Shape) : Except LowerError Code :=
  match method.receiver with
  | none => .ok []
  | some _ => do
    let slot ← Lower.require .receiverWithoutSlot (shape.slot? .receiver)
    return [.assign (.fieldOf held slot) .self]

/-- Hands over one argument, to its slot and to its proxy if it has one. -/
def wireParam (shape : Shape) (index : Nat) : Except LowerError Code := do
  let slot ← Lower.require (.parameterWithoutSlot index) (shape.slot? (.param index))
  let proxy := (shape.proxies.find? fun proxy => proxy.1 = index).map (·.2)
  return .assign (.fieldOf held slot) (.param index) ::
    proxy.toList.map fun id => .assign (.fieldOf held id) (.param index)

def wireParams (shape : Shape) : List Nat → Except LowerError Code
  | [] => .ok []
  | index :: rest => do
    let code ← wireParam shape index
    let rest ← wireParams shape rest
    return code ++ rest

/-- Builds an instance and hands it the arguments; nothing of the body runs. -/
def buildKickoff (method : Method) (shape : Shape) : Except LowerError Routine := do
  let receiver ← wireReceiver method shape
  let params ← wireParams shape (List.range method.params.length)
  return {
    name := method.name
    kind := .kickoff
    params := method.params.map fun param => (param.name, param.ty)
    returnType := some method.returnType
    implements := none
    visibility := method.visibility
    locals := [⟨held, "$sm", shape.typeInMethod⟩]
    body := .assign (.frame held) (.construct [.int (initialState shape.kind)]) ::
      (receiver ++ params ++ [.ret (some (.load (.frame held)))]) }

/-- Label of the end of disposal, where the machine becomes finished. -/
def finishLabel : Label := 0

/-- Label of disposal in a state that has nothing to dispose. -/
def doneLabel : Label := 1

/-- The jump table of disposal. Points with cleanups have consecutive labels from `next`. -/
def disposeTable (next : Label) : List Point → List (Int64 × Label)
  | [] => []
  | point :: rest =>
    if point.cleanup.isEmpty then (point.state, finishLabel) :: disposeTable next rest
    else (point.state, next) :: disposeTable (next + 1) rest

/-- The cleanups of each point that has some. -/
def disposeChains (next : Label) : List Point → Code
  | [] => []
  | point :: rest =>
    if point.cleanup.isEmpty then disposeChains next rest
    else .label next :: (point.cleanup.map callCleanup ++
      .goto finishLabel :: disposeChains (next + 1) rest)

/-- Runs the cleanups of the current suspension point, then finishes. -/
def disposeCode (shape : Shape) (points : List Point) : Code :=
  .switch (.field shape.state) ((State.fresh, finishLabel) :: disposeTable 2 points) doneLabel ::
    (disposeChains 2 points ++
      [.label finishLabel, shape.setState State.finished, .label doneLabel, .ret none])

def copyLabel : Label := 0

def wireLabel : Label := 1

/-- Hands out the instance itself if it is untouched and on its creating thread. -/
def reuseCode (shape : Shape) : Except LowerError Code :=
  match shape.initialThread, shape.members.threadId with
  | some id, some source =>
    .ok
      [.gotoUnless
          (.binary .and
            (.binary .eq (.field shape.state) (.int State.notStarted))
            (.binary .eq (.field id) (.threadId source)))
          copyLabel,
        shape.setState State.fresh,
        .assign (.frame held) .self,
        .goto wireLabel]
  | _, _ => .error (.internal .noThreadIdentity)

/-- Copies every captured field into a new instance. -/
def copyCode (shape : Shape) : Code :=
  .label copyLabel :: .assign (.frame held) (.construct [.int State.fresh]) ::
    (shape.fields.filter (·.role.isCaptured)).map fun field =>
      .assign (.fieldOf held field.id) (.field field.id)

/-- Gives each assigned parameter its argument again. -/
def restoreCode (shape : Shape) : List (Nat × Machine.FieldId) → Except LowerError Code
  | [] => .ok []
  | (index, proxy) :: rest => do
    let slot ← Lower.require (.proxyWithoutSlot index) (shape.slot? (.param index))
    let rest ← restoreCode shape rest
    return .assign (.fieldOf held slot) (.field proxy) :: rest

def getEnumeratorCode (shape : Shape) (options : Options) : Except LowerError Code := do
  let reuse ← if options.reuseTemplate then reuseCode shape else .ok []
  let restore ← restoreCode shape shape.proxies
  return reuse ++ copyCode shape ++ .label wireLabel ::
    (restore ++ [.ret (some (.load (.frame held)))])

def getEnumeratorName : String := "get_enumerator"

/-- The vending routines, which only enumerables have. -/
def vendingRoutines (shape : Shape) (options : Options) : Except LowerError (List Routine) :=
  match shape.members.getEnumeratorGeneric, shape.members.getEnumeratorObject with
  | some generic, some object => do
    let code ← getEnumeratorCode shape options
    return [
      { name := getEnumeratorName
        kind := .getEnumeratorGeneric
        params := []
        returnType := some (.enumeratorOf shape.elementType)
        implements := some generic
        visibility := options.visibility.protocolMethods
        locals := [⟨held, "$result", .applied shape.name .machine shape.typeParams⟩]
        body := code },
      { name := "object_get_enumerator"
        kind := .getEnumeratorObject
        params := []
        returnType := some (.contract .enumerator [])
        implements := some object
        visibility := options.visibility.protocolMethods
        locals := []
        body := [.ret (some (.callSelf getEnumeratorName))] }]
  | _, _ => .ok []

def enumeratorRoutines (shape : Shape) (dispatch : Dispatch) (options : Options) : List Routine :=
  [ { name := "move_next"
      kind := .moveNext
      params := []
      returnType := some .bool
      implements := some shape.members.moveNext
      visibility := options.visibility.protocolMethods
      locals := dispatch.moveNext.locals
      body := dispatch.moveNext.code },
    { name := "current"
      kind := .currentGeneric
      params := []
      returnType := some shape.elementType
      implements := some shape.members.currentGeneric
      visibility := options.visibility.protocolMethods
      locals := []
      body := [.ret (some (.field shape.current))] },
    { name := "object_current"
      kind := .currentObject
      params := []
      returnType := some .object
      implements := some shape.members.currentObject
      visibility := options.visibility.protocolMethods
      locals := []
      body := [.ret (some (.field shape.current))] },
    { name := "dispose"
      kind := .dispose
      params := []
      returnType := none
      implements := some shape.members.dispose
      visibility := options.visibility.protocolMethods
      locals := []
      body := disposeCode shape dispatch.points },
    { name := "reset"
      kind := .reset
      params := []
      returnType := none
      implements := some shape.members.reset
      visibility := options.visibility.protocolMethods
      locals := []
      body := [.raise shape.members.notSupported] } ]

def cleanupRoutine (options : Options) (cleanup : String × FlatBody) : Routine where
  name := cleanup.1
  kind := .cleanup
  params := []
  returnType := none
  implements := none
  visibility := options.visibility.helperMethods
  locals := cleanup.2.locals
  body := cleanup.2.code

/-- All routines of the machine apart from its constructor. -/
def buildRoutines (shape : Shape) (dispatch : Dispatch) (options : Options) :
    Except LowerError (List Routine) := do
  let vending ← vendingRoutines shape options
  return enumeratorRoutines shape dispatch options ++ vending ++
    dispatch.cleanups.map (cleanupRoutine options)

end Resumable.Lowering
