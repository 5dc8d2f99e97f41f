import Resumable.Lowering.Error

/-!
Foreach loops as counting loops. The array and the position become ordinary
locals, so that

    foreach x in xs do body

turns into

    let $array = xs
    for (let $index = 0; $index < len($array); $index = $index + 1) do
      let x = $array[$index]
      body
-/

namespace Resumable.Lowering

/-- The symbol table grows while loops are replaced. -/
abbrev Grow := Lower (List LocalVar)

def declareFresh (name : String) (ty : Ty) : Grow LocalId := fun locals =>
  let id := nextLocal locals
  .ok id (locals ++ [⟨id, name, ty, true⟩])

/-- The type of the array: that of the collection when it is a variable of an array type, else an
array of the loop variable's type. -/
def arrayType (method : Method) (id : LocalId) (collection : Expr) : Except LowerError Ty :=
  let ofLoopVar : Except LowerError Ty := do
    let l ← Lower.require (.undeclaredLoopVar method.name id) (method.local? id)
    return .array l.ty
  match collection with
  | .var source =>
    match method.varType? source with
    | some (.array element) => .ok (.array element)
    | _ => ofLoopVar
  | _ => ofLoopVar

/-- The counting loop over an array that is held in `array`. -/
def countingLoop (id array index : LocalId) (collection : Expr) (body : Block) : Stmt :=
  .block
    [.declare array (some collection),
      .forLoop
        [.declare index (some (.int 0))]
        (some (.binary .lt (.ofLocal index) (.len (.ofLocal array))))
        [.assign (.loc index) (.binary .add (.ofLocal index) (.int 1))]
        [.declare id (some (.index (.ofLocal array) (.ofLocal index))), .block body]]

mutual
def expandStmt (method : Method) : Stmt → Grow Stmt
  | .block body => do
    let body ← expandBlock method body
    return .block body
  | .declare id init => return .declare id init
  | .eval value => return .eval value
  | .ite cond yes none => do
    let yes ← expandBlock method yes
    return .ite cond yes none
  | .ite cond yes (some no) => do
    let yes ← expandBlock method yes
    let no ← expandBlock method no
    return .ite cond yes (some no)
  | .whileLoop cond body => do
    let body ← expandBlock method body
    return .whileLoop cond body
  | .forLoop init cond step body => do
    let init ← expandBlock method init
    let body ← expandBlock method body
    return .forLoop init cond step body
  | .foreach id collection body => do
    let locals ← get
    let ty ← checked (arrayType { method with locals := locals } id collection)
    let array ← declareFresh "$array" ty
    let index ← declareFresh "$index" .int
    let body ← expandBlock method body
    return countingLoop id array index collection body
  | .switch scrutinee cases none => do
    let cases ← expandCases method cases
    return .switch scrutinee cases none
  | .switch scrutinee cases (some default) => do
    let cases ← expandCases method cases
    let default ← expandBlock method default
    return .switch scrutinee cases (some default)
  | .tryFinally body cleanup => do
    let body ← expandBlock method body
    let cleanup ← expandBlock method cleanup
    return .tryFinally body cleanup
  | .breakOut => return .breakOut
  | .continueLoop => return .continueLoop
  | .yield value => return .yield value
  | .stop => return .stop

def expandBlock (method : Method) : List Stmt → Grow (List Stmt)
  | [] => return []
  | s :: rest => do
    let s ← expandStmt method s
    let rest ← expandBlock method rest
    return s :: rest

def expandCases (method : Method) :
    List (List Int64 × List Stmt) → Grow (List (List Int64 × List Stmt))
  | [] => return []
  | (values, body) :: rest => do
    let body ← expandBlock method body
    let rest ← expandCases method rest
    return (values, body) :: rest
end

/-- The method without foreach loops. -/
def expandForeach (method : Method) : Except LowerError Method :=
  match expandBlock method method.body method.locals with
  | .ok body locals => .ok { method with body := body, locals := locals }
  | .error e _ => .error e

end Resumable.Lowering
