import Resumable.Lowering.Capture
import Resumable.Lowering.Members
import Resumable.Machine.Basic
import Resumable.Name
import Resumable.Table

/-!
The shape of a state machine: its name, its contracts and its fields, with the
field that stores each hoisted variable.
-/

namespace Resumable.Lowering
open Machine (Field FieldId Role)

structure Shape where
  name : String
  kind : IteratorKind
  typeParams : List String
  elementType : Ty
  contracts : List Ty
  fields : List Field
  state : FieldId
  current : FieldId
  initialThread : Option FieldId
  slots : Table Var FieldId
  /-- Parameters the body assigns, each with the field that keeps its argument. -/
  proxies : List (Nat × FieldId)
  members : Members

/-- A type of the method as the machine sees it. -/
def rebind (typeParams : List String) (ty : Ty) : Except LowerError Ty :=
  match ty.rebind? .method .machine typeParams with
  | none => .error (.internal (.undeclaredTypeParam ty))
  | some rebound =>
    if rebound.mentions .method then .error (.internal (.mixedTypeParams ty)) else .ok rebound

namespace Shape

def slot? (shape : Shape) (var : Var) : Option FieldId := shape.slots.get? var

/-- The slots with the receiver first, then parameters, then locals. -/
def slotsInOrder (shape : Shape) : List (Var × FieldId) :=
  shape.slots.entries.mergeSort fun a b => !b.1.before a.1

/-- The machine as the method sees it. -/
def typeInMethod (shape : Shape) : Ty := .applied shape.name .method shape.typeParams

end Shape

/-- The element type that the return type names, as the method sees it. -/
def elementType (method : Method) : Except LowerError Ty :=
  match method.returnType with
  | .contract .enumerator args | .contract .enumerable args =>
    match args with
    | [] => .ok .object
    | [element] => .ok element
    | _ => .error (.internal (.returnArity method.returnType))
  | other => .error (.internal (.returnNotIterator other method.name))

/-- The contracts of an iterator over `element`. -/
def contracts (kind : IteratorKind) (element : Ty) : List Ty :=
  [.contract .disposable [], .contract .enumerator [], .enumeratorOf element] ++
    match kind with
    | .enumerator => []
    | .enumerable => [.contract .enumerable [], .enumerableOf element]

abbrev Named := Lower NameSupply

def freshName (base : String) : Named String := fun supply =>
  .ok (supply.fresh base).1 (supply.fresh base).2

/-- The base of the name of the field for a hoisted variable. -/
def slotBase (method : Method) : Var → String
  | .receiver => "$this"
  | var => (method.varName? var).getD "$var"

/-- One field per hoisted variable, numbered from `next`. -/
def slotFields (method : Method) (visibility : Visibility) (next : FieldId) :
    List Var → Named (List Field)
  | [] => return []
  | var :: rest => do
    let name ← freshName (slotBase method var)
    let ty ← checked (Lower.require (.noSymbol var) (method.varType? var))
    let ty ← checked (rebind method.typeParams ty)
    let fields ← slotFields method visibility (next + 1) rest
    return ⟨next, name, ty, .hoisted var, visibility, false⟩ :: fields

/-- One field per assigned parameter, numbered from `next`. -/
def proxyFields (method : Method) (visibility : Visibility) (next : FieldId) :
    List Nat → Named (List Field)
  | [] => return []
  | index :: rest => do
    let param ← checked (Lower.require (.noParameter index) method.params[index]?)
    let name ← freshName (NameSupply.proxyBase param.name)
    let ty ← checked (rebind method.typeParams param.ty)
    let fields ← proxyFields method visibility (next + 1) rest
    return ⟨next, name, ty, .proxy index, visibility, false⟩ :: fields

/-- The thread field, which only enumerables have. -/
def threadFields (kind : IteratorKind) (visibility : Visibility) (next : FieldId) :
    Named (List Field) :=
  match kind with
  | .enumerator => return []
  | .enumerable => do
    let name ← freshName "$initial_thread_id"
    return [⟨next, name, .int, .initialThread, visibility, true⟩]

/-- The parameters that need a proxy: an enumerator is never handed out again. -/
def proxied (kind : IteratorKind) (capture : Capture) : List Nat :=
  match kind with
  | .enumerator => []
  | .enumerable => capture.assignedParams

def buildShape (method : Method) (kind : IteratorKind) (capture : Capture) (members : Members)
    (options : Options) : Named Shape := do
  let visibility := options.visibility.fields
  let element ← checked (elementType method)
  let element ← checked (rebind method.typeParams element)
  let stateName ← freshName "$state"
  let currentName ← freshName "$current"
  let thread ← threadFields kind visibility 2
  let firstSlot := 2 + thread.length
  let slots ← slotFields method visibility firstSlot capture.hoisted
  let firstProxy := firstSlot + slots.length
  let proxies ← proxyFields method visibility firstProxy (proxied kind capture)
  let name ← freshName (NameSupply.machineBase method.name)
  return {
    name := name
    kind := kind
    typeParams := method.typeParams
    elementType := element
    contracts := contracts kind element
    fields :=
      [⟨0, stateName, .int, .state, visibility, false⟩,
        ⟨1, currentName, element, .current, visibility, false⟩] ++ thread ++ slots ++ proxies
    state := 0
    current := 1
    initialThread := thread.head?.map (·.id)
    slots := .ofList (capture.hoisted.zip (slots.map (·.id)))
    proxies := (proxied kind capture).zip (proxies.map (·.id))
    members := members }

end Resumable.Lowering
