import Resumable.Exchange.Method
import Resumable.Machine.Basic

/-!
State machines as documents.
-/

namespace Resumable

open Json

namespace Machine

namespace Role

def toJson : Role → Json
  | .state => .str "State"
  | .current => .str "Current"
  | .initialThread => .str "InitialThreadId"
  | .hoisted source => variant "Hoisted" source.toJson
  | .proxy index => variant "Proxy" (.ofNat index)

def ofJson? (json : Json) : Option Role := do
  match ← json.variant? with
  | ("Hoisted", some source) => return .hoisted (← Var.ofJson? source)
  | ("Proxy", some index) => return .proxy (← size? index)
  | _ =>
    oneOf? [("State", .state), ("Current", .current), ("InitialThreadId", .initialThread)] json

end Role

namespace Place

def toJson : Place → Json
  | .field id => variant "Field" (.ofNat id)
  | .fieldOf holder id => variant "FieldOf" (.arr [.ofNat holder, .ofNat id])
  | .frame id => variant "Local" (.ofNat id)

def ofJson? (json : Json) : Option Place := do
  match ← json.variant? with
  | ("Field", some id) => return .field (← id? id)
  | ("FieldOf", some (.arr [holder, id])) => return .fieldOf (← id? holder) (← id? id)
  | ("Local", some id) => return .frame (← id? id)
  | _ => none

end Place

namespace ThreadSource

def toJson : ThreadSource → Json
  | .accessor identity => variant "Accessor" identity.toJson
  | .viaThread current identity =>
    variant "ViaThread"
      (.obj [("current_thread", current.toJson), ("managed_id", identity.toJson)])

def ofJson? (json : Json) : Option ThreadSource := do
  match ← json.variant? with
  | ("Accessor", some identity) => return .accessor (← MemberRef.ofJson? identity)
  | ("ViaThread", some json) =>
    match ← json.fields? ["current_thread", "managed_id"] with
    | [some current, some identity] =>
      return .viaThread (← MemberRef.ofJson? current) (← MemberRef.ofJson? identity)
    | _ => none
  | _ => none

end ThreadSource

namespace Term

mutual
def toJson : Term → Json
  | .int value => variant "Int" (.ofInt64 value)
  | .bool value => variant "Bool" (.bool value)
  | .str value => variant "Str" (.str value)
  | .null => .str "Null"
  | .load source => variant "Load" source.toJson
  | .self => .str "This"
  | .param number => variant "Param" (.ofNat number)
  | .assign target value => variant "Assign" (.arr [target.toJson, toJson value])
  | .unary op operand => variant "Unary" (.arr [nameIn UnaryOp.names op, toJson operand])
  | .binary op left right =>
    variant "Binary" (.arr [nameIn BinaryOp.names op, toJson left, toJson right])
  | .array items => variant "Array" (.arr (toJsons items))
  | .index base position => variant "Index" (.arr [toJson base, toJson position])
  | .len base => variant "Len" (toJson base)
  | .call callee args =>
    variant "Call" (.obj [("callee", .str callee), ("args", .arr (toJsons args))])
  | .callSelf name => variant "CallSelf" (.str name)
  | .construct args => variant "New" (.obj [("args", .arr (toJsons args))])
  | .threadId source => variant "ThreadId" source.toJson

def toJsons : List Term → List Json
  | [] => []
  | e :: rest => toJson e :: toJsons rest
end

def read? : Nat → Json → Option Term
  | 0, _ => none
  | depth + 1, json => do
    match ← json.variant? with
    | ("Int", some value) => return .int (← int64? value)
    | ("Bool", some value) => return .bool (← bool? value)
    | ("Str", some value) => return .str (← string? value)
    | ("Load", some source) => return .load (← Place.ofJson? source)
    | ("Param", some number) => return .param (← size? number)
    | ("Assign", some (.arr [target, value])) =>
      return .assign (← Place.ofJson? target) (← read? depth value)
    | ("Unary", some (.arr [op, operand])) =>
      return .unary (← oneOf? UnaryOp.names op) (← read? depth operand)
    | ("Binary", some (.arr [op, left, right])) =>
      return .binary (← oneOf? BinaryOp.names op) (← read? depth left) (← read? depth right)
    | ("Array", some items) => return .array (← listOf? (read? depth) items)
    | ("Index", some (.arr [base, position])) =>
      return .index (← read? depth base) (← read? depth position)
    | ("Len", some base) => return .len (← read? depth base)
    | ("Call", some json) =>
      match ← json.fields? ["callee", "args"] with
      | [some callee, some args] =>
        return .call (← string? callee) (← listOf? (read? depth) args)
      | _ => none
    | ("CallSelf", some name) => return .callSelf (← string? name)
    | ("New", some json) =>
      match ← json.fields? ["args"] with
      | [some args] => return .construct (← listOf? (read? depth) args)
      | _ => none
    | ("ThreadId", some source) => return .threadId (← ThreadSource.ofJson? source)
    | _ => oneOf? [("Null", .null), ("This", .self)] json

def ofJson? (json : Json) : Option Term := read? json.depth json

end Term

namespace Instr

def toJson : Instr → Json
  | .label l => variant "Label" (.ofNat l)
  | .goto l => variant "Goto" (.ofNat l)
  | .gotoUnless cond target =>
    variant "GotoUnless" (.obj [("cond", cond.toJson), ("target", .ofNat target)])
  | .switch value cases default =>
    variant "Switch" (.obj [("value", value.toJson),
      ("cases", .arr (cases.map fun (v, l) => .arr [.ofInt64 v, .ofNat l])),
      ("default", .ofNat default)])
  | .assign target value =>
    variant "Assign" (.obj [("place", target.toJson), ("value", value.toJson)])
  | .eval value => variant "Eval" value.toJson
  | .ret value => variant "Return" (.ofOption Term.toJson value)
  | .raise exception => variant "Throw" exception.toJson

def ofJson? (json : Json) : Option Instr := do
  match ← json.variant? with
  | ("Label", some l) => return .label (← id? l)
  | ("Goto", some l) => return .goto (← id? l)
  | ("GotoUnless", some json) =>
    match ← json.fields? ["cond", "target"] with
    | [some cond, some target] => return .gotoUnless (← Term.ofJson? cond) (← id? target)
    | _ => none
  | ("Switch", some json) =>
    match ← json.fields? ["value", "cases", "default"] with
    | [some value, some cases, some default] =>
      return .switch (← Term.ofJson? value) (← listOf? (pairOf? int64? id?) cases)
        (← id? default)
    | _ => none
  | ("Assign", some json) =>
    match ← json.fields? ["place", "value"] with
    | [some target, some value] => return .assign (← Place.ofJson? target) (← Term.ofJson? value)
    | _ => none
  | ("Eval", some value) => return .eval (← Term.ofJson? value)
  | ("Return", some value) => return .ret (← optional? Term.ofJson? (some value))
  | ("Throw", some exception) => return .raise (← MemberRef.ofJson? exception)
  | _ => none

end Instr

def Code.toJson (code : Code) : Json := .arr (code.map Instr.toJson)

namespace FrameVar

def toJson (l : FrameVar) : Json :=
  .obj [("id", .ofNat l.id), ("name", .str l.name), ("ty", l.ty.toJson)]

def ofJson? (json : Json) : Option FrameVar := do
  match ← json.struct? ["id", "name", "ty"] with
  | [some id, some name, some ty] => return ⟨← id? id, ← string? name, ← Ty.ofJson? ty⟩
  | _ => none

end FrameVar

namespace RoutineKind

def names : List (String × RoutineKind) :=
  [constructor, kickoff, moveNext, currentGeneric, currentObject, dispose, reset,
    getEnumeratorGeneric, getEnumeratorObject, cleanup].map fun kind => (kind.text, kind)

def toJson (kind : RoutineKind) : Json := .str kind.text

def ofJson? : Json → Option RoutineKind := oneOf? names

end RoutineKind

namespace Routine

/-- All but the code. -/
def signatureFields (routine : Routine) : List (String × Json) :=
  [("name", .str routine.name), ("kind", routine.kind.toJson),
    ("params", .arr (routine.params.map fun (name, ty) => .arr [.str name, ty.toJson])),
    ("return_type", .ofOption Ty.toJson routine.returnType),
    ("implements", .ofOption MemberRef.toJson routine.implements),
    ("visibility", routine.visibility.toJson),
    ("locals", .arr (routine.locals.map FrameVar.toJson))]

def toJson (routine : Routine) : Json :=
  .obj (routine.signatureFields ++ [("body", Code.toJson routine.body)])

def ofJson? (json : Json) : Option Routine := do
  match ← json.struct? ["name", "kind", "params", "return_type", "implements", "visibility",
      "locals", "body"] with
  | [some name, some kind, some params, returnType, implements, some visibility, some locals,
      some body] =>
    return {
      name := ← string? name
      kind := ← RoutineKind.ofJson? kind
      params := ← listOf? (pairOf? string? Ty.ofJson?) params
      returnType := ← optional? Ty.ofJson? returnType
      implements := ← optional? MemberRef.ofJson? implements
      visibility := ← Visibility.ofJson? visibility
      locals := ← listOf? FrameVar.ofJson? locals
      body := ← listOf? Instr.ofJson? body }
  | _ => none

end Routine

namespace Field

def toJson (field : Field) : Json :=
  .obj [("id", .ofNat field.id), ("name", .str field.name), ("ty", field.ty.toJson),
    ("role", field.role.toJson), ("visibility", field.visibility.toJson),
    ("readonly", .bool field.readonly)]

def ofJson? (json : Json) : Option Field := do
  match ← json.struct? ["id", "name", "ty", "role", "visibility", "readonly"] with
  | [some id, some name, some ty, some role, some visibility, some readonly] =>
    return {
      id := ← id? id
      name := ← string? name
      ty := ← Ty.ofJson? ty
      role := ← Role.ofJson? role
      visibility := ← Visibility.ofJson? visibility
      readonly := ← bool? readonly }
  | _ => none

end Field

namespace Point

def toJson (point : Point) : Json :=
  .obj [("state", .ofInt64 point.state), ("resume", .ofNat point.resume),
    ("cleanup", .ofStrings point.cleanup)]

def ofJson? (json : Json) : Option Point := do
  match ← json.struct? ["state", "resume", "cleanup"] with
  | [some state, some resume, some cleanup] =>
    return ⟨← int64? state, ← id? resume, ← listOf? string? cleanup⟩
  | _ => none

end Point

def toJson (machine : Machine) : Json :=
  .obj [("name", .str machine.name), ("type_params", .ofStrings machine.typeParams),
    ("kind", machine.kind.toJson), ("element_type", machine.elementType.toJson),
    ("interfaces", .arr (machine.contracts.map Ty.toJson)),
    ("visibility", machine.visibility.toJson),
    ("fields", .arr (machine.fields.map Field.toJson)),
    ("constructor", machine.constructor.toJson),
    ("methods", .arr (machine.routines.map Routine.toJson)),
    ("states", .arr (machine.points.map Point.toJson))]

def ofJson? (json : Json) : Option Machine := do
  match ← json.struct? ["name", "type_params", "kind", "element_type", "interfaces",
      "visibility", "fields", "constructor", "methods", "states"] with
  | [some name, some typeParams, some kind, some elementType, some contracts, some visibility,
      some fields, some constructor, some routines, some points] =>
    return {
      name := ← string? name
      typeParams := ← listOf? string? typeParams
      kind := ← IteratorKind.ofJson? kind
      elementType := ← Ty.ofJson? elementType
      contracts := ← listOf? Ty.ofJson? contracts
      visibility := ← Visibility.ofJson? visibility
      fields := ← listOf? Field.ofJson? fields
      constructor := ← Routine.ofJson? constructor
      routines := ← listOf? Routine.ofJson? routines
      points := ← listOf? Point.ofJson? points }
  | _ => none

end Machine

end Resumable
