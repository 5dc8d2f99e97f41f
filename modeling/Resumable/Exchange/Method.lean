import Resumable.Exchange.Settings
import Resumable.Method.Basic

/-!
Types and iterator methods as documents. Reading follows the nesting of the
document, so a document of depth `n` is read in `n` steps.
-/

namespace Resumable

open Json

def Owner.names : List (String × Owner) := [("Method", .method), ("StateMachine", .machine)]

def Contract.names : List (String × Contract) :=
  [disposable, enumerator, enumerable].map fun kind => (kind.text, kind)

namespace Ty

mutual
def toJson : Ty → Json
  | .int => .str "Int32"
  | .bool => .str "Boolean"
  | .str => .str "Str"
  | .object => .str "Object"
  | .array element => variant "Array" (toJson element)
  | .named name args =>
    variant "Named" (.obj [("name", .str name), ("args", .arr (toJsons args))])
  | .contract kind args =>
    variant "Interface" (.obj [("kind", .str kind.text), ("args", .arr (toJsons args))])
  | .param parameter =>
    variant "Param" (.obj [("owner", nameIn Owner.names parameter.owner),
      ("index", .ofNat parameter.index), ("name", .str parameter.name)])

def toJsons : List Ty → List Json
  | [] => []
  | ty :: rest => toJson ty :: toJsons rest
end

def read? : Nat → Json → Option Ty
  | 0, _ => none
  | depth + 1, json => do
    match ← json.variant? with
    | ("Array", some element) => return .array (← read? depth element)
    | ("Named", some json) =>
      match ← json.fields? ["name", "args"] with
      | [some name, some args] => return .named (← string? name) (← listOf? (read? depth) args)
      | _ => none
    | ("Interface", some json) =>
      match ← json.fields? ["kind", "args"] with
      | [some kind, some args] =>
        return .contract (← oneOf? Contract.names kind) (← listOf? (read? depth) args)
      | _ => none
    | ("Param", some json) =>
      match ← json.struct? ["owner", "index", "name"] with
      | [some owner, some index, some name] =>
        return .param ⟨← oneOf? Owner.names owner, ← size? index, ← string? name⟩
      | _ => none
    | _ => oneOf? [("Int32", .int), ("Boolean", .bool), ("Str", .str), ("Object", .object)] json

def ofJson? (json : Json) : Option Ty := read? json.depth json

end Ty

namespace Var

def toJson : Var → Json
  | .receiver => .str "Receiver"
  | .param index => variant "Param" (.ofNat index)
  | .loc id => variant "Local" (.ofNat id)

def ofJson? (json : Json) : Option Var := do
  match ← json.variant? with
  | ("Param", some index) => return .param (← size? index)
  | ("Local", some id) => return .loc (← id? id)
  | _ => oneOf? [("Receiver", .receiver)] json

end Var

def UnaryOp.names : List (String × UnaryOp) := [("Neg", .neg), ("Not", .not)]

def BinaryOp.names : List (String × BinaryOp) :=
  [("Add", .add), ("Sub", .sub), ("Mul", .mul), ("Div", .div), ("Rem", .rem), ("Eq", .eq),
    ("Ne", .ne), ("Lt", .lt), ("Le", .le), ("Gt", .gt), ("Ge", .ge), ("And", .and), ("Or", .or)]

namespace Expr

mutual
def toJson : Expr → Json
  | .int value => variant "Int" (.ofInt64 value)
  | .bool value => variant "Bool" (.bool value)
  | .str value => variant "Str" (.str value)
  | .null => .str "Null"
  | .var source => variant "Var" source.toJson
  | .assign target value => variant "Assign" (.arr [target.toJson, toJson value])
  | .unary op operand => variant "Unary" (.arr [nameIn UnaryOp.names op, toJson operand])
  | .binary op left right =>
    variant "Binary" (.arr [nameIn BinaryOp.names op, toJson left, toJson right])
  | .array items => variant "Array" (.arr (toJsons items))
  | .index base position => variant "Index" (.arr [toJson base, toJson position])
  | .len base => variant "Len" (toJson base)
  | .call callee args =>
    variant "Call" (.obj [("callee", .str callee), ("args", .arr (toJsons args))])

def toJsons : List Expr → List Json
  | [] => []
  | e :: rest => toJson e :: toJsons rest
end

def read? : Nat → Json → Option Expr
  | 0, _ => none
  | depth + 1, json => do
    match ← json.variant? with
    | ("Int", some value) => return .int (← int64? value)
    | ("Bool", some value) => return .bool (← bool? value)
    | ("Str", some value) => return .str (← string? value)
    | ("Var", some source) => return .var (← Var.ofJson? source)
    | ("Assign", some (.arr [target, value])) =>
      return .assign (← Var.ofJson? target) (← read? depth value)
    | ("Unary", some (.arr [op, operand])) =>
      return .unary (← oneOf? UnaryOp.names op) (← read? depth operand)
    | ("Binary", some (.arr [op, left, right])) =>
      return .binary (← oneOf? BinaryOp.names op) (← read? depth left) (← read? depth right)
    | ("Array", some items) => return .array (← listOf? (read? depth) items)
    | ("Index", some (.arr [base, position])) =>
      return .index (← read? depth base) (← read? depth position)
    | ("Len", some base) => return .len (← read? depth base)
    | ("Call", some json) =>
      match ← json.fields? ["callee", "args"] with
      | [some callee, some args] =>
        return .call (← string? callee) (← listOf? (read? depth) args)
      | _ => none
    | _ => oneOf? [("Null", .null)] json

def ofJson? (json : Json) : Option Expr := read? json.depth json

end Expr

/-- The document of a block, from those of its statements. -/
def blockJson (stmts : List Json) : Json := .obj [("stmts", .arr stmts)]

/-- Reads a block, given how its statements are read. -/
def readBlock? (stmt : Json → Option Stmt) (json : Json) : Option Block := do
  match ← json.struct? ["stmts"] with
  | [some stmts] => listOf? stmt stmts
  | _ => none

def readCase? (stmt : Json → Option Stmt) (json : Json) : Option (List Int64 × Block) := do
  match ← json.struct? ["values", "body"] with
  | [some values, some body] => return (← listOf? int64? values, ← readBlock? stmt body)
  | _ => none

namespace Stmt

mutual
def toJson : Stmt → Json
  | .block body => variant "Block" (blockJson (toJsons body))
  | .declare id init =>
    variant "Local" (.obj [("local", .ofNat id), ("init", .ofOption Expr.toJson init)])
  | .eval value => variant "Expr" value.toJson
  | .ite cond yes none =>
    variant "If" (.obj [("cond", cond.toJson), ("then_branch", blockJson (toJsons yes)),
      ("else_branch", .null)])
  | .ite cond yes (some no) =>
    variant "If" (.obj [("cond", cond.toJson), ("then_branch", blockJson (toJsons yes)),
      ("else_branch", blockJson (toJsons no))])
  | .whileLoop cond body =>
    variant "While" (.obj [("cond", cond.toJson), ("body", blockJson (toJsons body))])
  | .forLoop init cond step body =>
    variant "For" (.obj [("init", .arr (toJsons init)), ("cond", .ofOption Expr.toJson cond),
      ("step", .arr (Expr.toJsons step)), ("body", blockJson (toJsons body))])
  | .foreach id collection body =>
    variant "ForEach" (.obj [("var", .ofNat id), ("collection", collection.toJson),
      ("body", blockJson (toJsons body))])
  | .switch scrutinee cases none =>
    variant "Switch" (.obj [("scrutinee", scrutinee.toJson), ("cases", .arr (casesToJson cases)),
      ("default", .null)])
  | .switch scrutinee cases (some default) =>
    variant "Switch" (.obj [("scrutinee", scrutinee.toJson), ("cases", .arr (casesToJson cases)),
      ("default", blockJson (toJsons default))])
  | .tryFinally body cleanup =>
    variant "Try" (.obj [("body", blockJson (toJsons body)),
      ("finally", blockJson (toJsons cleanup))])
  | .breakOut => .str "Break"
  | .continueLoop => .str "Continue"
  | .yield value => variant "Yield" value.toJson
  | .stop => .str "YieldBreak"

def toJsons : List Stmt → List Json
  | [] => []
  | s :: rest => toJson s :: toJsons rest

def casesToJson : List (List Int64 × List Stmt) → List Json
  | [] => []
  | (values, body) :: rest =>
    .obj [("values", .arr (values.map .ofInt64)), ("body", blockJson (toJsons body))] ::
      casesToJson rest
end

def read? : Nat → Json → Option Stmt
  | 0, _ => none
  | depth + 1, json => do
    let block := readBlock? (read? depth)
    match ← json.variant? with
    | ("Block", some body) => return .block (← block body)
    | ("Local", some json) =>
      match ← json.fields? ["local", "init"] with
      | [some id, init] => return .declare (← id? id) (← optional? Expr.ofJson? init)
      | _ => none
    | ("Expr", some value) => return .eval (← Expr.ofJson? value)
    | ("If", some json) =>
      match ← json.fields? ["cond", "then_branch", "else_branch"] with
      | [some cond, some yes, no] =>
        return .ite (← Expr.ofJson? cond) (← block yes) (← optional? block no)
      | _ => none
    | ("While", some json) =>
      match ← json.fields? ["cond", "body"] with
      | [some cond, some body] => return .whileLoop (← Expr.ofJson? cond) (← block body)
      | _ => none
    | ("For", some json) =>
      match ← json.fields? ["init", "cond", "step", "body"] with
      | [some init, cond, some step, some body] =>
        return .forLoop (← listOf? (read? depth) init) (← optional? Expr.ofJson? cond)
          (← listOf? Expr.ofJson? step) (← block body)
      | _ => none
    | ("ForEach", some json) =>
      match ← json.fields? ["var", "collection", "body"] with
      | [some id, some collection, some body] =>
        return .foreach (← id? id) (← Expr.ofJson? collection) (← block body)
      | _ => none
    | ("Switch", some json) =>
      match ← json.fields? ["scrutinee", "cases", "default"] with
      | [some scrutinee, some cases, default] =>
        return .switch (← Expr.ofJson? scrutinee) (← listOf? (readCase? (read? depth)) cases)
          (← optional? block default)
      | _ => none
    | ("Try", some json) =>
      match ← json.fields? ["body", "finally"] with
      | [some body, some cleanup] => return .tryFinally (← block body) (← block cleanup)
      | _ => none
    | ("Yield", some value) => return .yield (← Expr.ofJson? value)
    | _ => oneOf? [("Break", .breakOut), ("Continue", .continueLoop), ("YieldBreak", .stop)] json

end Stmt

namespace Block

def toJson (body : Block) : Json := blockJson (Stmt.toJsons body)

def ofJson? (json : Json) : Option Block := readBlock? (Stmt.read? json.depth) json

end Block

namespace Parameter

def toJson (p : Parameter) : Json := .obj [("name", .str p.name), ("ty", p.ty.toJson)]

def ofJson? (json : Json) : Option Parameter := do
  match ← json.struct? ["name", "ty"] with
  | [some name, some ty] => return ⟨← string? name, ← Ty.ofJson? ty⟩
  | _ => none

end Parameter

namespace LocalVar

def toJson (l : LocalVar) : Json :=
  .obj [("id", .ofNat l.id), ("name", .str l.name), ("ty", l.ty.toJson),
    ("synthesized", .bool l.synthesized)]

def ofJson? (json : Json) : Option LocalVar := do
  match ← json.struct? ["id", "name", "ty", "synthesized"] with
  | [some id, some name, some ty, some synthesized] =>
    return ⟨← id? id, ← string? name, ← Ty.ofJson? ty, ← bool? synthesized⟩
  | _ => none

end LocalVar

namespace Span

def toJson (span : Span) : Json := .obj [("start", .ofNat span.start), ("end", .ofNat span.stop)]

def ofJson? (json : Json) : Option Span := do
  match ← json.struct? ["start", "end"] with
  | [some start, some stop] => return ⟨← size? start, ← size? stop⟩
  | _ => none

end Span

namespace IteratorKind

def names : List (String × IteratorKind) :=
  [("Enumerator", .enumerator), ("Enumerable", .enumerable)]

def toJson : IteratorKind → Json := nameIn names

def ofJson? : Json → Option IteratorKind := oneOf? names

end IteratorKind

namespace Method

def toJson (method : Method) : Json :=
  .obj [("name", .str method.name), ("visibility", method.visibility.toJson),
    ("type_params", .ofStrings method.typeParams),
    ("receiver", .ofOption Ty.toJson method.receiver),
    ("params", .arr (method.params.map Parameter.toJson)),
    ("return_type", method.returnType.toJson),
    ("locals", .arr (method.locals.map LocalVar.toJson)), ("body", method.body.toJson),
    ("span", method.span.toJson)]

def ofJson? (json : Json) : Option Method := do
  match ← json.struct? ["name", "visibility", "type_params", "receiver", "params", "return_type",
      "locals", "body", "span"] with
  | [some name, some visibility, some typeParams, receiver, some params, some returnType,
      some locals, some body, some span] =>
    return {
      name := ← string? name
      visibility := ← Visibility.ofJson? visibility
      typeParams := ← listOf? string? typeParams
      receiver := ← optional? Ty.ofJson? receiver
      params := ← listOf? Parameter.ofJson? params
      returnType := ← Ty.ofJson? returnType
      locals := ← listOf? LocalVar.ofJson? locals
      body := ← Block.ofJson? body
      span := ← Span.ofJson? span }
  | _ => none

end Method
end Resumable
