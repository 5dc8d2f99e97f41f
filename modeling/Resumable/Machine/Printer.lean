import Resumable.Machine.Basic
import Resumable.Text.Quoted

/-!
Listings of state machines. Members that a listing cannot name are shown by
their number.
-/

namespace Resumable.Machine

def intText (value : Int64) : String := toString value.toInt

def boolText (value : Bool) : String := if value then "true" else "false"

def commas (items : List String) : String := ", ".intercalate items

/-- Names as they are seen from one routine of a machine. -/
structure Scope where
  machine : Machine
  routine : Routine

namespace Scope

def fieldName (scope : Scope) (id : FieldId) : String :=
  match scope.machine.field? id with
  | some field => field.name
  | none => "<field " ++ toString id ++ ">"

def frameName (scope : Scope) (id : LocalId) : String :=
  match scope.routine.local? id with
  | some l => l.name
  | none => localText id

def paramName (scope : Scope) (index : Nat) : String :=
  match scope.routine.params[index]? with
  | some param => param.1
  | none => "<param " ++ toString index ++ ">"

def place (scope : Scope) : Place → String
  | .field id => "this." ++ scope.fieldName id
  | .fieldOf holder id => scope.frameName holder ++ "." ++ scope.fieldName id
  | .frame id => scope.frameName id

def thread : ThreadSource → String
  | .accessor member => member.path ++ "()"
  | .viaThread currentThread threadId => currentThread.path ++ "()." ++ threadId.path ++ "()"

mutual
def term (scope : Scope) : Term → String
  | .int value => intText value
  | .bool value => boolText value
  | .str value => Text.quoted value
  | .null => "null"
  | .load place => scope.place place
  | .self => "this"
  | .param index => scope.paramName index
  | .assign place value => "(" ++ scope.place place ++ " = " ++ term scope value ++ ")"
  | .unary op operand => op.symbol ++ term scope operand
  | .binary op left right =>
    "(" ++ term scope left ++ " " ++ op.symbol ++ " " ++ term scope right ++ ")"
  | .array items => "[" ++ commas (terms scope items) ++ "]"
  | .index base position => term scope base ++ "[" ++ term scope position ++ "]"
  | .len base => "len(" ++ term scope base ++ ")"
  | .call callee args => callee ++ "(" ++ commas (terms scope args) ++ ")"
  | .callSelf routine => "this." ++ routine ++ "()"
  | .construct args =>
    "new " ++ scope.machine.name ++ "(" ++ commas (terms scope args) ++ ")"
  | .threadId source => thread source

def terms (scope : Scope) : List Term → List String
  | [] => []
  | e :: rest => term scope e :: terms scope rest
end

def instr (scope : Scope) : Instr → String
  | .label label => "  " ++ labelText label ++ ":"
  | .goto target => "    goto " ++ labelText target
  | .gotoUnless cond target =>
    "    unless " ++ scope.term cond ++ " goto " ++ labelText target
  | .switch value cases default =>
    let arms := cases.map fun arm => intText arm.1 ++ " => " ++ labelText arm.2
    "    switch " ++ scope.term value ++ " \x7b " ++
      commas (arms ++ ["_ => " ++ labelText default]) ++ " \x7d"
  | .assign place value => "    " ++ scope.place place ++ " = " ++ scope.term value
  | .eval value => "    " ++ scope.term value
  | .ret (some value) => "    return " ++ scope.term value
  | .ret none => "    return"
  | .raise constructor => "    throw new " ++ constructor.path ++ "()"

/-- The lines of a routine under its header. -/
def lines (scope : Scope) (header indent : String) : List String :=
  header :: scope.routine.locals.map (fun l => "    local " ++ l.name ++ ": " ++ l.ty.text) ++
    scope.routine.body.map scope.instr ++ [indent ++ "end"]

end Scope

def Routine.signature (routine : Routine) : String :=
  routine.name ++ "(" ++
    commas (routine.params.map fun param => param.1 ++ ": " ++ param.2.text) ++ ")" ++
    match routine.returnType with
    | some ty => " -> " ++ ty.text
    | none => ""

def Routine.header (routine : Routine) : String :=
  "  " ++ routine.visibility.text ++ " " ++ routine.signature ++
    match routine.implements with
    | some member => " implements " ++ member.path
    | none => ""

def Field.line (field : Field) : String :=
  "  field " ++ field.visibility.text ++ " " ++ (if field.readonly then "readonly " else "") ++
    field.name ++ ": " ++ field.ty.text

def Point.line (point : Point) : String :=
  "  state " ++ intText point.state ++ " resume " ++ labelText point.resume ++
    if point.cleanup.isEmpty then "" else " cleanup [" ++ commas point.cleanup ++ "]"

/-- The constructor shows no contract member, whatever it claims to provide. -/
def constructorHeader (routine : Routine) : String :=
  "  " ++ routine.visibility.text ++ " " ++ routine.signature

def lines (machine : Machine) : List String :=
  [machine.visibility.text ++ " class " ++ machine.name ++ Ty.argumentText machine.typeParams ++
      " (" ++ machine.kind.text ++ " of " ++ machine.elementType.text ++ ")",
    "  implements " ++ commas (machine.contracts.map Ty.text)] ++
  machine.fields.map Field.line ++
  machine.points.map Point.line ++
  Scope.lines ⟨machine, machine.constructor⟩ (constructorHeader machine.constructor) "  " ++
  machine.routines.flatMap (fun routine => Scope.lines ⟨machine, routine⟩ routine.header "  ") ++
  ["end"]

def unlines (lines : List String) : String :=
  String.join (lines.map (· ++ "\n"))

def print (machine : Machine) : String := unlines machine.lines

end Resumable.Machine

namespace Resumable

/-- The listing of the kick-off routine followed by that of the machine. -/
def Lowered.print (lowered : Lowered) : String :=
  Machine.unlines (Machine.Scope.lines ⟨lowered.machine, lowered.kickoff⟩
    ("kickoff " ++ lowered.kickoff.signature) "") ++ "\n" ++ lowered.machine.print

end Resumable
