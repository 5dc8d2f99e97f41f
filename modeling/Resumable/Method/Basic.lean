import Resumable.Diagnostic
import Resumable.Method.Stmt
import Resumable.Options
import Resumable.Ty

/-!
Iterator methods as the type checker hands them over: a signature, a symbol
table for the locals and a structured body.
-/

namespace Resumable

structure Parameter where
  name : String
  ty : Ty

structure LocalVar where
  id : LocalId
  name : String
  ty : Ty
  /-- Introduced by the lowering. -/
  synthesized : Bool

/-- What calling an iterator method returns. -/
inductive IteratorKind where
  | enumerator
  | enumerable
deriving DecidableEq

def IteratorKind.text : IteratorKind → String
  | .enumerator => "enumerator"
  | .enumerable => "enumerable"

structure Method where
  name : String
  visibility : Visibility
  typeParams : List String
  /-- Type of the implicit receiver; absent for a static method. -/
  receiver : Option Ty
  params : List Parameter
  returnType : Ty
  locals : List LocalVar
  body : Block
  span : Span

/-- The smallest identity above all declared ones. -/
def nextLocal : List LocalVar → LocalId
  | [] => 0
  | l :: rest => max (l.id + 1) (nextLocal rest)

namespace Method

def local? (method : Method) (id : LocalId) : Option LocalVar :=
  method.locals.find? fun l => l.id = id

def addLocal (method : Method) (name : String) (ty : Ty) (synthesized : Bool) :
    LocalId × Method :=
  let id := nextLocal method.locals
  (id, { method with locals := method.locals ++ [⟨id, name, ty, synthesized⟩] })

def varName? (method : Method) : Var → Option String
  | .receiver => method.receiver.map fun _ => "this"
  | .param index => (method.params[index]?).map (·.name)
  | .loc id => (method.local? id).map (·.name)

def varType? (method : Method) : Var → Option Ty
  | .receiver => method.receiver
  | .param index => (method.params[index]?).map (·.ty)
  | .loc id => (method.local? id).map (·.ty)

/-- An iterator method is recognised by the contract it returns. -/
def kind? (method : Method) : Option IteratorKind :=
  match method.returnType with
  | .contract .enumerator _ => some .enumerator
  | .contract .enumerable _ => some .enumerable
  | _ => none

end Method
end Resumable
