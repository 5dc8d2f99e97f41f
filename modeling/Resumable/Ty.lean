/-!
Types of methods and state machines. A type parameter belongs either to the
iterator method or to the state machine that replaces it; `rebind?` moves a type
from one owner's context into the other's.
-/

namespace Resumable

/-- Who declares a type parameter. -/
inductive Owner where
  | method
  | machine
deriving DecidableEq

structure TypeParam where
  owner : Owner
  index : Nat
  name : String
deriving DecidableEq

/-- The contracts of the iteration protocol. -/
inductive Contract where
  | disposable
  | enumerator
  | enumerable
deriving DecidableEq

inductive Ty where
  | int
  | bool
  | str
  | object
  | array (element : Ty)
  | named (name : String) (args : List Ty)
  | contract (kind : Contract) (args : List Ty)
  | param (parameter : TypeParam)

def Contract.text : Contract → String
  | .disposable => "Disposable"
  | .enumerator => "Enumerator"
  | .enumerable => "Enumerable"

namespace Ty

def methodParam (index : Nat) (name : String) : Ty :=
  .param ⟨.method, index, name⟩

def enumerableOf (element : Ty) : Ty := .contract .enumerable [element]

def enumeratorOf (element : Ty) : Ty := .contract .enumerator [element]

/-- The class `name` applied to its own parameters, as seen by `owner`. -/
def applied (name : String) (owner : Owner) (params : List String) : Ty :=
  .named name (params.zipIdx.map fun entry => .param ⟨owner, entry.2, entry.1⟩)

/-- Whether assignment copies a value of this type. -/
def isValue : Ty → Bool
  | .int | .bool => true
  | _ => false

mutual
/-- Whether a parameter of `owner` occurs at any depth. -/
def mentions (owner : Owner) : Ty → Bool
  | .int | .bool | .str | .object => false
  | .array element => mentions owner element
  | .named _ args => anyMentions owner args
  | .contract _ args => anyMentions owner args
  | .param parameter => parameter.owner = owner

def anyMentions (owner : Owner) : List Ty → Bool
  | [] => false
  | ty :: rest => mentions owner ty || anyMentions owner rest
end

mutual
/-- Replaces each parameter of `source` by the parameter of `target` at the same index. There is no
result when an index has no name. -/
def rebind? (source target : Owner) (names : List String) : Ty → Option Ty
  | .int => some .int
  | .bool => some .bool
  | .str => some .str
  | .object => some .object
  | .array element => do
    let element ← rebind? source target names element
    return .array element
  | .named name args => do
    let args ← rebindAll? source target names args
    return .named name args
  | .contract kind args => do
    let args ← rebindAll? source target names args
    return .contract kind args
  | .param parameter =>
    if parameter.owner = source then do
      let name ← names[parameter.index]?
      return .param ⟨target, parameter.index, name⟩
    else
      some (.param parameter)

def rebindAll? (source target : Owner) (names : List String) : List Ty → Option (List Ty)
  | [] => some []
  | ty :: rest => do
    let ty ← rebind? source target names ty
    let rest ← rebindAll? source target names rest
    return ty :: rest
end

/-- Type arguments in angle brackets; none at all without arguments. -/
def argumentText (args : List String) : String :=
  if args.isEmpty then "" else "<" ++ ", ".intercalate args ++ ">"

mutual
def text : Ty → String
  | .int => "int"
  | .bool => "bool"
  | .str => "string"
  | .object => "object"
  | .array element => text element ++ "[]"
  | .named name args => name ++ argumentText (texts args)
  | .contract kind args => kind.text ++ argumentText (texts args)
  | .param parameter => parameter.name

def texts : List Ty → List String
  | [] => []
  | ty :: rest => text ty :: texts rest
end

end Ty
end Resumable
