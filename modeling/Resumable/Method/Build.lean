import Resumable.Method.Basic

/-!
Building methods step by step: declarations first, then the body.
-/

namespace Resumable

namespace Method

/-- A visible static method without parameters and with an empty body. -/
def draft (name : String) (returnType : Ty) : Method where
  name := name
  visibility := .exposed
  typeParams := []
  receiver := none
  params := []
  returnType := returnType
  locals := []
  body := []
  span := ⟨0, 0⟩

def addTypeParam (method : Method) (name : String) : Ty × Method :=
  (.methodParam method.typeParams.length name,
    { method with typeParams := method.typeParams ++ [name] })

def addParam (method : Method) (name : String) (ty : Ty) : Var × Method :=
  (.param method.params.length, { method with params := method.params ++ [⟨name, ty⟩] })

end Method

namespace Stmt

/-- Adds a constant to a local. -/
def increment (id : LocalId) (amount : Int64) : Stmt :=
  .eval (.assign (.loc id) (.binary .add (.ofLocal id) (.int amount)))

end Stmt
end Resumable
