import Resumable.Lowering.Foreach
import Resumable.Lowering.Protocol
import Resumable.Lowering.Structure

/-!
Lowering of an iterator method into a state machine. The platform and the structure
of the method are checked before the first name is taken; only a type that names an
undeclared type parameter is found later.
-/

namespace Resumable
open Lowering

/-- The contract that the method implements. -/
def Method.iteratorKind (method : Method) : Except LowerError IteratorKind :=
  match method.kind? with
  | some kind => .ok kind
  | none =>
    if method.body.suspends then .error (.internal (.suspendsWithoutContract method.name))
    else .error (.internal (.notIterator method.name))

def Method.validate (method : Method) (platform : Platform) :
    Except LowerError (IteratorKind × Members) := do
  let kind ← method.iteratorKind
  let members ← resolveMembers kind platform
  let _ ← elementType method
  checkStructure method
  return (kind, members)

def Method.lower (method : Method) (platform : Platform) (options : Options) : Named Lowered := do
  let (kind, members) ← checked (method.validate platform)
  let expanded ← checked (expandForeach method)
  let shape ← buildShape expanded kind (capture expanded options.hoisting) members options
  let dispatch ← buildDispatch expanded shape
  let constructor ← checked (buildConstructor shape options)
  let kickoff ← checked (buildKickoff expanded shape)
  let routines ← checked (buildRoutines shape dispatch options)
  return {
    source := method
    kickoff := kickoff
    machine := {
      name := shape.name
      typeParams := shape.typeParams
      kind := kind
      elementType := shape.elementType
      contracts := shape.contracts
      visibility := options.visibility.machineType
      fields := shape.fields
      constructor := constructor
      routines := routines
      points := dispatch.points } }

/-- Lowers methods in order with one name supply; a failure keeps the names it took. -/
def lowerAll (platform : Platform) (options : Options) :
    List Method → NameSupply → List (Except LowerError Lowered)
  | [], _ => []
  | method :: rest, names =>
    match method.lower platform options names with
    | .ok lowered names => .ok lowered :: lowerAll platform options rest names
    | .error e names => .error e :: lowerAll platform options rest names

end Resumable
