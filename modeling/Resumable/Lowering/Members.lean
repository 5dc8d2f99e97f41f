import Resumable.Lowering.Error
import Resumable.Machine.Code

/-!
The platform members that generated code refers to, looked up before anything
is generated.
-/

namespace Resumable.Lowering
open Machine (ThreadSource)

structure Members where
  dispose : MemberRef
  moveNext : MemberRef
  currentObject : MemberRef
  currentGeneric : MemberRef
  reset : MemberRef
  notSupported : MemberRef
  /-- The remaining three are for enumerables only. -/
  getEnumeratorObject : Option MemberRef
  getEnumeratorGeneric : Option MemberRef
  threadId : Option ThreadSource

def require (platform : Platform) (member : Member) : Except LowerError MemberRef :=
  match platform.lookup member with
  | some found => .ok found
  | none => .error (.missingMember member)

def requireAll (platform : Platform) : List Member → Except LowerError Unit
  | [] => .ok ()
  | member :: rest => do
    let _ ← require platform member
    requireAll platform rest

/-- The direct accessor if there is one, else the route through the thread object. -/
def threadSource (platform : Platform) : Except LowerError ThreadSource :=
  match platform.lookup .currentThreadId with
  | some accessor => .ok (.accessor accessor)
  | none => do
    let currentThread ← require platform .currentThread
    let threadId ← require platform .threadId
    return .viaThread currentThread threadId

def resolveMembers (kind : IteratorKind) (platform : Platform) : Except LowerError Members := do
  requireAll platform
    [.int, .bool, .object, .disposable, .enumerator, .genericEnumerator]
  let dispose ← require platform .dispose
  let moveNext ← require platform .moveNext
  let currentObject ← require platform .current
  let currentGeneric ← require platform .genericCurrent
  let reset ← require platform .reset
  let notSupported ← require platform .notSupported
  let members : Members :=
    ⟨dispose, moveNext, currentObject, currentGeneric, reset, notSupported, none, none, none⟩
  match kind with
  | .enumerator => return members
  | .enumerable => do
    requireAll platform [.enumerable, .genericEnumerable]
    let object ← require platform .getEnumerator
    let generic ← require platform .genericGetEnumerator
    let thread ← threadSource platform
    return { members with
      getEnumeratorObject := some object
      getEnumeratorGeneric := some generic
      threadId := some thread }

end Resumable.Lowering
