/-!
The members of the platform that generated code may refer to, and tables that
say which of them a platform provides.
-/

namespace Resumable

inductive Member where
  | int
  | bool
  | object
  | disposable
  | dispose
  | enumerator
  | moveNext
  | current
  | reset
  | genericEnumerator
  | genericCurrent
  | enumerable
  | getEnumerator
  | genericEnumerable
  | genericGetEnumerator
  | notSupported
  | currentThreadId
  | currentThread
  | threadId
deriving DecidableEq

namespace Member

def all : List Member :=
  [.int, .bool, .object, .disposable, .dispose, .enumerator, .moveNext, .current, .reset,
    .genericEnumerator, .genericCurrent, .enumerable, .getEnumerator, .genericEnumerable,
    .genericGetEnumerator, .notSupported, .currentThreadId, .currentThread, .threadId]

/-- What the member is for, in words. -/
def purpose : Member → String
  | .int => "integer type"
  | .bool => "boolean type"
  | .object => "object type"
  | .disposable => "disposable contract"
  | .dispose => "disposable contract dispose method"
  | .enumerator => "non-generic enumerator contract"
  | .moveNext => "enumerator advance method"
  | .current => "non-generic enumerator current accessor"
  | .reset => "enumerator reset method"
  | .genericEnumerator => "generic enumerator contract"
  | .genericCurrent => "generic enumerator current accessor"
  | .enumerable => "non-generic enumerable contract"
  | .getEnumerator => "non-generic enumerator vending method"
  | .genericEnumerable => "generic enumerable contract"
  | .genericGetEnumerator => "generic enumerator vending method"
  | .notSupported => "not-supported exception constructor"
  | .currentThreadId => "current-thread-identity accessor"
  | .currentThread => "current thread accessor"
  | .threadId => "thread identity accessor"

/-- Where the standard platform provides the member. -/
def standardPath : Member → String
  | .int => "rt.Int32"
  | .bool => "rt.Boolean"
  | .object => "rt.Object"
  | .disposable => "rt.Disposable"
  | .dispose => "rt.Disposable.dispose"
  | .enumerator => "rt.iter.Enumerator"
  | .moveNext => "rt.iter.Enumerator.move_next"
  | .current => "rt.iter.Enumerator.current"
  | .reset => "rt.iter.Enumerator.reset"
  | .genericEnumerator => "rt.iter.Enumerator`1"
  | .genericCurrent => "rt.iter.Enumerator`1.current"
  | .enumerable => "rt.iter.Enumerable"
  | .getEnumerator => "rt.iter.Enumerable.get_enumerator"
  | .genericEnumerable => "rt.iter.Enumerable`1"
  | .genericGetEnumerator => "rt.iter.Enumerable`1.get_enumerator"
  | .notSupported => "rt.NotSupportedException..ctor"
  | .currentThreadId => "rt.Environment.current_managed_thread_id"
  | .currentThread => "rt.threading.Thread.current_thread"
  | .threadId => "rt.threading.Thread.managed_thread_id"

end Member

/-- A member together with the path under which a platform provides it. -/
structure MemberRef where
  member : Member
  path : String
deriving DecidableEq

structure Platform where
  path? : Member → Option String

namespace Platform

def standard : Platform := ⟨fun member => some member.standardPath⟩

def empty : Platform := ⟨fun _ => none⟩

def without (platform : Platform) (member : Member) : Platform :=
  ⟨fun other => if other = member then none else platform.path? other⟩

def insert (platform : Platform) (member : Member) (path : String) : Platform :=
  ⟨fun other => if other = member then some path else platform.path? other⟩

def contains (platform : Platform) (member : Member) : Bool :=
  (platform.path? member).isSome

def lookup (platform : Platform) (member : Member) : Option MemberRef :=
  (platform.path? member).map fun path => ⟨member, path⟩

/-- The provided members with their paths, in the order of `Member.all`. -/
def provided (platform : Platform) : List MemberRef :=
  Member.all.filterMap platform.lookup

def isStandard (platform : Platform) : Bool :=
  Member.all.all fun member => platform.path? member = some member.standardPath

end Platform
end Resumable
