import Resumable.Json
import Resumable.Options
import Resumable.Platform

/-!
Options and platforms as documents.
-/

namespace Resumable

open Json

def Visibility.names : List (String × Visibility) :=
  [("Public", .exposed), ("Internal", .internal), ("Private", .hidden)]

def Visibility.toJson : Visibility → Json := nameIn names

def Visibility.ofJson? : Json → Option Visibility := oneOf? names

namespace VisibilityPolicy

def toJson (policy : VisibilityPolicy) : Json :=
  .obj [("state_machine_type", policy.machineType.toJson), ("fields", policy.fields.toJson),
    ("constructor", policy.constructor.toJson),
    ("protocol_methods", policy.protocolMethods.toJson),
    ("helper_methods", policy.helperMethods.toJson)]

def ofJson? (json : Json) : Option VisibilityPolicy := do
  match ← json.struct? ["state_machine_type", "fields", "constructor", "protocol_methods",
      "helper_methods"] with
  | [some machineType, some fields, some constructor, some protocolMethods,
      some helperMethods] =>
    return {
      machineType := ← Visibility.ofJson? machineType
      fields := ← Visibility.ofJson? fields
      constructor := ← Visibility.ofJson? constructor
      protocolMethods := ← Visibility.ofJson? protocolMethods
      helperMethods := ← Visibility.ofJson? helperMethods }
  | _ => none

end VisibilityPolicy

def HoistPolicy.names : List (String × HoistPolicy) :=
  [("suspending-scopes", .suspendingScopes), ("all", .all)]

namespace Options

def toJson (options : Options) : Json :=
  .obj [("hoist_policy", nameIn HoistPolicy.names options.hoisting),
    ("reuse_template_instance", .bool options.reuseTemplate),
    ("visibility", options.visibility.toJson)]

def ofComponents? (hoisting reuse visibility : Option Json) : Option Options := do
  return {
    hoisting := ← orElse? standard.hoisting (oneOf? HoistPolicy.names) hoisting
    reuseTemplate := ← orElse? standard.reuseTemplate bool? reuse
    visibility := ← orElse? standard.visibility VisibilityPolicy.ofJson? visibility }

/-- Options that are not mentioned are the standard ones; a list may end early. -/
def ofJson? : Json → Option Options
  | .obj fields =>
    ofComponents? (fields.lookup "hoist_policy") (fields.lookup "reuse_template_instance")
      (fields.lookup "visibility")
  | .arr [] => ofComponents? none none none
  | .arr [hoisting] => ofComponents? (some hoisting) none none
  | .arr [hoisting, reuse] => ofComponents? (some hoisting) (some reuse) none
  | .arr [hoisting, reuse, visibility] =>
    ofComponents? (some hoisting) (some reuse) (some visibility)
  | _ => none

end Options

def Member.names : List (String × Member) :=
  [("Int32", .int), ("Boolean", .bool), ("Object", .object), ("Disposable", .disposable),
    ("DisposableDispose", .dispose), ("Enumerator", .enumerator),
    ("EnumeratorMoveNext", .moveNext), ("EnumeratorCurrent", .current),
    ("EnumeratorReset", .reset), ("GenericEnumerator", .genericEnumerator),
    ("GenericEnumeratorCurrent", .genericCurrent), ("Enumerable", .enumerable),
    ("EnumerableGetEnumerator", .getEnumerator), ("GenericEnumerable", .genericEnumerable),
    ("GenericEnumerableGetEnumerator", .genericGetEnumerator),
    ("NotSupportedExceptionCtor", .notSupported), ("CurrentManagedThreadId", .currentThreadId),
    ("ThreadCurrentThread", .currentThread), ("ThreadManagedThreadId", .threadId)]

def Member.toJson : Member → Json := nameIn names

def Member.ofJson? : Json → Option Member := oneOf? names

def MemberRef.toJson (ref : MemberRef) : Json :=
  .obj [("member", ref.member.toJson), ("path", .str ref.path)]

def MemberRef.ofJson? (json : Json) : Option MemberRef := do
  match ← json.struct? ["member", "path"] with
  | [some member, some path] => return ⟨← Member.ofJson? member, ← string? path⟩
  | _ => none

namespace Platform

/-- The table of all provided members. -/
def toJson (platform : Platform) : Json :=
  .obj [("members", .obj (Member.names.filterMap fun (name, member) =>
    (platform.path? member).map fun path => (name, .str path)))]

def insertAll (platform : Platform) (entries : List (Member × String)) : Platform :=
  entries.foldl (fun platform entry => platform.insert entry.1 entry.2) platform

def base? : Json → Option Platform
  | .str "standard" => some standard
  | .str "empty" => some empty
  | _ => none

/-- A platform is given by its table, which then has to be one, or by what is taken from another
platform and what is put in afterwards. What is not mentioned stays as in the standard platform. -/
def ofJson? (json : Json) : Option Platform :=
  match json.get? "members" with
  | some (.obj entries) => do
    let entries ← entries.mapM fun (name, path) => do
      return (← Member.names.lookup name, ← string? path)
    return empty.insertAll entries
  | some _ => none
  | none => do
    let base ← orElse? standard base? (json.given? "base")
    let removed ← orElse? [] (listOf? Member.ofJson?) (json.given? "without")
    let added ← orElse? [] (listOf? (pairOf? Member.ofJson? string?)) (json.given? "insert")
    return (removed.foldl without base).insertAll added

end Platform
end Resumable
