/-!
Choices the caller of the lowering makes: which locals move into fields, whether
an enumerable may hand out itself, and how visible the generated members are.
-/

namespace Resumable

inductive Visibility where
  | exposed
  | internal
  | hidden
deriving DecidableEq

def Visibility.text : Visibility → String
  | .exposed => "public"
  | .internal => "internal"
  | .hidden => "private"

structure VisibilityPolicy where
  machineType : Visibility
  fields : Visibility
  constructor : Visibility
  protocolMethods : Visibility
  helperMethods : Visibility
deriving DecidableEq

def VisibilityPolicy.standard : VisibilityPolicy where
  machineType := .hidden
  fields := .internal
  constructor := .internal
  protocolMethods := .hidden
  helperMethods := .hidden

/-- The visibility of each group of members, in the order of the fields. -/
def VisibilityPolicy.toList (policy : VisibilityPolicy) : List Visibility :=
  [policy.machineType, policy.fields, policy.constructor, policy.protocolMethods,
    policy.helperMethods]

/-- Which locals live in fields: those of scopes that suspend, or all of them. -/
inductive HoistPolicy where
  | suspendingScopes
  | all
deriving DecidableEq

/-- Whether the locals of a scope live in fields, given whether it suspends. -/
def HoistPolicy.hoists : HoistPolicy → Bool → Bool
  | .all, _ => true
  | .suspendingScopes, suspends => suspends

structure Options where
  hoisting : HoistPolicy
  reuseTemplate : Bool
  visibility : VisibilityPolicy
deriving DecidableEq

def Options.standard : Options where
  hoisting := .suspendingScopes
  reuseTemplate := true
  visibility := .standard

end Resumable
