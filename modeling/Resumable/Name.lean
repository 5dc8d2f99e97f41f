import Resumable.Table

/-!
Names for generated members. The first request for a base returns the base
itself; later ones add a counter after a dollar sign.
-/

namespace Resumable

/-- How often each base has been requested. -/
structure NameSupply where
  taken : Table String Nat

namespace NameSupply

def empty : NameSupply := ⟨Table.empty⟩

/-- The name given to request number `count` for `base`. -/
def nameAt (base : String) (count : Nat) : String :=
  if count = 0 then base else base ++ "$" ++ toString count

def requests (supply : NameSupply) (base : String) : Nat :=
  (supply.taken.get? base).getD 0

def fresh (supply : NameSupply) (base : String) : String × NameSupply :=
  (nameAt base (supply.requests base), ⟨supply.taken.set base (supply.requests base + 1)⟩)

/-- The supply after requesting each of `bases` in order. -/
def reserve (supply : NameSupply) (bases : List String) : NameSupply :=
  bases.foldl (fun supply base => (supply.fresh base).2) supply

def machineBase (method : String) : String := method ++ "$Iterator"

def proxyBase (parameter : String) : String := parameter ++ "$init"

def cleanupBase : String := "$finally"

end NameSupply
end Resumable
