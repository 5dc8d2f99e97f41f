/-!
Documents in JSON, and the ways in which a document holds data: a structure is an
object with one field per component, a variant is an object with one field named
for it, or only its name when it carries nothing.
-/

namespace Resumable

inductive Json where
  | null
  | bool (value : Bool)
  | int (value : Int)
  /-- Any number that is not written as an integer. A negative zero is one of them. -/
  | real
  | str (value : String)
  | arr (items : List Json)
  | obj (fields : List (String × Json))
deriving Inhabited

namespace Json

mutual
/-- How deep arrays and objects nest; decoding a document takes no more steps than this. -/
def depth : Json → Nat
  | .null | .bool _ | .int _ | .real | .str _ => 1
  | .arr items => depthOfItems items + 1
  | .obj fields => depthOfFields fields + 1

def depthOfItems : List Json → Nat
  | [] => 0
  | item :: rest => max (depth item) (depthOfItems rest)

def depthOfFields : List (String × Json) → Nat
  | [] => 0
  | (_, value) :: rest => max (depth value) (depthOfFields rest)
end

def get? (json : Json) (key : String) : Option Json :=
  match json with
  | .obj fields => fields.lookup key
  | _ => none

/-- A field that is there and is not null. -/
def given? (json : Json) (key : String) : Option Json :=
  match json.get? key with
  | some .null => none
  | found => found

/-! ### Making documents -/

def ofNat (n : Nat) : Json := .int n

def ofInt64 (n : Int64) : Json := .int n.toInt

def ofStrings (texts : List String) : Json := .arr (texts.map .str)

def ofOption {α : Type} (write : α → Json) : Option α → Json
  | none => .null
  | some a => write a

def variant (name : String) (value : Json) : Json := .obj [(name, value)]

/-- The name of `a` in a table of names. -/
def nameIn {α : Type} [DecidableEq α] : List (String × α) → α → Json
  | [], _ => .null
  | (name, b) :: rest, a => if b = a then .str name else nameIn rest a

/-! ### Reading documents -/

def string? : Json → Option String
  | .str s => some s
  | _ => none

def bool? : Json → Option Bool
  | .bool b => some b
  | _ => none

def int64? : Json → Option Int64
  | .int n => if Int64.minValue.toInt ≤ n ∧ n ≤ Int64.maxValue.toInt then some (Int64.ofInt n) else none
  | _ => none

/-- A natural number of at most `bits` binary digits. -/
def nat? (bits : Nat) : Json → Option Nat
  | .int n => if 0 ≤ n ∧ n.toNat < 1 <<< bits then some n.toNat else none
  | _ => none

/-- A position or a length. -/
def size? : Json → Option Nat := nat? 64

/-- The identity of a local, a field or a label. -/
def id? : Json → Option Nat := nat? 32

def listOf? {α : Type} (read : Json → Option α) : Json → Option (List α)
  | .arr items => items.mapM read
  | _ => none

def pairOf? {α β : Type} (first : Json → Option α) (second : Json → Option β) :
    Json → Option (α × β)
  | .arr [a, b] => do
    let a ← first a
    let b ← second b
    return (a, b)
  | _ => none

/-- A component that may be missing or null. -/
def optional? {α : Type} (read : Json → Option α) : Option Json → Option (Option α)
  | none | some .null => some none
  | some json => (read json).map some

/-- A component that may be missing, but not null. -/
def orElse? {α : Type} (otherwise : α) (read : Json → Option α) : Option Json → Option α
  | none => some otherwise
  | some json => read json

/-- The fields of an object in the order of `names`. -/
def fields? (names : List String) : Json → Option (List (Option Json))
  | .obj fields => some (names.map fun name => fields.lookup name)
  | _ => none

/-- The components of a structure in the order of `names`. A list that has all of them in that order
is a structure too, but not what a variant carries. -/
def struct? (names : List String) : Json → Option (List (Option Json))
  | .arr items => if items.length = names.length then some (items.map some) else none
  | json => json.fields? names

/-- The name of a variant and what it carries. -/
def variant? : Json → Option (String × Option Json)
  | .str name => some (name, none)
  | .obj [(name, value)] => some (name, some value)
  | _ => none

/-- One of the variants in a table that carry nothing. -/
def oneOf? {α : Type} (table : List (String × α)) (json : Json) : Option α := do
  match ← json.variant? with
  | (name, none) | (name, some .null) => table.lookup name
  | _ => none

end Json
end Resumable
