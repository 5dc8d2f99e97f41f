/-!
Finite tables: association lists with one entry per key, in the order in which
the keys were first entered.
-/

namespace Resumable

structure Table (κ α : Type) where
  entries : List (κ × α)

namespace Table
variable {κ α : Type} [DecidableEq κ]

def empty : Table κ α := ⟨[]⟩

/-- The value of the first entry for `key`. -/
def find (key : κ) : List (κ × α) → Option α
  | [] => none
  | (k, v) :: rest => if k = key then some v else find key rest

/-- Replaces the entry for `key`, or adds one at the end. -/
def put (key : κ) (value : α) : List (κ × α) → List (κ × α)
  | [] => [(key, value)]
  | (k, v) :: rest => if k = key then (k, value) :: rest else (k, v) :: put key value rest

def get? (table : Table κ α) (key : κ) : Option α :=
  find key table.entries

def set (table : Table κ α) (key : κ) (value : α) : Table κ α :=
  ⟨put key value table.entries⟩

def erase (table : Table κ α) (key : κ) : Table κ α :=
  ⟨table.entries.filter fun entry => entry.1 ≠ key⟩

/-- Enters the pairs from left to right, so the last pair for a key wins. -/
def ofList (pairs : List (κ × α)) : Table κ α :=
  pairs.foldl (fun table pair => table.set pair.1 pair.2) empty

@[simp] theorem get?_empty (key : κ) : (empty : Table κ α).get? key = none := rfl

theorem find_put_self (key : κ) (value : α) (entries : List (κ × α)) :
    find key (put key value entries) = some value := by
  induction entries with
  | nil => simp [put, find]
  | cons entry rest ih =>
    obtain ⟨k, v⟩ := entry
    by_cases same : k = key <;> simp [put, find, same, ih]

theorem find_put_of_ne {key other : κ} (value : α) (ne : other ≠ key) (entries : List (κ × α)) :
    find other (put key value entries) = find other entries := by
  induction entries with
  | nil => simp [put, find, Ne.symm ne]
  | cons entry rest ih =>
    obtain ⟨k, v⟩ := entry
    by_cases same : k = key
    · subst same
      simp [put, find, Ne.symm ne]
    · simp [put, find, same, ih]

@[simp] theorem get?_set_self (table : Table κ α) (key : κ) (value : α) :
    (table.set key value).get? key = some value :=
  find_put_self key value table.entries

theorem get?_set_of_ne (table : Table κ α) {key other : κ} (value : α) (ne : other ≠ key) :
    (table.set key value).get? other = table.get? other :=
  find_put_of_ne value ne table.entries

end Table
end Resumable
