/-!
Lists as sorted sets: each member once, in the order of a strict comparison.
-/

namespace Resumable

variable {α : Type} [DecidableEq α]

/-- Enters `a` into a list sorted by `before`, unless it is there already. -/
def insertSorted (before : α → α → Bool) (a : α) : List α → List α
  | [] => [a]
  | b :: rest =>
    if a = b then b :: rest
    else if before a b then a :: b :: rest
    else b :: insertSorted before a rest

/-- The members of a list, each once, sorted by `before`. -/
def sortedSet (before : α → α → Bool) (items : List α) : List α :=
  items.foldr (insertSorted before) []

theorem mem_insertSorted (before : α → α → Bool) (a x : α) (items : List α) :
    x ∈ insertSorted before a items ↔ x = a ∨ x ∈ items := by
  induction items with
  | nil => simp [insertSorted]
  | cons b rest ih =>
    unfold insertSorted
    split
    · subst_vars
      simp
    · split
      · simp
      · simp only [List.mem_cons, ih]
        exact or_left_comm

theorem mem_sortedSet (before : α → α → Bool) (x : α) (items : List α) :
    x ∈ sortedSet before items ↔ x ∈ items := by
  induction items with
  | nil => simp [sortedSet]
  | cons a rest ih =>
    rw [List.mem_cons, ← ih]
    exact mem_insertSorted before a x _

end Resumable
