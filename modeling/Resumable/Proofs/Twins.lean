import Resumable.Proofs.Layout
import Resumable.Proofs.Scoping

/-!
Code that was emitted twice from the same statements, for two shapes. The two listings go
together instruction by instruction: labels, jumps and states are the same, and a variable
is in each of them where its shape stores it. A listing paired with itself shows what
emitted code may contain at all.

Along the way the pairing keeps the locals that have been stored to, the scope. A label
has a scope of its own, which holds wherever a jump to it comes from.
-/

namespace Resumable

/-- The last place of a label counts. -/
theorem Machine.Code.from?_append_of_some {target : Label} {rest found : Code}
    (later : rest.from? target = some found) (front : Code) :
    Machine.Code.from? target (front ++ rest) = some found := by
  induction front with
  | nil => exact later
  | cons instr front ih => simp only [List.cons_append, from?, ih]

namespace Lowering
open Machine (Code Instr Label Term)

/-- Two shapes of one method, and what is known of its expressions and locals. -/
structure Pairing where
  method : Method
  left : Shape
  right : Shape
  /-- The expressions that may occur where these locals have been stored to. -/
  allows : List LocalId → Expr → Prop
  /-- The locals that keep their values while the body is suspended. -/
  keeps : LocalId → Prop
  allows_mono {small large : List LocalId} {e : Expr} :
    small ⊆ large → allows small e → allows large e
  allows_initial {scope : List LocalId} {e : Expr} : e ∈ [.int 0, .bool false, .null] → allows scope e

/-- A label, and the locals that have been stored to when it is reached. -/
structure Mark where
  label : Label
  scope : List LocalId
  /-- Whether the body goes on here after a suspension. -/
  resumes : Bool

/-- What stands at a label. -/
def Mark.opening (mark : Mark) (shape : Shape) : Code :=
  .label mark.label :: if mark.resumes then [shape.setState State.running] else []

@[simp] theorem labels_opening (mark : Mark) (shape : Shape) :
    Machine.Code.labels (mark.opening shape) = [mark.label] := by
  unfold Mark.opening
  split <;> rfl

/-- What a listing may refer to: labels, suspension points and cleanup routines. -/
structure Landmarks where
  placed : Mark → Prop
  paused : Int64 → Label → Prop
  called : String → String → Prop
  /-- Whether it is the listing of a resumable body, and not that of a cleanup routine. -/
  resumable : Prop

/-- A jump to the label is fine where these locals have been stored to. -/
def Landmarks.Admits (marks : Landmarks) (scope : List LocalId) (target : Label) : Prop :=
  ∃ mark, marks.placed mark ∧ mark.label = target ∧ mark.scope ⊆ scope

theorem Landmarks.Admits.mono {marks : Landmarks} {small large : List LocalId} {target : Label}
    (admits : marks.Admits small target) (within : small ⊆ large) : marks.Admits large target := by
  obtain ⟨mark, placed, same, inside⟩ := admits
  exact ⟨mark, placed, same, List.Subset.trans inside within⟩

/-- Two terms for one expression that may occur in the scope. -/
def Pairing.Terms (pair : Pairing) (scope : List LocalId) (t t' : Term) : Prop :=
  ∃ e, pair.allows scope e ∧ pair.left.term e = .ok t ∧ pair.right.term e = .ok t'

theorem Pairing.Terms.mono {pair : Pairing} {small large : List LocalId} {t t' : Term}
    (terms : pair.Terms small t t') (within : small ⊆ large) : pair.Terms large t t' := by
  obtain ⟨e, allowed, lowered, lowered'⟩ := terms
  exact ⟨e, pair.allows_mono within allowed, lowered, lowered'⟩

/-- Two listings that go together from one scope to another. What follows an instruction that never
goes on to the next one may assume any scope, and what follows a cleanup routine only relies on
locals that are kept, since the routine has a frame of its own. -/
inductive Twin (pair : Pairing) (marks : Landmarks) :
    List LocalId → Code → Code → List LocalId → Prop
  | nil {scope after : List LocalId} : after ⊆ scope → Twin pair marks scope [] [] after
  | mark {scope after : List LocalId} {rest rest' : Code} {mark : Mark} : marks.placed mark →
      mark.scope ⊆ scope → (mark.resumes → ∀ id ∈ mark.scope, pair.keeps id) →
      Twin pair marks mark.scope rest rest' after →
      Twin pair marks scope (mark.opening pair.left ++ rest) (mark.opening pair.right ++ rest') after
  | goto {scope next after : List LocalId} {rest rest' : Code} {target : Label} :
      marks.Admits scope target → Twin pair marks next rest rest' after →
      Twin pair marks scope (.goto target :: rest) (.goto target :: rest') after
  | branch {scope after : List LocalId} {rest rest' : Code} {t t' : Term} {target : Label} :
      pair.Terms scope t t' → marks.Admits scope target → Twin pair marks scope rest rest' after →
      Twin pair marks scope (.gotoUnless t target :: rest) (.gotoUnless t' target :: rest') after
  | switch {scope next after : List LocalId} {rest rest' : Code} {t t' : Term}
      {cases : List (Int64 × Label)} {default : Label} : pair.Terms scope t t' →
      marks.Admits scope default → (∀ arm ∈ cases, marks.Admits scope arm.2) →
      Twin pair marks next rest rest' after →
      Twin pair marks scope (.switch t cases default :: rest) (.switch t' cases default :: rest') after
  | declare {scope after : List LocalId} {rest rest' : Code} {t t' : Term} {id : LocalId}
      {place place' : Machine.Place} : pair.Terms scope t t' →
      pair.left.place (.loc id) = .ok place → pair.right.place (.loc id) = .ok place' →
      Twin pair marks (id :: scope) rest rest' after →
      Twin pair marks scope (.assign place t :: rest) (.assign place' t' :: rest') after
  | assign {scope after : List LocalId} {rest rest' : Code} {var : Var} {e : Expr} {t t' : Term}
      {place place' : Machine.Place} : pair.allows scope (.assign var e) →
      pair.left.place var = .ok place → pair.right.place var = .ok place' →
      pair.left.term e = .ok t → pair.right.term e = .ok t' → Twin pair marks scope rest rest' after →
      Twin pair marks scope (.assign place t :: rest) (.assign place' t' :: rest') after
  | eval {scope after : List LocalId} {rest rest' : Code} {t t' : Term} : pair.Terms scope t t' →
      Twin pair marks scope rest rest' after →
      Twin pair marks scope (.eval t :: rest) (.eval t' :: rest') after
  | cleanup {scope next after : List LocalId} {rest rest' : Code} {name name' : String} :
      marks.called name name' → next ⊆ scope → (∀ id ∈ next, pair.keeps id) →
      Twin pair marks next rest rest' after →
      Twin pair marks scope (callCleanup name :: rest) (callCleanup name' :: rest') after
  | pause {scope next after : List LocalId} {rest rest' : Code} {t t' : Term} {state : Int64}
      {resume : Label} : pair.Terms scope t t' → marks.paused state resume →
      Twin pair marks next rest rest' after →
      Twin pair marks scope
        (.setField pair.left.current t :: pair.left.setState state :: .ret (some (.bool true)) :: rest)
        (.setField pair.right.current t' :: pair.right.setState state :: .ret (some (.bool true)) :: rest')
        after
  | finish {scope next after : List LocalId} {rest rest' : Code} : marks.resumable →
      Twin pair marks next rest rest' after →
      Twin pair marks scope (pair.left.finish ++ rest) (pair.right.finish ++ rest') after
  | leave {scope next after : List LocalId} {rest rest' : Code} : ¬ marks.resumable →
      Twin pair marks next rest rest' after →
      Twin pair marks scope (.ret none :: rest) (.ret none :: rest') after

namespace Twin
variable {pair : Pairing} {marks : Landmarks} {scope middle after : List LocalId}
variable {code code' rest rest' : Code}

/-- More locals may have been stored to than the listing relies on. -/
theorem widen {small large : List LocalId} (twin : Twin pair marks small code code' after)
    (within : small ⊆ large) : Twin pair marks large code code' after := by
  induction twin generalizing large with
  | nil inside => exact .nil (List.Subset.trans inside within)
  | mark placed inside kept rest => exact .mark placed (List.Subset.trans inside within) kept rest
  | goto admits rest => exact .goto (admits.mono within) rest
  | branch terms admits _ ih => exact .branch (terms.mono within) (admits.mono within) (ih within)
  | switch terms admits arms rest =>
    exact .switch (terms.mono within) (admits.mono within)
      (fun arm member => (arms arm member).mono within) rest
  | declare terms placed placed' _ ih =>
    exact .declare (terms.mono within) placed placed' (ih (List.cons_subset_cons _ within))
  | assign allowed placed placed' lowered lowered' _ ih =>
    exact .assign (pair.allows_mono within allowed) placed placed' lowered lowered' (ih within)
  | eval terms _ ih => exact .eval (terms.mono within) (ih within)
  | cleanup called inside kept rest => exact .cleanup called (List.Subset.trans inside within) kept rest
  | pause terms paused rest => exact .pause (terms.mono within) paused rest
  | finish known rest => exact .finish known rest
  | leave known rest => exact .leave known rest

theorem append (first : Twin pair marks scope code code' middle)
    (second : Twin pair marks middle rest rest' after) :
    Twin pair marks scope (code ++ rest) (code' ++ rest') after := by
  induction first with
  | nil within => exact second.widen within
  | mark placed within kept _ ih =>
    rw [List.append_assoc, List.append_assoc]
    exact .mark placed within kept (ih second)
  | goto admits _ ih => exact .goto admits (ih second)
  | branch terms admits _ ih => exact .branch terms admits (ih second)
  | switch terms admits arms _ ih => exact .switch terms admits arms (ih second)
  | declare terms placed placed' _ ih => exact .declare terms placed placed' (ih second)
  | assign allowed placed placed' lowered lowered' _ ih =>
    exact .assign allowed placed placed' lowered lowered' (ih second)
  | eval terms _ ih => exact .eval terms (ih second)
  | cleanup called inside kept _ ih => exact .cleanup called inside kept (ih second)
  | pause terms paused _ ih => exact .pause terms paused (ih second)
  | finish known _ ih => exact .finish known (ih second)
  | leave known _ ih => exact .leave known (ih second)

theorem labels_eq (twin : Twin pair marks scope code code' after) : code.labels = code'.labels := by
  induction twin with
  | nil _ => rfl
  | mark _ _ _ _ ih => simp only [Machine.Code.labels_append, labels_opening, ih]
  | goto _ _ ih | branch _ _ _ ih | switch _ _ _ _ ih | declare _ _ _ _ ih | assign _ _ _ _ _ _ ih
  | eval _ _ ih | cleanup _ _ _ _ ih | pause _ _ _ ih | finish _ _ ih | leave _ _ ih => exact ih

/-- Where the label is placed the two listings go on together, from the scope of the label. -/
def Lands (pair : Pairing) (marks : Landmarks) (after : List LocalId) (code code' : Code)
    (target : Label) : Prop :=
  ∃ mark rest rest', marks.placed mark ∧ mark.label = target ∧
    (mark.resumes → ∀ id ∈ mark.scope, pair.keeps id) ∧
    code.from? target = some (mark.opening pair.left ++ rest) ∧
    code'.from? target = some (mark.opening pair.right ++ rest') ∧
    Twin pair marks mark.scope rest rest' after

theorem Lands.prepend {target : Label} (lands : Lands pair marks after rest rest' target)
    (front front' : Code) : Lands pair marks after (front ++ rest) (front' ++ rest') target := by
  obtain ⟨mark, follow, follow', placed, same, kept, found, found', twin⟩ := lands
  refine ⟨mark, follow, follow', placed, same, kept, ?_, ?_, twin⟩
  · rw [Machine.Code.from?_append_of_some found]
  · rw [Machine.Code.from?_append_of_some found']

theorem lands (twin : Twin pair marks scope code code' after) {target : Label}
    (placed : target ∈ code.labels) : Lands pair marks after code code' target := by
  induction twin with
  | nil _ => cases placed
  | @mark _ _ rest rest' mark known _ kept twin ih =>
    by_cases later : target ∈ rest.labels
    · exact (ih later).prepend (mark.opening pair.left) (mark.opening pair.right)
    · have here : mark.label = target := by
        rw [Machine.Code.labels_append, labels_opening, List.mem_append, List.mem_singleton] at placed
        exact (placed.resolve_right later).symm
      have found (shape : Shape) {rest : Code} (none : target ∉ rest.labels) :
          Machine.Code.from? target (mark.opening shape ++ rest) = some (mark.opening shape ++ rest) := by
        rw [← here] at none ⊢
        unfold Mark.opening
        split <;> simp [Machine.Code.from?, Machine.Code.from?_eq_none none, Shape.setState,
          Machine.Instr.setField]
      exact ⟨mark, rest, rest', known, here, kept, found _ later, found _ (twin.labels_eq ▸ later), twin⟩
  | goto _ _ ih => exact (ih placed).prepend [_] [_]
  | branch _ _ _ ih => exact (ih placed).prepend [_] [_]
  | switch _ _ _ _ ih => exact (ih placed).prepend [_] [_]
  | declare _ _ _ _ ih => exact (ih placed).prepend [_] [_]
  | assign _ _ _ _ _ _ ih => exact (ih placed).prepend [_] [_]
  | eval _ _ ih => exact (ih placed).prepend [_] [_]
  | cleanup _ _ _ _ ih => exact (ih placed).prepend [_] [_]
  | pause _ _ _ ih => exact (ih placed).prepend [_, _, _] [_, _, _]
  | finish _ _ ih => exact (ih placed).prepend pair.left.finish pair.right.finish
  | leave _ _ ih => exact (ih placed).prepend [_] [_]

end Twin
end Lowering
end Resumable
