import Resumable.Lowering.Dispatch
import Resumable.Proofs.Reaching
import Resumable.Proofs.Renaming
import Resumable.Proofs.Scoping
import Resumable.Proofs.Storage
import Resumable.Semantics.Structured

/-!
A method and its machine side by side. They match when every variable in scope has
been stored, in a field or in the frame, as a value that is alike. Expressions keep them
matched, make the same calls and fail for the same reason.
-/

namespace Resumable

/-- Errors about the data of a program, which a machine reports as its method does. -/
def EvalError.isData : EvalError → Bool
  | .typeMismatch _ _ | .indexOutOfBounds _ _ | .divisionByZero => true
  | _ => false

/-- The computation fails on nothing but its data. -/
abbrev OnlyData {α : Type} (x : Except EvalError α) : Prop := FailsOnly (fun e => e.isData) x

namespace Simulation
open Lowering (Shape)
open Machine (Activation FieldId Frame Place Role Step Term World)
open Structured (Run State)

section
variable (own : Nat)

/-- What a place holds while the routines of the instance `own` run. -/
def content (act : Activation) : Place → Option Value
  | .field id => act.world.slot? own id
  | .frame id => act.locals.get? id
  | .fieldOf _ _ => none

/-- The activation after a store. -/
def put (act : Activation) (value : Value) : Place → Activation
  | .field id => ⟨act.locals, act.world.setSlot own id value⟩
  | .frame id => ⟨act.locals.set id value, act.world⟩
  | .fieldOf _ _ => act

end

section
variable {own : Nat} {frame : Frame} {act : Activation} {place other : Place} {value : Value}

theorem gives_load (itself : frame.self = .object own) (held : content own act place = some value) :
    (frame.load place).Gives act value act := by
  intro fuel
  cases place with
  | field id =>
    simp only [Frame.load, Step.inWorld, itself, Activation.withFuel]
    rw [Machine.Exec.readField_of_slot (by simpa [content] using held)]
  | frame id =>
    simp only [content] at held
    simp [Frame.load, Step.readLocal, Activation.withFuel, held]
  | fieldOf holder id => simp [content] at held

/-- A place of the instance itself that exists. -/
def Writable (own : Nat) (act : Activation) : Place → Prop
  | .field id => (act.world.slot? own id).isSome
  | .frame _ => True
  | .fieldOf _ _ => False

theorem gives_store (itself : frame.self = .object own) (writable : Writable own act place)
    (value : Value) : (frame.store value place).Gives act () (put own act value place) := by
  intro fuel
  cases place with
  | field id =>
    simp only [Frame.store, Step.inWorld, itself, Activation.withFuel]
    rw [Machine.Exec.writeField_of_slot value (by simpa [Writable] using writable)]
    simp [put, World.setSlot_withFuel]
  | frame id => rfl
  | fieldOf holder id => exact writable.elim

theorem content_put_self (writable : Writable own act place) (value : Value) :
    content own (put own act value place) place = some value := by
  cases place with
  | field id => exact World.slot?_setSlot_self value writable
  | frame id => exact Table.get?_set_self _ id value
  | fieldOf holder id => exact writable.elim

theorem content_put_of_ne (value : Value) (ne : other ≠ place) :
    content own (put own act value place) other = content own act other := by
  cases place with
  | field id =>
    cases other with
    | field id' => exact World.slot?_setSlot_of_ne value (.inr fun same => ne (same ▸ rfl))
    | _ => rfl
  | frame id =>
    cases other with
    | frame id' => exact Table.get?_set_of_ne _ value fun same => ne (same ▸ rfl)
    | _ => rfl
  | fieldOf holder id => rfl

theorem isSome_slot?_put {id : FieldId} (value : Value) (place : Place)
    (present : (act.world.slot? own id).isSome) :
    ((put own act value place).world.slot? own id).isSome := by
  cases place with
  | field written => exact (World.isSome_slot?_setSlot value).mpr (.inl present)
  | _ => exact present

@[simp] theorem put_arrays (value : Value) (place : Place) :
    (put own act value place).world.arrays = act.world.arrays := by
  cases place <;> simp [put]

@[simp] theorem put_calls (value : Value) (place : Place) :
    (put own act value place).world.calls = act.world.calls := by
  cases place <;> simp [put]

end

section
variable {shape : Shape} {var var' : Var} {place : Place}

theorem place_eq_ok : shape.place var = .ok place ↔
    (∃ id, shape.slot? var = some id ∧ place = .field id) ∨
      (∃ id, var = .loc id ∧ shape.slot? var = none ∧ place = .frame id) := by
  unfold Shape.place
  cases slot : shape.slot? var with
  | some id => simp [eq_comm]
  | none => cases var <;> simp [eq_comm]

/-- No two variables share storage. -/
theorem place_inj (sound : shape.Sound) (placed : shape.place var = .ok place)
    (placed' : shape.place var' = .ok place) : var = var' := by
  rcases place_eq_ok.mp placed with ⟨id, slot, rfl⟩ | ⟨id, rfl, _, rfl⟩ <;>
    rcases place_eq_ok.mp placed' with ⟨id', slot', same⟩ | ⟨id', rfl, _, same⟩
  · obtain rfl := Place.field.inj same
    exact sound.slot_inj slot slot'
  · simp at same
  · simp at same
  · obtain rfl := Place.frame.inj same
    rfl

end

/-- The machine's storage for the variables in scope agrees with the method's variables. -/
structure Matches (shape : Shape) (own : Nat) (scope : List LocalId) (names : Renaming)
    (st : State) (act : Activation) : Prop where
  between : names.Between st.arrays act.world.arrays
  present {id : FieldId} {role : Role} : shape.Bears id role → (act.world.slot? own id).isSome
  held {var : Var} {place : Place} {value : Value} : var.inScope scope →
    shape.place var = .ok place → st.vars.get? var = some value →
    ∃ value', content own act place = some value' ∧ Value.Alike names value value'

/-- Both sides went on: the same calls, no new value, and every name kept. -/
structure Advance (st : State) (names : Renaming) (world : World) (st' : State) (names' : Renaming)
    (world' : World) : Prop where
  values : st'.values = st.values
  wider : names.Extends names'
  calls : ∃ made made', st'.calls.toList = st.calls.toList ++ made ∧
    world'.calls.toList = world.calls.toList ++ made' ∧ HostCall.AlikeAll names' made made'

namespace Advance
variable {st st' st'' : State} {names names' names'' : Renaming} {world world' world'' : World}

/-- Nothing that is recorded changed. -/
theorem of_same (values : st'.values = st.values) (calls : st'.calls = st.calls)
    (calls' : world'.calls = world.calls) (wider : names.Extends names') :
    Advance st names world st' names' world' where
  values := values
  wider := wider
  calls := ⟨[], [], by simp [calls], by simp [calls'], .nil⟩

theorem refl (st : State) (names : Renaming) (world : World) :
    Advance st names world st names world :=
  of_same rfl rfl rfl (.refl names)

theorem trans (first : Advance st names world st' names' world')
    (second : Advance st' names' world' st'' names'' world'') :
    Advance st names world st'' names'' world'' where
  values := second.values.trans first.values
  wider := first.wider.trans second.wider
  calls := by
    obtain ⟨made, made', reference, actual, alike⟩ := first.calls
    obtain ⟨more, more', reference', actual', alike'⟩ := second.calls
    refine ⟨made ++ more, made' ++ more', ?_, ?_, (alike.mono second.wider).append alike'⟩
    · rw [reference', reference, List.append_assoc]
    · rw [actual', actual, List.append_assoc]

end Advance

namespace Matches
variable {shape : Shape} {own : Nat} {scope scope' : List LocalId} {names : Renaming} {st : State}
  {act : Activation}

theorem narrow (matching : Matches shape own scope names st act) (within : scope' ⊆ scope) :
    Matches shape own scope' names st act where
  between := matching.between
  present := matching.present
  held inside := matching.held (Var.inScope_mono within inside)

theorem writable (matching : Matches shape own scope names st act) (sound : shape.Sound) {var : Var}
    {place : Place} (placed : shape.place var = .ok place) : Writable own act place := by
  rcases place_eq_ok.mp placed with ⟨id, slot, rfl⟩ | ⟨id, _, _, rfl⟩
  · exact matching.present (sound.slot slot)
  · trivial

/-- After storing into a variable it may be in scope. -/
theorem assign (matching : Matches shape own scope names st act) (sound : shape.Sound) {var : Var}
    {place : Place} {value value' : Value} (placed : shape.place var = .ok place)
    (alike : Value.Alike names value value')
    (more : ∀ other : Var, other.inScope scope' → other = var ∨ other.inScope scope) :
    Matches shape own scope' names { st with vars := st.vars.set var value }
      (put own act value' place) where
  between := by simpa using matching.between
  present bears := isSome_slot?_put value' place (matching.present bears)
  held {other otherPlace old} inside otherPlaced found := by
    by_cases same : other = var
    · subst same
      obtain rfl := Except.ok.inj (placed.symm.trans otherPlaced)
      simp only [Table.get?_set_self, Option.some.injEq] at found
      exact ⟨value', content_put_self (matching.writable sound placed) value', found ▸ alike⟩
    · have apart : otherPlace ≠ place := by
        rintro rfl
        exact same (place_inj sound otherPlaced placed)
      rw [content_put_of_ne value' apart]
      refine matching.held ((more other inside).resolve_left same) otherPlaced ?_
      rwa [Table.get?_set_of_ne _ _ same] at found

/-- Only the variables, the counter of arrays and the instance matter. -/
theorem transfer (matching : Matches shape own scope names st act) {st' : State} {act' : Activation}
    (vars : st'.vars = st.vars) (arrays : st'.arrays = st.arrays)
    (arrays' : act.world.arrays ≤ act'.world.arrays)
    (slots : ∀ id, act'.world.slot? own id = act.world.slot? own id)
    (frames : ∀ id, id ∈ scope → shape.slot? (.loc id) = none →
      act'.locals.get? id = act.locals.get? id) :
    Matches shape own scope names st' act' where
  between := arrays ▸ matching.between.mono (Nat.le_refl _) arrays'
  present bears := by rw [slots]; exact matching.present bears
  held {var place value} inside placed found := by
    obtain ⟨value', held, alike⟩ := matching.held inside placed (vars ▸ found)
    refine ⟨value', ?_, alike⟩
    rcases place_eq_ok.mp placed with ⟨id, _, rfl⟩ | ⟨id, rfl, noSlot, rfl⟩
    · exact (slots id).trans held
    · exact (frames id (by simpa [Var.inScope] using inside) noSlot).trans held

end Matches

end Simulation
end Resumable
