import Resumable.Proofs.Binding
import Resumable.Semantics.World

/-!
The fields of instances, read and written by position of the instance and identity of
the field. Every operation on fields is one of these two.
-/

namespace Resumable.Machine

namespace World

/-- What a field of an instance holds, if there is such a field. -/
def slot? (world : World) (object : Nat) (id : FieldId) : Option Value :=
  world.instances[object]?.bind fun i => i.slots.get? id

/-- Stores into a field of an instance. -/
def setSlot (world : World) (object : Nat) (id : FieldId) (value : Value) : World :=
  match world.instances[object]? with
  | some i =>
    { world with instances := world.instances.setIfInBounds object ⟨i.slots.set id value⟩ }
  | none => world

def withFuel (world : World) (fuel : Nat) : World := { world with fuel := fuel }

section
variable (world : World) (object : Nat) (id : FieldId) (value : Value) (fuel : Nat)

@[simp] theorem withFuel_fuel : (world.withFuel fuel).fuel = fuel := rfl

@[simp] theorem withFuel_withFuel (fuel' : Nat) :
    (world.withFuel fuel).withFuel fuel' = world.withFuel fuel' := rfl

@[simp] theorem withFuel_self : world.withFuel world.fuel = world := rfl

@[simp] theorem withFuel_calls : (world.withFuel fuel).calls = world.calls := rfl

@[simp] theorem withFuel_arrays : (world.withFuel fuel).arrays = world.arrays := rfl

@[simp] theorem withFuel_thread : (world.withFuel fuel).thread = world.thread := rfl

@[simp] theorem withFuel_instances : (world.withFuel fuel).instances = world.instances := rfl

@[simp] theorem slot?_withFuel : (world.withFuel fuel).slot? object id = world.slot? object id := rfl

theorem setSlot_withFuel :
    (world.withFuel fuel).setSlot object id value = (world.setSlot object id value).withFuel fuel := by
  unfold setSlot
  simp only [withFuel_instances]
  split <;> rfl

@[simp] theorem setSlot_calls : (world.setSlot object id value).calls = world.calls := by
  unfold setSlot
  split <;> rfl

@[simp] theorem setSlot_arrays : (world.setSlot object id value).arrays = world.arrays := by
  unfold setSlot
  split <;> rfl

@[simp] theorem setSlot_thread : (world.setSlot object id value).thread = world.thread := by
  unfold setSlot
  split <;> rfl

@[simp] theorem setSlot_fuel : (world.setSlot object id value).fuel = world.fuel := by
  unfold setSlot
  split <;> rfl

@[simp] theorem setSlot_threadReads :
    (world.setSlot object id value).threadReads = world.threadReads := by
  unfold setSlot
  split <;> rfl

@[simp] theorem setSlot_size :
    (world.setSlot object id value).instances.size = world.instances.size := by
  unfold setSlot
  split
  · simp
  · rfl

end

section
variable {world : World} {object other : Nat} {id id' : FieldId}

theorem instance_of_slot? (present : (world.slot? object id).isSome) :
    ∃ i, world.instances[object]? = some i ∧ (i.slots.get? id).isSome := by
  unfold slot? at present
  cases found : world.instances[object]? with
  | none => simp [found] at present
  | some i => exact ⟨i, rfl, by simpa [found] using present⟩

theorem slot?_setSlot_self (value : Value) (present : (world.slot? object id).isSome) :
    (world.setSlot object id value).slot? object id = some value := by
  obtain ⟨i, found, _⟩ := instance_of_slot? present
  have inside : object < world.instances.size := by
    obtain ⟨inside, _⟩ := Array.getElem?_eq_some_iff.mp found
    exact inside
  simp only [setSlot, found, slot?]
  rw [Array.getElem?_setIfInBounds_self_of_lt inside]
  simp

theorem slot?_setSlot_of_ne (value : Value) (ne : other ≠ object ∨ id' ≠ id) :
    (world.setSlot object id value).slot? other id' = world.slot? other id' := by
  unfold setSlot
  split
  · next i found =>
    by_cases same : object = other
    · subst same
      have inside : object < world.instances.size := by
        obtain ⟨inside, _⟩ := Array.getElem?_eq_some_iff.mp found
        exact inside
      have different : id' ≠ id := by simpa using ne
      simp only [slot?]
      rw [Array.getElem?_setIfInBounds_self_of_lt inside, found]
      simp [Table.get?_set_of_ne _ _ different]
    · simp only [slot?]
      rw [Array.getElem?_setIfInBounds_ne same]
  · rfl

theorem isSome_slot?_setSlot (value : Value) :
    ((world.setSlot object id value).slot? other id').isSome ↔
      (world.slot? other id').isSome ∨
        (other = object ∧ id' = id ∧ object < world.instances.size) := by
  by_cases same : other = object ∧ id' = id
  · obtain ⟨rfl, rfl⟩ := same
    unfold setSlot
    cases found : world.instances[other]? with
    | none =>
      have outside : ¬other < world.instances.size := by
        simpa using Array.getElem?_eq_none_iff.mp found
      simp [outside]
    | some i =>
      obtain ⟨inside, _⟩ := Array.getElem?_eq_some_iff.mp found
      simp only [slot?]
      rw [Array.getElem?_setIfInBounds_self_of_lt inside]
      simp [inside]
  · have ne : other ≠ object ∨ id' ≠ id := by
      by_cases first : other = object
      · exact .inr fun second => same ⟨first, second⟩
      · exact .inl first
    rw [slot?_setSlot_of_ne value ne]
    constructor
    · exact .inl
    · rintro (present | ⟨first, second, _⟩)
      · exact present
      · exact absurd ⟨first, second⟩ same

end
end World

namespace Exec

theorem readField_object (object : Nat) (id : FieldId) (world : World) :
    readField (.object object) id world =
      match world.slot? object id with
      | some value => .ok value world
      | none => .error (.malformed (.noField id)) world := rfl

theorem readField_of_slot {object : Nat} {id : FieldId} {world : World} {value : Value}
    (held : world.slot? object id = some value) :
    readField (.object object) id world = .ok value world := by
  rw [readField_object, held]

theorem writeField_of_slot {object : Nat} {id : FieldId} {world : World} (value : Value)
    (present : (world.slot? object id).isSome) :
    writeField (.object object) id value world = .ok () (world.setSlot object id value) := by
  obtain ⟨i, found, held⟩ := World.instance_of_slot? present
  obtain ⟨old, held⟩ := Option.isSome_iff_exists.mp held
  simp [writeField, Value.asObject, World.setSlot, found, held]

theorem writeField_of_none {object : Nat} {id : FieldId} {world : World} (value : Value)
    (absent : world.slot? object id = none) :
    writeField (.object object) id value world = .error (.malformed (.noField id)) world := by
  unfold World.slot? at absent
  simp only [writeField, Value.asObject]
  cases found : world.instances[object]? with
  | none => rfl
  | some i =>
    simp only [found, Option.bind_some] at absent
    simp [absent]

end Exec
end Resumable.Machine
