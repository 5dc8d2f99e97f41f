import Resumable.Proofs.Accord
import Resumable.Proofs.Seeding

/-!
What code can do to the instances of a world: store into a place, run a routine on its own instance,
build a new instance. Code whose acts are all allowed writes no fields but those that the allowed acts
may write, however its run ends, by lack of fuel included.
-/

namespace Resumable

namespace Machine

inductive Act where
  | store (place : Place)
  | call (name : String)
  | construct

namespace Term

mutual
/-- The acts of a term, at any depth. -/
def acts : Term → List Act
  | .assign place value => .store place :: acts value
  | .unary _ operand => acts operand
  | .binary _ left right => acts left ++ acts right
  | .array items => actsAll items
  | .index base position => acts base ++ acts position
  | .len base => acts base
  | .call _ args => actsAll args
  | .callSelf name => [.call name]
  | .construct args => .construct :: actsAll args
  | .int _ | .bool _ | .str _ | .null | .load _ | .self | .param _ | .threadId _ => []

def actsAll : List Term → List Act
  | [] => []
  | t :: rest => acts t ++ actsAll rest
end

end Term

def Instr.acts : Instr → List Act
  | .gotoUnless cond _ => cond.acts
  | .switch value _ _ => value.acts
  | .assign place value => .store place :: value.acts
  | .eval value => value.acts
  | .ret (some value) => value.acts
  | .ret none | .label _ | .goto _ | .raise _ => []

namespace Code

def acts (code : Code) : List Act := code.flatMap Instr.acts

@[simp] theorem acts_nil : acts [] = [] := rfl

@[simp] theorem acts_cons (instr : Instr) (rest : Code) : acts (instr :: rest) = instr.acts ++ acts rest :=
  rfl

@[simp] theorem acts_append (first second : Code) : acts (first ++ second) = acts first ++ acts second :=
  List.flatMap_append

theorem acts_of_from? {target : Label} {body rest : Code} (found : body.from? target = some rest) :
    rest.acts ⊆ body.acts := by
  obtain ⟨front, rfl⟩ := suffix_of_from? found
  rw [acts_append]
  exact List.subset_append_right _ _

end Code

/-- Instances that existed before differ at most in fields that are writable. -/
structure Touches (writable : Nat → FieldId → Prop) (world world' : World) : Prop where
  size : world.instances.size ≤ world'.instances.size
  kept {object : Nat} {id : FieldId} : object < world.instances.size → ¬ writable object id →
    world'.slot? object id = world.slot? object id

namespace Touches
variable {writable : Nat → FieldId → Prop} {world world' world'' : World}

theorem of_instances (same : world'.instances = world.instances) : Touches writable world world' where
  size := Nat.le_of_eq (congrArg Array.size same.symm)
  kept _ _ := by simp only [World.slot?, same]

theorem refl : Touches writable world world := of_instances rfl

theorem trans (first : Touches writable world world') (second : Touches writable world' world'') :
    Touches writable world world'' where
  size := Nat.le_trans first.size second.size
  kept inside untouched :=
    (second.kept (Nat.lt_of_lt_of_le inside first.size) untouched).trans (first.kept inside untouched)

theorem setSlot {object : Nat} {id : FieldId} (writes : writable object id) (value : Value) :
    Touches writable world (world.setSlot object id value) where
  size := by simp
  kept {other id'} _ untouched := by
    apply World.slot?_setSlot_of_ne
    by_contra same
    obtain ⟨rfl, rfl⟩ : other = object ∧ id' = id := by simpa [not_or] using same
    exact untouched writes

end Touches

/-- Wherever the computation stops, it has written only fields that are writable. -/
def WritesOnly (writable : Nat → FieldId → Prop) {σ α : Type} (view : σ → World)
    (x : EStateM EvalError σ α) : Prop :=
  ∀ s, Touches writable (view s) (view (finalState (x s)))

section
variable {writable : Nat → FieldId → Prop} {σ α β : Type} {view : σ → World}

namespace WritesOnly

theorem of_same {x : EStateM EvalError σ α} (same : ∀ s, finalState (x s) = s) :
    WritesOnly writable view x := by
  intro s
  rw [same]
  exact .refl

theorem pure (a : α) : WritesOnly writable view (Pure.pure a) :=
  of_same fun _ => rfl

theorem throw (e : EvalError) :
    WritesOnly writable view (MonadExcept.throw e : EStateM EvalError σ α) :=
  of_same fun _ => rfl

theorem checked (x : Except EvalError α) : WritesOnly writable view (Resumable.checked x) := by
  cases x with
  | ok a => exact pure a
  | error e => exact throw e

theorem bind {x : EStateM EvalError σ α} {f : α → EStateM EvalError σ β}
    (first : WritesOnly writable view x) (next : ∀ a, WritesOnly writable view (f a)) :
    WritesOnly writable view (x >>= f) := by
  intro s
  have begun := first s
  cases result : x s with
  | error e s' =>
    rw [bind_of_error result]
    rwa [result] at begun
  | ok a s' =>
    rw [bind_of_ok result]
    rw [result] at begun
    exact begun.trans (next a s')

theorem inWorld {exec : Exec α} (writes : WritesOnly writable id exec) :
    WritesOnly writable Activation.world (Step.inWorld exec) := by
  rintro ⟨locals, world⟩
  have touched := writes world
  simp only [Step.inWorld]
  cases result : exec world <;> rwa [result] at touched

/-- Entering a routine starts with an empty frame, which is no part of the world. -/
theorem activate {run : Code → Frame → Code → Step (Option Value)} {routine : Routine} {object : Value}
    {args : List Value}
    (writes : WritesOnly writable Activation.world (run routine.body ⟨object, args⟩ routine.body)) :
    WritesOnly writable id (Machine.activate run routine object args) := by
  intro world
  have touched := writes ⟨.empty, world⟩
  unfold Machine.activate
  cases result : run routine.body ⟨object, args⟩ routine.body ⟨.empty, world⟩ <;>
    rwa [result] at touched

end WritesOnly

theorem writesOnly_burn : WritesOnly writable id Exec.burn := by
  intro world
  unfold Exec.burn
  split
  · exact .refl
  · exact .of_instances rfl

theorem writesOnly_readField (object : Value) (field : FieldId) :
    WritesOnly writable id (Exec.readField object field) := by
  apply WritesOnly.of_same
  intro world
  unfold Exec.readField
  split
  · rfl
  · split <;> rfl

theorem writesOnly_writeField {object : Value} {field : FieldId}
    (fine : ∀ reference, object = .object reference → writable reference field) (value : Value) :
    WritesOnly writable id (Exec.writeField object field value) := by
  cases object with
  | object reference =>
    intro world
    rw [Exec.writeField_object]
    split
    · exact .setSlot (fine reference rfl) value
    · exact .refl
  | _ => exact .of_same fun _ => rfl

theorem writesOnly_readLocal (id : LocalId) :
    WritesOnly writable Activation.world (Step.readLocal id) := by
  apply WritesOnly.of_same
  intro act
  unfold Step.readLocal
  split <;> rfl

theorem writesOnly_load (frame : Frame) (place : Place) :
    WritesOnly writable Activation.world (frame.load place) := by
  cases place with
  | field id => exact (writesOnly_readField frame.self id).inWorld
  | fieldOf holder id =>
    exact (writesOnly_readLocal holder).bind fun object => (writesOnly_readField object id).inWorld
  | frame id => exact writesOnly_readLocal id

/-- Code that runs on the instance may store into the place. A frame variable may hold any other
instance. -/
def Place.IsWritable (writable : Nat → FieldId → Prop) (own : Value) : Place → Prop
  | .field id => ∀ object, own = .object object → writable object id
  | .fieldOf _ id => ∀ object, writable object id
  | .frame _ => True

theorem writesOnly_store {frame : Frame} {place : Place} (fine : place.IsWritable writable frame.self)
    (value : Value) : WritesOnly writable Activation.world (frame.store value place) := by
  cases place with
  | field id => exact (writesOnly_writeField fine value).inWorld
  | fieldOf holder id =>
    exact (writesOnly_readLocal holder).bind fun object =>
      (writesOnly_writeField (fun reference _ => fine reference) value).inWorld
  | frame id => exact fun act => .refl

section
variable {machine : Machine} {enter : Enter} {frame : Frame}

/-- What the act writes when it is carried out in the frame is writable. -/
def Act.IsFine (writable : Nat → FieldId → Prop) (machine : Machine) (enter : Enter) (frame : Frame) :
    Act → Prop
  | .store place => place.IsWritable writable frame.self
  | .call name => WritesOnly writable id (callRoutine machine enter name frame.self)
  | .construct => ∀ args, WritesOnly writable id (newInstance machine enter args)

mutual
theorem writesOnly_term : (t : Term) → (∀ act ∈ t.acts, act.IsFine writable machine enter frame) →
    WritesOnly writable Activation.world (evalTerm machine enter frame t)
  | .int _, _ | .bool _, _ | .str _, _ | .null, _ | .self, _ => by
    simp only [evalTerm]
    exact .pure _
  | .load place, _ => by
    simp only [evalTerm]
    exact writesOnly_load frame place
  | .param index, _ => by
    simp only [evalTerm]
    exact .checked _
  | .assign place value, fine => by
    simp only [Term.acts, List.forall_mem_cons] at fine
    simp only [evalTerm]
    exact (writesOnly_term value fine.2).bind fun v => (writesOnly_store fine.1 v).bind fun _ =>
      .pure _
  | .unary op operand, fine => by
    simp only [evalTerm]
    exact (writesOnly_term operand fine).bind fun _ => .checked _
  | .binary op left right, fine => by
    simp only [Term.acts, List.forall_mem_append] at fine
    have decided (v : Value) : WritesOnly writable Activation.world
        (do let b ← Resumable.checked v.asBool; return Value.bool b) :=
      (WritesOnly.checked _).bind fun _ => .pure _
    by_cases conjunction : op = .and
    · subst conjunction
      simp only [evalTerm]
      refine (writesOnly_term left fine.1).bind fun _ =>
        (WritesOnly.checked _).bind fun holds => ?_
      cases holds with
      | true => exact (writesOnly_term right fine.2).bind decided
      | false => exact .pure _
    · by_cases disjunction : op = .or
      · subst disjunction
        simp only [evalTerm]
        refine (writesOnly_term left fine.1).bind fun _ =>
          (WritesOnly.checked _).bind fun holds => ?_
        cases holds with
        | true => exact .pure _
        | false => exact (writesOnly_term right fine.2).bind decided
      · simp only [evalTerm]
        exact (writesOnly_term left fine.1).bind fun _ =>
          (writesOnly_term right fine.2).bind fun _ => .checked _
  | .array items, fine => by
    simp only [evalTerm]
    refine (writesOnly_terms items fine).bind fun _ => WritesOnly.inWorld fun world => ?_
    exact .of_instances rfl
  | .index base position, fine => by
    simp only [Term.acts, List.forall_mem_append] at fine
    simp only [evalTerm]
    exact (writesOnly_term base fine.1).bind fun _ =>
      (writesOnly_term position fine.2).bind fun _ => .checked _
  | .len base, fine => by
    simp only [evalTerm]
    exact (writesOnly_term base fine).bind fun _ => .checked _
  | .call callee args, fine => by
    simp only [evalTerm]
    have called (values : List Value) : WritesOnly writable id (Exec.callHost callee values) :=
      fun world => .of_instances rfl
    exact (writesOnly_terms args fine).bind fun values =>
      (called values).inWorld.bind fun _ => .pure _
  | .callSelf name, fine => by
    simp only [evalTerm]
    exact (fine (.call name) List.mem_cons_self).inWorld
  | .construct args, fine => by
    simp only [Term.acts, List.forall_mem_cons] at fine
    simp only [evalTerm]
    exact (writesOnly_terms args fine.2).bind fun values => (fine.1 values).inWorld
  | .threadId source, _ => by
    simp only [evalTerm]
    exact WritesOnly.inWorld fun world => .of_instances rfl

theorem writesOnly_terms : (ts : List Term) →
    (∀ act ∈ Term.actsAll ts, act.IsFine writable machine enter frame) →
    WritesOnly writable Activation.world (evalTerms machine enter frame ts)
  | [], _ => by
    simp only [evalTerms]
    exact .pure _
  | t :: rest, fine => by
    simp only [Term.actsAll, List.forall_mem_append] at fine
    simp only [evalTerms]
    exact (writesOnly_term t fine.1).bind fun _ =>
      (writesOnly_terms rest fine.2).bind fun _ => .pure _
end

theorem writesOnly_instr {instr : Instr}
    (fine : ∀ act ∈ instr.acts, act.IsFine writable machine enter frame) :
    WritesOnly writable Activation.world (execInstr machine enter frame instr) := by
  cases instr with
  | label _ | goto _ => exact .pure _
  | gotoUnless cond target =>
    exact (writesOnly_term cond fine).bind fun _ =>
      (WritesOnly.checked _).bind fun _ => .pure _
  | switch value cases default =>
    exact (writesOnly_term value fine).bind fun _ =>
      (WritesOnly.checked _).bind fun _ => .pure _
  | assign place value =>
    simp only [Instr.acts, List.forall_mem_cons] at fine
    exact (writesOnly_term value fine.2).bind fun v => (writesOnly_store fine.1 v).bind fun _ =>
      .pure _
  | eval value => exact (writesOnly_term value fine).bind fun _ => .pure _
  | ret value =>
    cases value with
    | none => exact .pure _
    | some value => exact (writesOnly_term value fine).bind fun _ => .pure _
  | raise constructor => exact .throw _

end
end

/-- Acts that are allowed on an instance because they write only what is writable. A routine that may
be run does nothing but what is allowed. -/
structure Discipline (machine : Machine) (writable : Nat → FieldId → Prop) (own : Value)
    (allowed : Act → Prop) : Prop where
  store {place : Place} : allowed (.store place) → place.IsWritable writable own
  call {name : String} {routine : Routine} : allowed (.call name) →
    machine.routineNamed? name = some routine → ∀ act ∈ routine.body.acts, allowed act
  construct : allowed .construct → ∀ bound args,
    WritesOnly writable id (newInstance machine (activate (runCode machine bound)) args)

section
variable {machine : Machine} {writable : Nat → FieldId → Prop}

namespace Discipline
variable {own : Value} {allowed : Act → Prop} (discipline : Discipline machine writable own allowed)
include discipline

/-- Along a run, one instruction after another. A routine that is called has a smaller bound. -/
theorem writesOnly_runCode (bound : Nat) {body code : Code} (good : ∀ act ∈ body.acts, allowed act)
    (good' : ∀ act ∈ code.acts, allowed act) (args : List Value) :
    WritesOnly writable Activation.world (runCode machine bound body ⟨own, args⟩ code) := by
  induction bound generalizing body code args with
  | zero => exact .throw _
  | succ bound ih =>
    cases code with
    | nil => exact .pure _
    | cons instr rest =>
      rw [Code.acts_cons, List.forall_mem_append] at good'
      have fine : ∀ act ∈ instr.acts, act.IsFine writable machine (activate (runCode machine bound))
          ⟨own, args⟩ := by
        intro act member
        have permitted := good'.1 act member
        cases act with
        | store place => exact discipline.store permitted
        | construct => exact discipline.construct permitted bound
        | call name =>
          change WritesOnly writable id (callRoutine machine _ name own)
          unfold callRoutine
          cases found : machine.routineNamed? name with
          | none => exact .throw _
          | some routine =>
            have inner := discipline.call permitted found
            exact (WritesOnly.activate (ih inner inner [])).bind fun _ => .pure _
      rw [runCode_cons]
      refine writesOnly_burn.inWorld.bind fun _ => (writesOnly_instr fine).bind fun outcome => ?_
      cases outcome with
      | next => exact ih good good'.2 args
      | done result => exact .pure _
      | goto target =>
        simp only [followBy]
        cases found : body.from? target with
        | none => exact .throw _
        | some rest => exact ih good (fun act member => good act (Code.acts_of_from? found member)) args

theorem writesOnly_activate {routine : Routine} (good : ∀ act ∈ routine.body.acts, allowed act)
    (bound : Nat) (args : List Value) :
    WritesOnly writable id (activate (runCode machine bound) routine own args) :=
  .activate (discipline.writesOnly_runCode bound good good args)

theorem writesOnly_call {routine : Routine} (good : ∀ act ∈ routine.body.acts, allowed act)
    (args : List Value) : WritesOnly writable id (Machine.call machine routine own args) :=
  fun world => discipline.writesOnly_activate good (world.fuel + 1) args world

theorem writesOnly_callKind {kind : RoutineKind}
    (good : ∀ routine, machine.routine? kind = some routine → ∀ act ∈ routine.body.acts, allowed act) :
    WritesOnly writable id (machine.callKind kind own) := by
  unfold callKind
  cases found : machine.routine? kind with
  | none => exact .throw _
  | some routine =>
    exact (WritesOnly.checked _).bind fun _ =>
      (discipline.writesOnly_call (good routine found) []).bind fun _ => .pure _

end Discipline

/-- Building an instance touches no other one when the constructor only fills fields of its own. -/
theorem writesOnly_newInstance
    (fills : ∀ act ∈ machine.constructor.body.acts, ∃ id, act = .store (.field id)) (bound : Nat)
    (args : List Value) :
    WritesOnly writable id (newInstance machine (activate (runCode machine bound)) args) := by
  intro world
  have discipline : Discipline machine (fun object _ => object = world.instances.size)
      (.object world.instances.size) (fun act => ∃ id, act = .store (.field id)) := by
    constructor
    · rintro _ ⟨id, same⟩
      obtain rfl := Act.store.inj same
      intro object itself
      exact (Value.object.inj itself).symm
    · rintro name _ ⟨_, absurd⟩
      cases absurd
    · rintro ⟨_, absurd⟩
      cases absurd
  have filled : WritesOnly (fun object _ => object = world.instances.size) id _ :=
    (discipline.writesOnly_activate fills bound args).bind fun _ =>
      .pure (Value.object world.instances.size)
  have touched := filled (world.allocated machine.fields)
  have larger : world.instances.size < (world.allocated machine.fields).instances.size := by
    simp [World.allocated]
  change Touches writable world _
  constructor
  · exact Nat.le_trans (Nat.le_of_lt larger) touched.size
  · intro object id inside _
    have other : object ≠ world.instances.size := Nat.ne_of_lt inside
    exact (touched.kept (Nat.lt_trans inside larger) other).trans
      (World.slot?_allocated_of_ne machine.fields other)

end
end Machine
end Resumable
