import Resumable.Proofs.Acts
import Resumable.Proofs.Level
import Resumable.Proofs.Lowerable
import Resumable.Proofs.WellFormed

/-!
Where a running body writes. To advance or to dispose of an instance writes fields of this instance
only, and of these only the ones that belong to the protocol, to a local or to a variable that the
source assigns. The field that keeps the thread is written when the instance is built, and never again.
-/

namespace Resumable

namespace Machine

/-- The field that a store into the place writes. -/
def Place.field? : Place → Option FieldId
  | .field id | .fieldOf _ id => some id
  | .frame _ => none

/-- The act itself does not write the field of any instance. -/
def Act.Spares (field : FieldId) : Act → Prop
  | .store place => place.field? ≠ some field
  | .call _ | .construct => True

theorem Act.spares_frame (field : FieldId) (id : LocalId) : (Act.store (.frame id)).Spares field :=
  Option.some_ne_none field |>.symm

theorem Place.isWritable_of_spared {place : Place} {field : FieldId} (spared : place.field? ≠ some field)
    (own : Value) : place.IsWritable (fun _ id => id ≠ field) own := by
  have apart (id : FieldId) (same : place.field? = some id) : id ≠ field := by
    rintro rfl
    exact spared same
  cases place with
  | field id => exact fun _ _ => apart id rfl
  | fieldOf holder id => exact fun _ => apart id rfl
  | frame id => trivial

end Machine

namespace Lowering
open Machine (Act Code FieldId Label Place Point Role Routine Term)
open Simulation (IsMutable place_eq_ok storing)

/-- What code of a method does on its instance, where it runs the routines in `called`. -/
def Shape.Performs (shape : Shape) (assigned : List Var) (called : String → Prop) : Act → Prop
  | .store (.field id) => ∃ role, shape.Bears id role ∧ IsMutable assigned role
  | .store (.frame _) => True
  | .store (.fieldOf _ _) | .construct => False
  | .call name => called name

section
variable {shape : Shape} {assigned : List Var} {called : String → Prop}

theorem Shape.Performs.mono {called' : String → Prop} {act : Act}
    (performs : shape.Performs assigned called act) (more : ∀ name, called name → called' name) :
    shape.Performs assigned called' act := by
  cases act with
  | store place => cases place <;> exact performs
  | call name => exact more name performs
  | construct => exact performs

/-- The thread is no variable of the method and no part of the protocol. -/
theorem Shape.Performs.spares (sound : shape.Sound) {thread : FieldId}
    (bears : shape.Bears thread .initialThread) {act : Act}
    (performs : shape.Performs assigned called act) : act.Spares thread := by
  cases act with
  | store place =>
    cases place with
    | field id =>
      obtain ⟨role, bears', writes⟩ := performs
      intro same
      obtain rfl := Option.some.inj same
      rw [sound.role_eq bears' bears] at writes
      exact writes
    | fieldOf holder id => exact performs.elim
    | frame id => exact Act.spares_frame thread id
  | _ => trivial

theorem isMutable_hoisted {var : Var} (assigns : var ∈ assigned) : IsMutable assigned (.hoisted var) := by
  cases var with
  | loc id => trivial
  | receiver => exact assigns
  | param index => exact assigns

theorem performs_place (sound : shape.Sound) {var : Var} {place : Place}
    (placed : shape.place var = .ok place) (writes : IsMutable assigned (.hoisted var)) :
    shape.Performs assigned called (.store place) := by
  rcases place_eq_ok.mp placed with ⟨id, slot, rfl⟩ | ⟨id, _, _, rfl⟩
  · exact ⟨_, sound.slot slot, writes⟩
  · trivial

mutual
theorem term_acts (sound : shape.Sound) : (e : Expr) → {t : Term} → shape.term e = .ok t →
    e.targets ⊆ assigned → ∀ act ∈ t.acts, shape.Performs assigned called act
  | .int _, t, lowered, _ | .bool _, t, lowered, _ | .str _, t, lowered, _ | .null, t, lowered, _ => by
    obtain rfl := Except.ok.inj lowered
    exact List.forall_mem_nil _
  | .var var, t, lowered, _ => by
    simp only [Shape.term, except_bind_eq_ok, except_pure_eq_ok] at lowered
    obtain ⟨place, placed, rfl⟩ := lowered
    exact List.forall_mem_nil _
  | .assign var value, t, lowered, within => by
    simp only [Shape.term, except_bind_eq_ok, except_pure_eq_ok] at lowered
    obtain ⟨place, placed, value', loweredValue, rfl⟩ := lowered
    obtain ⟨assigns, within⟩ := List.cons_subset.mp within
    exact List.forall_mem_cons.mpr
      ⟨performs_place sound placed (isMutable_hoisted assigns), term_acts sound value loweredValue within⟩
  | .unary op operand, t, lowered, within => by
    simp only [Shape.term, except_bind_eq_ok, except_pure_eq_ok] at lowered
    obtain ⟨operand', loweredOperand, rfl⟩ := lowered
    exact fun act => term_acts sound operand loweredOperand within act
  | .binary op left right, t, lowered, within => by
    simp only [Shape.term, except_bind_eq_ok, except_pure_eq_ok] at lowered
    obtain ⟨left', loweredLeft, right', loweredRight, rfl⟩ := lowered
    simp only [Expr.targets, Expr.subexprs, List.filterMap_cons, Expr.target?, List.filterMap_append,
      List.append_subset] at within
    exact List.forall_mem_append.mpr
      ⟨term_acts sound left loweredLeft within.1, term_acts sound right loweredRight within.2⟩
  | .array items, t, lowered, within => by
    simp only [Shape.term, except_bind_eq_ok, except_pure_eq_ok] at lowered
    obtain ⟨items', loweredItems, rfl⟩ := lowered
    exact fun act => terms_acts sound items loweredItems within act
  | .index base position, t, lowered, within => by
    simp only [Shape.term, except_bind_eq_ok, except_pure_eq_ok] at lowered
    obtain ⟨base', loweredBase, position', loweredPosition, rfl⟩ := lowered
    simp only [Expr.targets, Expr.subexprs, List.filterMap_cons, Expr.target?, List.filterMap_append,
      List.append_subset] at within
    exact List.forall_mem_append.mpr
      ⟨term_acts sound base loweredBase within.1, term_acts sound position loweredPosition within.2⟩
  | .len base, t, lowered, within => by
    simp only [Shape.term, except_bind_eq_ok, except_pure_eq_ok] at lowered
    obtain ⟨base', loweredBase, rfl⟩ := lowered
    exact fun act => term_acts sound base loweredBase within act
  | .call callee args, t, lowered, within => by
    simp only [Shape.term, except_bind_eq_ok, except_pure_eq_ok] at lowered
    obtain ⟨args', loweredArgs, rfl⟩ := lowered
    exact fun act => terms_acts sound args loweredArgs within act

theorem terms_acts (sound : shape.Sound) : (es : List Expr) → {ts : List Term} → shape.terms es = .ok ts →
    (Expr.subexprsAll es).filterMap Expr.target? ⊆ assigned →
    ∀ act ∈ Term.actsAll ts, shape.Performs assigned called act
  | [], ts, lowered, _ => by
    obtain rfl := Except.ok.inj lowered
    exact List.forall_mem_nil _
  | e :: rest, ts, lowered, within => by
    simp only [Shape.terms, except_bind_eq_ok, except_pure_eq_ok] at lowered
    obtain ⟨t, loweredFirst, others, loweredRest, rfl⟩ := lowered
    simp only [Expr.subexprsAll, List.filterMap_append, List.append_subset] at within
    exact List.forall_mem_append.mpr
      ⟨term_acts sound e loweredFirst within.1, terms_acts sound rest loweredRest within.2⟩
end

/-- Emitted code stores where its variables are and where the protocol keeps its state, and runs known
cleanup routines. -/
theorem Twin.acts {pair : Pairing} {marks : Landmarks} {scope after : List LocalId} {code code' : Code}
    (twin : Twin pair marks scope code code' after) (sound : pair.left.Sound)
    (within : ∀ scope e, pair.allows scope e → e.targets ⊆ assigned) :
    ∀ act ∈ code.acts, pair.left.Performs assigned (fun name => ∃ name', marks.called name name') act := by
  have state : pair.left.Performs assigned (fun name => ∃ name', marks.called name name')
      (.store (.field pair.left.state)) := ⟨_, sound.state, trivial⟩
  have current : pair.left.Performs assigned (fun name => ∃ name', marks.called name name')
      (.store (.field pair.left.current)) := ⟨_, sound.current, trivial⟩
  have term {scope : List LocalId} {t t' : Term} (terms : pair.Terms scope t t') :
      ∀ act ∈ t.acts,
        pair.left.Performs assigned (fun name => ∃ name', marks.called name name') act := by
    obtain ⟨e, allowed, lowered, _⟩ := terms
    exact term_acts sound e lowered (within _ e allowed)
  induction twin with
  | nil _ => exact List.forall_mem_nil _
  | @mark _ _ _ _ mark _ _ _ _ ih =>
    rw [Code.acts_append]
    refine List.forall_mem_append.mpr ⟨?_, ih⟩
    unfold Mark.opening
    split
    · exact List.forall_mem_singleton.mpr state
    · exact List.forall_mem_nil _
  | goto _ _ ih => exact ih
  | branch terms _ _ ih => exact List.forall_mem_append.mpr ⟨term terms, ih⟩
  | switch terms _ _ _ ih => exact List.forall_mem_append.mpr ⟨term terms, ih⟩
  | declare terms placed _ _ ih =>
    exact List.forall_mem_append.mpr
      ⟨List.forall_mem_cons.mpr ⟨performs_place sound placed trivial, term terms⟩, ih⟩
  | assign allowed placed _ lowered _ _ ih =>
    obtain ⟨assigns, inner⟩ := List.cons_subset.mp (within _ _ allowed)
    exact List.forall_mem_append.mpr ⟨List.forall_mem_cons.mpr
      ⟨performs_place sound placed (isMutable_hoisted assigns), term_acts sound _ lowered inner⟩, ih⟩
  | eval terms _ ih => exact List.forall_mem_append.mpr ⟨term terms, ih⟩
  | cleanup called _ _ _ ih => exact List.forall_mem_cons.mpr ⟨⟨_, called⟩, ih⟩
  | pause terms _ _ ih =>
    refine List.forall_mem_append.mpr ⟨List.forall_mem_cons.mpr ⟨current, term terms⟩, ?_⟩
    exact List.forall_mem_cons.mpr ⟨state, ih⟩
  | finish _ _ ih => exact List.forall_mem_cons.mpr ⟨state, ih⟩
  | leave _ _ ih => exact ih

end

theorem disposeChains_acts {next : Label} {points : List Point} {act : Act}
    (member : act ∈ Code.acts (disposeChains next points)) :
    ∃ point ∈ points, ∃ name ∈ point.cleanup, act = .call name := by
  induction points generalizing next with
  | nil => cases member
  | cons point rest ih =>
    unfold disposeChains at member
    split at member
    · obtain ⟨other, later, found⟩ := ih member
      exact ⟨other, List.mem_cons_of_mem _ later, found⟩
    · have calls : Code.acts (point.cleanup.map callCleanup) = point.cleanup.map Act.call := by
        rw [Code.acts, List.flatMap_map, List.map_eq_flatMap]
        rfl
      simp only [Code.acts_cons, Code.acts_append, calls, Machine.Instr.acts, List.nil_append,
        List.mem_append, List.mem_map] at member
      rcases member with ⟨name, among, rfl⟩ | later
      · exact ⟨point, List.mem_cons_self, name, among, rfl⟩
      · obtain ⟨other, later, found⟩ := ih later
        exact ⟨other, List.mem_cons_of_mem _ later, found⟩

/-- Stores of what is only read spare a field if none of them is into it. -/
theorem spares_storing {field : FieldId} {pairs : List (FieldId × Term)}
    (reads : ∀ pair ∈ pairs, pair.2.acts = []) (apart : ∀ pair ∈ pairs, pair.1 ≠ field) :
    ∀ act ∈ Code.acts (storing pairs), act.Spares field := by
  intro act member
  obtain ⟨instr, among, done⟩ := List.mem_flatMap.mp member
  obtain ⟨pair, listed, rfl⟩ := List.mem_map.mp among
  simp only [Machine.Instr.acts, reads pair listed, List.mem_singleton] at done
  subst done
  intro same
  exact apart pair listed (Option.some.inj same)

namespace Outline
variable {method : Method} {options : Options} {lowered : Lowered}
  (outline : Outline method options lowered)
include outline

/-- What a call of a routine on an instance may do as part of running the body. -/
abbrev Performs : Act → Prop := outline.shape.Performs outline.assigned outline.Cleans

theorem acts_body : ∀ act ∈ outline.body.acts, outline.Performs act := by
  obtain ⟨harvest, bodies⟩ := outline.bodies_alone
  have whole : outline.body =
      entry outline.shape lowered.machine.points ++ started outline.shape outline.code := rfl
  rw [whole, Code.acts_append]
  refine List.forall_mem_append.mpr ⟨List.forall_mem_nil _, fun act member => ?_⟩
  have performs := bodies.twin.acts outline.built.toSound (fun _ _ allowed => allowed) act member
  refine performs.mono ?_
  rintro name ⟨name', cleanup, among, rfl, _⟩
  refine ⟨cleanup.1, ?_, rfl⟩
  rw [bodies.cleanups_left]
  exact List.mem_map_of_mem among

theorem acts_cleanup {cleanup : String × FlatBody} (member : cleanup ∈ outline.progress.cleanups) :
    ∀ act ∈ cleanup.2.code.acts, outline.Performs act := by
  obtain ⟨harvest, bodies⟩ := outline.bodies_alone
  rw [bodies.cleanups_left] at member
  obtain ⟨both, among, rfl⟩ := List.mem_map.mp member
  obtain ⟨_, _, _, _, marks, scope, after, _, _, _, twin⟩ := bodies.routines both among
  intro act member
  refine (twin.acts outline.built.toSound (fun _ _ allowed => allowed) act member).mono ?_
  rintro name ⟨_, absurd⟩
  exact absurd.elim

theorem acts_dispose :
    ∀ act ∈ Code.acts (disposeCode outline.shape lowered.machine.points), outline.Performs act := by
  intro act member
  simp only [disposeCode, Code.acts_cons, Code.acts_append, Code.acts_nil, Machine.Instr.acts,
    Machine.Term.field, Term.acts, Shape.setState, Machine.Instr.setField, List.append_nil,
    List.nil_append, List.mem_append, List.mem_cons, List.not_mem_nil, or_false] at member
  rcases member with chained | rfl
  · obtain ⟨point, among, name, listed, rfl⟩ := disposeChains_acts chained
    exact outline.cleanup_of_point among listed
  · exact ⟨_, outline.built.state, trivial⟩

theorem acts_constructor :
    ∀ act ∈ lowered.machine.constructor.body.acts, ∃ id, act = .store (.field id) := by
  obtain ⟨thread, threaded, body⟩ := Simulation.constructor_body outline
  rw [body]
  simp only [Code.acts_cons, Code.acts_append, Code.acts_nil, Machine.Instr.setField, Machine.Instr.acts,
    Term.acts, List.append_nil, List.cons_append, List.nil_append, List.forall_mem_cons]
  refine ⟨⟨_, rfl⟩, ?_⟩
  unfold threadCode at threaded
  split at threaded
  · obtain rfl := Except.ok.inj threaded
    exact List.forall_mem_nil _
  · simp only [except_bind_eq_ok, except_pure_eq_ok] at threaded
    obtain ⟨source, _, rfl⟩ := threaded
    exact List.forall_mem_singleton.mpr ⟨_, rfl⟩

section
variable {thread : FieldId} (bears : outline.shape.Bears thread .initialThread)
include bears

theorem ne_thread {id : FieldId} {role : Role} (bears' : outline.shape.Bears id role)
    (captured : role.isCaptured) : id ≠ thread := by
  rintro rfl
  rw [outline.built.toSound.role_eq bears' bears] at captured
  cases captured

theorem constructor_stores_thread :
    .store (.field thread) ∈ lowered.machine.constructor.body.acts := by
  obtain ⟨code, threaded, body⟩ := Simulation.constructor_body outline
  simp only [threadCode, outline.exact.stamped bears, except_bind_eq_ok, except_pure_eq_ok] at threaded
  obtain ⟨source, _, rfl⟩ := threaded
  rw [body]
  simp [Machine.Instr.setField, Machine.Instr.acts]

theorem spares_kickoff : ∀ act ∈ lowered.kickoff.body.acts, act.Spares thread := by
  obtain ⟨pairs, body, listed⟩ := Simulation.kickoff_body outline
  rw [body]
  simp only [Code.acts_cons, Code.acts_append, Code.acts_nil, Machine.Instr.acts, Term.acts,
    Term.actsAll, List.append_nil, List.cons_append, List.nil_append, List.forall_mem_cons]
  refine ⟨Act.spares_frame _ _, trivial, spares_storing (fun pair member => ?_) (fun pair member => ?_)⟩
  · rcases (listed pair).mp member with ⟨itself, _⟩ | ⟨index, given, _⟩
    · rw [itself, Term.acts]
    · rw [given, Term.acts]
  · obtain ⟨role, bears', captured⟩ := ((listed pair).mp member).bears outline.built.toSound
    exact outline.ne_thread bears bears' captured

theorem spares_getEnumerator {routine : Routine}
    (coded : getEnumeratorCode outline.shape options = .ok routine.body) :
    ∀ act ∈ routine.body.acts, act.Spares thread := by
  have sound := outline.built.toSound
  obtain ⟨reuse, restore, made, restored, body⟩ := Simulation.getEnumeratorCode_spec coded
  obtain ⟨_, pairs, rfl, listed⟩ := Simulation.restoreCode_spec restored
  rw [Simulation.copyCode_eq] at body
  have copied : ∀ act ∈ Code.acts (storing (Simulation.copies outline.shape)), act.Spares thread := by
    refine spares_storing (fun pair member => ?_) (fun pair member => ?_)
    · rw [(Simulation.mem_copies.mp member).1]
      rfl
    · obtain ⟨_, role, bears', captured⟩ := Simulation.mem_copies.mp member
      exact outline.ne_thread bears bears' captured
  have restored : ∀ act ∈ Code.acts (storing pairs), act.Spares thread := by
    refine spares_storing (fun pair member => ?_) (fun pair member => ?_)
    · obtain ⟨proxy, _, _, read⟩ := (listed pair).mp member
      rw [read]
      rfl
    · obtain ⟨proxy, _, slot, _⟩ := (listed pair).mp member
      exact outline.ne_thread bears (sound.slot slot) rfl
  have reused : ∀ act ∈ Code.acts reuse, act.Spares thread := by
    rcases Simulation.reuse_eq made with ⟨_, rfl⟩ | ⟨_, id, source, _, rfl⟩
    · exact List.forall_mem_nil _
    · have state : (Act.store (.field outline.shape.state)).Spares thread := by
        intro same
        have roles := sound.role_eq (Option.some.inj same ▸ sound.state) bears
        cases roles
      exact List.forall_mem_cons.mpr ⟨state, List.forall_mem_singleton.mpr (Act.spares_frame _ _)⟩
  rw [body]
  simp only [Code.acts_append, Code.acts_cons, Code.acts_nil, Machine.Instr.acts, Term.acts,
    Term.actsAll, List.append_nil, List.cons_append, List.nil_append, List.forall_mem_append,
    List.forall_mem_cons]
  exact ⟨⟨reused, Act.spares_frame _ _, trivial, copied⟩, restored⟩

/-- No routine of the machine writes the field that keeps the thread. -/
theorem spares_routine {routine : Routine} (member : routine ∈ lowered.machine.routines) :
    ∀ act ∈ routine.body.acts, act.Spares thread := by
  have sound := outline.built.toSound
  rw [outline.routines_eq, List.mem_append, List.mem_append] at member
  rcases member with (protocol | vending) | cleanup
  · simp only [enumeratorRoutines, List.mem_cons, List.not_mem_nil, or_false] at protocol
    rcases protocol with rfl | rfl | rfl | rfl | rfl
    · intro act member
      have body : outline.dispatch.moveNext.code = outline.body := by
        rw [Outline.body, outline.machinePoints_eq]
        exact outline.moveNext_eq
      exact (outline.acts_body act (body ▸ member)).spares sound bears
    · exact List.forall_mem_nil _
    · exact List.forall_mem_nil _
    · intro act member
      have points : outline.dispatch.points = lowered.machine.points := by
        rw [outline.machinePoints_eq, ← outline.points_eq]
      exact (outline.acts_dispose act (points ▸ member)).spares sound bears
    · exact List.forall_mem_nil _
  · rcases outline.vending_cases vending with ⟨_, coded⟩ | body
    · exact outline.spares_getEnumerator bears coded
    · rw [body]
      exact List.forall_mem_singleton.mpr trivial
  · obtain ⟨cleanup, listed, rfl⟩ := List.mem_map.mp cleanup
    intro act member
    exact (outline.acts_cleanup (outline.cleanups_eq ▸ listed) act member).spares sound bears

/-- Whatever is run on an instance, the field that keeps the thread stays as it is. -/
theorem discipline_thread (own : Value) :
    Machine.Discipline lowered.machine (fun _ id => id ≠ thread) own (Act.Spares thread) where
  store spared := Place.isWritable_of_spared spared own
  call _ found := outline.spares_routine bears (List.mem_of_find?_eq_some found)
  construct _ := Machine.writesOnly_newInstance outline.acts_constructor

theorem writesOnly_perform (operation : Operation) :
    Machine.WritesOnly (fun _ id => id ≠ thread) id (operation.perform lowered) := by
  have asks (kind : Machine.RoutineKind) (object : Nat) :
      Machine.WritesOnly (fun _ id => id ≠ thread) id (lowered.machine.callKind kind (.object object)) :=
    (outline.discipline_thread bears _).writesOnly_callKind fun routine found =>
      outline.spares_routine bears (List.mem_of_find?_eq_some found)
  cases operation with
  | invoke receiver args =>
    refine ((outline.discipline_thread bears _).writesOnly_call (outline.spares_kickoff bears) args).bind
      fun result => ?_
    cases result with
    | some value => exact .pure _
    | none => exact .throw _
  | setThread thread => exact fun world => .of_instances rfl
  | getEnumerator object => exact asks .getEnumeratorGeneric object
  | objectGetEnumerator object => exact asks .getEnumeratorObject object
  | moveNext object =>
    exact ((asks .moveNext object).bind fun _ => .checked _).bind fun _ => .pure _
  | current object => exact asks .currentGeneric object
  | objectCurrent object => exact asks .currentObject object
  | dispose object => exact ((asks .dispose object).bind fun _ => .pure _).bind fun _ => .pure _
  | reset object => exact ((asks .reset object).bind fun _ => .pure _).bind fun _ => .pure _

end

/-- The fields that running the body on an instance may write. -/
def Writable (own object : Nat) (id : FieldId) : Prop :=
  object = own ∧ ∃ role, outline.shape.Bears id role ∧ IsMutable outline.assigned role

theorem discipline_body (own : Nat) :
    Machine.Discipline lowered.machine (outline.Writable own) (.object own) outline.Performs where
  store {place} performs := by
    cases place with
    | field id => exact fun object itself => ⟨(Value.object.inj itself).symm, performs⟩
    | fieldOf holder id => exact performs.elim
    | frame id => trivial
  call cleans found := by
    obtain ⟨cleanup, member, rfl⟩ := cleans
    obtain rfl := Option.some.inj ((outline.routine_cleanup member).symm.trans found)
    exact outline.acts_cleanup member
  construct never := never.elim

theorem writesOnly_callBody {kind : Machine.RoutineKind} {routine : Routine}
    (found : lowered.machine.routine? kind = some routine)
    (performs : ∀ act ∈ routine.body.acts, outline.Performs act) (own : Nat) :
    Machine.WritesOnly (outline.Writable own) id (lowered.machine.callKind kind (.object own)) := by
  apply (outline.discipline_body own).writesOnly_callKind
  intro routine' found'
  obtain rfl := Option.some.inj (found.symm.trans found')
  exact performs

/-- What the expanded body may write, the source may write too. -/
theorem isMutable_source {role : Role} (writes : IsMutable outline.assigned role) :
    IsMutable method.body.assignedVars role := by
  cases role with
  | hoisted var =>
    cases var with
    | loc id => trivial
    | receiver => exact assignedVars_expanded outline.expands (by simp) writes
    | param index => exact assignedVars_expanded outline.expands (by simp) writes
  | _ => exact writes

end Outline
end Lowering

open Machine (Act Field FieldId World)
open Simulation (IsMutable)

/-- The operation runs the body of the instance, or what is left of it. -/
def Operation.RunsBody (own : Nat) (operation : Operation) : Prop :=
  operation = .moveNext own ∨ operation = .dispose own

/-- What a machine writes when the body of its method assigns these variables. Nothing is said of how
an operation ends: it may fail, also by lack of fuel. -/
structure Lowered.Contained (lowered : Lowered) (assigned : List Var) : Prop where
  others {operation : Operation} {own object : Nat} {world : World} (id : FieldId) :
    operation.RunsBody own → object < world.instances.size → object ≠ own →
      (operation.worldAfter lowered world).slot? object id = world.slot? object id
  fixed {operation : Operation} {own : Nat} {world : World} {field : Field} :
    operation.RunsBody own → own < world.instances.size → field ∈ lowered.machine.fields →
      ¬ IsMutable assigned field.role →
      (operation.worldAfter lowered world).slot? own field.id = world.slot? own field.id
  /-- The constructor writes the field that keeps the thread. -/
  stamped {field : Field} : field ∈ lowered.machine.fields → field.role = .initialThread →
    .store (.field field.id) ∈ lowered.machine.constructor.body.acts
  /-- No other code writes it, into whatever instance. -/
  spared {field : Field} {routine : Machine.Routine} : field ∈ lowered.machine.fields →
    field.role = .initialThread → routine ∈ lowered.kickoff :: lowered.machine.routines →
      ∀ act ∈ routine.body.acts, act.Spares field.id
  /-- So it keeps its value once the instance exists. -/
  lasting {operation : Operation} {object : Nat} {world : World} {field : Field} :
    field ∈ lowered.machine.fields → field.role = .initialThread → object < world.instances.size →
      (operation.worldAfter lowered world).slot? object field.id = world.slot? object field.id

namespace Lowering.Outline
variable {method : Method} {options : Options} {lowered : Lowered}
  (outline : Outline method options lowered)
include outline

theorem bears_of_mem {field : Field} (member : field ∈ lowered.machine.fields) :
    outline.shape.Bears field.id field.role :=
  ⟨field, outline.fields_eq ▸ member, rfl, rfl⟩

theorem touches_of_runsBody {operation : Operation} {own : Nat} (runs : operation.RunsBody own)
    (world : World) :
    Machine.Touches (outline.Writable own) world (operation.worldAfter lowered world) := by
  rw [Operation.worldAfter_eq]
  rcases runs with rfl | rfl
  · obtain ⟨_, found, body⟩ := outline.routine_moveNext
    have asked := outline.writesOnly_callBody found (body ▸ outline.acts_body) own
    exact ((asked.bind fun _ => .checked _).bind fun _ => .pure _) world
  · obtain ⟨_, found, body⟩ := outline.routine_dispose
    have asked := outline.writesOnly_callBody found (body ▸ outline.acts_dispose) own
    exact ((asked.bind fun _ => .pure _).bind fun _ => .pure _) world

theorem contained : lowered.Contained method.body.assignedVars where
  others id runs inside other :=
    (outline.touches_of_runsBody runs _).kept inside fun writes => other writes.1
  fixed runs inside member immutable := by
    refine (outline.touches_of_runsBody runs _).kept inside ?_
    rintro ⟨_, role, bears, writes⟩
    rw [outline.built.toSound.role_eq bears (outline.bears_of_mem member)] at writes
    exact immutable (outline.isMutable_source writes)
  stamped member role := outline.constructor_stores_thread (role ▸ outline.bears_of_mem member)
  spared member role listed := by
    have bears := role ▸ outline.bears_of_mem member
    rcases List.mem_cons.mp listed with rfl | listed
    · exact outline.spares_kickoff bears
    · exact outline.spares_routine bears listed
  lasting {operation _ world _} member role inside := by
    rw [Operation.worldAfter_eq]
    have touches := outline.writesOnly_perform (role ▸ outline.bears_of_mem member) operation world
    exact touches.kept inside (not_not_intro rfl)

end Lowering.Outline

/-- A body writes its own instance only, and there neither the thread, nor a copy of an argument, nor
an input that the source nowhere assigns. -/
theorem Method.contained_of_lower {method : Method} {platform : Platform} {options : Options}
    {names names' : NameSupply} {lowered : Lowered}
    (done : method.lower platform options names = .ok lowered names') :
    lowered.Contained method.body.assignedVars := by
  obtain ⟨outline⟩ := Lowering.outline_of_lower done
  exact outline.contained

/-- Counts its first parameter down by the second, which it only reads. -/
def Method.countdown : Method :=
  { Method.draft "countdown" (.enumerableOf .int) with
    receiver := some .int
    params := [⟨"count", .int⟩, ⟨"step", .int⟩]
    body :=
      [.whileLoop (.binary .gt (.var (.param 0)) (.int 0))
        [.yield (.binary .add (.var .receiver) (.var (.param 0))),
          .eval (.assign (.param 0) (.binary .sub (.var (.param 0)) (.var (.param 1))))]] }

theorem Method.contained_of_lower_countdown : ∃ lowered supply,
    countdown.lower .standard .standard .empty = .ok lowered supply ∧
      lowered.machine.fields.map (·.role) = [.state, .current, .initialThread, .hoisted .receiver,
        .hoisted (.param 0), .hoisted (.param 1), .proxy 0] ∧
      lowered.Contained [.param 0] := by
  have evaluated : (result? (countdown.lower .standard .standard .empty)).map
      (·.machine.fields.map (·.role)) = some [.state, .current, .initialThread, .hoisted .receiver,
        .hoisted (.param 0), .hoisted (.param 1), .proxy 0] := by decide +kernel
  have assigned : countdown.body.assignedVars = [.param 0] := by decide
  obtain ⟨lowered, found, roles⟩ := Option.map_eq_some_iff.mp evaluated
  obtain ⟨supply, lowers⟩ := result?_eq_some.mp found
  exact ⟨lowered, supply, lowers, roles, assigned ▸ contained_of_lower lowers⟩

end Resumable
