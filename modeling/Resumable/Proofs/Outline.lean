import Resumable.Lowering
import Resumable.Proofs.Counting
import Resumable.Proofs.Layout
import Resumable.Proofs.Storage

/-!
What a lowering that succeeded has built, and how its routines are found by kind and by
name.
-/

namespace Resumable

theorem Lower.require_eq_ok {α : Type} {fault : Fault} {found : Option α} {a : α} :
    Lower.require fault found = .ok a ↔ found = some a := by
  cases found <;> simp [Lower.require]

/-- The cleanup routines of the machine, in its order. -/
def Machine.cleanups (machine : Machine) : List Machine.Routine :=
  machine.routines.filter fun routine => routine.kind = .cleanup

namespace Lowering
open Machine (Code Routine RoutineKind)
open NameSupply (cleanupBase nameAt)

theorem members_enumerator {platform : Platform} {members : Members}
    (resolved : resolveMembers .enumerator platform = .ok members) :
    members.getEnumeratorGeneric = none := by
  simp only [resolveMembers, except_bind_eq_ok, except_pure_eq_ok] at resolved
  obtain ⟨_, _, _, _, _, _, _, _, _, _, _, _, _, _, rfl⟩ := resolved
  rfl

theorem members_enumerable {platform : Platform} {members : Members}
    (resolved : resolveMembers .enumerable platform = .ok members) :
    ∃ generic object source, members.getEnumeratorGeneric = some generic ∧
      members.getEnumeratorObject = some object ∧ members.threadId = some source := by
  simp only [resolveMembers, except_bind_eq_ok, except_pure_eq_ok] at resolved
  obtain ⟨_, _, _, _, _, _, _, _, _, _, _, _, _, _, _, _, object, _, generic, _, source, _, rfl⟩ :=
    resolved
  exact ⟨generic, object, source, rfl, rfl, rfl⟩

/-- None of the routines for handing out enumerators is a cleanup. -/
theorem filter_vendingRoutines {shape : Shape} {options : Options} {vending : List Routine}
    (vends : vendingRoutines shape options = .ok vending) :
    vending.filter (fun routine => routine.kind = .cleanup) = [] := by
  unfold vendingRoutines at vends
  split at vends
  · simp only [except_bind_eq_ok, except_pure_eq_ok] at vends
    obtain ⟨_, _, rfl⟩ := vends
    rfl
  · obtain rfl := Except.ok.inj vends
    rfl

/-- The cleanups among the routines are those of the cleanup blocks. -/
theorem filter_buildRoutines {shape : Shape} {dispatch : Dispatch} {options : Options}
    {routines : List Routine} (built : buildRoutines shape dispatch options = .ok routines) :
    routines.filter (fun routine => routine.kind = .cleanup) =
      dispatch.cleanups.map (cleanupRoutine options) := by
  simp only [buildRoutines, except_bind_eq_ok, except_pure_eq_ok] at built
  obtain ⟨vending, vends, rfl⟩ := built
  have enumerator : (enumeratorRoutines shape dispatch options).filter
      (fun routine => routine.kind = .cleanup) = [] := rfl
  rw [List.filter_append, List.filter_append, enumerator, filter_vendingRoutines vends]
  simp [List.filter_map, Function.comp_def, cleanupRoutine]

theorem map_name_cleanupRoutine (options : Options) (cleanups : List (String × FlatBody)) :
    (cleanups.map (cleanupRoutine options)).map (·.name) = cleanups.map (·.1) :=
  List.map_map

/-- The parts of a lowered method. -/
structure Outline (method : Method) (options : Options) (lowered : Lowered) where
  platform : Platform
  kind : IteratorKind
  members : Members
  expanded : Method
  shape : Shape
  dispatch : Dispatch
  vending : List Routine
  supply : NameSupply
  names : NameSupply
  code : Code
  progress : Progress
  source_eq : lowered.source = method
  classified : method.kind? = some kind
  resolved : resolveMembers kind platform = .ok members
  passed : checkStructure method = .ok ()
  expands : expandForeach method = .ok expanded
  shaped : buildShape expanded kind (capture expanded options.hoisting) members options supply =
    .ok shape names
  emitted : emitBlock expanded shape (.body expanded shape) expanded.body ⟨2, [], [], names⟩ =
    .ok code progress
  points_eq : dispatch.points = progress.points
  cleanups_eq : dispatch.cleanups = progress.cleanups
  flattened : flatBody expanded (resumable shape progress.points code) = .ok dispatch.moveNext
  vends : vendingRoutines shape options = .ok vending
  constructs : buildConstructor shape options = .ok lowered.machine.constructor
  kicksOff : buildKickoff expanded shape = .ok lowered.kickoff
  kind_eq : lowered.machine.kind = kind
  typeParams_eq : lowered.machine.typeParams = shape.typeParams
  elementType_eq : lowered.machine.elementType = shape.elementType
  contracts_eq : lowered.machine.contracts = shape.contracts
  fields_eq : lowered.machine.fields = shape.fields
  machinePoints_eq : lowered.machine.points = progress.points
  routines_eq : lowered.machine.routines = enumeratorRoutines shape dispatch options ++ vending ++
    dispatch.cleanups.map (cleanupRoutine options)

theorem exists_outline {method : Method} {platform : Platform} {options : Options}
    {names names' : NameSupply} {lowered : Lowered}
    (done : method.lower platform options names = .ok lowered names') :
    ∃ outline : Outline method options lowered, outline.platform = platform := by
  simp only [Method.lower, bind_eq_ok, checked_eq_ok, pure_eq_ok] at done
  obtain ⟨⟨_, _⟩, _, ⟨validated, rfl⟩, expanded, _, ⟨expands, rfl⟩, shape, names', shaped,
    dispatch, _, dispatched, constructor, _, ⟨constructs, rfl⟩, kickoff, _, ⟨kicksOff, rfl⟩, routines, _,
    ⟨routed, rfl⟩, rfl, _⟩ := done
  simp only [Method.validate, except_bind_eq_ok, except_pure_eq_ok, Prod.mk.injEq] at validated
  obtain ⟨kind, classified, members, resolved, _, _, _, passed, rfl, rfl⟩ := validated
  simp only [buildRoutines, except_bind_eq_ok, except_pure_eq_ok] at routed
  obtain ⟨vending, vends, rfl⟩ := routed
  obtain ⟨code, progress, emitted, points_eq, cleanups_eq, flattened⟩ := buildDispatch_spec dispatched
  have classified : method.kind? = some kind := by
    unfold Method.iteratorKind at classified
    split at classified
    · next found => rw [found, Except.ok.inj classified]
    · split at classified <;> cases classified
  exact ⟨{
    platform, kind, members, expanded, shape, dispatch, vending, supply := names, names := names', code, progress
    source_eq := rfl
    classified, resolved, passed, expands, shaped
    emitted, points_eq, cleanups_eq, flattened, vends, constructs, kicksOff
    kind_eq := rfl
    typeParams_eq := rfl
    elementType_eq := rfl
    contracts_eq := rfl
    fields_eq := rfl
    machinePoints_eq := points_eq
    routines_eq := rfl }, rfl⟩

theorem outline_of_lower {method : Method} {platform : Platform} {options : Options}
    {names names' : NameSupply} {lowered : Lowered}
    (done : method.lower platform options names = .ok lowered names') :
    Nonempty (Outline method options lowered) := by
  obtain ⟨outline, _⟩ := exists_outline done
  exact ⟨outline⟩

theorem dollar_cleanup (count : Nat) : (nameAt cleanupBase count).toList.head? = some '$' := by
  unfold nameAt cleanupBase
  split <;> simp

theorem find?_cleanup (options : Options) {cleanups : List (String × FlatBody)}
    (once : (cleanups.map (·.1)).Nodup) {cleanup : String × FlatBody} (member : cleanup ∈ cleanups) :
    (cleanups.map (cleanupRoutine options)).find? (fun routine => routine.name = cleanup.1) =
      some (cleanupRoutine options cleanup) := by
  induction cleanups with
  | nil => cases member
  | cons first rest ih =>
    simp only [List.map_cons, List.nodup_cons] at once
    rcases List.mem_cons.mp member with rfl | later
    · simp [cleanupRoutine]
    · have apart : first.1 ≠ cleanup.1 := fun same =>
        once.1 (same ▸ List.mem_map_of_mem later)
      rw [List.map_cons, List.find?_cons_of_neg, ih once.2 later]
      exact fun same => apart (decide_eq_true_eq.mp same)

namespace Outline
variable {method : Method} {options : Options} {lowered : Lowered}
  (outline : Outline method options lowered)
include outline

theorem built : outline.shape.BuiltFor outline.kind (capture outline.expanded options.hoisting)
    outline.members :=
  buildShape_spec outline.shaped

/-- No two fields have the same role. -/
theorem field_eq {field field' : Machine.Field} (member : field ∈ outline.shape.fields)
    (member' : field' ∈ outline.shape.fields) (same : field.role = field'.role) : field = field' := by
  have once : (outline.shape.fields.map (·.role)).Nodup := by
    rw [(buildShape_fields outline.shaped).2]
    exact nodup_roles outline.kind outline.expanded options.hoisting
  exact List.inj_on_of_nodup_map once member member' same

theorem id_eq {id id' : Machine.FieldId} {role : Machine.Role} (bears : outline.shape.Bears id role)
    (bears' : outline.shape.Bears id' role) : id = id' := by
  obtain ⟨field, member, rfl, role⟩ := bears
  obtain ⟨field', member', rfl, role'⟩ := bears'
  rw [outline.field_eq member member' (role.trans role'.symm)]

theorem role_mem {id : Machine.FieldId} {role : Machine.Role} (bears : outline.shape.Bears id role) :
    role ∈ roles outline.kind (capture outline.expanded options.hoisting) := by
  obtain ⟨field, member, _, rfl⟩ := bears
  rw [← (buildShape_fields outline.shaped).2]
  exact List.mem_map_of_mem member

/-- A field for a variable is the slot of the variable. -/
theorem slot_of_bears {id : Machine.FieldId} {var : Var} (bears : outline.shape.Bears id (.hoisted var)) :
    outline.shape.slot? var = some id := by
  have listed := outline.role_mem bears
  have hoisted : var ∈ (capture outline.expanded options.hoisting).hoisted := by
    cases kind : outline.kind <;> simpa [roles, threadRoles, kind] using listed
  obtain ⟨id', slot⟩ := Option.isSome_iff_exists.mp ((outline.built.slot_isSome var).mpr hoisted)
  rw [slot, outline.id_eq bears (outline.built.slot slot)]

theorem moveNext_eq : outline.dispatch.moveNext.code =
    resumable outline.shape outline.progress.points outline.code :=
  flatBody_code outline.flattened

theorem laid : Laid ⟨2, [], [], outline.names⟩ outline.code outline.progress :=
  laid_block outline.expanded outline.shape outline.expanded.body
    (Exits.tidy_body outline.expanded outline.shape) outline.emitted

theorem numbered : Numbered lowered.machine.points := by
  rw [outline.machinePoints_eq]
  exact outline.laid.leads.numbered (by simp [Numbered])

/-- The resumable body. -/
def body : Code := resumable outline.shape lowered.machine.points outline.code

theorem once : (Machine.Code.labels outline.body).Nodup :=
  nodup_resumable outline.laid (Nat.le_refl 2) lowered.machine.points

theorem routine_moveNext : ∃ routine, lowered.machine.routine? .moveNext = some routine ∧
    routine.body = outline.body := by
  refine ⟨_, by rw [Machine.routine?, outline.routines_eq]; rfl, ?_⟩
  rw [body, outline.machinePoints_eq]
  exact outline.moveNext_eq

theorem routine_current : ∃ routine, lowered.machine.routine? .currentGeneric = some routine ∧
    routine.body = [.ret (some (.field outline.shape.current))] :=
  ⟨_, by rw [Machine.routine?, outline.routines_eq]; rfl, rfl⟩

theorem routine_currentObject : ∃ routine, lowered.machine.routine? .currentObject = some routine ∧
    routine.body = [.ret (some (.field outline.shape.current))] :=
  ⟨_, by rw [Machine.routine?, outline.routines_eq]; rfl, rfl⟩

theorem routine_dispose : ∃ routine, lowered.machine.routine? .dispose = some routine ∧
    routine.body = disposeCode outline.shape lowered.machine.points := by
  refine ⟨_, by rw [Machine.routine?, outline.routines_eq]; rfl, ?_⟩
  rw [outline.machinePoints_eq, ← outline.points_eq]

theorem routine_reset : ∃ routine, lowered.machine.routine? .reset = some routine ∧
    routine.body = [.raise outline.shape.members.notSupported] :=
  ⟨_, by rw [Machine.routine?, outline.routines_eq]; rfl, rfl⟩

theorem vending_enumerator (enumerator : outline.kind = .enumerator) : outline.vending = [] := by
  have resolved := outline.resolved
  rw [enumerator] at resolved
  have vends := outline.vends
  simp only [vendingRoutines, outline.built.members_eq, members_enumerator resolved] at vends
  exact (Except.ok.inj vends).symm

theorem vending_enumerable (enumerable : outline.kind = .enumerable) : ∃ generic object,
    outline.vending = [generic, object] ∧
    generic.kind = .getEnumeratorGeneric ∧ generic.name = getEnumeratorName ∧
    getEnumeratorCode outline.shape options = .ok generic.body ∧
    object.kind = .getEnumeratorObject ∧ object.name = "object_get_enumerator" ∧
    object.body = [.ret (some (.callSelf getEnumeratorName))] := by
  have resolved := outline.resolved
  rw [enumerable] at resolved
  obtain ⟨generic, object, source, hasGeneric, hasObject, _⟩ := members_enumerable resolved
  have vends := outline.vends
  simp only [vendingRoutines, outline.built.members_eq, hasGeneric, hasObject, except_bind_eq_ok,
    except_pure_eq_ok] at vends
  obtain ⟨code, coded, vended⟩ := vends
  exact ⟨_, _, vended.symm, rfl, rfl, coded, rfl, rfl, rfl⟩

theorem routine_getEnumerator (enumerable : outline.kind = .enumerable) : ∃ routine,
    lowered.machine.routine? .getEnumeratorGeneric = some routine ∧
    lowered.machine.routineNamed? getEnumeratorName = some routine ∧
    getEnumeratorCode outline.shape options = .ok routine.body := by
  obtain ⟨generic, object, vended, kind, name, coded, _⟩ := outline.vending_enumerable enumerable
  refine ⟨generic, ?_, ?_, coded⟩
  · simp [Machine.routine?, outline.routines_eq, vended, enumeratorRoutines, kind]
  · simp [Machine.routineNamed?, outline.routines_eq, vended, enumeratorRoutines, name,
      getEnumeratorName]

theorem routine_objectGetEnumerator (enumerable : outline.kind = .enumerable) : ∃ routine,
    lowered.machine.routine? .getEnumeratorObject = some routine ∧
    routine.body = [.ret (some (.callSelf getEnumeratorName))] := by
  obtain ⟨generic, object, vended, kind, _, _, kind', _, code⟩ := outline.vending_enumerable enumerable
  refine ⟨object, ?_, code⟩
  simp [Machine.routine?, outline.routines_eq, vended, enumeratorRoutines, kind, kind']

/-- No other routine is named like a cleanup. -/
theorem plain_names : ∀ routine ∈ enumeratorRoutines outline.shape outline.dispatch options ++
    outline.vending, routine.name.toList.head? ≠ some '$' := by
  intro routine member
  rcases List.mem_append.mp member with member | member
  · simp only [enumeratorRoutines, List.mem_cons, List.not_mem_nil, or_false] at member
    rcases member with rfl | rfl | rfl | rfl | rfl <;> simp
  · cases kind : outline.kind with
    | enumerator => simp [outline.vending_enumerator kind] at member
    | enumerable =>
      obtain ⟨generic, object, vended, _, name, _, _, name', _⟩ := outline.vending_enumerable kind
      simp only [vended, List.mem_cons, List.not_mem_nil, or_false] at member
      rcases member with rfl | rfl
      · simp [name, getEnumeratorName]
      · simp [name']

theorem machineCleanups_eq :
    lowered.machine.cleanups = outline.progress.cleanups.map (cleanupRoutine options) := by
  have routed : buildRoutines outline.shape outline.dispatch options = .ok lowered.machine.routines := by
    rw [buildRoutines, outline.vends, outline.routines_eq]
    rfl
  rw [Machine.cleanups, filter_buildRoutines routed, outline.cleanups_eq]

/-- Cleanup routines are named apart from all others and from each other. -/
theorem routine_cleanup {cleanup : String × FlatBody} (member : cleanup ∈ outline.progress.cleanups) :
    lowered.machine.routineNamed? cleanup.1 = some (cleanupRoutine options cleanup) := by
  obtain ⟨new, grown, named⟩ := outline.laid.leads.cleanups
  rw [List.nil_append] at grown
  rw [grown] at member
  obtain ⟨count, drawn, _⟩ := named.drawn cleanup member
  have others : (enumeratorRoutines outline.shape outline.dispatch options ++ outline.vending).find?
      (fun routine => routine.name = cleanup.1) = none := by
    refine List.find?_eq_none.mpr fun routine listed same => outline.plain_names routine listed ?_
    rw [decide_eq_true_eq.mp same, drawn, dollar_cleanup]
  rw [Machine.routineNamed?, outline.routines_eq, List.find?_append, others, Option.none_or,
    outline.cleanups_eq, grown, find?_cleanup options named.once member]

theorem receiver_eq : outline.expanded.receiver = method.receiver := by
  obtain ⟨locals, same, _⟩ := expandForeach_spec outline.expands
  rw [same]

theorem params_eq : outline.expanded.params = method.params := by
  obtain ⟨locals, same, _⟩ := expandForeach_spec outline.expands
  rw [same]

theorem slot_receiver :
    (outline.shape.slot? .receiver).isSome ↔ method.receiver.isSome := by
  rw [outline.built.slot_isSome, ← outline.receiver_eq]
  simp [capture]

theorem slot_param (index : Nat) :
    (outline.shape.slot? (.param index)).isSome ↔ index < method.params.length := by
  rw [outline.built.slot_isSome, ← outline.params_eq]
  simp [capture]

theorem proxies_once : (outline.shape.proxies.map (·.1)).Nodup := by
  rw [outline.built.proxies_eq]
  unfold proxied
  split
  · exact .nil
  · exact nodup_assignedParams _

end Outline

end Lowering
end Resumable
