import Resumable.Proofs.Completion
import Resumable.Proofs.Disposal
import Resumable.Proofs.Mentions

/-!
Well-formed machines. Their code is closed: a jump stays within its routine, and whatever else
an instruction refers to is declared. A routine never runs past its end. Every machine that a
lowering builds is of this kind.
-/

namespace Resumable

namespace Machine

/-- Fields and routines belong to the machine; frame variables and parameters to the routine. -/
def Mention.Declared (machine : Machine) (routine : Routine) : Mention → Prop
  | .field id => id ∈ machine.fields.map (·.id)
  | .frame id => (routine.locals.map (·.id)).count id = 1
  | .param index => index < routine.params.length
  | .routine name => (machine.routines.map (·.name)).count name = 1

structure Routine.WellFormed (machine : Machine) (routine : Routine) : Prop where
  once : routine.body.labels.Nodup
  closed : ∀ target ∈ routine.body.targets, target ∈ routine.body.labels
  declared : ∀ mention ∈ routine.body.mentions, mention.Declared machine routine
  ends : routine.body.Ends

end Machine

namespace Lowering
open Machine (Code Label Mention Point Routine)

section
variable {next : Label} {points : List Point}

/-- The jump table of disposal leads to its end or to one of its chains. -/
theorem disposeTable_targets {arm : Int64 × Label} (member : arm ∈ disposeTable next points) :
    arm.2 = finishLabel ∨ arm.2 ∈ Machine.Code.labels (disposeChains next points) := by
  induction points generalizing next with
  | nil => cases member
  | cons point rest ih =>
    unfold disposeTable at member
    unfold disposeChains
    split at member
    · next none =>
      rw [if_pos none]
      rcases List.mem_cons.mp member with rfl | later
      · exact .inl rfl
      · exact ih later
    · next some =>
      rw [if_neg some]
      rcases List.mem_cons.mp member with rfl | later
      · exact .inr List.mem_cons_self
      · apply (ih later).imp_right
        intro listed
        apply List.mem_cons_of_mem
        rw [Machine.Code.labels_append]
        exact List.mem_append_right _ listed

theorem disposeChains_targets {target : Label}
    (member : target ∈ Machine.Code.targets (disposeChains next points)) : target = finishLabel := by
  induction points generalizing next with
  | nil => cases member
  | cons point rest ih =>
    unfold disposeChains at member
    split at member
    · exact ih member
    · have calls : Machine.Code.targets (point.cleanup.map callCleanup) = [] := by
        simp [Machine.Code.targets, List.flatMap_map, callCleanup, Machine.Instr.targets]
      simp only [Machine.Code.targets_cons, Machine.Code.targets_append, calls, Machine.Instr.targets,
        List.nil_append, List.cons_append, List.mem_cons] at member
      exact member.elim id ih

theorem disposeChains_mentions {mention : Mention}
    (member : mention ∈ Machine.Code.mentions (disposeChains next points)) :
    ∃ point ∈ points, ∃ name ∈ point.cleanup, mention = .routine name := by
  induction points generalizing next with
  | nil => cases member
  | cons point rest ih =>
    unfold disposeChains at member
    split at member
    · obtain ⟨other, later, found⟩ := ih member
      exact ⟨other, List.mem_cons_of_mem _ later, found⟩
    · have calls : Machine.Code.mentions (point.cleanup.map callCleanup) =
          point.cleanup.map Mention.routine := by
        rw [Machine.Code.mentions, List.flatMap_map, List.map_eq_flatMap]
        rfl
      simp only [Machine.Code.mentions_cons, Machine.Code.mentions_append, calls, Machine.Instr.mentions,
        List.nil_append, List.mem_append, List.mem_map] at member
      rcases member with ⟨name, among, rfl⟩ | later
      · exact ⟨point, List.mem_cons_self, name, among, rfl⟩
      · obtain ⟨other, later, found⟩ := ih later
        exact ⟨other, List.mem_cons_of_mem _ later, found⟩

end

theorem Shape.Mentions.mono {shape : Shape} {called called' : String → Prop} {mention : Mention}
    (more : ∀ name, called name → called' name) (mentions : shape.Mentions called mention) :
    shape.Mentions called' mention := by
  cases mention with
  | routine name => exact more name mentions
  | _ => exact mentions

@[simp] theorem targets_storing (pairs : List (Machine.FieldId × Machine.Term)) :
    Machine.Code.targets (Simulation.storing pairs) = [] := by
  simp [Simulation.storing, Machine.Code.targets, List.flatMap_map, Machine.Instr.targets]

theorem declared_held {machine : Machine} {routine : Routine} (holds : routine.locals.map (·.id) = [held]) :
    (Mention.frame held).Declared machine routine := by
  change (routine.locals.map (·.id)).count held = 1
  rw [holds]
  decide

namespace Outline
variable {method : Method} {options : Options} {lowered : Lowered}
  (outline : Outline method options lowered)
include outline

/-- The cleanup routines of the machine by name. -/
def Cleans (name : String) : Prop := ∃ cleanup ∈ outline.progress.cleanups, cleanup.1 = name

theorem cleans_once {name : String} (cleans : outline.Cleans name) :
    (lowered.machine.routines.map (·.name)).count name = 1 := by
  obtain ⟨cleanup, member, rfl⟩ := cleans
  obtain ⟨new, grown, named⟩ := outline.laid.leads.cleanups
  rw [List.nil_append] at grown
  obtain ⟨count, drawn, _⟩ := named.drawn cleanup (grown ▸ member)
  have others : ((enumeratorRoutines outline.shape outline.dispatch options ++
      outline.vending).map (·.name)).count cleanup.1 = 0 := by
    rw [List.count_eq_zero]
    intro listed
    obtain ⟨routine, among, same⟩ := List.mem_map.mp listed
    apply outline.plain_names routine among
    rw [same, drawn, dollar_cleanup]
  have own : (outline.dispatch.cleanups.map (cleanupRoutine options)).map (·.name) = new.map (·.1) := by
    rw [outline.cleanups_eq, grown, map_name_cleanupRoutine]
  rw [outline.routines_eq, List.map_append, List.count_append, others, own, Nat.zero_add]
  exact List.count_eq_one_of_mem named.once (List.mem_map_of_mem (grown ▸ member))

/-- The vending routine of an enumerable is the only one of its name. -/
theorem getEnumerator_once (enumerable : outline.kind = .enumerable) :
    (lowered.machine.routines.map (·.name)).count getEnumeratorName = 1 := by
  obtain ⟨generic, object, vended, _, name, _, _, name', _⟩ := outline.vending_enumerable enumerable
  obtain ⟨new, grown, named⟩ := outline.laid.leads.cleanups
  rw [List.nil_append] at grown
  have others : ((outline.dispatch.cleanups.map (cleanupRoutine options)).map (·.name)).count
      getEnumeratorName = 0 := by
    rw [List.count_eq_zero, outline.cleanups_eq, map_name_cleanupRoutine]
    intro listed
    obtain ⟨cleanup, member, same⟩ := List.mem_map.mp listed
    obtain ⟨count, drawn, _⟩ := named.drawn cleanup (grown ▸ member)
    have first := dollar_cleanup count
    rw [← drawn, same] at first
    exact absurd first (by decide)
  rw [outline.routines_eq, List.map_append, List.count_append, others, vended]
  simp only [enumeratorRoutines, List.map_append, List.map_cons, List.map_nil, name, name']
  decide

theorem declared_field {routine : Routine} {id : Machine.FieldId} {role : Machine.Role}
    (bears : outline.shape.Bears id role) : (Mention.field id).Declared lowered.machine routine := by
  change id ∈ lowered.machine.fields.map (·.id)
  rw [outline.fields_eq]
  exact bears.mem

theorem declared_of_mentions {routine : Routine} {called : String → Prop}
    (known : ∀ name, called name → outline.Cleans name) {mention : Mention}
    (mentions : outline.shape.Mentions called mention)
    (frames : ∀ id, mention = .frame id → (routine.locals.map (·.id)).count id = 1) :
    mention.Declared lowered.machine routine := by
  cases mention with
  | field id =>
    change id ∈ lowered.machine.fields.map (·.id)
    rw [outline.fields_eq]
    exact mentions
  | frame id => exact frames id rfl
  | param index => exact mentions.elim
  | routine name => exact outline.cleans_once (known name mentions)

/-- A routine that was emitted declares the frame variables of its code. -/
theorem wellFormed_flat {routine : Routine} {code : Code} {flat : FlatBody}
    (built : flatBody outline.expanded code = .ok flat) (locals : routine.locals = flat.locals)
    (body : routine.body = code) (once : code.labels.Nodup)
    (closed : ∀ target ∈ code.targets, target ∈ code.labels)
    (mentions : ∀ mention ∈ code.mentions, outline.shape.Mentions outline.Cleans mention)
    (ends : code.Ends) : routine.WellFormed lowered.machine where
  once := body ▸ once
  closed := body ▸ closed
  declared := by
    rw [body]
    intro mention member
    apply outline.declared_of_mentions (fun _ => id) (mentions mention member)
    rintro id rfl
    rw [locals]
    exact flatBody_locals built (Machine.Code.mem_frameVars member)
  ends := body ▸ ends

theorem wellFormed_moveNext {routine : Routine} (locals : routine.locals = outline.dispatch.moveNext.locals)
    (body : routine.body = outline.dispatch.moveNext.code) : routine.WellFormed lowered.machine := by
  obtain ⟨harvest, bodies⟩ := outline.bodies_alone
  have whole : resumable outline.shape outline.progress.points outline.code =
      entry outline.shape outline.progress.points ++ started outline.shape outline.code := rfl
  have points := bodies.points_left
  apply outline.wellFormed_flat outline.flattened locals (body.trans outline.moveNext_eq)
  · have once := outline.once
    rwa [Outline.body, outline.machinePoints_eq] at once
  · rw [whole, Machine.Code.targets_append, Machine.Code.labels_append]
    have later {target : Label}
        (listed : target ∈ Machine.Code.labels (started outline.shape outline.code)) : target ∈
        Machine.Code.labels (entry outline.shape outline.progress.points) ++
          Machine.Code.labels (started outline.shape outline.code) := List.mem_append_right _ listed
    refine List.forall_mem_append.mpr ⟨?_, ?_⟩
    · intro target member
      simp only [entry, Machine.Code.targets_cons, Machine.Instr.targets, Machine.Code.targets_nil,
        List.append_nil, List.map_cons, List.map_map, List.mem_append, List.mem_cons, List.mem_map,
        List.not_mem_nil, or_false] at member
      rcases member with (rfl | ⟨point, among, rfl⟩) | rfl
      · exact later List.mem_cons_self
      · rw [points] at among
        obtain ⟨both, inside, rfl⟩ := List.mem_map.mp among
        obtain ⟨scope, resumed⟩ := bodies.resumed both inside
        exact later (mem_labels_of_placed bodies (List.mem_cons_of_mem _ resumed))
      · exact List.mem_append_left _ List.mem_cons_self
    · intro target member
      obtain ⟨mark, placed, rfl⟩ := bodies.twin.targets target member
      exact later (mem_labels_of_placed bodies placed)
  · rw [whole, Machine.Code.mentions_append]
    refine List.forall_mem_append.mpr ⟨?_, ?_⟩
    · exact List.forall_mem_singleton.mpr outline.built.state.mem
    · intro mention member
      refine (bodies.twin.mentions outline.built.toSound mention member).mono ?_
      rintro name ⟨name', cleanup, among, rfl, _⟩
      refine ⟨cleanup.1, ?_, rfl⟩
      rw [bodies.cleanups_left]
      exact List.mem_map_of_mem among
  · refine ⟨entry outline.shape outline.progress.points ++ .label startLabel ::
      outline.shape.setState State.running :: (outline.code ++ [outline.shape.setState State.finished]),
      .ret (some (.bool false)), ?_, rfl⟩
    simp only [resumable, Shape.finish, List.append_assoc, List.cons_append, List.nil_append]

theorem wellFormed_cleanup {cleanup : String × FlatBody} (member : cleanup ∈ outline.progress.cleanups) :
    (cleanupRoutine options cleanup).WellFormed lowered.machine := by
  obtain ⟨harvest, bodies⟩ := outline.bodies_alone
  rw [bodies.cleanups_left] at member
  obtain ⟨both, among, rfl⟩ := List.mem_map.mp member
  obtain ⟨flat, _, once, ⟨front, ends⟩, marks, scope, after, marked, _, _, twin⟩ := bodies.routines both among
  apply outline.wellFormed_flat flat rfl rfl once
  · intro target jumped
    obtain ⟨mark, placed, rfl⟩ := twin.targets target jumped
    rw [← marked]
    exact List.mem_map_of_mem placed
  · intro mention mentioned
    refine (twin.mentions outline.built.toSound mention mentioned).mono ?_
    rintro name ⟨_, absurd⟩
    exact absurd.elim
  · exact ⟨front, _, ends, rfl⟩

theorem wellFormed_dispose {routine : Routine}
    (body : routine.body = disposeCode outline.shape outline.dispatch.points) :
    routine.WellFormed lowered.machine := by
  obtain ⟨harvest, bodies⟩ := outline.bodies_alone
  have state : (Mention.field outline.shape.state).Declared lowered.machine routine :=
    outline.declared_field outline.built.state
  constructor
  · rw [body]
    exact once_disposeCode _ _
  · rw [body]
    have finish : finishLabel ∈
        Machine.Code.labels (disposeCode outline.shape outline.dispatch.points) := by
      simp [disposeCode, Machine.Code.labels]
    have done : doneLabel ∈
        Machine.Code.labels (disposeCode outline.shape outline.dispatch.points) := by
      simp [disposeCode, Machine.Code.labels, Shape.setState, Machine.Instr.setField]
    intro target member
    simp only [disposeCode, Machine.Code.targets_cons, Machine.Code.targets_append, Machine.Instr.targets,
      Machine.Code.targets_nil, List.map_cons, List.append_nil, List.mem_append, List.mem_cons, List.mem_map,
      List.not_mem_nil, or_false, Shape.setState, Machine.Instr.setField] at member
    rcases member with ((rfl | ⟨arm, among, rfl⟩) | rfl) | chained
    · exact finish
    · rcases disposeTable_targets among with same | listed
      · rw [same]
        exact finish
      · simp [disposeCode, Machine.Code.labels, listed]
    · exact done
    · rw [disposeChains_targets chained]
      exact finish
  · rw [body]
    intro mention member
    simp only [disposeCode, Machine.Code.mentions_cons, Machine.Code.mentions_append,
      Machine.Instr.mentions, Machine.Code.mentions_nil, Machine.Term.field, Machine.Term.mentions,
      Machine.Place.mentions, Shape.setState, Machine.Instr.setField, List.append_nil, List.nil_append,
      List.mem_append, List.mem_cons, List.not_mem_nil, or_false] at member
    rcases member with rfl | chained | rfl
    · exact state
    · obtain ⟨point, among, name, listed, rfl⟩ := disposeChains_mentions chained
      apply outline.cleans_once
      rw [outline.points_eq, ← outline.machinePoints_eq] at among
      exact outline.cleanup_of_point among listed
    · exact state
  · rw [body]
    refine ⟨.switch (.field outline.shape.state) ((State.fresh, finishLabel) ::
      disposeTable 2 outline.dispatch.points) doneLabel :: (disposeChains 2 outline.dispatch.points ++
        [.label finishLabel, outline.shape.setState State.finished, .label doneLabel]), .ret none, ?_, rfl⟩
    simp only [disposeCode, List.append_assoc, List.cons_append, List.nil_append]

/-- What the vending and the kick-off routine store is declared if what they read is. -/
theorem declared_storing {routine : Routine} (holds : routine.locals.map (·.id) = [held])
    {pairs : List (Machine.FieldId × Machine.Term)}
    (fields : ∀ pair ∈ pairs, ∃ role, outline.shape.Bears pair.1 role)
    (read : ∀ pair ∈ pairs, ∀ mention ∈ pair.2.mentions, mention.Declared lowered.machine routine) :
    ∀ mention ∈ Machine.Code.mentions (Simulation.storing pairs),
      mention.Declared lowered.machine routine := by
  intro mention member
  obtain ⟨instr, among, mentioned⟩ := List.mem_flatMap.mp member
  obtain ⟨pair, listed, rfl⟩ := List.mem_map.mp among
  simp only [Machine.Instr.mentions, Machine.Place.mentions, List.mem_append, List.mem_cons,
    List.not_mem_nil, or_false] at mentioned
  rcases mentioned with (rfl | rfl) | mentioned
  · exact declared_held holds
  · obtain ⟨role, bears⟩ := fields pair listed
    exact outline.declared_field bears
  · exact read pair listed mention mentioned

theorem wellFormed_kickoff : lowered.kickoff.WellFormed lowered.machine := by
  obtain ⟨pairs, body, listed⟩ := Simulation.kickoff_body outline
  have kicksOff := outline.kicksOff
  simp only [buildKickoff, except_bind_eq_ok, except_pure_eq_ok] at kicksOff
  obtain ⟨_, _, _, _, built⟩ := kicksOff
  have holds : lowered.kickoff.locals.map (·.id) = [held] := by rw [← built]; rfl
  have params : lowered.kickoff.params.length = method.params.length := by
    rw [← built, ← outline.params_eq]
    exact List.length_map _
  have sound := outline.built.toSound
  constructor
  · simp [body, Machine.Code.labels]
  · simp [body, Machine.Instr.targets]
  · rw [body]
    simp only [Machine.Code.mentions_cons, Machine.Code.mentions_append, Machine.Code.mentions_nil,
      Machine.Instr.mentions, Machine.Place.mentions, Machine.Term.mentions, Machine.Term.mentionsAll,
      List.append_nil, List.cons_append, List.nil_append, List.forall_mem_cons, List.forall_mem_append]
    refine ⟨declared_held holds, outline.declared_storing holds ?_ ?_,
      declared_held holds, List.forall_mem_nil _⟩
    · intro pair member
      obtain ⟨role, bears, _⟩ := ((listed pair).mp member).bears sound
      exact ⟨role, bears⟩
    · intro pair member mention mentioned
      rcases (listed pair).mp member with ⟨itself, _⟩ | ⟨index, given, takes⟩
      · rw [itself] at mentioned
        cases mentioned
      · rw [given] at mentioned
        obtain rfl := List.mem_singleton.mp mentioned
        change index < lowered.kickoff.params.length
        rw [params]
        exact Simulation.takes_lt outline takes
  · exact ⟨.assign (.frame held) (.construct [.int (initialState outline.kind)]) ::
      Simulation.storing pairs, .ret (some (.load (.frame held))), body, rfl⟩

theorem wellFormed_constructor : lowered.machine.constructor.WellFormed lowered.machine := by
  have constructs := outline.constructs
  simp only [buildConstructor, except_bind_eq_ok, except_pure_eq_ok] at constructs
  obtain ⟨thread, coded, built⟩ := constructs
  have sound := outline.built.toSound
  have state : (Mention.field outline.shape.state).Declared lowered.machine lowered.machine.constructor :=
    outline.declared_field sound.state
  have plain : Machine.Code.labels thread = [] ∧ Machine.Code.targets thread = [] ∧
      ∀ mention ∈ Machine.Code.mentions thread,
        mention.Declared lowered.machine lowered.machine.constructor := by
    unfold threadCode at coded
    split at coded
    · obtain rfl := Except.ok.inj coded
      simp
    · next id found =>
      simp only [except_bind_eq_ok, except_pure_eq_ok] at coded
      obtain ⟨source, _, rfl⟩ := coded
      refine ⟨rfl, rfl, ?_⟩
      exact List.forall_mem_singleton.mpr (outline.declared_field (sound.thread found))
  have body : lowered.machine.constructor.body =
    .setField outline.shape.state (.param 0) :: (thread ++ [.ret none]) := by rw [← built]
  have params : lowered.machine.constructor.params.length = 1 := by rw [← built]; rfl
  constructor
  · simp [body, Machine.Instr.setField, Machine.Code.labels, plain.1]
  · simp [body, Machine.Instr.targets, Machine.Instr.setField, plain.2.1]
  · rw [body]
    simp only [Machine.Code.mentions_cons, Machine.Code.mentions_append, Machine.Code.mentions_nil,
      Machine.Instr.setField, Machine.Instr.mentions, Machine.Place.mentions, Machine.Term.mentions,
      List.append_nil, List.cons_append, List.nil_append, List.forall_mem_cons]
    refine ⟨state, ?_, plain.2.2⟩
    change 0 < lowered.machine.constructor.params.length
    omega
  · exact ⟨.setField outline.shape.state (.param 0) :: thread, .ret none, body, rfl⟩

theorem wellFormed_getEnumerator {routine : Routine} (holds : routine.locals.map (·.id) = [held])
    (coded : getEnumeratorCode outline.shape options = .ok routine.body) :
    routine.WellFormed lowered.machine := by
  have sound := outline.built.toSound
  have field {id : Machine.FieldId} {role : Machine.Role} (bears : outline.shape.Bears id role) :
      (Mention.field id).Declared lowered.machine routine := outline.declared_field bears
  obtain ⟨reuse, restore, made, restored, body⟩ := Simulation.getEnumeratorCode_spec coded
  obtain ⟨_, pairs, rfl, listed⟩ := Simulation.restoreCode_spec restored
  rw [Simulation.copyCode_eq] at body
  have copied : ∀ mention ∈ Machine.Code.mentions (Simulation.storing (Simulation.copies outline.shape)),
      mention.Declared lowered.machine routine := by
    refine outline.declared_storing holds (fun pair member => ?_) (fun pair member mention mentioned => ?_)
    · obtain ⟨_, role, bears, _⟩ := Simulation.mem_copies.mp member
      exact ⟨role, bears⟩
    · obtain ⟨read, role, bears, _⟩ := Simulation.mem_copies.mp member
      rw [read] at mentioned
      obtain rfl := List.mem_singleton.mp mentioned
      exact field bears
  have restored : ∀ mention ∈ Machine.Code.mentions (Simulation.storing pairs),
      mention.Declared lowered.machine routine := by
    refine outline.declared_storing holds (fun pair member => ?_) (fun pair member mention mentioned => ?_)
    · obtain ⟨proxy, _, slot, _⟩ := (listed pair).mp member
      exact ⟨_, sound.slot slot⟩
    · obtain ⟨proxy, among, _, read⟩ := (listed pair).mp member
      rw [read] at mentioned
      obtain rfl := List.mem_singleton.mp mentioned
      exact field (sound.proxy among)
  have started : (Machine.Code.labels reuse = []) ∧
      (∀ target ∈ Machine.Code.targets reuse, target = copyLabel ∨ target = wireLabel) ∧
      ∀ mention ∈ Machine.Code.mentions reuse, mention.Declared lowered.machine routine := by
    rcases Simulation.reuse_eq made with ⟨_, rfl⟩ | ⟨_, id, source, found, rfl⟩
    · simp
    · refine ⟨rfl, ?_, ?_⟩
      · simp [Simulation.reuseStart, Machine.Instr.targets, Shape.setState, Machine.Instr.setField]
      · simp only [Simulation.reuseStart, Simulation.untouched, Machine.Code.mentions_cons,
          Machine.Code.mentions_nil, Machine.Instr.mentions, Machine.Term.field, Machine.Term.mentions,
          Machine.Place.mentions, Shape.setState, Machine.Instr.setField, List.append_nil, List.cons_append,
          List.nil_append, List.forall_mem_cons]
        exact ⟨field sound.state, field (sound.thread found), field sound.state, declared_held holds,
          List.forall_mem_nil _⟩
  have labels : Machine.Code.labels routine.body = [copyLabel, wireLabel] := by
    simp [body, started.1, Machine.Code.labels]
  constructor
  · rw [labels]
    decide
  · rw [labels]
    intro target member
    simp only [body, Machine.Code.targets_append, Machine.Code.targets_cons, Machine.Code.targets_nil,
      Machine.Instr.targets, targets_storing, List.append_nil] at member
    rcases started.2.1 target member with rfl | rfl <;> simp
  · rw [body]
    simp only [Machine.Code.mentions_append, Machine.Code.mentions_cons, Machine.Code.mentions_nil,
      Machine.Instr.mentions, Machine.Place.mentions, Machine.Term.mentions, Machine.Term.mentionsAll,
      List.append_nil, List.cons_append, List.nil_append, List.forall_mem_append, List.forall_mem_cons]
    exact ⟨⟨started.2.2, declared_held holds, copied⟩, restored, declared_held holds,
      List.forall_mem_nil _⟩
  · refine ⟨reuse ++ .label copyLabel :: .assign (.frame held) (.construct [.int State.fresh]) ::
      Simulation.storing (Simulation.copies outline.shape) ++ .label wireLabel :: Simulation.storing pairs,
      .ret (some (.load (.frame held))), ?_, rfl⟩
    rw [body, List.append_assoc _ (_ :: _) [_], List.cons_append]

/-- The two vending routines of an enumerable. -/
theorem vending_cases {routine : Routine} (member : routine ∈ outline.vending) :
    (routine.locals.map (·.id) = [held] ∧
      getEnumeratorCode outline.shape options = .ok routine.body) ∨
      routine.body = [.ret (some (.callSelf getEnumeratorName))] := by
  have vends := outline.vends
  unfold vendingRoutines at vends
  split at vends
  · simp only [except_bind_eq_ok, except_pure_eq_ok] at vends
    obtain ⟨code, coded, vended⟩ := vends
    rw [← vended] at member
    simp only [List.mem_cons, List.not_mem_nil, or_false] at member
    rcases member with rfl | rfl
    · exact .inl ⟨rfl, coded⟩
    · exact .inr rfl
  · rw [← Except.ok.inj vends] at member
    cases member

theorem wellFormed_vending {routine : Routine} (member : routine ∈ outline.vending) :
    routine.WellFormed lowered.machine := by
  rcases outline.vending_cases member with ⟨holds, coded⟩ | body
  · exact outline.wellFormed_getEnumerator holds coded
  · have enumerable : outline.kind = .enumerable := by
      cases kind : outline.kind with
      | enumerable => rfl
      | enumerator =>
        rw [outline.vending_enumerator kind] at member
        cases member
    constructor
    · simp [body, Machine.Code.labels]
    · simp [body, Machine.Instr.targets]
    · rw [body]
      exact List.forall_mem_singleton.mpr (outline.getEnumerator_once enumerable)
    · exact ⟨[], _, body, rfl⟩

theorem wellFormed_routine {routine : Routine} (member : routine ∈ lowered.machine.routines) :
    routine.WellFormed lowered.machine := by
  have current : (Mention.field outline.shape.current).Declared lowered.machine routine :=
    outline.declared_field outline.built.current
  rw [outline.routines_eq, List.mem_append, List.mem_append] at member
  rcases member with (protocol | vending) | cleanup
  · simp only [enumeratorRoutines, List.mem_cons, List.not_mem_nil, or_false] at protocol
    rcases protocol with rfl | rfl | rfl | rfl | rfl
    · exact outline.wellFormed_moveNext rfl rfl
    · exact ⟨List.nodup_nil, List.forall_mem_nil _, List.forall_mem_singleton.mpr current, [], _, rfl, rfl⟩
    · exact ⟨List.nodup_nil, List.forall_mem_nil _, List.forall_mem_singleton.mpr current, [], _, rfl, rfl⟩
    · exact outline.wellFormed_dispose rfl
    · exact ⟨List.nodup_nil, List.forall_mem_nil _, List.forall_mem_nil _, [], _, rfl, rfl⟩
  · exact outline.wellFormed_vending vending
  · obtain ⟨cleanup, listed, rfl⟩ := List.mem_map.mp cleanup
    exact outline.wellFormed_cleanup (outline.cleanups_eq ▸ listed)

end Outline
end Lowering

/-- The fields are numbered through, no two have the same role, and all code is well formed. -/
structure Lowered.WellFormed (lowered : Lowered) : Prop where
  numbered : lowered.machine.fields.map (·.id) = List.range lowered.machine.fields.length
  roles : (lowered.machine.fields.map (·.role)).Nodup
  kickoff : lowered.kickoff.WellFormed lowered.machine
  constructor : lowered.machine.constructor.WellFormed lowered.machine
  routines : ∀ routine ∈ lowered.machine.routines, routine.WellFormed lowered.machine

/-- Whatever names were taken before, a lowering that succeeds builds a well-formed machine. -/
theorem Method.wellFormed_of_lower {method : Method} {platform : Platform} {options : Options}
    {names names' : NameSupply} {lowered : Lowered}
    (done : method.lower platform options names = .ok lowered names') : lowered.WellFormed := by
  obtain ⟨outline⟩ := Lowering.outline_of_lower done
  obtain ⟨ids, roles⟩ := Lowering.buildShape_fields outline.shaped
  rw [← outline.fields_eq] at ids roles
  constructor
  · exact ids
  · rw [roles]
    exact Lowering.nodup_roles _ _ _
  · exact outline.wellFormed_kickoff
  · exact outline.wellFormed_constructor
  · exact fun routine member => outline.wellFormed_routine member

theorem Method.wellFormed_of_lower_eachItem : ∃ lowered supply,
    eachItem.lower .standard .standard .empty = .ok lowered supply ∧ lowered.WellFormed := by
  obtain ⟨lowered, supply, lowers, _⟩ := eachItem_lowers
  exact ⟨lowered, supply, lowers, wellFormed_of_lower lowers⟩

end Resumable
