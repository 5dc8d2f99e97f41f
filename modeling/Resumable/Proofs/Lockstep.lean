import Resumable.Proofs.Level

/-!
Two lowerings of one method in lockstep. They may store locals in different places, and code that
is well scoped cannot tell: it reads a local only after it has stored to it in the same activation,
or finds it in a field of the instance. So the two machines give the same answers and fail in the
same way, and neither reads what does not exist.
-/

namespace Resumable

namespace Lowering
open Machine (Code FieldId Instr Label Point Role)

/-- Two disposal routines have the same jump table, and their chains of cleanups go together. -/
theorem disposeTable_paired {called : String → String → Prop} {points : List (Point × Point)}
    (paired : ∀ point ∈ points, point.1.state = point.2.state ∧
      List.Forall₂ called point.1.cleanup point.2.cleanup) (next : Label) :
    disposeTable next (points.map (·.2)) = disposeTable next (points.map (·.1)) ∧
    ∀ arm ∈ disposeTable next (points.map (·.1)), arm.2 = finishLabel ∨
      ∃ chain chain' rest rest', List.Forall₂ called chain chain' ∧
        .label arm.2 :: (chain.map callCleanup ++ .goto finishLabel :: rest) <:+
          disposeChains next (points.map (·.1)) ∧
        .label arm.2 :: (chain'.map callCleanup ++ .goto finishLabel :: rest') <:+
          disposeChains next (points.map (·.2)) := by
  induction points generalizing next with
  | nil => exact ⟨rfl, nofun⟩
  | cons point others ih =>
    obtain ⟨⟨state, chained⟩, later⟩ := List.forall_mem_cons.mp paired
    have empty : point.2.cleanup.isEmpty = point.1.cleanup.isEmpty := by
      rw [Bool.eq_iff_iff, List.isEmpty_iff_length_eq_zero, List.isEmpty_iff_length_eq_zero,
        chained.length_eq]
    simp only [List.map_cons, disposeTable, disposeChains, empty, ← state]
    split
    · obtain ⟨table, chains⟩ := ih later next
      exact ⟨by rw [table], List.forall_mem_cons.mpr ⟨.inl rfl, chains⟩⟩
    · obtain ⟨table, chains⟩ := ih later (next + 1)
      refine ⟨by rw [table], List.forall_mem_cons.mpr ⟨.inr ?_, fun arm member => ?_⟩⟩
      · exact ⟨_, _, _, _, chained, List.suffix_refl _, List.suffix_refl _⟩
      · refine (chains arm member).imp_right ?_
        rintro ⟨chain, chain', rest, rest', both, placed, placed'⟩
        have deeper {code : Code} (front : List Instr) (last : Instr) (first : Instr) :
            code <:+ first :: (front ++ last :: code) :=
          ((List.suffix_cons _ _).trans (List.suffix_append _ _)).trans (List.suffix_cons _ _)
        exact ⟨chain, chain', rest, rest', both, placed.trans (deeper _ _ _), placed'.trans (deeper _ _ _)⟩

end Lowering

namespace Simulation
open Lowering (Accord Effects Landmarks Outline Pairing Shape Stage)
open Machine (Activation Code Exec Field FieldId Frame Place Point Role Step World call evalTerm run)

/-- Two activations on one instance, in worlds that are level. -/
structure Abreast (left right : Shape) (own : Nat) (act act' : Activation) : Prop where
  fuel : act.fuel = act'.fuel
  inside : own < act.world.instances.size
  level : Level left right act.world act'.world

/-- These locals have been stored to and have the same values. -/
def Shares (left right : Shape) (own : Nat) (scope : List LocalId) (act act' : Activation) : Prop :=
  ∀ id ∈ scope, ∀ place place', left.place (.loc id) = .ok place → right.place (.loc id) = .ok place' →
    ∃ value, content own act place = some value ∧ content own act' place' = some value

/-- Two activations in lockstep. -/
def Lockstep (left right : Shape) (own : Nat) : Stage → Activation → Activation → Prop
  | .before scope, act, act' => Abreast left right own act act' ∧ Shares left right own scope act act'
  | .leaving _, act, act' => Abreast left right own act act'

/-- Both have failed on their data or for lack of fuel. -/
def Stumbled (left right : Shape) (own : Nat) (e : EvalError) (act act' : Activation) : Prop :=
  (e.isData ∨ e = .outOfFuel) ∧ Abreast left right own act act'

section
variable {left right : Shape} {own : Nat} {act act' : Activation} {scope scope' : List LocalId}

theorem Abreast.withFuel (abreast : Abreast left right own act act') (fuel : Nat) :
    Abreast left right own (act.withFuel fuel) (act'.withFuel fuel) :=
  ⟨rfl, abreast.inside, abreast.level.withFuel fuel fuel⟩

theorem Shares.mono (shares : Shares left right own scope act act') (within : scope' ⊆ scope) :
    Shares left right own scope' act act' :=
  fun id member => shares id (within member)

/-- Locals that live in fields on both sides. -/
theorem Abreast.shares (exact : left.Exact) (exact' : right.Exact)
    (abreast : Abreast left right own act act')
    (kept : ∀ id ∈ scope, (left.slot? (.loc id)).isSome ∧ (right.slot? (.loc id)).isSome) :
    Shares left right own scope act act' := by
  intro id member place place' placed placed'
  obtain ⟨stored, stored'⟩ := kept id member
  rcases place_eq_ok.mp placed with ⟨slot, found, rfl⟩ | ⟨_, _, absent, _⟩
  · rcases place_eq_ok.mp placed' with ⟨slot', found', rfl⟩ | ⟨_, _, absent, _⟩
    · have bears := exact.slot found
      obtain ⟨value, held⟩ := Option.isSome_iff_exists.mp
        ((abreast.level.equipped abreast.inside).present bears)
      exact ⟨value, held, (abreast.level.same bears (exact'.slot found')).trans held⟩
    · simp [absent] at stored'
  · simp [absent] at stored

theorem content_withFuel (fuel : Nat) (place : Place) :
    content own (act.withFuel fuel) place = content own act place := by
  cases place <;> rfl

theorem fuel_put (value : Value) (place : Place) : (put own act value place).fuel = act.fuel := by
  cases place <;> simp [put, Activation.fuel]

theorem size_put (value : Value) (place : Place) :
    (put own act value place).world.instances.size = act.world.instances.size := by
  cases place <;> simp [put]

theorem store_eq {place : Place} (writable : Writable own act place) (value : Value) :
    (ownFrame own).store value place act = .ok () (put own act value place) := by
  have fuel : (put own act value place).withFuel act.fuel = put own act value place := by
    rw [← fuel_put value place]
    rfl
  have stored := gives_store (ownFrame_self own) writable value act.fuel
  rwa [fuel] at stored

end

section
variable {left right : Shape} (exact : left.Exact) (exact' : right.Exact) {own : Nat}
  {scope scope' : List LocalId}
include exact exact'

/-- Both store into a variable. -/
theorem inStep_store {var : Var} {place place' : Place} (placed : left.place var = .ok place)
    (placed' : right.place var = .ok place') (grown : ∀ id ∈ scope', id ∈ scope ∨ var = .loc id)
    (value : Value) :
    InStep (Lockstep left right own (.before scope)) (fun _ => Lockstep left right own (.before scope'))
      (Stumbled left right own) ((ownFrame own).store value place) ((ownFrame own).store value place') := by
  rintro act act' ⟨⟨fuel, inside, level⟩, shares⟩
  have writable : Writable own act place := by
    rcases place_eq_ok.mp placed with ⟨id, slot, rfl⟩ | ⟨id, _, _, rfl⟩
    · exact (level.equipped inside).present (exact.slot slot)
    · trivial
  have writable' : Writable own act' place' := by
    rcases place_eq_ok.mp placed' with ⟨id, slot, rfl⟩ | ⟨id, _, _, rfl⟩
    · exact (level.equipped' inside).present (exact'.slot slot)
    · trivial
  rw [store_eq writable, store_eq writable']
  refine ⟨rfl, ⟨?_, ?_, ?_⟩, ?_⟩
  · rw [fuel_put, fuel_put, fuel]
  · rw [size_put]
    exact inside
  · rcases place_eq_ok.mp placed with ⟨id, slot, rfl⟩ | ⟨id, _, absent, rfl⟩ <;>
      rcases place_eq_ok.mp placed' with ⟨id', slot', rfl⟩ | ⟨id', _, absent', rfl⟩
    · exact level.setSlot exact exact' inside (exact.slot slot) (exact'.slot slot') nofun nofun
    · refine level.setSlot_left exact (exact.slot slot) (fun id bears => ?_) nofun nofun
      simp [exact'.slotted bears] at absent'
    · refine (level.symm.setSlot_left exact' (exact'.slot slot') (fun id bears => ?_) nofun nofun).symm
      simp [exact.slotted bears] at absent
    · exact level
  · intro id member other other' otherPlaced otherPlaced'
    by_cases itself : var = .loc id
    · subst itself
      obtain rfl := Except.ok.inj (placed.symm.trans otherPlaced)
      obtain rfl := Except.ok.inj (placed'.symm.trans otherPlaced')
      exact ⟨value, content_put_self writable value, content_put_self writable' value⟩
    · obtain ⟨held, found, found'⟩ :=
        shares id ((grown id member).resolve_right itself) other other' otherPlaced otherPlaced'
      refine ⟨held, ?_, ?_⟩
      · rw [content_put_of_ne value, found]
        rintro rfl
        exact itself (place_inj exact.toSound placed otherPlaced)
      · rw [content_put_of_ne value, found']
        rintro rfl
        exact itself (place_inj exact'.toSound placed' otherPlaced')

/-- Both store into a field of the protocol. -/
theorem inStep_field {id id' : FieldId} {role : Role} (bears : left.Bears id role)
    (bears' : right.Bears id' role) (protocol : role = .state ∨ role = .current) {value : Value}
    (stated : role = .state → ∃ state, value = .int state) :
    InStep (Lockstep left right own (.before scope)) (fun _ => Lockstep left right own (.before scope))
      (Stumbled left right own) ((ownFrame own).store value (.field id))
      ((ownFrame own).store value (.field id')) := by
  rintro act act' ⟨⟨fuel, inside, level⟩, shares⟩
  have writable : Writable own act (.field id) := (level.equipped inside).present bears
  have writable' : Writable own act' (.field id') := (level.equipped' inside).present bears'
  have fixed : role ≠ .initialThread := by rcases protocol with rfl | rfl <;> nofun
  have other {shape : Shape} (sound : shape.Sound) {id : FieldId} (bears : shape.Bears id role) {var : Var}
      {place : Place} (placed : shape.place var = .ok place) : place ≠ .field id := by
    rcases place_eq_ok.mp placed with ⟨slot, found, rfl⟩ | ⟨_, _, _, rfl⟩
    · intro same
      have := sound.slot_ne found bears (by rcases protocol with rfl | rfl <;> nofun)
      exact this (Place.field.inj same)
    · nofun
  rw [store_eq writable, store_eq writable']
  refine ⟨rfl, ⟨?_, ?_, ?_⟩, ?_⟩
  · rw [fuel_put, fuel_put, fuel]
  · rw [size_put]
    exact inside
  · exact level.setSlot exact exact' inside bears bears' stated fixed
  · intro stored member place place' placed placed'
    obtain ⟨held, found, found'⟩ := shares stored member place place' placed placed'
    refine ⟨held, ?_, ?_⟩
    · rw [content_put_of_ne value (other exact.toSound bears placed), found]
    · rw [content_put_of_ne value (other exact'.toSound bears' placed'), found']

/-- Both read a variable that is in scope. -/
theorem inStep_load {var : Var} {place place' : Place} (used : var.inScope scope)
    (placed : left.place var = .ok place) (placed' : right.place var = .ok place') :
    InStep (Lockstep left right own (.before scope)) (fun _ => Lockstep left right own (.before scope))
      (Stumbled left right own) ((ownFrame own).load place) ((ownFrame own).load place') := by
  rintro act act' ⟨abreast, shares⟩
  obtain ⟨value, held, held'⟩ : ∃ value, content own act place = some value ∧
      content own act' place' = some value := by
    cases var with
    | loc id => exact shares id (by simpa [Var.inScope] using used) place place' placed placed'
    | receiver | param =>
      rcases place_eq_ok.mp placed with ⟨slot, found, rfl⟩ | ⟨_, other, _⟩
      · rcases place_eq_ok.mp placed' with ⟨slot', found', rfl⟩ | ⟨_, other, _⟩
        · obtain ⟨value, held⟩ := Option.isSome_iff_exists.mp
            ((abreast.level.equipped abreast.inside).present (exact.slot found))
          exact ⟨value, held, (abreast.level.same (exact.slot found) (exact'.slot found')).trans held⟩
        · cases other
      · cases other
  have read : (ownFrame own).load place act = .ok value act :=
    gives_load (ownFrame_self own) held act.fuel
  have read' : (ownFrame own).load place' act' = .ok value act' :=
    gives_load (ownFrame_self own) held' act'.fuel
  rw [read, read']
  exact ⟨rfl, abreast, shares⟩

theorem effects_lockstep : Effects left right own (Lockstep left right own (.before scope))
    (Stumbled left right own) (·.inScope scope) (fun _ => True) where
  data data related := ⟨.inl data, related.1⟩
  load used placed placed' := inStep_load exact exact' used placed placed'
  store value _ _ placed placed' :=
    inStep_store exact exact' placed placed' (fun _ member => .inl member) value
  array items := by
    rintro ⟨locals, world⟩ ⟨locals', world'⟩ ⟨⟨fuel, inside, level⟩, shares⟩
    refine ⟨by rw [level.arrays], ⟨fuel, inside, ?_⟩, shares⟩
    exact ⟨level.thread, level.calls, congrArg (· + 1) level.arrays, level.size,
      fun inside => (level.equipped inside).of_slots fun _ => rfl,
      fun inside => (level.equipped' inside).of_slots fun _ => rfl, level.same⟩
  host callee args := by
    rintro ⟨locals, world⟩ ⟨locals', world'⟩ ⟨⟨fuel, inside, level⟩, shares⟩
    refine ⟨rfl, ⟨fuel, inside, ?_⟩, shares⟩
    exact ⟨level.thread, congrArg (·.push ⟨callee, args⟩) level.calls, level.arrays, level.size,
      fun inside => (level.equipped inside).of_slots fun _ => rfl,
      fun inside => (level.equipped' inside).of_slots fun _ => rfl, level.same⟩

/-- Code of the method keeps in lockstep, given that the cleanup routines it calls do. -/
theorem accord_lockstep {machine machine' : Machine} {marks : Landmarks} (method : Method)
    (cleanup : ∀ name name', marks.called name name' →
      InStep (Abreast left right own) (fun _ => Abreast left right own) (Stumbled left right own)
        (evalTerm machine (call machine) (ownFrame own) (.callSelf name))
        (evalTerm machine' (call machine') (ownFrame own) (.callSelf name'))) :
    Accord (Pairing.scoped method left right) marks machine machine' own (Lockstep left right own)
      (Stumbled left right own) where
  fuel {stage _ _} related := by
    cases stage with
    | before scope => exact related.1.fuel
    | leaving result => exact related.fuel
  spend {stage _ _} fuel related := by
    cases stage with
    | before scope =>
      refine ⟨related.1.withFuel fuel, fun id member place place' placed placed' => ?_⟩
      rw [content_withFuel, content_withFuel]
      exact related.2 id member place place' placed placed'
    | leaving result => exact related.withFuel fuel
  exhausted {stage _ _} related := by
    cases stage with
    | before scope => exact ⟨.inr rfl, related.1⟩
    | leaving result => exact ⟨.inr rfl, related⟩
  data data related := ⟨.inl data, related.1⟩
  narrow within related := ⟨related.1, related.2.mono within⟩
  term terms := by
    obtain ⟨e, allowed, lowered, lowered'⟩ := terms
    exact Lowering.inStep_term (effects_lockstep exact exact') e
      (fun var member => List.all_eq_true.mp allowed var member) (fun _ _ => trivial) lowered lowered'
  declare value placed placed' := by
    refine inStep_store exact exact' placed placed' (fun id member => ?_) value
    exact (List.mem_cons.mp member).symm.imp_right fun same => by rw [same]
  hand value _ := inStep_field exact exact' exact.current exact'.current (.inr rfl) nofun
  resume _ _ := inStep_field exact exact' exact.state exact'.state (.inl rfl) fun _ => ⟨_, rfl⟩
  cleanup called within kept act act' related := by
    refine (cleanup _ _ called act act' related.1).imp (fun _ _ _ abreast => ?_) fun _ _ _ failed => failed
    exact ⟨abreast, abreast.shares exact exact' kept⟩
  pause _ act act' related := by
    refine (inStep_field exact exact' exact.state exact'.state (.inl rfl) (fun _ => ⟨_, rfl⟩) act act'
      related).imp (fun _ _ _ after => after.1) fun _ _ _ failed => failed
  finish _ act act' related := by
    refine (inStep_field exact exact' exact.state exact'.state (.inl rfl) (fun _ => ⟨_, rfl⟩) act act'
      related).imp (fun _ _ _ after => after.1) fun _ _ _ failed => failed
  leave _ related := related.1

end

/-- A label does nothing. -/
theorem inStep_label {machine machine' : Machine} {own : Nat} {rel : Activation → Activation → Prop}
    {fault : EvalError → Activation → Activation → Prop} (label : Machine.Label) :
    InStep rel (fun outcome act act' => outcome = .next ∧ rel act act') fault
      (Machine.execInstr machine (call machine) (ownFrame own) (.label label))
      (Machine.execInstr machine' (call machine') (ownFrame own) (.label label)) :=
  .pure fun _ _ before => ⟨rfl, before⟩

section
variable {method : Method} {options options' : Options} {lowered lowered' : Lowered}
  (outline : Outline method options lowered) (outline' : Outline method options' lowered') {own : Nat}
  {harvest : Lowering.Harvest}
  (bodies : (Pairing.scoped outline.expanded outline.shape outline'.shape).Bodies outline.progress
    outline'.progress outline.code outline'.code harvest)
include bodies

theorem cleanup_lockstep {cleanup : (String × Lowering.FlatBody) × (String × Lowering.FlatBody)}
    (member : cleanup ∈ harvest.cleanups) :
    InStep (Abreast outline.shape outline'.shape own) (fun _ => Abreast outline.shape outline'.shape own)
      (Stumbled outline.shape outline'.shape own)
      (evalTerm lowered.machine (call lowered.machine) (ownFrame own) (.callSelf cleanup.1.1))
      (evalTerm lowered'.machine (call lowered'.machine) (ownFrame own) (.callSelf cleanup.2.1)) := by
  obtain ⟨marks, scope, after, grounds, plain, kept, twin⟩ := (bodies.routines cleanup member).grounds
  have accord : Accord (Pairing.scoped outline.expanded outline.shape outline'.shape) (.alone marks)
      lowered.machine lowered'.machine own (Lockstep outline.shape outline'.shape own)
      (Stumbled outline.shape outline'.shape own) :=
    accord_lockstep outline.exact outline'.exact outline.expanded nofun
  have named : lowered.machine.routineNamed? cleanup.1.1 =
      some (Lowering.cleanupRoutine options cleanup.1) := by
    refine outline.routine_cleanup ?_
    rw [bodies.cleanups_left]
    exact List.mem_map_of_mem member
  have named' : lowered'.machine.routineNamed? cleanup.2.1 =
      some (Lowering.cleanupRoutine options' cleanup.2) := by
    refine outline'.routine_cleanup ?_
    rw [bodies.cleanups_right]
    exact List.mem_map_of_mem member
  refine Lowering.inStep_callSelf named named' fun act act' abreast => ?_
  have entered : Abreast outline.shape outline'.shape own ⟨.empty, act.world⟩ ⟨.empty, act'.world⟩ :=
    ⟨abreast.fuel, abreast.inside, abreast.level⟩
  refine (accord.alongside grounds twin grounds.ends
    ⟨entered, entered.shares outline.exact outline'.exact kept⟩).imp ?_ ?_
  · exact fun _ _ _ left => ⟨left.fuel, left.inside, left.level⟩
  · exact fun _ _ _ failed => ⟨failed.1, failed.2.fuel, failed.2.inside, failed.2.level⟩

theorem accord_bodies :
    Accord (Pairing.scoped outline.expanded outline.shape outline'.shape) harvest.landmarks
      lowered.machine lowered'.machine own (Lockstep outline.shape outline'.shape own)
      (Stumbled outline.shape outline'.shape own) := by
  refine accord_lockstep outline.exact outline'.exact outline.expanded ?_
  rintro _ _ ⟨cleanup, member, rfl, rfl⟩
  exact cleanup_lockstep outline outline' bodies member

omit bodies in
/-- Both look up the state, and find the same. -/
theorem inStep_switch (cases : List (Int64 × Machine.Label)) (default : Machine.Label) :
    InStep (Abreast outline.shape outline'.shape own)
      (fun outcome act act' => (∃ state,
        outcome = .goto (Machine.caseTarget state cases default)) ∧
        Abreast outline.shape outline'.shape own act act')
      (Stumbled outline.shape outline'.shape own)
      (Machine.execInstr lowered.machine (call lowered.machine) (ownFrame own)
        (.switch (.field outline.shape.state) cases default))
      (Machine.execInstr lowered'.machine (call lowered'.machine) (ownFrame own)
        (.switch (.field outline'.shape.state) cases default)) := by
  intro act act' abreast
  obtain ⟨state, held⟩ := (abreast.level.equipped abreast.inside).state
  have held' := (abreast.level.same outline.built.state outline'.built.state).trans held
  have read : evalTerm lowered.machine (call lowered.machine) (ownFrame own)
      (.field outline.shape.state) act = .ok (.int state) act := gives_field held act.fuel
  have read' : evalTerm lowered'.machine (call lowered'.machine) (ownFrame own)
      (.field outline'.shape.state) act' = .ok (.int state) act' := gives_field held' act'.fuel
  simp only [Machine.execInstr]
  rw [bind_of_ok read, bind_of_ok read']
  exact ⟨rfl, ⟨state, rfl⟩, abreast⟩

/-- Points have the same states and resume at the same labels. -/
theorem table_eq : (lowered'.machine.points.map fun point => (point.state, point.resume)) =
    lowered.machine.points.map fun point => (point.state, point.resume) := by
  rw [outline.machinePoints_eq, outline'.machinePoints_eq, bodies.points_left, bodies.points_right,
    List.map_map, List.map_map]
  refine List.map_congr_left fun point member => ?_
  obtain ⟨state, resume, _⟩ := bodies.chained point member
  exact (Prod.ext state resume).symm

theorem grounds_bodies :
    Lowering.Grounds (Pairing.scoped outline.expanded outline.shape outline'.shape) harvest.landmarks
      outline.body outline'.body [] := by
  refine bodies.grounds ?_ (Lowering.entry outline.shape lowered.machine.points)
    (Lowering.entry outline'.shape lowered'.machine.points)
  have once := outline.once
  rw [Outline.body, Lowering.resumable, Machine.Code.labels_append] at once
  exact (List.nodup_append.mp once).2.1

/-- Both bodies go on where the state says, and keep in lockstep. -/
theorem body_lockstep {act act' : Activation} (abreast : Abreast outline.shape outline'.shape own act act') :
    Alongside (fun _ => Abreast outline.shape outline'.shape own) (Stumbled outline.shape outline'.shape own)
      (run lowered.machine outline.body (ownFrame own) outline.body act)
      (run lowered'.machine outline'.body (ownFrame own) outline'.body act') := by
  have accord : Accord (Pairing.scoped outline.expanded outline.shape outline'.shape) harvest.landmarks
      lowered.machine lowered'.machine own (Lockstep outline.shape outline'.shape own)
      (Stumbled outline.shape outline'.shape own) := accord_bodies outline outline' bodies
  have grounds := grounds_bodies outline outline' bodies
  have entered : Lockstep outline.shape outline'.shape own (.leaving none) act act' := abreast
  have table := table_eq outline outline' bodies
  refine accord.step entered fun s s' before => ?_
  rw [table]
  refine (inStep_switch outline outline' _ _ s s' before).imp ?_ fun _ _ _ failed => failed
  rintro _ next next' ⟨⟨state, rfl⟩, abreast⟩ _
  -- Either nothing is left to do, or a label of the body is reached.
  have target : Machine.caseTarget state ((State.fresh, Lowering.startLabel) ::
      lowered.machine.points.map fun point => (point.state, point.resume)) Lowering.failLabel =
        Lowering.failLabel ∨ ∃ mark, harvest.landmarks.placed mark ∧ mark.resumes ∧
      Machine.caseTarget state ((State.fresh, Lowering.startLabel) ::
        lowered.machine.points.map fun point => (point.state, point.resume)) Lowering.failLabel =
          mark.label := by
    rcases Machine.caseTarget_mem state ((State.fresh, Lowering.startLabel) ::
      lowered.machine.points.map fun point => (point.state, point.resume)) Lowering.failLabel with
      same | ⟨arm, member, same⟩
    · exact .inl same
    · refine .inr ?_
      rw [same]
      rcases List.mem_cons.mp member with rfl | listed
      · exact ⟨⟨Lowering.startLabel, [], true⟩, List.mem_cons_self, rfl, rfl⟩
      · rw [outline.machinePoints_eq, bodies.points_left, List.map_map] at listed
        obtain ⟨point, among, rfl⟩ := List.mem_map.mp listed
        obtain ⟨scope, placed⟩ := bodies.resumed point among
        exact ⟨⟨point.1.resume, scope, true⟩, List.mem_cons_of_mem _ placed, rfl, rfl⟩
  rcases target with same | ⟨mark, placed, resumes, same⟩
  · have leads {method : Method} {options : Options} {lowered : Lowered}
        (outline : Outline method options lowered) : Machine.Code.from? Lowering.failLabel outline.body =
          some (.label Lowering.failLabel :: .ret (some (.bool false)) ::
            Lowering.started outline.shape outline.code) :=
      Machine.Code.from?_of_suffix outline.once (List.suffix_cons _ _)
    simp only [Machine.followBy, same, leads outline, leads outline']
    have leaving : Lockstep outline.shape outline'.shape own (.leaving (some (.bool false))) next next' :=
      abreast
    exact accord.goOn leaving (inStep_label _) fun _ _ _ after => accord.returns after
  · obtain ⟨mark', code, code', placed', sameLabel, kept, found, found', twin⟩ := grounds.lands placed
    obtain rfl := grounds.unique placed' placed sameLabel
    simp only [Machine.followBy, same, found, found']
    have ends := grounds.ends.of_suffix (Machine.Code.suffix_of_from? found)
      (by simp [Lowering.Mark.opening])
    exact accord.alongside grounds (.mark placed (List.Subset.refl _) kept twin) ends
      ⟨abreast, abreast.shares outline.exact outline'.exact (kept resumes)⟩

/-- The end of disposal. -/
theorem closing_lockstep {body body' : Code} {act act' : Activation}
    (abreast : Abreast outline.shape outline'.shape own act act') :
    Alongside (fun _ => Abreast outline.shape outline'.shape own) (Stumbled outline.shape outline'.shape own)
      (run lowered.machine body (ownFrame own) (closing outline.shape) act)
      (run lowered'.machine body' (ownFrame own) (closing outline'.shape) act') := by
  have accord : Accord (Pairing.scoped outline.expanded outline.shape outline'.shape) harvest.landmarks
      lowered.machine lowered'.machine own (Lockstep outline.shape outline'.shape own)
      (Stumbled outline.shape outline'.shape own) := accord_bodies outline outline' bodies
  have entered : Lockstep outline.shape outline'.shape own (.before []) act act' := ⟨abreast, nofun⟩
  refine accord.goOn entered (inStep_label _) fun _ _ _ before => ?_
  refine accord.setsState before (accord.finish trivial) fun _ _ _ finished => ?_
  refine accord.goOn finished (inStep_label _) fun _ _ _ finished => ?_
  have left : Lockstep outline.shape outline'.shape own (.leaving none) _ _ := finished
  exact accord.step left fun _ _ before => ⟨rfl, fun _ => ⟨rfl, before⟩⟩

/-- Cleanup routines one after another, and then the end of disposal. -/
theorem chain_lockstep {body body' rest rest' : Code} {chain chain' : List String}
    (both : List.Forall₂ harvest.landmarks.called chain chain')
    (leads : body.from? Lowering.finishLabel = some (closing outline.shape))
    (leads' : body'.from? Lowering.finishLabel = some (closing outline'.shape)) {act act' : Activation}
    (abreast : Abreast outline.shape outline'.shape own act act') :
    Alongside (fun _ => Abreast outline.shape outline'.shape own) (Stumbled outline.shape outline'.shape own)
      (run lowered.machine body (ownFrame own)
        (chain.map Lowering.callCleanup ++ .goto Lowering.finishLabel :: rest) act)
      (run lowered'.machine body' (ownFrame own)
        (chain'.map Lowering.callCleanup ++ .goto Lowering.finishLabel :: rest') act') := by
  have accord : Accord (Pairing.scoped outline.expanded outline.shape outline'.shape) harvest.landmarks
      lowered.machine lowered'.machine own (Lockstep outline.shape outline'.shape own)
      (Stumbled outline.shape outline'.shape own) := accord_bodies outline outline' bodies
  have entered {act act' : Activation} (abreast : Abreast outline.shape outline'.shape own act act') :
      Lockstep outline.shape outline'.shape own (.before []) act act' := ⟨abreast, nofun⟩
  induction both generalizing act act' with
  | nil =>
    refine accord.step (entered abreast) fun s s' before => ⟨rfl, fun _ => ?_⟩
    simp only [Machine.followBy, leads, leads']
    exact closing_lockstep outline outline' bodies before.1
  | cons called _ ih =>
    refine accord.goOn (entered abreast) ?_
      fun next next' _ (before : Lockstep outline.shape outline'.shape own (.before []) next next') =>
        ih before.1
    exact (accord.cleanup called (List.nil_subset []) (by simp)).bind fun _ =>
      .pure fun _ _ before => ⟨rfl, before⟩

/-- Both disposal routines do the same. -/
theorem disposal_lockstep {act act' : Activation}
    (abreast : Abreast outline.shape outline'.shape own act act') :
    Alongside (fun _ => Abreast outline.shape outline'.shape own) (Stumbled outline.shape outline'.shape own)
      (run lowered.machine (Lowering.disposeCode outline.shape lowered.machine.points) (ownFrame own)
        (Lowering.disposeCode outline.shape lowered.machine.points) act)
      (run lowered'.machine (Lowering.disposeCode outline'.shape lowered'.machine.points) (ownFrame own)
        (Lowering.disposeCode outline'.shape lowered'.machine.points) act') := by
  have accord : Accord (Pairing.scoped outline.expanded outline.shape outline'.shape) harvest.landmarks
      lowered.machine lowered'.machine own (Lockstep outline.shape outline'.shape own)
      (Stumbled outline.shape outline'.shape own) := accord_bodies outline outline' bodies
  have entered : Lockstep outline.shape outline'.shape own (.leaving none) act act' := abreast
  have paired := Lowering.disposeTable_paired
    (fun point member => ⟨(bodies.chained point member).1, (bodies.chained point member).2.2⟩) 2
  rw [← bodies.points_left, ← bodies.points_right, ← outline.machinePoints_eq,
    ← outline'.machinePoints_eq] at paired
  obtain ⟨table, chains⟩ := paired
  have leads := placed_closing outline
  have leads' := placed_closing outline'
  refine accord.step entered fun s s' before => ?_
  rw [table]
  refine (inStep_switch outline outline' _ _ s s' before).imp ?_ fun _ _ _ failed => failed
  rintro _ next next' ⟨⟨state, rfl⟩, abreast⟩ _
  have leaving : Lockstep outline.shape outline'.shape own (.leaving none) next next' := abreast
  rcases Machine.caseTarget_mem state ((State.fresh, Lowering.finishLabel) ::
    Lowering.disposeTable 2 lowered.machine.points) Lowering.doneLabel with same | ⟨arm, member, same⟩
  · have done {shape : Shape} (points : List Point) : Machine.Code.from? Lowering.doneLabel
        (Lowering.disposeCode shape points) = some [.label Lowering.doneLabel, .ret none] :=
      Machine.Code.from?_of_suffix (Lowering.once_disposeCode _ _)
        ((List.suffix_append_of_suffix (List.suffix_append [_, _] _)).trans (List.suffix_cons _ _))
    simp only [Machine.followBy, same, done]
    refine accord.goOn leaving (inStep_label _) fun _ _ _ left => ?_
    exact accord.step left fun _ _ before => ⟨rfl, fun _ => ⟨rfl, before⟩⟩
  · rcases List.mem_cons.mp member with rfl | listed
    · simp only [Machine.followBy, same, leads, leads']
      exact closing_lockstep outline outline' bodies abreast
    · rcases chains arm listed with finish | ⟨chain, chain', rest, rest', both, placed, placed'⟩
      · simp only [Machine.followBy, same, finish, leads, leads']
        exact closing_lockstep outline outline' bodies abreast
      · have found (shape : Shape) {points : List Point} {rest : Code} {chain : List String}
            (placed : .label arm.2 :: (chain.map Lowering.callCleanup ++ .goto Lowering.finishLabel :: rest) <:+
              Lowering.disposeChains 2 points) : ∃ rest', Machine.Code.from? arm.2
            (Lowering.disposeCode shape points) = some (.label arm.2 ::
              (chain.map Lowering.callCleanup ++ .goto Lowering.finishLabel :: rest')) := by
          obtain ⟨before, chained⟩ := placed
          refine ⟨rest ++ closing shape, Machine.Code.from?_of_suffix (Lowering.once_disposeCode _ _) ?_⟩
          refine List.IsSuffix.trans ⟨before, ?_⟩ (List.suffix_cons _ _)
          rw [← chained]
          simp [closing]
        obtain ⟨follow, here⟩ := found outline.shape placed
        obtain ⟨follow', here'⟩ := found outline'.shape placed'
        simp only [Machine.followBy, same, here, here']
        refine accord.goOn leaving (inStep_label _) fun _ _ _ before => ?_
        exact chain_lockstep outline outline' bodies both leads leads' before

end

end Simulation
end Resumable
