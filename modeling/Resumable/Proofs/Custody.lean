import Resumable.Proofs.Accord
import Resumable.Proofs.Disposal

/-!
What an instance may touch. While code of the method runs, only the executing instance changes,
its state stays as it is until the body suspends or ends, and the fields that keep its inputs
are never written.
-/

namespace Resumable

section
variable {ε σ α : Type}

/-- What holds wherever a computation stops. -/
def Stops (post : α → σ → Prop) (fault : ε → σ → Prop) : EStateM.Result ε σ α → Prop
  | .ok a s => post a s
  | .error e s => fault e s

theorem Stops.imp {post post' : α → σ → Prop} {fault fault' : ε → σ → Prop}
    {result : EStateM.Result ε σ α} (stops : Stops post fault result)
    (returned : ∀ a s, post a s → post' a s) (failed : ∀ e s, fault e s → fault' e s) :
    Stops post' fault' result := by
  cases result with
  | ok a s => exact returned a s stops
  | error e s => exact failed e s stops

/-- A computation keeps step with itself. -/
theorem InStep.self {pre : σ → Prop} {post : α → σ → Prop} {fault : ε → σ → Prop} {x : EStateM ε σ α}
    (stops : ∀ s, pre s → Stops post fault (x s)) :
    InStep (fun s s' => s = s' ∧ pre s) (fun a s s' => s = s' ∧ post a s) (fun e s s' => s = s' ∧ fault e s)
      x x := by
  rintro s _ ⟨rfl, holds⟩
  have stopped := stops s holds
  cases done : x s with
  | ok a t => exact ⟨rfl, rfl, by rwa [done] at stopped⟩
  | error e t => exact ⟨rfl, rfl, by rwa [done] at stopped⟩

theorem Alongside.self {post : α → σ → Prop} {fault : ε → σ → Prop} {result : EStateM.Result ε σ α}
    (along : Alongside (fun a s s' => s = s' ∧ post a s) (fun e s s' => s = s' ∧ fault e s) result result) :
    Stops post fault result := by
  cases result with
  | ok a s => exact along.2.2
  | error e s => exact along.2.2

end

namespace Machine

/-- What all ends of a run have in common, they have whenever the fuel lasts. -/
theorem Reaches.stops {machine : Machine} {body code code' : Code} {frame : Frame}
    {act act' : Activation} {post : Option Value → Activation → Prop} {fault : EvalError → Activation → Prop}
    (reaches : Reaches machine body frame code act code' act')
    (lasts : ¬ IsExhausted (run machine body frame code act))
    (stops : ∀ fuel, ¬ IsExhausted (run machine body frame code' (act'.withFuel fuel)) →
      Stops post fault (run machine body frame code' (act'.withFuel fuel)))
    (blind : ∀ result act fuel, post result (act.withFuel fuel) → post result act)
    (blind' : ∀ e act fuel, fault e (act.withFuel fuel) → fault e act) :
    Stops post fault (run machine body frame code act) := by
  obtain ⟨cost, reaches⟩ := reaches
  have more := (frugal_run machine act.fuel body frame code).more cost (Nat.le_refl _) lasts
  have there : run machine body frame code (act.grow cost) =
      run machine body frame code' (act'.withFuel act.fuel) := reaches act.fuel
  have stopped := stops act.fuel
  rw [← there, more, isExhausted_mapState] at stopped
  have stopped := stopped lasts
  cases done : run machine body frame code act with
  | ok result final =>
    rw [done] at stopped
    exact blind result final _ stopped
  | error e final =>
    rw [done] at stopped
    exact blind' e final _ stopped

end Machine

/-- The variables that the body assigns. -/
abbrev Lowering.Outline.assigned {method : Method} {options : Options} {lowered : Lowered}
    (outline : Outline method options lowered) : List Var := outline.expanded.body.assignedVars

namespace Simulation
open Lowering (Accord Landmarks Outline Pairing Shape Stage)
open Machine (Activation Code Exec FieldId Frame Place Point Role Step World call evalTerm run)

/-- Whether code of the method may write the fields of a role when it assigns these variables. -/
def IsMutable (assigned : List Var) : Role → Prop
  | .state | .current | .hoisted (.loc _) => True
  | .hoisted var => var ∈ assigned
  | .initialThread | .proxy _ => False

/-- Between two worlds, one instance went on by itself. -/
structure Confined (shape : Shape) (assigned : List Var) (own : Nat) (world world' : World) : Prop where
  size : world'.instances.size = world.instances.size
  thread : world'.thread = world.thread
  arrays : world.arrays ≤ world'.arrays
  others {object : Nat} (id : FieldId) : object ≠ own → world'.slot? object id = world.slot? object id
  kept {id : FieldId} {role : Role} : shape.Bears id role → ¬ IsMutable assigned role →
    world'.slot? own id = world.slot? own id
  present {id : FieldId} : (world.slot? own id).isSome → (world'.slot? own id).isSome

namespace Confined
variable {shape : Shape} {assigned : List Var} {own : Nat} {world world' world'' : World}

theorem trans (first : Confined shape assigned own world world')
    (second : Confined shape assigned own world' world'') : Confined shape assigned own world world'' where
  size := second.size.trans first.size
  thread := second.thread.trans first.thread
  arrays := Nat.le_trans first.arrays second.arrays
  others id ne := (second.others id ne).trans (first.others id ne)
  kept bears fixed := (second.kept bears fixed).trans (first.kept bears fixed)
  present present := second.present (first.present present)

/-- A store into a field that code may write. -/
theorem setSlot (sound : shape.Sound) {id : FieldId} {role : Role} (bears : shape.Bears id role)
    (writable : IsMutable assigned role) (value : Value) :
    Confined shape assigned own world (world.setSlot own id value) where
  size := by simp
  thread := by simp
  arrays := by simp
  others id' ne := World.slot?_setSlot_of_ne value (.inl ne)
  kept {id' role'} bears' fixed := by
    refine World.slot?_setSlot_of_ne value (.inr ?_)
    rintro rfl
    exact fixed (sound.role_eq bears bears' ▸ writable)
  present present := (World.isSome_slot?_setSlot value).mpr (.inl present)

theorem withFuel (fuel : Nat) : Confined shape assigned own world (world.withFuel fuel) where
  size := rfl
  thread := rfl
  arrays := Nat.le_refl _
  others _ _ := rfl
  kept _ _ := rfl
  present := id

end Confined

/-- The world of an instance in a state, as far as code of the method has brought it. -/
structure InCustody (shape : Shape) (assigned : List Var) (own : Nat) (state : Int64) (base world : World) :
    Prop extends Confined shape assigned own base world where
  state : world.slot? own shape.state = some (.int state)

/-- How an instance that was in a state leaves code of the method with a result. -/
def Settles (shape : Shape) (marks : Landmarks) (own : Nat) (state : Int64) (world : World) :
    Option Value → Prop
  | none => ¬ marks.resumable ∧ world.slot? own shape.state = some (.int state)
  | some (.bool true) => ∃ state label, marks.paused state label ∧
      world.slot? own shape.state = some (.int state)
  | some (.bool false) => marks.resumable ∧ world.slot? own shape.state = some (.int State.finished)
  | some _ => False

section
variable (shape : Shape) (marks : Landmarks) (assigned : List Var) (own : Nat) (state : Int64) (base : World)

/-- The custody of an instance along a run. -/
def Custody : Stage → Activation → Prop
  | .before _, act => InCustody shape assigned own state base act.world
  | .leaving result, act =>
    Confined shape assigned own base act.world ∧ Settles shape marks own state act.world result

/-- A failure other than a lack of fuel leaves the state as it was. -/
def CustodyLost (e : EvalError) (act : Activation) : Prop :=
  Confined shape assigned own base act.world ∧
    (e ≠ .outOfFuel → act.world.slot? own shape.state = some (.int state))

end

section
variable {shape : Shape} {marks : Landmarks} {assigned : List Var} {own : Nat} {state : Int64} {base : World}
variable {act : Activation}

theorem InCustody.lost {e : EvalError} (custody : InCustody shape assigned own state base act.world) :
    CustodyLost shape assigned own state base e act :=
  ⟨custody.toConfined, fun _ => custody.state⟩

theorem store_field (value : Value) (id : FieldId) :
    (ownFrame own).store value (.field id) act =
      if (act.world.slot? own id).isSome then .ok () ⟨act.locals, act.world.setSlot own id value⟩
      else .error (.malformed (.noField id)) act := by
  obtain ⟨locals, world⟩ := act
  simp only [Frame.store, Step.inWorld, ownFrame_self, Exec.writeField_object]
  by_cases present : (world.slot? own id).isSome
  · simp only [if_pos present]
  · simp only [if_neg present]

theorem load_stops {var : Var} {place : Place} (placed : shape.place var = .ok place)
    (custody : InCustody shape assigned own state base act.world) :
    Stops (fun _ act => InCustody shape assigned own state base act.world)
      (CustodyLost shape assigned own state base) ((ownFrame own).load place act) := by
  obtain ⟨locals, world⟩ := act
  rcases place_eq_ok.mp placed with ⟨id, _, rfl⟩ | ⟨id, _, _, rfl⟩
  · simp only [Frame.load, Step.inWorld, ownFrame_self, Exec.readField_object]
    cases world.slot? own id with
    | none => exact custody.lost
    | some value => exact custody
  · simp only [Frame.load, Step.readLocal]
    cases locals.get? id with
    | none => exact custody.lost
    | some value => exact custody

/-- A store into another field than the state. -/
theorem store_stops (sound : shape.Sound) {id : FieldId} {role : Role} (bears : shape.Bears id role)
    (writable : IsMutable assigned role) (other : role ≠ .state) (value : Value)
    (custody : InCustody shape assigned own state base act.world) :
    Stops (fun _ act => InCustody shape assigned own state base act.world)
      (CustodyLost shape assigned own state base) ((ownFrame own).store value (.field id) act) := by
  have apart : shape.state ≠ id := by
    rintro rfl
    exact other (sound.role_eq bears sound.state)
  rw [store_field]
  split
  · refine ⟨custody.trans (.setSlot sound bears writable value), ?_⟩
    exact (World.slot?_setSlot_of_ne value (.inr apart)).trans custody.state
  · exact custody.lost

theorem store_var_stops (sound : shape.Sound) {var : Var} {place : Place} (placed : shape.place var = .ok place)
    (writable : IsMutable assigned (.hoisted var)) (value : Value)
    (custody : InCustody shape assigned own state base act.world) :
    Stops (fun _ act => InCustody shape assigned own state base act.world)
      (CustodyLost shape assigned own state base) ((ownFrame own).store value place act) := by
  rcases place_eq_ok.mp placed with ⟨id, slot, rfl⟩ | ⟨id, _, _, rfl⟩
  · exact store_stops sound (sound.slot slot) writable (by simp) value custody
  · exact custody

/-- A store into the state. -/
theorem store_state_stops (sound : shape.Sound) {post : Activation → Prop} (next : Int64)
    (custody : InCustody shape assigned own state base act.world)
    (stored : ∀ act', Confined shape assigned own base act'.world →
      act'.world.slot? own shape.state = some (.int next) → post act') :
    Stops (fun _ => post) (CustodyLost shape assigned own state base)
      ((ownFrame own).store (.int next) (.field shape.state) act) := by
  have present : (act.world.slot? own shape.state).isSome := by simp [custody.state]
  rw [store_field, if_pos present]
  exact stored _ (custody.trans (.setSlot sound sound.state trivial _))
    (World.slot?_setSlot_self _ present)

theorem Custody.withFuel {stage : Stage} (custody : Custody shape marks assigned own state base stage act)
    (fuel : Nat) : Custody shape marks assigned own state base stage (act.withFuel fuel) := by
  cases stage with
  | before scope => exact ⟨custody.trans (.withFuel fuel), custody.state⟩
  | leaving result => exact ⟨custody.1.trans (.withFuel fuel), by cases result <;> exact custody.2⟩

theorem effects_custody (sound : shape.Sound) : Lowering.Effects shape shape own
    (fun act act' => act = act' ∧ InCustody shape assigned own state base act.world)
    (fun e act act' => act = act' ∧ CustodyLost shape assigned own state base e act) (fun _ => True)
    (· ∈ assigned) where
  data _ related := ⟨related.1, related.2.lost⟩
  load _ placed placed' := by
    obtain rfl := Except.ok.inj (placed.symm.trans placed')
    exact .self fun _ custody => load_stops placed custody
  store {var} _ _ value _ assigns placed placed' := by
    obtain rfl := Except.ok.inj (placed.symm.trans placed')
    refine .self fun _ custody => store_var_stops sound placed ?_ value custody
    cases var with
    | loc id => trivial
    | receiver => exact assigns
    | param index => exact assigns
  array items := .self fun act custody =>
    ⟨⟨custody.size, custody.thread, Nat.le_succ_of_le custody.arrays, custody.others, custody.kept,
      custody.present⟩, custody.state⟩
  host callee args := .self fun act custody =>
    ⟨⟨custody.size, custody.thread, custody.arrays, custody.others, custody.kept, custody.present⟩,
      custody.state⟩

/-- Code of the method keeps custody, given that the cleanup routines it calls do. -/
theorem accord_custody {machine : Machine} (sound : shape.Sound) (method : Method)
    (running : ∀ mark, marks.placed mark → mark.resumes → state = State.running)
    (cleanup : ∀ name name', marks.called name name' → name = name' ∧ ∀ act,
      InCustody shape method.body.assignedVars own state base act.world →
      Stops (fun _ act => InCustody shape method.body.assignedVars own state base act.world)
        (CustodyLost shape method.body.assignedVars own state base)
        (evalTerm machine (call machine) (ownFrame own) (.callSelf name) act)) :
    Accord (Pairing.alone method shape) marks machine machine own
      (fun stage act act' => act = act' ∧
        Custody shape marks method.body.assignedVars own state base stage act)
      (fun e act act' => act = act' ∧ CustodyLost shape method.body.assignedVars own state base e act) where
  fuel related := congrArg Activation.fuel related.1
  spend fuel related := by
    obtain ⟨rfl, custody⟩ := related
    exact ⟨rfl, custody.withFuel fuel⟩
  exhausted {stage _ _} related := by
    refine ⟨related.1, ?_, fun other => absurd rfl other⟩
    cases stage with
    | before scope => exact related.2.toConfined
    | leaving result => exact related.2.1
  data _ related := ⟨related.1, related.2.lost⟩
  narrow _ related := related
  term terms := by
    obtain ⟨e, allowed, lowered, lowered'⟩ := terms
    exact Lowering.inStep_term (effects_custody sound) e (fun _ _ => trivial)
      (fun var target => allowed target) lowered lowered'
  declare value placed placed' := by
    obtain rfl := Except.ok.inj (placed.symm.trans placed')
    exact .self fun _ custody => store_var_stops sound placed trivial value custody
  hand value _ := .self fun _ custody => store_stops sound sound.current trivial (by simp) value custody
  resume placed resumes := by
    obtain rfl := running _ placed resumes
    exact .self fun _ custody => store_state_stops sound _ custody fun _ confined held => ⟨confined, held⟩
  cleanup called _ _ := by
    obtain ⟨rfl, stops⟩ := cleanup _ _ called
    exact .self stops
  pause {_ state' label} paused :=
    .self fun _ custody => store_state_stops sound _ custody fun _ confined held =>
      ⟨confined, state', label, paused, held⟩
  finish known :=
    .self fun _ custody => store_state_stops sound _ custody fun _ confined held => ⟨confined, known, held⟩
  leave known related := ⟨related.1, related.2.toConfined, known, related.2.state⟩

end

theorem Settles.of_routine {shape : Shape} {marks : List Lowering.Mark} {own : Nat} {state : Int64} {world : World}
    {result : Option Value} (settles : Settles shape (.alone marks) own state world result) :
    world.slot? own shape.state = some (.int state) := by
  rcases result with _ | ⟨_ | ⟨_ | _⟩ | _ | _ | _ | _⟩
  · exact settles.2
  · exact settles.elim
  · exact settles.1.elim
  · obtain ⟨_, _, paused, _⟩ := settles
    exact paused.elim
  all_goals exact settles.elim

section
variable {method : Method} {options : Options} {lowered : Lowered}
  (outline : Outline method options lowered) {own : Nat}

/-- A cleanup routine keeps custody in whatever state it is called. -/
theorem cleanup_stops {cleanup : String × Lowering.FlatBody} (member : cleanup ∈ outline.progress.cleanups)
    {state : Int64} {base : World} {act : Activation}
    (custody : InCustody outline.shape outline.assigned own state base act.world) :
    Stops (fun _ act => InCustody outline.shape outline.assigned own state base act.world)
      (CustodyLost outline.shape outline.assigned own state base)
      (evalTerm lowered.machine (call lowered.machine) (ownFrame own) (.callSelf cleanup.1) act) := by
  obtain ⟨harvest, bodies⟩ := outline.bodies_alone
  have listed := member
  rw [bodies.cleanups_left] at listed
  obtain ⟨both, among, rfl⟩ := List.mem_map.mp listed
  have same : both.1 = both.2 :=
    List.map_inj_left.mp (bodies.cleanups_left.symm.trans bodies.cleanups_right) both among
  have routines := bodies.routines both among
  rw [← same] at routines
  obtain ⟨marks, scope, after, grounds, plain, _, twin⟩ := routines.grounds
  have accord : Accord (Pairing.alone outline.expanded outline.shape) (.alone marks) lowered.machine
      lowered.machine own
      (fun stage act act' => act = act' ∧
        Custody outline.shape (.alone marks) outline.assigned own state base stage act)
      (fun e act act' => act = act' ∧ CustodyLost outline.shape outline.assigned own state base e act) :=
    accord_custody outline.built.toSound outline.expanded
      (fun mark placed resumes => by simp [plain mark placed] at resumes) nofun
  have named := outline.routine_cleanup member
  have steps : InStep
      (fun act act' => act = act' ∧ InCustody outline.shape outline.assigned own state base act.world)
      (fun _ act act' => act = act' ∧ InCustody outline.shape outline.assigned own state base act.world)
      (fun e act act' => act = act' ∧ CustodyLost outline.shape outline.assigned own state base e act)
      (evalTerm lowered.machine (call lowered.machine) (ownFrame own) (.callSelf both.1.1))
      (evalTerm lowered.machine (call lowered.machine) (ownFrame own) (.callSelf both.1.1)) := by
    refine Lowering.inStep_callSelf named named ?_
    rintro act _ ⟨rfl, custody⟩
    have entered : Custody outline.shape (.alone marks) outline.assigned own state base (.before scope)
        ⟨.empty, act.world⟩ := custody
    refine (accord.alongside grounds twin grounds.ends ⟨rfl, entered⟩).imp ?_ ?_
    · rintro result b _ ⟨rfl, confined, settles⟩
      exact ⟨rfl, confined, settles.of_routine⟩
    · rintro e b _ ⟨rfl, lost⟩
      exact ⟨rfl, lost⟩
  exact (steps act act ⟨rfl, custody⟩).self

/-- The resumable body keeps custody while it is running. -/
theorem accord_body {harvest : Lowering.Harvest} {base : World}
    (bodies : (Pairing.alone outline.expanded outline.shape).Bodies outline.progress outline.progress
      outline.code outline.code harvest) :
    Accord (Pairing.alone outline.expanded outline.shape) harvest.landmarks lowered.machine
      lowered.machine own
      (fun stage act act' => act = act' ∧
        Custody outline.shape harvest.landmarks outline.assigned own State.running base stage act)
      (fun e act act' => act = act' ∧
        CustodyLost outline.shape outline.assigned own State.running base e act) := by
  refine accord_custody outline.built.toSound outline.expanded (fun _ _ _ => rfl) ?_
  rintro _ _ ⟨both, among, rfl, rfl⟩
  have same : both.1 = both.2 :=
    List.map_inj_left.mp (bodies.cleanups_left.symm.trans bodies.cleanups_right) both among
  refine ⟨by rw [same], fun act custody => cleanup_stops outline ?_ custody⟩
  rw [bodies.cleanups_left]
  exact List.mem_map_of_mem among

/-- The state of an instance that can be advanced. -/
def Active (points : List Point) (state : Int64) : Prop :=
  state = State.fresh ∨ ∃ point ∈ points, point.state = state

/-- An instance that can be advanced goes on behind a label of its body. -/
theorem reaches_active (few : lowered.machine.points.length < 2 ^ 63) {state : Int64}
    (active : Active lowered.machine.points state) {world : World}
    (held : world.slot? own outline.shape.state = some (.int state)) {harvest : Lowering.Harvest}
    (bodies : (Pairing.alone outline.expanded outline.shape).Bodies outline.progress outline.progress
      outline.code outline.code harvest)
    (grounds : Lowering.Grounds (Pairing.alone outline.expanded outline.shape) harvest.landmarks
      outline.body outline.body []) : ∃ scope code code',
    Lowering.Twin (Pairing.alone outline.expanded outline.shape) harvest.landmarks scope code code' [] ∧
    code = code' ∧ code.Ends ∧
    Machine.Reaches lowered.machine outline.body (ownFrame own) outline.body ⟨.empty, world⟩ code
      (put own ⟨.empty, world⟩ (.int State.running) (.field outline.shape.state)) := by
  obtain ⟨mark, placed, resumes, target⟩ : ∃ mark, harvest.landmarks.placed mark ∧ mark.resumes ∧
      Machine.caseTarget state ((State.fresh, Lowering.startLabel) ::
        lowered.machine.points.map fun p => (p.state, p.resume)) Lowering.failLabel = mark.label := by
    rcases active with rfl | ⟨point, member, rfl⟩
    · exact ⟨⟨Lowering.startLabel, [], true⟩, List.mem_cons_self, rfl, rfl⟩
    · rw [Lowering.caseTarget_point outline.numbered few member]
      rw [outline.machinePoints_eq, bodies.points_left] at member
      obtain ⟨both, among, rfl⟩ := List.mem_map.mp member
      obtain ⟨scope, placed⟩ := bodies.resumed both among
      exact ⟨⟨both.1.resume, scope, true⟩, List.mem_cons_of_mem _ placed, rfl, rfl⟩
  obtain ⟨mark', code, code', placed', same, _, found, found', twin⟩ := grounds.lands placed
  obtain rfl := grounds.unique placed' placed same
  have opening : mark'.opening outline.shape =
      [.label mark'.label, outline.shape.setState State.running] := by
    simp [Lowering.Mark.opening, resumes]
  have ends := grounds.ends.of_suffix (Machine.Code.suffix_of_from? found)
    (by simp [Lowering.Mark.opening])
  have equal := Option.some.inj (found.symm.trans found')
  rw [← target] at found
  have present : Writable own ⟨.empty, world⟩ (.field outline.shape.state) := by simp [Writable, held]
  refine ⟨_, code, code', twin, List.append_cancel_left equal, ?_, (reaches_entry outline held found).trans ?_⟩
  · rw [show (Pairing.alone outline.expanded outline.shape).left = outline.shape from rfl, opening] at ends
    exact (ends.tail rfl).tail rfl
  · rw [show (Pairing.alone outline.expanded outline.shape).left = outline.shape from rfl, opening]
    exact (Machine.Reaches.label _).trans (reaches_setState present)

/-- An active instance that is advanced suspends, ends or fails. -/
theorem body_stops (few : lowered.machine.points.length < 2 ^ 63) {state : Int64} {world : World}
    (active : Active lowered.machine.points state)
    (held : world.slot? own outline.shape.state = some (.int state))
    (lasts : ¬ IsExhausted (run lowered.machine outline.body (ownFrame own) outline.body ⟨.empty, world⟩)) :
    Stops (fun result act => Confined outline.shape outline.assigned own world act.world ∧
        ((result = some (.bool true) ∧ ∃ point ∈ lowered.machine.points,
            act.world.slot? own outline.shape.state = some (.int point.state)) ∨
          (result = some (.bool false) ∧
            act.world.slot? own outline.shape.state = some (.int State.finished))))
      (CustodyLost outline.shape outline.assigned own State.running world)
      (run lowered.machine outline.body (ownFrame own) outline.body ⟨.empty, world⟩) := by
  obtain ⟨harvest, bodies⟩ := outline.bodies_alone
  have grounds : Lowering.Grounds (Pairing.alone outline.expanded outline.shape) harvest.landmarks
      outline.body outline.body [] := by
    refine bodies.grounds ?_ (Lowering.entry outline.shape lowered.machine.points)
      (Lowering.entry outline.shape lowered.machine.points)
    have once := outline.once
    rw [Outline.body, Lowering.resumable, Machine.Code.labels_append] at once
    exact (List.nodup_append.mp once).2.1
  obtain ⟨scope, code, _, twin, rfl, ends, reaches⟩ :=
    reaches_active outline few active held bodies grounds
  refine reaches.stops lasts (fun fuel _ => ?_)
    (fun _ act _ holds => ⟨holds.1.trans (.withFuel act.fuel), holds.2⟩)
    fun _ act _ lost => ⟨lost.1.trans (.withFuel act.fuel), lost.2⟩
  have present : (world.slot? own outline.shape.state).isSome := by simp [held]
  have entered : Custody outline.shape harvest.landmarks outline.assigned own State.running world
      (.before scope)
      ((put own ⟨.empty, world⟩ (.int State.running) (.field outline.shape.state)).withFuel fuel) :=
    ⟨(Confined.setSlot outline.built.toSound outline.built.state trivial _).trans (.withFuel fuel),
      World.slot?_setSlot_self _ present⟩
  refine ((accord_body outline bodies).alongside grounds twin ends ⟨rfl, entered⟩).self.imp ?_
    fun e act lost => lost
  rintro result act ⟨confined, settles⟩
  refine ⟨confined, ?_⟩
  rcases result with _ | ⟨_ | ⟨_ | _⟩ | _ | _ | _ | _⟩
  · exact absurd trivial settles.1
  · exact settles.elim
  · exact .inr ⟨rfl, settles.2⟩
  · obtain ⟨_, _, ⟨both, among, rfl, _⟩, held⟩ := settles
    refine .inl ⟨rfl, both.1, ?_, held⟩
    rw [outline.machinePoints_eq, bodies.points_left]
    exact List.mem_map_of_mem among
  all_goals exact settles.elim

/-- Cleanup routines that are called one after another keep custody. -/
theorem chain_stops {chain : List String}
    (known : ∀ name ∈ chain, ∃ cleanup ∈ outline.progress.cleanups, cleanup.1 = name) {body rest : Code}
    {state : Int64} {base : World} {post : Option Value → Activation → Prop}
    (follows : ∀ act, InCustody outline.shape outline.assigned own state base act.world →
      ¬ IsExhausted (run lowered.machine body (ownFrame own) rest act) →
      Stops post (CustodyLost outline.shape outline.assigned own state base)
        (run lowered.machine body (ownFrame own) rest act)) {act : Activation}
    (custody : InCustody outline.shape outline.assigned own state base act.world)
    (lasts : ¬ IsExhausted (run lowered.machine body (ownFrame own)
      (chain.map Lowering.callCleanup ++ rest) act)) :
    Stops post (CustodyLost outline.shape outline.assigned own state base)
      (run lowered.machine body (ownFrame own) (chain.map Lowering.callCleanup ++ rest) act) := by
  induction chain generalizing act with
  | nil => exact follows act custody lasts
  | cons name chain ih =>
    obtain ⟨⟨cleanup, member, rfl⟩, others⟩ := List.forall_mem_cons.mp known
    simp only [List.map_cons, List.cons_append] at lasts ⊢
    cases left : act.fuel with
    | zero => simp [Machine.run_cons_empty _ _ _ _ _ left] at lasts
    | succ fuel =>
      rw [Machine.run_cons _ _ _ _ _ _ left] at lasts ⊢
      have entered : InCustody outline.shape outline.assigned own state base (act.withFuel fuel).world :=
        ⟨custody.trans (.withFuel fuel), custody.state⟩
      have stopped := cleanup_stops outline member entered
      simp only [Lowering.callCleanup, Machine.execInstr, bind_assoc, pure_bind, Machine.followBy]
        at lasts ⊢
      cases done : evalTerm lowered.machine (call lowered.machine) (ownFrame own) (.callSelf cleanup.1)
          (act.withFuel fuel) with
      | ok value next =>
        rw [done] at stopped
        rw [bind_of_ok done] at lasts ⊢
        exact ih others stopped lasts
      | error e next =>
        rw [done] at stopped
        rw [bind_of_error done]
        exact stopped

/-- Disposal of an active instance calls cleanup routines of its point and then finishes it. -/
theorem reaches_chain (few : lowered.machine.points.length < 2 ^ 63) {state : Int64} {world : World}
    (active : Active lowered.machine.points state)
    (held : world.slot? own outline.shape.state = some (.int state)) : ∃ (chain : List String) (rest : Code),
    (∀ name ∈ chain, ∃ cleanup ∈ outline.progress.cleanups, cleanup.1 = name) ∧
    Machine.Reaches lowered.machine (Lowering.disposeCode outline.shape lowered.machine.points)
      (ownFrame own) (Lowering.disposeCode outline.shape lowered.machine.points) ⟨.empty, world⟩
      (chain.map Lowering.callCleanup ++ rest) ⟨.empty, world⟩ ∧
    ∀ act : Activation, (act.world.slot? own outline.shape.state).isSome →
      Machine.Returns lowered.machine (Lowering.disposeCode outline.shape lowered.machine.points)
        (ownFrame own) rest act none
        ⟨act.locals, act.world.setSlot own outline.shape.state (.int State.finished)⟩ := by
  have closes := placed_closing outline
  rcases active with rfl | ⟨point, member, rfl⟩
  · exact ⟨[], closing outline.shape, nofun, reaches_disposal outline held closes,
      fun act present => returns_closing present⟩
  · obtain ⟨label, listed, plain, chained⟩ := Lowering.disposeTable_entry member 2
    have target := Lowering.caseTarget_dispose outline.numbered few listed member
    by_cases none : point.cleanup = []
    · refine ⟨[], closing outline.shape, nofun, reaches_disposal outline held ?_,
        fun act present => returns_closing present⟩
      rw [target, plain none]
      exact closes
    · obtain ⟨rest, before, chain⟩ := chained none
      have placed : .label label :: (point.cleanup.map Lowering.callCleanup ++
          .goto Lowering.finishLabel :: (rest ++ closing outline.shape)) <:+
            Lowering.disposeCode outline.shape lowered.machine.points := by
        refine List.IsSuffix.trans ⟨before, ?_⟩ (List.suffix_cons _ _)
        rw [← chain]
        simp [closing]
      have leads := Machine.Code.from?_of_suffix (Lowering.once_disposeCode _ _) placed
      rw [← target] at leads
      refine ⟨point.cleanup, _, fun name listed => outline.cleanup_of_point member listed,
        (reaches_disposal outline held leads).trans (.label _), fun act present => ?_⟩
      exact (Machine.Reaches.goto closes).returns (returns_closing present)

/-- Disposal of an active instance finishes it, or fails and leaves its state as it was. -/
theorem disposal_stops (few : lowered.machine.points.length < 2 ^ 63) {state : Int64} {world : World}
    (active : Active lowered.machine.points state)
    (held : world.slot? own outline.shape.state = some (.int state))
    (lasts : ¬ IsExhausted (run lowered.machine
      (Lowering.disposeCode outline.shape lowered.machine.points) (ownFrame own)
      (Lowering.disposeCode outline.shape lowered.machine.points) ⟨.empty, world⟩)) :
    Stops (fun result act => result = none ∧ Confined outline.shape outline.assigned own world act.world ∧
        act.world.slot? own outline.shape.state = some (.int State.finished))
      (CustodyLost outline.shape outline.assigned own state world)
      (run lowered.machine (Lowering.disposeCode outline.shape lowered.machine.points) (ownFrame own)
        (Lowering.disposeCode outline.shape lowered.machine.points) ⟨.empty, world⟩) := by
  obtain ⟨chain, rest, known, reaches, closes⟩ := reaches_chain outline few active held
  refine reaches.stops lasts (fun fuel lasts => ?_)
    (fun _ act _ holds => ⟨holds.1, holds.2.1.trans (.withFuel act.fuel), holds.2.2⟩)
    fun _ act _ lost => ⟨lost.1.trans (.withFuel act.fuel), lost.2⟩
  have entered : InCustody outline.shape outline.assigned own state world
      (Activation.withFuel ⟨.empty, world⟩ fuel).world := ⟨.withFuel fuel, held⟩
  refine chain_stops outline known (fun act custody lasts => ?_) entered lasts
  have present : (act.world.slot? own outline.shape.state).isSome := by simp [custody.state]
  obtain ⟨left, ended⟩ := (closes act present).lasting lasts
  rw [ended]
  refine ⟨rfl, ?_, World.slot?_setSlot_self _ present⟩
  exact (custody.trans (.setSlot outline.built.toSound outline.built.state trivial _)).trans (.withFuel left)

end

end Simulation
end Resumable
