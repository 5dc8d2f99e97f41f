import Resumable.Proofs.Resumption
import Resumable.Semantics.Consumer

/-!
How instances come about. The kick-off routine builds an instance and hands it the
arguments; the vending routine hands out that instance or a copy of it, with the arguments
restored.
-/

namespace Resumable

namespace Machine

namespace World
variable {world : World} {object other : Nat} {id : FieldId}

/-- A new instance with every field at the default of its type. -/
def allocated (world : World) (fields : List Field) : World :=
  { world with
    instances := world.instances.push
      ⟨.ofList (fields.map fun field => (field.id, field.ty.default))⟩ }

theorem slot?_eq_none_of_ge (outside : world.instances.size ≤ object) : world.slot? object id = none := by
  simp [slot?, Array.getElem?_eq_none outside]

theorem lt_of_slot? {value : Value} (held : world.slot? object id = some value) :
    object < world.instances.size := by
  rcases Nat.lt_or_ge object world.instances.size with inside | outside
  · exact inside
  · simp [slot?_eq_none_of_ge outside] at held

theorem slot?_allocated_of_ne (fields : List Field) (ne : object ≠ world.instances.size) :
    (world.allocated fields).slot? object id = world.slot? object id := by
  simp only [slot?, allocated, Array.getElem?_push, if_neg ne]

theorem isSome_slot?_allocated {fields : List Field} {field : Field} (member : field ∈ fields) :
    ((world.allocated fields).slot? world.instances.size field.id).isSome := by
  simp only [slot?, allocated, Array.getElem?_push_size, Option.bind_some]
  refine Table.isSome_get?_ofList ?_
  simp only [List.map_map, List.mem_map]
  exact ⟨field, member, rfl⟩

/-- A field of the new instance is at the default of its type. -/
theorem slot?_allocated_self {fields : List Field} (once : (fields.map (·.id)).Nodup) {field : Field}
    (member : field ∈ fields) :
    (world.allocated fields).slot? world.instances.size field.id = some field.ty.default := by
  have present : ((world.allocated fields).slot? world.instances.size field.id).isSome :=
    isSome_slot?_allocated member
  obtain ⟨value, held⟩ := Option.isSome_iff_exists.mp present
  rw [held]
  simp only [slot?, allocated, Array.getElem?_push_size, Option.bind_some] at held
  obtain ⟨other, among, same⟩ := List.mem_map.mp (Table.mem_of_get?_ofList held)
  obtain ⟨sameId, rfl⟩ := Prod.mk.inj same
  rw [List.inj_on_of_nodup_map once among member sameId]

/-- Stores into several fields of one instance. -/
def setSlots (world : World) (object : Nat) (pairs : List (FieldId × Value)) : World :=
  pairs.foldl (fun world pair => world.setSlot object pair.1 pair.2) world

section
variable (pairs : List (FieldId × Value))

theorem setSlots_cons (pair : FieldId × Value) :
    world.setSlots object (pair :: pairs) = (world.setSlot object pair.1 pair.2).setSlots object pairs :=
  rfl

@[simp] theorem setSlots_calls : (world.setSlots object pairs).calls = world.calls := by
  induction pairs generalizing world with
  | nil => rfl
  | cons pair rest ih => rw [setSlots_cons, ih, setSlot_calls]

@[simp] theorem setSlots_arrays : (world.setSlots object pairs).arrays = world.arrays := by
  induction pairs generalizing world with
  | nil => rfl
  | cons pair rest ih => rw [setSlots_cons, ih, setSlot_arrays]

@[simp] theorem setSlots_thread : (world.setSlots object pairs).thread = world.thread := by
  induction pairs generalizing world with
  | nil => rfl
  | cons pair rest ih => rw [setSlots_cons, ih, setSlot_thread]

@[simp] theorem setSlots_size :
    (world.setSlots object pairs).instances.size = world.instances.size := by
  induction pairs generalizing world with
  | nil => rfl
  | cons pair rest ih => rw [setSlots_cons, ih, setSlot_size]

end

theorem slot?_setSlots_of_ne {pairs : List (FieldId × Value)}
    (apart : other ≠ object ∨ ∀ pair ∈ pairs, pair.1 ≠ id) :
    (world.setSlots object pairs).slot? other id = world.slot? other id := by
  induction pairs generalizing world with
  | nil => rfl
  | cons pair rest ih =>
    rw [setSlots_cons, ih, slot?_setSlot_of_ne]
    · exact apart.imp_right fun all same => all pair List.mem_cons_self same.symm
    · exact apart.imp_right fun all other member => all other (List.mem_cons_of_mem _ member)

theorem isSome_slot?_setSlots {pairs : List (FieldId × Value)}
    (present : (world.slot? other id).isSome) :
    ((world.setSlots object pairs).slot? other id).isSome := by
  induction pairs generalizing world with
  | nil => exact present
  | cons pair rest ih => exact ih ((isSome_slot?_setSlot _).mpr (.inl present))

/-- A field that is only ever given one value has it in the end. -/
theorem slot?_setSlots_of_mem {pairs : List (FieldId × Value)} {value : Value}
    (present : (world.slot? object id).isSome) (given : (id, value) ∈ pairs)
    (only : ∀ other, (id, other) ∈ pairs → other = value) :
    (world.setSlots object pairs).slot? object id = some value := by
  induction pairs generalizing world with
  | nil => cases given
  | cons pair rest ih =>
    obtain ⟨id', value'⟩ := pair
    rw [setSlots_cons]
    by_cases later : (id, value) ∈ rest
    · exact ih ((isSome_slot?_setSlot _).mpr (.inl present)) later
        fun other member => only other (List.mem_cons_of_mem _ member)
    · obtain ⟨rfl, rfl⟩ := Prod.mk.inj ((List.mem_cons.mp given).resolve_right later)
      rw [slot?_setSlots_of_ne, slot?_setSlot_self _ present]
      refine .inr fun pair member same => later ?_
      obtain rfl := same
      rw [← only pair.2 (List.mem_cons_of_mem _ member)]
      exact member

end World
/-- An assignment whose value costs fuel to compute. -/
theorem Reaches.assignAfter {machine : Machine} {body rest : Code} {frame : Frame} {place : Place}
    {term : Term} {value : Value} {act act' act'' : Activation} (cost : Nat)
    (evaluated : ∀ fuel, evalTerm machine (call machine) frame term (act.withFuel (fuel + cost)) =
      .ok value (act'.withFuel fuel))
    (stored : (frame.store value place).Gives act' () act'') :
    Reaches machine body frame (.assign place term :: rest) act rest act'' := by
  refine ⟨cost + 1, fun fuel => run_step .next cost (fun fuel => ?_) fuel⟩
  simp only [execInstr]
  rw [bind_of_ok (evaluated fuel), bind_of_ok (stored fuel)]
  rfl

/-- A store into a field of the instance that a frame variable holds. -/
theorem gives_store_fieldOf {frame : Frame} {holder : LocalId} {object : Nat} {id : FieldId}
    {act : Activation} (held : act.locals.get? holder = some (.object object))
    (present : (act.world.slot? object id).isSome) (value : Value) :
    (frame.store value (.fieldOf holder id)).Gives act ()
      ⟨act.locals, act.world.setSlot object id value⟩ := by
  intro fuel
  have read : Step.readLocal holder (act.withFuel fuel) = .ok (.object object) (act.withFuel fuel) := by
    simp [Step.readLocal, Activation.withFuel, held]
  simp only [Frame.store]
  rw [bind_of_ok read]
  simp only [Step.inWorld, Activation.withFuel]
  rw [Exec.writeField_of_slot value (by simpa using present), World.setSlot_withFuel]

end Machine

namespace Simulation
open Lowering (Outline Shape)
open Machine (Activation Code Field FieldId Frame Instr Place Role Term World call evalTerm)

/-- What building an instance does to the world. -/
structure Constructed (shape : Shape) (state : Int64) (world world' : World) : Prop where
  size : world'.instances.size = world.instances.size + 1
  others {object : Nat} (id : FieldId) : object ≠ world.instances.size →
    world'.slot? object id = world.slot? object id
  present {id : FieldId} {role : Role} : shape.Bears id role →
    (world'.slot? world.instances.size id).isSome
  state : world'.slot? world.instances.size shape.state = some (.int state)
  creator {id : FieldId} : shape.initialThread = some id →
    world'.slot? world.instances.size id = some (.int world.thread)
  calls : world'.calls = world.calls
  arrays : world'.arrays = world.arrays
  thread : world'.thread = world.thread

/-- Fields of these roles are at the defaults of their types. -/
def Blank (shape : Shape) (among : Role → Prop) (object : Nat) (world : World) : Prop :=
  ∀ field ∈ shape.fields, among field.role → world.slot? object field.id = some field.ty.default

/-- A call of the method hands nothing to fields of this role. -/
def IsUnset : Role → Prop
  | .current | .hoisted (.loc _) => True
  | _ => False

/-- Stores into other fields. -/
theorem Blank.setSlots {shape : Shape} {among among' : Role → Prop} {object : Nat} {world : World}
    (sound : shape.Sound) (blank : Blank shape among object world) {pairs : List (FieldId × Value)}
    (fewer : ∀ role, among' role → among role)
    (apart : ∀ pair ∈ pairs, ∃ role, shape.Bears pair.1 role ∧ ¬ among' role) :
    Blank shape among' object (world.setSlots object pairs) := by
  intro field member chosen
  refine (World.slot?_setSlots_of_ne (.inr ?_)).trans (blank field member (fewer _ chosen))
  rintro pair listed same
  obtain ⟨role, bears, outside⟩ := apart pair listed
  exact outside (sound.role_eq ⟨field, member, same.symm, rfl⟩ bears ▸ chosen)

section
variable {method : Method} {options : Options} {lowered : Lowered}
  (outline : Outline method options lowered)

theorem gives_int {machine : Machine} {frame : Frame} {act : Activation} (value : Int64) :
    (evalTerm machine (call machine) frame (.int value)).Gives act (.int value) act :=
  fun _ => by simp only [evalTerm]; rfl

/-- The world after the current thread was asked for. -/
def asked (world : World) (source : Machine.ThreadSource) : World :=
  { world with threadReads := world.threadReads.push source.read }

theorem gives_threadId {machine : Machine} {frame : Frame} {act : Activation}
    (source : Machine.ThreadSource) :
    (evalTerm machine (call machine) frame (.threadId source)).Gives act (.int act.world.thread)
      ⟨act.locals, asked act.world source⟩ :=
  fun _ => by simp only [evalTerm]; rfl

theorem constructor_body : ∃ thread, Lowering.threadCode outline.shape = .ok thread ∧
    lowered.machine.constructor.body =
      .setField outline.shape.state (.param 0) :: (thread ++ [.ret none]) := by
  have constructs := outline.constructs
  simp only [Lowering.buildConstructor, except_bind_eq_ok, except_pure_eq_ok] at constructs
  obtain ⟨thread, threaded, built⟩ := constructs
  exact ⟨thread, threaded, by rw [← built]⟩

theorem present_allocated {id : FieldId} {role : Role} (bears : outline.shape.Bears id role)
    (world : World) :
    ((world.allocated lowered.machine.fields).slot? world.instances.size id).isSome := by
  obtain ⟨field, member, rfl, _⟩ := bears
  exact World.isSome_slot?_allocated (outline.fields_eq ▸ member)

/-- A new instance whose state has been set, while the thread is still to be noted. -/
structure Stated (shape : Shape) (state : Int64) (world world' : World) : Prop where
  size : world'.instances.size = world.instances.size + 1
  others {object : Nat} (id : FieldId) : object ≠ world.instances.size →
    world'.slot? object id = world.slot? object id
  present {id : FieldId} {role : Role} : shape.Bears id role →
    (world'.slot? world.instances.size id).isSome
  state : world'.slot? world.instances.size shape.state = some (.int state)
  calls : world'.calls = world.calls
  arrays : world'.arrays = world.arrays
  thread : world'.thread = world.thread
  blank : Blank shape (· ≠ .state) world.instances.size world'

theorem stated_allocated (state : Int64) (world : World) :
    Stated outline.shape state world ((world.allocated lowered.machine.fields).setSlot
      world.instances.size outline.shape.state (.int state)) where
  size := by simp [World.allocated]
  others id ne := by
    rw [World.slot?_setSlot_of_ne _ (.inl ne), World.slot?_allocated_of_ne _ ne]
  present bears :=
    (World.isSome_slot?_setSlot _).mpr (.inl (present_allocated outline bears world))
  state :=
    World.slot?_setSlot_self _ (present_allocated outline outline.built.toSound.state world)
  calls := by simp [World.allocated]
  arrays := by simp [World.allocated]
  thread := by simp [World.allocated]
  blank := by
    have sound := outline.built.toSound
    have allocated : Blank outline.shape (fun _ => True) world.instances.size
        (world.allocated lowered.machine.fields) := by
      intro field member _
      rw [outline.fields_eq]
      exact World.slot?_allocated_self sound.once member
    have apart : ∀ pair ∈ [(outline.shape.state, Value.int state)],
        ∃ role, outline.shape.Bears pair.1 role ∧ ¬role ≠ .state :=
      List.forall_mem_singleton.mpr ⟨.state, sound.state, fun other => other rfl⟩
    exact allocated.setSlots sound (fun _ _ => trivial) apart

section
variable {shape : Shape} {state : Int64} {world world' : World}

/-- An instance that is never handed to another thread is complete at once. -/
theorem Stated.constructed (stated : Stated shape state world world')
    (absent : shape.initialThread = none) : Constructed shape state world world' :=
  { stated with creator := fun found => by rw [absent] at found; cases found }

/-- The thread that builds an instance is noted in it. -/
theorem Stated.stamp (stated : Stated shape state world world') (sound : shape.Sound) {id : FieldId}
    (found : shape.initialThread = some id) (source : Machine.ThreadSource) :
    Constructed shape state world
      ((asked world' source).setSlot world.instances.size id (.int world'.thread)) where
  size := by simpa [asked] using stated.size
  others id' ne := by
    rw [World.slot?_setSlot_of_ne _ (.inl ne)]
    exact stated.others id' ne
  present bears := (World.isSome_slot?_setSlot _).mpr (.inl (stated.present bears))
  state := by
    have apart : shape.state ≠ id := fun same => by
      have := sound.role_eq (sound.thread found) (same ▸ sound.state)
      cases this
    rw [World.slot?_setSlot_of_ne _ (.inr apart)]
    exact stated.state
  creator other := by
    obtain rfl := Option.some.inj (found.symm.trans other)
    have present : ((asked world' source).slot? world.instances.size id).isSome :=
      stated.present (sound.thread found)
    rw [World.slot?_setSlot_self _ present, stated.thread]
  calls := by simpa [asked] using stated.calls
  arrays := by simpa [asked] using stated.arrays
  thread := by simpa [asked] using stated.thread

theorem Stated.blank_stamp (stated : Stated shape state world world') (sound : shape.Sound) {id : FieldId}
    (found : shape.initialThread = some id) (source : Machine.ThreadSource) :
    Blank shape (fun role => role ≠ .state ∧ role ≠ .initialThread) world.instances.size
      ((asked world' source).setSlot world.instances.size id (.int world'.thread)) := by
  have asking : Blank shape (· ≠ .state) world.instances.size (asked world' source) := stated.blank
  have apart : ∀ pair ∈ [(id, Value.int world'.thread)], ∃ role, shape.Bears pair.1 role ∧
      ¬(role ≠ .state ∧ role ≠ .initialThread) :=
    List.forall_mem_singleton.mpr ⟨_, sound.thread found, fun other => other.2 rfl⟩
  exact asking.setSlots sound (fun _ other => other.1) apart

end

theorem constructor_returns (state : Int64) (world : World) : ∃ act',
    Machine.Returns lowered.machine lowered.machine.constructor.body
      ⟨.object world.instances.size, [.int state]⟩ lowered.machine.constructor.body
      ⟨.empty, world.allocated lowered.machine.fields⟩ none act' ∧
    Constructed outline.shape state world act'.world ∧
    Blank outline.shape (fun role => role ≠ .state ∧ role ≠ .initialThread) world.instances.size
      act'.world := by
  obtain ⟨thread, threaded, code⟩ := constructor_body outline
  have sound := outline.built.toSound
  have stated := stated_allocated outline state world
  have reaches : Machine.Reaches lowered.machine lowered.machine.constructor.body
      ⟨.object world.instances.size, [.int state]⟩ lowered.machine.constructor.body
      ⟨.empty, world.allocated lowered.machine.fields⟩ (thread ++ [.ret none])
      ⟨.empty, (world.allocated lowered.machine.fields).setSlot world.instances.size
        outline.shape.state (.int state)⟩ := by
    have writable : Writable world.instances.size ⟨.empty, world.allocated lowered.machine.fields⟩
        (.field outline.shape.state) := present_allocated outline sound.state world
    rw [code]
    refine .assign (fun _ => ?_) (gives_store rfl writable (.int state))
    simp only [evalTerm]
    rfl
  unfold Lowering.threadCode at threaded
  split at threaded
  · next absent =>
    obtain rfl := Except.ok.inj threaded
    exact ⟨_, reaches.returns .ret_none, stated.constructed absent,
      fun field member other => stated.blank field member other.1⟩
  · next id found =>
    simp only [except_bind_eq_ok, except_pure_eq_ok] at threaded
    obtain ⟨source, _, rfl⟩ := threaded
    have writable : Writable world.instances.size ⟨.empty, asked ((world.allocated
        lowered.machine.fields).setSlot world.instances.size outline.shape.state (.int state)) source⟩
        (.field id) := stated.present (sound.thread found)
    have noted := reaches.trans (.assign (gives_threadId source) (gives_store rfl writable _))
    exact ⟨_, noted.returns .ret_none, stated.stamp sound found source, stated.blank_stamp sound found source⟩

/-- Building an instance and keeping it in the frame. -/
theorem reaches_construct {body rest : Code} {frame : Frame} {locals : Table LocalId Value}
    {world : World} (state : Int64) :
    ∃ world', Constructed outline.shape state world world' ∧
      Blank outline.shape (fun role => role ≠ .state ∧ role ≠ .initialThread) world.instances.size
        world' ∧
      Machine.Reaches lowered.machine body frame
        (.assign (.frame Lowering.held) (.construct [.int state]) :: rest) ⟨locals, world⟩ rest
        ⟨locals.set Lowering.held (.object world.instances.size), world'⟩ := by
  obtain ⟨act', returns, constructed, blank⟩ := constructor_returns outline state world
  obtain ⟨cost, called⟩ := Machine.call_of_returns returns
  have stored : (frame.store (.object world.instances.size) (.frame Lowering.held)).Gives
      ⟨locals, act'.world⟩ ()
      ⟨locals.set Lowering.held (.object world.instances.size), act'.world⟩ := fun _ => rfl
  refine ⟨act'.world, constructed, blank, .assignAfter cost (fun fuel => ?_) stored⟩
  have items : Machine.evalTerms lowered.machine (call lowered.machine) frame [.int state]
      ⟨locals, world.withFuel (fuel + cost)⟩ =
        .ok [.int state] ⟨locals, world.withFuel (fuel + cost)⟩ := by
    simp only [Machine.evalTerms, evalTerm]
    rfl
  have built : Machine.newInstance lowered.machine (call lowered.machine) [.int state]
      (world.withFuel (fuel + cost)) =
        .ok (.object world.instances.size) (act'.world.withFuel fuel) := by
    have allocated : Machine.Exec.allocate lowered.machine.fields (world.withFuel (fuel + cost)) =
        .ok (.object world.instances.size)
          ((world.allocated lowered.machine.fields).withFuel (fuel + cost)) := rfl
    rw [Machine.newInstance, bind_of_ok allocated, bind_of_ok (called fuel)]
    rfl
  simp only [evalTerm, Activation.withFuel_mk]
  rw [bind_of_ok items]
  simp only [Machine.Step.inWorld, built]

/-- Stores into fields of the instance that is held in the frame. -/
def storing (pairs : List (FieldId × Term)) : Code :=
  pairs.map fun pair => .assign (.fieldOf Lowering.held pair.1) pair.2

/-- The values that the stores leave in the fields. -/
def valued (value : Term → Value) (pairs : List (FieldId × Term)) : List (FieldId × Value) :=
  pairs.map fun pair => (pair.1, value pair.2)

/-- Stores one after another. What they read does not change under the stores, which `Keeps` says of
the world. -/
theorem reaches_stores {machine : Machine} {body rest : Code} {frame : Frame}
    {locals : Table LocalId Value} {object : Nat} (Keeps : World → Prop) (value : Term → Value)
    (held : locals.get? Lowering.held = some (.object object))
    {pairs : List (FieldId × Term)}
    (reads : ∀ pair ∈ pairs, ∀ world, Keeps world → (evalTerm machine (call machine) frame pair.2).Gives
      ⟨locals, world⟩ (value pair.2) ⟨locals, world⟩)
    (present : ∀ pair ∈ pairs, ∀ world, Keeps world → (world.slot? object pair.1).isSome)
    (kept : ∀ pair ∈ pairs, ∀ world, Keeps world → Keeps (world.setSlot object pair.1 (value pair.2)))
    {world : World} (start : Keeps world) :
    Machine.Reaches machine body frame (storing pairs ++ rest) ⟨locals, world⟩ rest
      ⟨locals, world.setSlots object (valued value pairs)⟩ := by
  induction pairs generalizing world with
  | nil => exact .refl _ _
  | cons pair others ih =>
    have first := List.mem_cons_self (a := pair) (l := others)
    have step : Machine.Reaches machine body frame (storing (pair :: others) ++ rest)
        ⟨locals, world⟩ (storing others ++ rest)
        ⟨locals, world.setSlot object pair.1 (value pair.2)⟩ :=
      .assign (reads pair first world start)
        (Machine.gives_store_fieldOf held (present pair first world start) _)
    refine step.trans (ih ?_ ?_ ?_ (kept pair first world start))
    · exact fun other member => reads other (List.mem_cons_of_mem _ member)
    · exact fun other member => present other (List.mem_cons_of_mem _ member)
    · exact fun other member => kept other (List.mem_cons_of_mem _ member)

theorem slot?_stored {world : World} {object : Nat} {pairs : List (FieldId × Term)} {id : FieldId}
    {term : Term} (value : Term → Value) (present : (world.slot? object id).isSome)
    (stored : (id, term) ∈ pairs) (only : ∀ other, (id, other) ∈ pairs → other = term) :
    (world.setSlots object (valued value pairs)).slot? object id = some (value term) := by
  refine World.slot?_setSlots_of_mem present (List.mem_map.mpr ⟨_, stored, rfl⟩) fun other member => ?_
  obtain ⟨⟨id', term'⟩, listed, same⟩ := List.mem_map.mp member
  obtain ⟨rfl, rfl⟩ := Prod.mk.inj same
  rw [only term' listed]

/-- The routines that build instances return the one that they hold. -/
theorem returns_held {machine : Machine} {body : Code} {frame : Frame} {locals : Table LocalId Value}
    {world : World} {object : Nat} (held : locals.get? Lowering.held = some (.object object)) :
    Machine.Returns machine body frame [.ret (some (.load (.frame Lowering.held)))] ⟨locals, world⟩
      (some (.object object)) ⟨locals, world⟩ := by
  refine .ret fun fuel => ?_
  simp only [evalTerm, Frame.load, Machine.Step.readLocal, Activation.withFuel_mk, held]

theorem wireReceiver_spec {method : Method} {shape : Shape} {code : Code}
    (known : (shape.slot? .receiver).isSome → method.receiver.isSome)
    (wired : Lowering.wireReceiver method shape = .ok code) :
    ∃ pairs, code = storing pairs ∧ ∀ pair, pair ∈ pairs ↔
      pair.2 = .self ∧ shape.slot? .receiver = some pair.1 := by
  unfold Lowering.wireReceiver at wired
  split at wired
  · next absent =>
    obtain rfl := Except.ok.inj wired
    refine ⟨[], rfl, fun pair => iff_of_false List.not_mem_nil ?_⟩
    rintro ⟨_, found⟩
    simpa [absent] using known (by simp [found])
  · simp only [except_bind_eq_ok, except_pure_eq_ok, Lower.require_eq_ok] at wired
    obtain ⟨slot, found, rfl⟩ := wired
    refine ⟨[(slot, .self)], rfl, fun pair => ?_⟩
    rw [List.mem_singleton, found, Option.some.injEq, Prod.ext_iff, and_comm, @eq_comm _ slot]

/-- The fields that take an argument. -/
def Takes (shape : Shape) (index : Nat) (id : FieldId) : Prop :=
  shape.slot? (.param index) = some id ∨ (index, id) ∈ shape.proxies

theorem find?_proxy {proxies : List (Nat × FieldId)} (once : (proxies.map (·.1)).Nodup) {index : Nat}
    {id : FieldId} : (proxies.find? fun proxy => proxy.1 = index).map (·.2) = some id ↔
      (index, id) ∈ proxies := by
  constructor
  · intro found
    obtain ⟨proxy, here, rfl⟩ := Option.map_eq_some_iff.mp found
    have key : proxy.1 = index := by simpa using List.find?_some here
    rw [← key]
    exact List.mem_of_find?_eq_some here
  · intro member
    cases found : proxies.find? fun proxy => proxy.1 = index with
    | none => simpa using List.find?_eq_none.mp found _ member
    | some proxy =>
      have key : proxy.1 = index := by simpa using List.find?_some found
      rw [List.inj_on_of_nodup_map once (List.mem_of_find?_eq_some found) member key]
      rfl

theorem wireParam_spec {shape : Shape} (once : (shape.proxies.map (·.1)).Nodup) {index : Nat}
    {code : Code} (wired : Lowering.wireParam shape index = .ok code) :
    ∃ pairs, code = storing pairs ∧ ∀ pair, pair ∈ pairs ↔
      pair.2 = .param index ∧ Takes shape index pair.1 := by
  simp only [Lowering.wireParam, except_bind_eq_ok, except_pure_eq_ok, Lower.require_eq_ok] at wired
  obtain ⟨slot, found, rfl⟩ := wired
  refine ⟨(slot, .param index) :: ((shape.proxies.find? fun proxy => proxy.1 = index).map
    (·.2)).toList.map (·, .param index), by simp [storing], fun pair => ?_⟩
  obtain ⟨id, term⟩ := pair
  simp only [Takes, found, ← find?_proxy once, List.mem_cons, Prod.mk.injEq, List.mem_map,
    Option.mem_toList]
  constructor
  · rintro (⟨rfl, rfl⟩ | ⟨_, proxied, rfl, rfl⟩)
    · exact ⟨rfl, .inl rfl⟩
    · exact ⟨rfl, .inr proxied⟩
  · rintro ⟨rfl, same | proxied⟩
    · exact .inl ⟨(Option.some.inj same).symm, rfl⟩
    · exact .inr ⟨id, proxied, rfl, rfl⟩

theorem wireParams_spec {shape : Shape} (once : (shape.proxies.map (·.1)).Nodup) {indices : List Nat}
    {code : Code} (wired : Lowering.wireParams shape indices = .ok code) :
    ∃ pairs, code = storing pairs ∧ ∀ pair, pair ∈ pairs ↔
      ∃ index ∈ indices, pair.2 = .param index ∧ Takes shape index pair.1 := by
  induction indices generalizing code with
  | nil =>
    obtain rfl := Except.ok.inj wired
    exact ⟨[], rfl, by simp⟩
  | cons index rest ih =>
    simp only [Lowering.wireParams, except_bind_eq_ok, except_pure_eq_ok] at wired
    obtain ⟨first, wiredFirst, others, wiredOthers, rfl⟩ := wired
    obtain ⟨pairs, rfl, listed⟩ := wireParam_spec once wiredFirst
    obtain ⟨pairs', rfl, listed'⟩ := ih wiredOthers
    refine ⟨pairs ++ pairs', by simp [storing], fun pair => ?_⟩
    simp [listed, listed']

/-- What the terms that hand over the inputs of a call stand for. -/
def handed (receiver : Value) (args : List Value) : Term → Value
  | .self => receiver
  | .param index => args[index]?.getD .null
  | _ => .null

theorem gives_handed {machine : Machine} {receiver : Value} {args : List Value} {term : Term}
    (act : Activation) (known : term = .self ∨ ∃ index, term = .param index ∧ index < args.length) :
    (evalTerm machine (call machine) ⟨receiver, args⟩ term).Gives act (handed receiver args term)
      act := by
  rcases known with rfl | ⟨index, rfl, inside⟩
  · exact fun _ => by simp only [evalTerm]; rfl
  · intro fuel
    simp only [evalTerm, Frame.arg, handed, List.getElem?_eq_getElem inside]
    rfl

/-- The instance still has the inputs of the call that built it. -/
structure Recalls (shape : Shape) (own : Nat) (receiver : Option Value) (args : List Value)
    (world : World) : Prop where
  present {id : FieldId} {role : Role} : shape.Bears id role → (world.slot? own id).isSome
  receiver {id : FieldId} : shape.slot? .receiver = some id →
    world.slot? own id = some (receiver.getD .null)
  kept {index : Nat} {id : FieldId} : shape.slot? (.param index) = some id →
    (∀ proxy, (index, proxy) ∉ shape.proxies) → world.slot? own id = args[index]?
  proxy {index : Nat} {id : FieldId} : (index, id) ∈ shape.proxies →
    world.slot? own id = args[index]?

/-- The variables of the instance are as the body finds them when it starts. -/
structure Primed (shape : Shape) (own : Nat) (receiver : Option Value) (args : List Value)
    (world : World) : Prop extends Recalls shape own receiver args world where
  params {index : Nat} {id : FieldId} : shape.slot? (.param index) = some id →
    world.slot? own id = args[index]?

theorem argument_of_bindParams {args : List Value} {var : Var} {value : Value}
    (bound : (Structured.bindParams args).get? var = some value) :
    ∃ index, var = .param index ∧ args[index]? = some value := by
  obtain ⟨⟨value', index⟩, member, same⟩ := List.mem_map.mp (Table.mem_of_get?_ofList bound)
  obtain ⟨rfl, rfl⟩ := Prod.mk.inj same
  exact ⟨index, rfl, List.mem_zipIdx_iff_getElem?.mp member⟩

theorem input_of_startState {receiver : Option Value} {args : List Value} {fuel arrays : Nat}
    {var : Var} {value : Value}
    (bound : (Structured.startState receiver args fuel arrays).vars.get? var = some value) :
    (var = .receiver ∧ receiver = some value) ∨
      ∃ index, var = .param index ∧ args[index]? = some value := by
  cases receiver with
  | none => exact .inr (argument_of_bindParams bound)
  | some itself =>
    simp only [Structured.startState, Table.get?_set] at bound
    split at bound
    · next same => exact .inl ⟨same, bound⟩
    · exact .inr (argument_of_bindParams bound)

/-- The inputs of a call name no array of identity `count` or above. -/
structure KnownInputs (count : Nat) (receiver : Option Value) (args : List Value) : Prop where
  receiver : ∀ value, receiver = some value → value.Below count
  args : Value.BelowAll count args

/-- An instance that is ready to start matches the start of the method. -/
theorem Primed.matches {shape : Shape} {own : Nat} {receiver : Option Value} {args : List Value}
    {world : World} {count arrays : Nat} (primed : Primed shape own receiver args world)
    (known : KnownInputs count receiver args) (fuel : Nat) (enough : count ≤ arrays)
    (enough' : count ≤ world.arrays) :
    Matches shape own [] (.fixing count) (Structured.startState receiver args fuel arrays)
      ⟨.empty, world⟩ where
  between := (Renaming.between_fixing count).mono enough enough'
  present := primed.present
  held {var place value} inside placed bound := by
    have fixed : ∀ a, a < count → Renaming.fixing count a a := fun a small => ⟨rfl, small⟩
    rcases input_of_startState bound with ⟨rfl, rfl⟩ | ⟨index, rfl, given⟩
    · rcases place_eq_ok.mp placed with ⟨id, slot, rfl⟩ | ⟨_, absurd, _⟩
      · exact ⟨value, primed.receiver slot, Value.alike_self fixed value (known.receiver value rfl)⟩
      · cases absurd
    · rcases place_eq_ok.mp placed with ⟨id, slot, rfl⟩ | ⟨_, absurd, _⟩
      · exact ⟨value, (primed.params slot).trans given,
          Value.alike_self fixed value (known.args.getElem? given)⟩
      · cases absurd

/-- Stores into captured fields of the new instance. -/
theorem Constructed.fill {shape : Shape} (sound : shape.Sound) {state : Int64} {world world' : World}
    (constructed : Constructed shape state world world') {pairs : List (FieldId × Value)}
    (captured : ∀ pair ∈ pairs, ∃ role, shape.Bears pair.1 role ∧ role.isCaptured) :
    Constructed shape state world (world'.setSlots world.instances.size pairs) := by
  have apart {id : FieldId} {role : Role} (bears : shape.Bears id role)
      (protocol : role.isCaptured = false) : ∀ pair ∈ pairs, pair.1 ≠ id := by
    rintro pair member rfl
    obtain ⟨role', bears', capturing⟩ := captured pair member
    rw [sound.role_eq bears bears', capturing] at protocol
    cases protocol
  exact {
    size := by rw [World.setSlots_size, constructed.size]
    others := fun id ne => by rw [World.slot?_setSlots_of_ne (.inl ne), constructed.others id ne]
    present := fun bears => World.isSome_slot?_setSlots (constructed.present bears)
    state := by
      rw [World.slot?_setSlots_of_ne (.inr (apart sound.state rfl)), constructed.state]
    creator := fun found => by
      rw [World.slot?_setSlots_of_ne (.inr (apart (sound.thread found) rfl)),
        constructed.creator found]
    calls := by rw [World.setSlots_calls, constructed.calls]
    arrays := by rw [World.setSlots_arrays, constructed.arrays]
    thread := by rw [World.setSlots_thread, constructed.thread] }

theorem Takes.bears {shape : Shape} (sound : shape.Sound) {index : Nat} {id : FieldId}
    (takes : Takes shape index id) :
    ∃ role, shape.Bears id role ∧ (role = .hoisted (.param index) ∨ role = .proxy index) := by
  rcases takes with slot | proxy
  · exact ⟨_, sound.slot slot, .inl rfl⟩
  · exact ⟨_, sound.proxy proxy, .inr rfl⟩

theorem Takes.unique {shape : Shape} (sound : shape.Sound) {index index' : Nat} {id : FieldId}
    (takes : Takes shape index id) (takes' : Takes shape index' id) : index = index' := by
  obtain ⟨role, bears, which⟩ := takes.bears sound
  obtain ⟨role', bears', which'⟩ := takes'.bears sound
  obtain rfl := sound.role_eq bears bears'
  rcases which with rfl | rfl <;> simpa using which'

/-- A field takes the receiver or the argument of one parameter. -/
def Handed (shape : Shape) (id : FieldId) (term : Term) : Prop :=
  (term = .self ∧ shape.slot? .receiver = some id) ∨
    ∃ index, term = .param index ∧ Takes shape index id

theorem Handed.bears {shape : Shape} (sound : shape.Sound) {id : FieldId} {term : Term}
    (given : Handed shape id term) : ∃ role, shape.Bears id role ∧ role.isCaptured := by
  rcases given with ⟨_, slot⟩ | ⟨index, _, takes⟩
  · exact ⟨_, sound.slot slot, rfl⟩
  · obtain ⟨role, bears, rfl | rfl⟩ := takes.bears sound <;> exact ⟨_, bears, rfl⟩

theorem Handed.unique {shape : Shape} (sound : shape.Sound) {id : FieldId} {term term' : Term}
    (given : Handed shape id term) (given' : Handed shape id term') : term = term' := by
  have apart {index : Nat} (slot : shape.slot? .receiver = some id) (takes : Takes shape index id) :
      False := by
    obtain ⟨role, bears, rfl | rfl⟩ := takes.bears sound <;>
      cases sound.role_eq bears (sound.slot slot)
  rcases given with ⟨rfl, slot⟩ | ⟨index, rfl, takes⟩ <;>
    rcases given' with ⟨rfl, slot'⟩ | ⟨index', rfl, takes'⟩
  · rfl
  · exact (apart slot takes').elim
  · exact (apart slot' takes).elim
  · rw [takes.unique sound takes']

theorem restoreCode_spec {shape : Shape} {proxies : List (Nat × FieldId)} {code : Code}
    (restored : Lowering.restoreCode shape proxies = .ok code) :
    (∀ proxy ∈ proxies, (shape.slot? (.param proxy.1)).isSome) ∧
      ∃ pairs, code = storing pairs ∧ ∀ pair, pair ∈ pairs ↔ ∃ proxy ∈ proxies,
        shape.slot? (.param proxy.1) = some pair.1 ∧ pair.2 = .field proxy.2 := by
  induction proxies generalizing code with
  | nil =>
    obtain rfl := Except.ok.inj restored
    exact ⟨by simp, [], rfl, by simp⟩
  | cons proxy rest ih =>
    simp only [Lowering.restoreCode, except_bind_eq_ok, except_pure_eq_ok,
      Lower.require_eq_ok] at restored
    obtain ⟨slot, found, others, restoredOthers, rfl⟩ := restored
    obtain ⟨placed, pairs, rfl, listed⟩ := ih restoredOthers
    refine ⟨List.forall_mem_cons.mpr ⟨by simp [found], placed⟩,
      (slot, .field proxy.2) :: pairs, rfl, fun pair => ?_⟩
    rw [List.mem_cons, listed, List.exists_mem_cons_iff, found, Option.some.injEq, Prod.ext_iff,
      @eq_comm _ slot]

theorem getEnumeratorCode_spec {shape : Shape} {options : Options} {code : Code}
    (coded : Lowering.getEnumeratorCode shape options = .ok code) : ∃ reuse restore,
      (if options.reuseTemplate then Lowering.reuseCode shape else .ok []) = .ok reuse ∧
      Lowering.restoreCode shape shape.proxies = .ok restore ∧
      code = reuse ++ Lowering.copyCode shape ++ .label Lowering.wireLabel ::
        (restore ++ [.ret (some (.load (.frame Lowering.held)))]) := by
  unfold Lowering.getEnumeratorCode at coded
  split at coded
  · next reused =>
    simp only [except_bind_eq_ok, except_pure_eq_ok] at coded
    obtain ⟨reuse, made, restore, restored, rfl⟩ := coded
    exact ⟨reuse, restore, by rw [if_pos reused, made], restored, rfl⟩
  · next never =>
    simp only [except_bind_eq_ok, except_pure_eq_ok] at coded
    obtain ⟨reuse, made, restore, restored, rfl⟩ := coded
    exact ⟨reuse, restore, by rw [if_neg never, made], restored, rfl⟩

section
include outline

/-- Only parameters have proxies. -/
theorem slot_of_proxy {index : Nat} {id : FieldId} (proxied : (index, id) ∈ outline.shape.proxies) :
    (outline.shape.slot? (.param index)).isSome := by
  cases kind : outline.kind with
  | enumerator =>
    have none := outline.built.proxies_eq
    simp only [kind, Lowering.proxied, List.map_eq_nil_iff] at none
    simp [none] at proxied
  | enumerable =>
    obtain ⟨routine, _, _, coded⟩ := outline.routine_getEnumerator kind
    obtain ⟨_, restore, _, restored, _⟩ := getEnumeratorCode_spec coded
    exact (restoreCode_spec restored).1 _ proxied

theorem takes_lt {index : Nat} {id : FieldId} (takes : Takes outline.shape index id) :
    index < method.params.length := by
  refine (outline.slot_param index).mp ?_
  rcases takes with slot | proxied
  · simp [slot]
  · exact slot_of_proxy outline proxied

theorem kickoff_body : ∃ pairs, lowered.kickoff.body =
    .assign (.frame Lowering.held) (.construct [.int (Lowering.initialState outline.kind)]) ::
      (storing pairs ++ [.ret (some (.load (.frame Lowering.held)))]) ∧
    ∀ pair, pair ∈ pairs ↔ Handed outline.shape pair.1 pair.2 := by
  have kicksOff := outline.kicksOff
  simp only [Lowering.buildKickoff, except_bind_eq_ok, except_pure_eq_ok] at kicksOff
  obtain ⟨receiver, wired, params, wiredParams, built⟩ := kicksOff
  have known : (outline.shape.slot? .receiver).isSome → outline.expanded.receiver.isSome := by
    rw [outline.receiver_eq]
    exact outline.slot_receiver.mp
  obtain ⟨pairs, rfl, listed⟩ := wireReceiver_spec known wired
  obtain ⟨pairs', rfl, listed'⟩ := wireParams_spec outline.proxies_once wiredParams
  refine ⟨pairs ++ pairs', ?_, fun pair => ?_⟩
  · rw [← built, outline.built.kind_eq]
    simp [storing]
  · rw [List.mem_append, listed, listed', Handed]
    refine or_congr_right ⟨?_, ?_⟩
    · rintro ⟨index, _, given⟩
      exact ⟨index, given⟩
    · rintro ⟨index, given, takes⟩
      refine ⟨index, ?_, given, takes⟩
      rw [List.mem_range, outline.params_eq]
      exact takes_lt outline takes

omit outline in
theorem Handed.not_isUnset {shape : Shape} (sound : shape.Sound) {id : FieldId} {term : Term}
    (given : Handed shape id term) : ∃ role, shape.Bears id role ∧ ¬ IsUnset role := by
  rcases given with ⟨_, slot⟩ | ⟨index, _, takes⟩
  · exact ⟨_, sound.slot slot, nofun⟩
  · obtain ⟨role, bears, rfl | rfl⟩ := takes.bears sound <;> exact ⟨_, bears, nofun⟩

/-- The kick-off routine builds one instance, which holds the inputs of the call. -/
theorem kickoff_returns {receiver : Option Value} {args : List Value}
    (complete : method.params.length ≤ args.length) (world : World) : ∃ act',
    Machine.Returns lowered.machine lowered.kickoff.body ⟨receiver.getD .null, args⟩
      lowered.kickoff.body ⟨.empty, world⟩ (some (.object world.instances.size)) act' ∧
    Constructed outline.shape (Lowering.initialState outline.kind) world act'.world ∧
    Primed outline.shape world.instances.size receiver args act'.world ∧
    Blank outline.shape IsUnset world.instances.size act'.world := by
  obtain ⟨pairs, code, listed⟩ := kickoff_body outline
  have sound := outline.built.toSound
  obtain ⟨built, constructed, blank, constructs⟩ : ∃ built,
      Constructed outline.shape (Lowering.initialState outline.kind) world built ∧
      Blank outline.shape (fun role => role ≠ .state ∧ role ≠ .initialThread) world.instances.size
        built ∧
      Machine.Reaches lowered.machine lowered.kickoff.body ⟨receiver.getD .null, args⟩
        lowered.kickoff.body ⟨.empty, world⟩
        (storing pairs ++ [.ret (some (.load (.frame Lowering.held)))])
        ⟨Table.empty.set Lowering.held (.object world.instances.size), built⟩ := by
    rw [code]
    exact reaches_construct outline _
  have own : (Table.empty.set Lowering.held (Value.object world.instances.size)).get?
      Lowering.held = some (.object world.instances.size) := Table.get?_set_self _ _ _
  let world' := built.setSlots world.instances.size (valued (handed (receiver.getD .null) args) pairs)
  have stores : Machine.Reaches lowered.machine lowered.kickoff.body ⟨receiver.getD .null, args⟩
      (storing pairs ++ [.ret (some (.load (.frame Lowering.held)))])
      ⟨Table.empty.set Lowering.held (.object world.instances.size), built⟩
      [.ret (some (.load (.frame Lowering.held)))]
      ⟨Table.empty.set Lowering.held (.object world.instances.size), world'⟩ := by
    refine reaches_stores (fun world' => ∀ id role, outline.shape.Bears id role →
      (world'.slot? world.instances.size id).isSome) _ own ?_ ?_ ?_
        fun id role bears => constructed.present bears
    · refine fun pair member world' _ => gives_handed _ ?_
      rcases (listed pair).mp member with ⟨itself, _⟩ | ⟨index, param, takes⟩
      · exact .inl itself
      · exact .inr ⟨index, param, Nat.lt_of_lt_of_le (takes_lt outline takes) complete⟩
    · intro pair member world' present
      obtain ⟨role, bears, _⟩ := ((listed pair).mp member).bears sound
      exact present _ role bears
    · exact fun pair _ world' present id role bears =>
        (World.isSome_slot?_setSlot _).mpr (.inl (present id role bears))
  have filled : Constructed outline.shape (Lowering.initialState outline.kind) world world' := by
    refine constructed.fill sound ?_
    simp only [valued, List.forall_mem_map]
    exact fun pair member => ((listed pair).mp member).bears sound
  have given {id : FieldId} {term : Term} (taken : Handed outline.shape id term) :
      world'.slot? world.instances.size id = some (handed (receiver.getD .null) args term) := by
    obtain ⟨role, bears, _⟩ := taken.bears sound
    exact slot?_stored _ (constructed.present bears) ((listed (id, term)).mpr taken)
      fun other stored => ((listed (id, other)).mp stored).unique sound taken
  have argument {index : Nat} {id : FieldId} (takes : Takes outline.shape index id) :
      world'.slot? world.instances.size id = args[index]? := by
    rw [given (.inr ⟨index, rfl, takes⟩), handed,
      List.getElem?_eq_getElem (Nat.lt_of_lt_of_le (takes_lt outline takes) complete)]
    rfl
  have unset : Blank outline.shape IsUnset world.instances.size world' := by
    refine blank.setSlots sound ?_ ?_
    · rintro role chosen
      refine ⟨?_, ?_⟩ <;> rintro rfl <;> exact chosen
    · simp only [valued, List.forall_mem_map]
      exact fun pair member => ((listed pair).mp member).not_isUnset sound
  refine ⟨_, (constructs.trans stores).returns (returns_held own), filled, ?_, unset⟩
  exact {
    present := filled.present
    receiver := fun slot => given (.inl ⟨rfl, slot⟩)
    kept := fun slot _ => argument (.inl slot)
    proxy := fun proxied => argument (.inr proxied)
    params := fun slot => argument (.inl slot) }

/-- Calling the method builds an instance that has nothing but the inputs of the call. -/
theorem invoke_builds {receiver : Option Value} {args : List Value}
    (complete : method.params.length ≤ args.length) (world : World) : ∃ world',
    (lowered.invoke receiver args).Does world (.object world.instances.size) world' ∧
    Constructed outline.shape (Lowering.initialState outline.kind) world world' ∧
    Primed outline.shape world.instances.size receiver args world' ∧
    Blank outline.shape IsUnset world.instances.size world' := by
  obtain ⟨act', returns, constructed, primed, blank⟩ := kickoff_returns outline complete world
  exact ⟨act'.world, (Machine.call_of_returns returns).bind (Machine.Exec.does_pure _ _),
    constructed, primed, blank⟩

/-- Calling the method returns a new instance that holds the inputs of the call. -/
theorem invoke_spec {receiver : Option Value} {args : List Value}
    (complete : method.params.length ≤ args.length) (world : World) : ∃ world',
    (lowered.invoke receiver args).Does world (.object world.instances.size) world' ∧
    Constructed outline.shape (Lowering.initialState outline.kind) world world' ∧
    Primed outline.shape world.instances.size receiver args world' := by
  obtain ⟨world', does, constructed, primed, _⟩ := invoke_builds outline complete world
  exact ⟨world', does, constructed, primed⟩

end

end

end Simulation
end Resumable
