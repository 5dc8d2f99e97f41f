import Resumable.Proofs.Seeding

/-!
Handing out enumerators. The vending routine returns the instance itself when it is untouched
and on the thread that built it, and otherwise a copy. Either way the enumerator is fresh and
every parameter has its argument again.
-/

namespace Resumable

namespace Machine.Code

@[simp] theorem labels_assign (place : Place) (term : Term) (rest : Code) :
    labels (.assign place term :: rest) = labels rest := rfl

end Machine.Code

section
variable {machine : Machine} {body code rest : Machine.Code} {frame : Machine.Frame}
  {act act' : Machine.Activation} {cond : Machine.Term} {target : Machine.Label}

theorem Machine.Reaches.stay
    (evaluated : (evalTerm machine (call machine) frame cond).Gives act (.bool true) act') :
    Reaches machine body frame (.gotoUnless cond target :: rest) act rest act' :=
  .next (evaluated.bind fun _ => rfl)

theorem Machine.Reaches.leave
    (evaluated : (evalTerm machine (call machine) frame cond).Gives act (.bool false) act')
    (placed : body.from? target = some code) :
    Reaches machine body frame (.gotoUnless cond target :: rest) act code act' :=
  .jump (evaluated.bind fun _ => rfl) placed

end

namespace Simulation
open Lowering (Outline Shape)
open Machine (Activation Code Field FieldId Frame Instr Place Role Term World call evalTerm)

@[simp] theorem labels_storing (pairs : List (FieldId × Term)) :
    Machine.Code.labels (storing pairs) = [] := by
  induction pairs with
  | nil => rfl
  | cons pair rest ih => exact ih

/-- What a term that reads a field of the instance stands for. -/
def fieldValue (own : Nat) (world : World) : Term → Value
  | .load (.field id) => (world.slot? own id).getD .null
  | _ => .null

theorem some_fieldValue {own : Nat} {world : World} {id : FieldId}
    (present : (world.slot? own id).isSome) :
    some (fieldValue own world (.field id)) = world.slot? own id := by
  obtain ⟨value, held⟩ := Option.isSome_iff_exists.mp present
  simp [fieldValue, Term.field, held]

theorem gives_fieldValue {machine : Machine} {own : Nat} {act : Activation} {world : World}
    {id : FieldId} (present : (world.slot? own id).isSome)
    (same : act.world.slot? own id = world.slot? own id) :
    (evalTerm machine (call machine) (ownFrame own) (.field id)).Gives act
      (fieldValue own world (.field id)) act :=
  gives_field (same.trans (some_fieldValue present).symm)

section
variable (shape : Shape) (own : Nat) (world : World) (object : Nat)

/-- The object is fresh and has the captured fields of the instance. -/
structure Copied (world' : World) : Prop where
  state : world'.slot? object shape.state = some (.int State.fresh)
  present {id : FieldId} {role : Role} : shape.Bears id role → (world'.slot? object id).isSome
  creator {id : FieldId} : shape.initialThread = some id →
    ∃ thread, world'.slot? object id = some (.int thread)
  captured {id : FieldId} {role : Role} : shape.Bears id role → role.isCaptured →
    world'.slot? object id = world.slot? own id
  others {other : Nat} (id : FieldId) : other ≠ object →
    world'.slot? other id = world.slot? other id
  /-- A copy was built on the current thread and has produced nothing. -/
  copied {field : Field} : object ≠ own → field ∈ shape.fields → field.role = .current →
    world'.slot? object field.id = some field.ty.default
  stamped {id : FieldId} : object ≠ own → shape.initialThread = some id →
    world'.slot? object id = some (.int world.thread)
  /-- The instance itself has only become fresh. -/
  remains (id : FieldId) : object = own → id ≠ shape.state → world'.slot? own id = world.slot? own id
  calls : world'.calls = world.calls
  arrays : world'.arrays = world.arrays
  thread : world'.thread = world.thread

/-- The object is fresh and has the captured fields of the instance, parameters restored. -/
structure Vended (world' : World) : Prop where
  state : world'.slot? object shape.state = some (.int State.fresh)
  present {id : FieldId} {role : Role} : shape.Bears id role → (world'.slot? object id).isSome
  creator {id : FieldId} : shape.initialThread = some id →
    ∃ thread, world'.slot? object id = some (.int thread)
  captured {id : FieldId} {role : Role} : shape.Bears id role → role.isCaptured →
    (∀ proxy ∈ shape.proxies, role ≠ .hoisted (.param proxy.1)) →
    world'.slot? object id = world.slot? own id
  restored {proxy : Nat × FieldId} {id : FieldId} : proxy ∈ shape.proxies →
    shape.slot? (.param proxy.1) = some id → world'.slot? object id = world.slot? own proxy.2
  others {other : Nat} (id : FieldId) : other ≠ object →
    world'.slot? other id = world.slot? other id
  copied {field : Field} : object ≠ own → field ∈ shape.fields → field.role = .current →
    world'.slot? object field.id = some field.ty.default
  stamped {id : FieldId} : object ≠ own → shape.initialThread = some id →
    world'.slot? object id = some (.int world.thread)
  remains {id : FieldId} {role : Role} : object = own → shape.Bears id role →
    role = .current ∨ role = .initialThread → world'.slot? own id = world.slot? own id
  calls : world'.calls = world.calls
  arrays : world'.arrays = world.arrays
  thread : world'.thread = world.thread

end

section
variable {shape : Shape} {own object : Nat} {world world' : World}

/-- An enumerator can start with the inputs that its origin recalls. -/
theorem Vended.primed {receiver : Option Value} {args : List Value} (sound : shape.Sound)
    (vended : Vended shape own world object world')
    (recalls : Recalls shape own receiver args world) :
    Primed shape object receiver args world' := by
  have proxy {index : Nat} {id : FieldId} (proxied : (index, id) ∈ shape.proxies) :
      world'.slot? object id = args[index]? :=
    (vended.captured (sound.proxy proxied) rfl (by simp)).trans (recalls.proxy proxied)
  have kept {index : Nat} {id : FieldId} (slot : shape.slot? (.param index) = some id)
      (plain : ∀ proxy, (index, proxy) ∉ shape.proxies) : world'.slot? object id = args[index]? := by
    refine (vended.captured (sound.slot slot) rfl ?_).trans (recalls.kept slot plain)
    rintro ⟨index', id'⟩ proxied same
    simp only [Role.hoisted.injEq, Var.param.injEq] at same
    exact plain id' (same ▸ proxied)
  exact {
    present := vended.present
    receiver := fun slot => (vended.captured (sound.slot slot) rfl (by simp)).trans
      (recalls.receiver slot)
    kept := kept
    proxy := proxy
    params := fun {index id} slot => by
      by_cases plain : ∀ proxy, (index, proxy) ∉ shape.proxies
      · exact kept slot plain
      · obtain ⟨kept, proxied⟩ := not_forall_not.mp plain
        exact (vended.restored proxied slot).trans (recalls.proxy proxied) }

/-- The end of the vending routine, which stores into the object that is held. -/
def wiring (pairs : List (FieldId × Term)) : Code :=
  .label Lowering.wireLabel :: (storing pairs ++ [.ret (some (.load (.frame Lowering.held)))])

/-- The stores that give parameters their arguments again. -/
def Restores (shape : Shape) (pairs : List (FieldId × Term)) : Prop :=
  ∀ pair, pair ∈ pairs ↔ ∃ proxy ∈ shape.proxies,
    shape.slot? (.param proxy.1) = some pair.1 ∧ pair.2 = .field proxy.2

theorem Copied.restore {pairs : List (FieldId × Term)} (sound : shape.Sound)
    (once : (shape.proxies.map (·.1)).Nodup) (restores : Restores shape pairs)
    (copied : Copied shape own world object world')
    (present : ∀ proxy ∈ shape.proxies, (world.slot? own proxy.2).isSome) :
    Vended shape own world object
      (world'.setSlots object (valued (fieldValue own world) pairs)) := by
  have apart {id : FieldId} {role : Role} (bears : shape.Bears id role)
      (other : ∀ proxy ∈ shape.proxies, role ≠ .hoisted (.param proxy.1)) :
      ∀ pair ∈ valued (fieldValue own world) pairs, pair.1 ≠ id := by
    simp only [valued, List.forall_mem_map]
    rintro pair member rfl
    obtain ⟨proxy, proxied, slot, _⟩ := (restores pair).mp member
    exact other proxy proxied (sound.role_eq bears (sound.slot slot))
  exact {
    state := by
      rw [World.slot?_setSlots_of_ne (.inr (apart sound.state (by simp))), copied.state]
    present := fun bears => World.isSome_slot?_setSlots (copied.present bears)
    creator := fun found => by
      rw [World.slot?_setSlots_of_ne (.inr (apart (sound.thread found) (by simp)))]
      exact copied.creator found
    captured := fun bears capturing other => by
      rw [World.slot?_setSlots_of_ne (.inr (apart bears other)), copied.captured bears capturing]
    restored := fun {proxy id} proxied slot => by
      rw [← some_fieldValue (present proxy proxied)]
      refine slot?_stored _ (copied.present (sound.slot slot))
        ((restores (id, _)).mpr ⟨proxy, proxied, slot, rfl⟩) fun other stored => ?_
      obtain ⟨proxy', proxied', slot', rfl⟩ := (restores (id, other)).mp stored
      have same : proxy'.1 = proxy.1 := Var.param.inj (sound.slot_inj slot' slot)
      rw [List.inj_on_of_nodup_map once proxied' proxied same]
    others := fun id ne => by rw [World.slot?_setSlots_of_ne (.inl ne), copied.others id ne]
    copied := fun {field} ne member role => by
      have bears : shape.Bears field.id .current := ⟨field, member, rfl, role⟩
      rw [World.slot?_setSlots_of_ne (.inr (apart bears (by simp))), copied.copied ne member role]
    stamped := fun ne found => by
      rw [World.slot?_setSlots_of_ne (.inr (apart (sound.thread found) (by simp))),
        copied.stamped ne found]
    remains := fun {id role} same bears which => by
      have other : id ≠ shape.state := by
        rintro rfl
        have := sound.role_eq bears sound.state
        rcases which with rfl | rfl <;> cases this
      refine (World.slot?_setSlots_of_ne (.inr (apart bears ?_))).trans (copied.remains id same other)
      rcases which with rfl | rfl <;> simp
    calls := by rw [World.setSlots_calls, copied.calls]
    arrays := by rw [World.setSlots_arrays, copied.arrays]
    thread := by rw [World.setSlots_thread, copied.thread] }

/-- From the label on, parameters get their arguments again and the object is returned. -/
theorem returns_wired {machine : Machine} {body : Code} {locals : Table LocalId Value}
    {pairs : List (FieldId × Term)} (sound : shape.Sound) (restores : Restores shape pairs)
    (copied : Copied shape own world object world')
    (present : ∀ proxy ∈ shape.proxies, (world.slot? own proxy.2).isSome)
    (held : locals.get? Lowering.held = some (.object object)) :
    Machine.Returns machine body (ownFrame own) (wiring pairs) ⟨locals, world'⟩
      (some (.object object))
      ⟨locals, world'.setSlots object (valued (fieldValue own world) pairs)⟩ := by
  have start : ∀ proxy ∈ shape.proxies, world'.slot? own proxy.2 = world.slot? own proxy.2 := by
    intro proxy proxied
    by_cases itself : own = object
    · subst itself
      exact copied.captured (sound.proxy proxied) rfl
    · exact copied.others _ itself
  refine (Machine.Reaches.label _).returns (Machine.Reaches.returns ?_ (returns_held held))
  refine reaches_stores (fun w => (∀ proxy ∈ shape.proxies, w.slot? own proxy.2 =
    world.slot? own proxy.2) ∧ ∀ id role, shape.Bears id role → (w.slot? object id).isSome) _ held
    ?_ ?_ ?_ ⟨start, fun id role bears => copied.present bears⟩
  · intro pair member w keeps
    obtain ⟨proxy, proxied, _, read⟩ := (restores pair).mp member
    rw [read]
    exact gives_fieldValue (present proxy proxied) (keeps.1 proxy proxied)
  · intro pair member w keeps
    obtain ⟨_, _, slot, _⟩ := (restores pair).mp member
    exact keeps.2 _ _ (sound.slot slot)
  · intro pair member w keeps
    obtain ⟨_, _, slot, _⟩ := (restores pair).mp member
    refine ⟨fun proxy proxied => ?_, fun id role bears => (World.isSome_slot?_setSlot _).mpr
      (.inl (keeps.2 id role bears))⟩
    have apart : proxy.2 ≠ pair.1 := (sound.slot_ne slot (sound.proxy proxied) (by simp)).symm
    rw [World.slot?_setSlot_of_ne _ (.inr apart), keeps.1 proxy proxied]

end

section
variable {method : Method} {options : Options} {lowered : Lowered}
  (outline : Outline method options lowered) {own : Nat} {world : World}

/-- The stores that copy the captured fields. -/
def copies (shape : Shape) : List (FieldId × Term) :=
  (shape.fields.filter (·.role.isCaptured)).map fun field => (field.id, .field field.id)

theorem mem_copies {shape : Shape} {pair : FieldId × Term} : pair ∈ copies shape ↔
    pair.2 = .field pair.1 ∧ ∃ role, shape.Bears pair.1 role ∧ role.isCaptured := by
  simp only [copies, List.mem_map, List.mem_filter]
  constructor
  · rintro ⟨field, ⟨member, captured⟩, rfl⟩
    exact ⟨rfl, field.role, ⟨field, member, rfl, rfl⟩, captured⟩
  · rintro ⟨read, role, ⟨field, member, same, rfl⟩, captured⟩
    exact ⟨field, ⟨member, captured⟩, by rw [same, ← read]⟩

theorem copyCode_eq (shape : Shape) : Lowering.copyCode shape = .label Lowering.copyLabel ::
    .assign (.frame Lowering.held) (.construct [.int State.fresh]) :: storing (copies shape) := by
  simp [Lowering.copyCode, storing, copies]

/-- A copy is a new instance. -/
theorem reaches_copy (body rest : Code) (locals : Table LocalId Value)
    (present : ∀ id role, outline.shape.Bears id role → (world.slot? own id).isSome) :
    ∃ world', Copied outline.shape own world world.instances.size world' ∧
      world'.instances.size = world.instances.size + 1 ∧
      Machine.Reaches lowered.machine body (ownFrame own) (Lowering.copyCode outline.shape ++ rest)
        ⟨locals, world⟩ rest
        ⟨locals.set Lowering.held (.object world.instances.size), world'⟩ := by
  have sound := outline.built.toSound
  obtain ⟨value, held⟩ := Option.isSome_iff_exists.mp (present _ _ sound.state)
  have apart : own ≠ world.instances.size := Nat.ne_of_lt (World.lt_of_slot? held)
  obtain ⟨built, constructed, blank, constructs⟩ : ∃ built,
      Constructed outline.shape State.fresh world built ∧
      Blank outline.shape (fun role => role ≠ .state ∧ role ≠ .initialThread) world.instances.size
        built ∧
      Machine.Reaches lowered.machine body (ownFrame own)
        (.assign (.frame Lowering.held) (.construct [.int State.fresh]) ::
          (storing (copies outline.shape) ++ rest)) ⟨locals, world⟩
        (storing (copies outline.shape) ++ rest)
        ⟨locals.set Lowering.held (.object world.instances.size), built⟩ :=
    reaches_construct outline _
  have stores : Machine.Reaches lowered.machine body (ownFrame own)
      (storing (copies outline.shape) ++ rest)
      ⟨locals.set Lowering.held (.object world.instances.size), built⟩ rest
      ⟨locals.set Lowering.held (.object world.instances.size),
        built.setSlots world.instances.size (valued (fieldValue own world) (copies outline.shape))⟩ := by
    refine reaches_stores (fun w => (∀ id, w.slot? own id = world.slot? own id) ∧
      ∀ id role, outline.shape.Bears id role → (w.slot? world.instances.size id).isSome) _
      (Table.get?_set_self _ _ _) ?_ ?_ ?_
      ⟨fun id => constructed.others id apart, fun id role bears => constructed.present bears⟩
    · intro pair member w keeps
      obtain ⟨read, role, bears, _⟩ := mem_copies.mp member
      rw [read]
      exact gives_fieldValue (present _ role bears) (keeps.1 _)
    · intro pair member w keeps
      obtain ⟨_, role, bears, _⟩ := mem_copies.mp member
      exact keeps.2 _ role bears
    · refine fun pair _ w keeps => ⟨fun id => ?_, fun id role bears =>
        (World.isSome_slot?_setSlot _).mpr (.inl (keeps.2 id role bears))⟩
      rw [World.slot?_setSlot_of_ne _ (.inl apart), keeps.1 id]
  have filled : Constructed outline.shape State.fresh world (built.setSlots world.instances.size
      (valued (fieldValue own world) (copies outline.shape))) := by
    refine constructed.fill sound ?_
    simp only [valued, List.forall_mem_map]
    exact fun pair member => (mem_copies.mp member).2
  have unset : Blank outline.shape (· = .current) world.instances.size (built.setSlots
      world.instances.size (valued (fieldValue own world) (copies outline.shape))) := by
    refine blank.setSlots sound ?_ ?_
    · rintro role rfl
      exact ⟨by simp, by simp⟩
    · simp only [valued, List.forall_mem_map]
      intro pair member
      obtain ⟨_, role, bears, captured⟩ := mem_copies.mp member
      refine ⟨role, bears, ?_⟩
      rintro rfl
      cases captured
  refine ⟨_, ?_, filled.size, ?_⟩
  · exact {
      state := filled.state
      present := filled.present
      creator := fun found => ⟨_, filled.creator found⟩
      captured := fun {id role} bears capturing => by
        rw [← some_fieldValue (present id role bears)]
        refine slot?_stored _ (constructed.present bears)
          (mem_copies.mpr ⟨rfl, role, bears, capturing⟩) fun other stored => ?_
        exact (mem_copies.mp stored).1
      others := fun id ne => filled.others id ne
      copied := fun _ member role => unset _ member role
      stamped := fun _ found => filled.creator found
      remains := fun _ same => absurd same.symm apart
      calls := filled.calls
      arrays := filled.arrays
      thread := filled.thread }
  · rw [copyCode_eq]
    exact (Machine.Reaches.label _).trans (constructs.trans stores)

/-- Every field exists, and those of the protocol hold integers. -/
structure Equipped (shape : Shape) (own : Nat) (world : World) : Prop where
  present {id : FieldId} {role : Role} : shape.Bears id role → (world.slot? own id).isSome
  state : ∃ state, world.slot? own shape.state = some (.int state)
  creator {id : FieldId} : shape.initialThread = some id →
    ∃ thread, world.slot? own id = some (.int thread)

/-- The instance itself may be handed out. -/
def Reusable (shape : Shape) (options : Options) (own : Nat) (world : World) : Prop :=
  options.reuseTemplate ∧ world.slot? own shape.state = some (.int State.notStarted) ∧
    ∃ id, shape.initialThread = some id ∧ world.slot? own id = some (.int world.thread)

/-- The test for reuse; it asks for the thread only when the state allows reuse. -/
theorem gives_untouched {machine : Machine} {locals : Table LocalId Value} {state thread : Int64}
    {stateField threadField : FieldId} (source : Machine.ThreadSource)
    (stated : world.slot? own stateField = some (.int state))
    (created : world.slot? own threadField = some (.int thread)) : ∃ reads,
    (evalTerm machine (call machine) (ownFrame own) (.binary .and
      (.binary .eq (.field stateField) (.int State.notStarted))
      (.binary .eq (.field threadField) (.threadId source)))).Gives ⟨locals, world⟩
      (.bool (decide (state = State.notStarted ∧ thread = world.thread)))
      ⟨locals, { world with threadReads := reads }⟩ := by
  have left : (evalTerm machine (call machine) (ownFrame own)
      (.binary .eq (.field stateField) (.int State.notStarted))).Gives ⟨locals, world⟩
      (.bool (decide (state = State.notStarted))) ⟨locals, world⟩ := by
    simp only [evalTerm.eq_def _ _ _ (.binary .eq _ _)]
    exact (gives_field stated).bind ((gives_int _).bind fun _ => rfl)
  have right : (evalTerm machine (call machine) (ownFrame own)
      (.binary .eq (.field threadField) (.threadId source))).Gives ⟨locals, world⟩
      (.bool (decide (thread = world.thread))) ⟨locals, asked world source⟩ := by
    simp only [evalTerm.eq_def _ _ _ (.binary .eq _ _)]
    exact (gives_field created).bind ((gives_threadId source).bind fun _ => rfl)
  by_cases untouched : state = State.notStarted
  · refine ⟨world.threadReads.push source.read, ?_⟩
    simp only [untouched, decide_true] at left
    simp only [evalTerm.eq_def _ _ _ (.binary .and _ _), untouched, true_and]
    refine left.bind (Machine.Step.Gives.bind (fun _ => rfl) ?_)
    exact right.bind fun _ => rfl
  · refine ⟨world.threadReads, ?_⟩
    simp only [untouched, decide_false] at left
    simp only [evalTerm.eq_def _ _ _ (.binary .and _ _), untouched, false_and, decide_false]
    refine left.bind (Machine.Step.Gives.bind (fun _ => rfl) ?_)
    exact fun _ => rfl

/-- That the thread was asked for does not matter to a copy. -/
theorem Copied.unasked {shape : Shape} {own object : Nat} {world world' : World}
    {reads : Array Machine.ThreadRead}
    (copied : Copied shape own { world with threadReads := reads } object world') :
    Copied shape own world object world' where
  state := copied.state
  present := copied.present
  creator := copied.creator
  captured := copied.captured
  others := copied.others
  copied := copied.copied
  stamped := copied.stamped
  remains := copied.remains
  calls := copied.calls
  arrays := copied.arrays
  thread := copied.thread

/-- An instance that is handed out itself becomes fresh. -/
theorem Equipped.copied {shape : Shape} {own : Nat} {world : World} (sound : shape.Sound)
    (equipped : Equipped shape own world) :
    Copied shape own world own (world.setSlot own shape.state (.int State.fresh)) := by
  have apart {id : FieldId} {role : Role} (bears : shape.Bears id role) (other : role ≠ .state) :
      id ≠ shape.state := by
    rintro rfl
    exact other (sound.role_eq bears sound.state)
  exact {
    state := World.slot?_setSlot_self _ (equipped.present sound.state)
    present := fun bears => (World.isSome_slot?_setSlot _).mpr (.inl (equipped.present bears))
    creator := fun found => by
      rw [World.slot?_setSlot_of_ne _ (.inr (apart (sound.thread found) (by simp)))]
      exact equipped.creator found
    captured := fun {id role} bears capturing => by
      refine World.slot?_setSlot_of_ne _ (.inr (apart bears ?_))
      rintro rfl
      cases capturing
    others := fun id ne => World.slot?_setSlot_of_ne _ (.inl ne)
    copied := fun ne => absurd rfl ne
    stamped := fun ne => absurd rfl ne
    remains := fun id _ ne => World.slot?_setSlot_of_ne _ (.inr ne)
    calls := World.setSlot_calls _ _ _ _
    arrays := World.setSlot_arrays _ _ _ _
    thread := World.setSlot_thread _ _ _ _ }

/-- The instance is untouched and on the thread that built it. -/
def untouched (shape : Shape) (creator : FieldId) (source : Machine.ThreadSource) : Term :=
  .binary .and (.binary .eq (.field shape.state) (.int State.notStarted))
    (.binary .eq (.field creator) (.threadId source))

/-- The start of the vending routine when instances are reused. -/
def reuseStart (shape : Shape) (creator : FieldId) (source : Machine.ThreadSource) : Code :=
  [.gotoUnless (untouched shape creator source) Lowering.copyLabel, shape.setState State.fresh,
    .assign (.frame Lowering.held) .self, .goto Lowering.wireLabel]

theorem reuse_eq {shape : Shape} {reuse : Code}
    (made : (if options.reuseTemplate then Lowering.reuseCode shape else .ok []) = .ok reuse) :
    (options.reuseTemplate = false ∧ reuse = []) ∨ (options.reuseTemplate ∧ ∃ id source,
      shape.initialThread = some id ∧ reuse = reuseStart shape id source) := by
  cases reused : options.reuseTemplate with
  | false =>
    rw [reused] at made
    exact .inl ⟨rfl, (Except.ok.inj made).symm⟩
  | true =>
    rw [reused, if_pos rfl] at made
    unfold Lowering.reuseCode at made
    split at made
    · next id source found _ => exact .inr ⟨rfl, id, source, found, (Except.ok.inj made).symm⟩
    · cases made

theorem once_reuse (shape : Shape) (id : FieldId) (source : Machine.ThreadSource)
    (pairs : List (FieldId × Term)) : (Machine.Code.labels (reuseStart shape id source ++
      (Lowering.copyCode shape ++ wiring pairs))).Nodup := by
  simp [reuseStart, wiring, copyCode_eq, Machine.Code.labels, Shape.setState, Instr.setField,
    Lowering.copyLabel, Lowering.wireLabel]

theorem reaches_itself {machine : Machine} {body rest : Code} {locals : Table LocalId Value} :
    Machine.Reaches machine body (ownFrame own) (.assign (.frame Lowering.held) .self :: rest)
      ⟨locals, world⟩ rest ⟨locals.set Lowering.held (.object own), world⟩ := by
  have evaluated : (evalTerm machine (call machine) (ownFrame own) .self).Gives ⟨locals, world⟩
      (.object own) ⟨locals, world⟩ := fun _ => by simp only [evalTerm]; rfl
  exact .assign evaluated fun _ => rfl

/-- What the vending routine hands out. -/
structure Chosen (shape : Shape) (options : Options) (own : Nat) (world : World) (object : Nat)
    (world' : World) : Prop where
  itself : Reusable shape options own world → object = own ∧
    world'.instances.size = world.instances.size
  copy : ¬Reusable shape options own world → object = world.instances.size ∧
    world'.instances.size = world.instances.size + 1

/-- Before the parameters are restored the object has been chosen and made fresh. -/
theorem reaches_wire {reuse : Code} {pairs : List (FieldId × Term)}
    (made : (if options.reuseTemplate then Lowering.reuseCode outline.shape else .ok []) = .ok reuse)
    (equipped : Equipped outline.shape own world) : ∃ object locals world',
    Machine.Reaches lowered.machine (reuse ++ (Lowering.copyCode outline.shape ++ wiring pairs))
      (ownFrame own) (reuse ++ (Lowering.copyCode outline.shape ++ wiring pairs)) ⟨.empty, world⟩
      (wiring pairs) ⟨locals, world'⟩ ∧
    locals.get? Lowering.held = some (.object object) ∧
    Copied outline.shape own world object world' ∧
    Chosen outline.shape options own world object world' := by
  have sound := outline.built.toSound
  rcases reuse_eq made with ⟨never, rfl⟩ | ⟨reused, id, source, found, rfl⟩
  · obtain ⟨world', copied, size, reaches⟩ := reaches_copy outline _ (wiring pairs) .empty
      (fun id role bears => equipped.present bears)
    refine ⟨_, _, _, reaches, Table.get?_set_self _ _ _, copied, ?_, fun _ => ⟨rfl, size⟩⟩
    exact fun reusable => absurd reusable.1 (by simp [never])
  obtain ⟨state, stated⟩ := equipped.state
  obtain ⟨thread, created⟩ := equipped.creator found
  have reusable : Reusable outline.shape options own world ↔
      state = State.notStarted ∧ thread = world.thread := by
    simp [Reusable, reused, stated, found, created]
  obtain ⟨reads, tested⟩ : ∃ reads, (evalTerm lowered.machine (call lowered.machine)
      (ownFrame own) (untouched outline.shape id source)).Gives ⟨.empty, world⟩
      (.bool (decide (state = State.notStarted ∧ thread = world.thread)))
      ⟨.empty, { world with threadReads := reads }⟩ := gives_untouched source stated created
  have equipped' : Equipped outline.shape own { world with threadReads := reads } :=
    ⟨equipped.present, equipped.state, equipped.creator⟩
  have once := once_reuse outline.shape id source pairs
  by_cases reuses : state = State.notStarted ∧ thread = world.thread
  · have placed := Machine.Code.from?_of_suffix once
      ((List.suffix_append _ _).trans (List.suffix_append _ _))
    have writable : Writable own ⟨.empty, { world with threadReads := reads }⟩
        (.field outline.shape.state) := equipped.present sound.state
    rw [decide_eq_true reuses] at tested
    refine ⟨own, Table.empty.set Lowering.held (.object own), _, ?_, Table.get?_set_self _ _ _,
      (equipped'.copied sound).unasked, fun _ => ⟨rfl, by simp⟩, ?_⟩
    · exact (Machine.Reaches.stay tested).trans ((reaches_setState writable).trans
        (reaches_itself.trans (.goto placed)))
    · exact fun other => absurd (reusable.mpr reuses) other
  · obtain ⟨world', copied, size, copies⟩ := reaches_copy outline
      (reuseStart outline.shape id source ++ (Lowering.copyCode outline.shape ++ wiring pairs))
      (wiring pairs) .empty (fun id role bears => equipped'.present bears)
    have placed : Machine.Code.from? Lowering.copyLabel (reuseStart outline.shape id source ++
        (Lowering.copyCode outline.shape ++ wiring pairs)) =
          some (Lowering.copyCode outline.shape ++ wiring pairs) :=
      Machine.Code.from?_of_suffix once (List.suffix_append _ _)
    rw [decide_eq_false reuses] at tested
    refine ⟨_, _, world', (Machine.Reaches.leave tested placed).trans copies,
      Table.get?_set_self _ _ _, copied.unasked, ?_, fun _ => ⟨rfl, size⟩⟩
    exact fun other => absurd (reusable.mp other) reuses

/-- What handing out an enumerator does. -/
structure Vends (shape : Shape) (options : Options) (own : Nat) (world : World) (object : Nat)
    (world' : World) : Prop extends Vended shape own world object world',
    Chosen shape options own world object world'

theorem vending_returns {body : Code}
    (coded : Lowering.getEnumeratorCode outline.shape options = .ok body)
    (equipped : Equipped outline.shape own world) : ∃ object act',
    Machine.Returns lowered.machine body (ownFrame own) body ⟨.empty, world⟩
      (some (.object object)) act' ∧
    Vends outline.shape options own world object act'.world := by
  obtain ⟨reuse, restore, made, restored, rfl⟩ := getEnumeratorCode_spec coded
  obtain ⟨_, pairs, rfl, restores⟩ := restoreCode_spec restored
  have sound := outline.built.toSound
  have proxies : ∀ proxy ∈ outline.shape.proxies, (world.slot? own proxy.2).isSome :=
    fun proxy proxied => equipped.present (sound.proxy proxied)
  rw [List.append_assoc]
  obtain ⟨object, locals, world', reaches, held, copied, chosen⟩ := reaches_wire outline made equipped
  refine ⟨object, _, reaches.returns (returns_wired sound restores copied proxies held),
    copied.restore sound outline.proxies_once restores proxies, ?_, ?_⟩
  · simpa using chosen.itself
  · simpa using chosen.copy

/-- A consumer that runs a routine of an instance sees its result. -/
theorem callKind_of_returns {machine : Machine} {kind : Machine.RoutineKind}
    {routine : Machine.Routine} {result : Option Value} {act' : Activation}
    (found : machine.routine? kind = some routine)
    (returns : Machine.Returns machine routine.body (ownFrame own) routine.body ⟨.empty, world⟩
      result act') :
    (machine.callKind kind (.object own)).Does world (result.getD .null) act'.world := by
  have itself : Machine.Exec.Does (checked (Value.asObject (.object own))) world own world :=
    Machine.Exec.does_pure own world
  simp only [Machine.callKind, found]
  exact itself.bind ((Machine.call_of_returns returns).bind (Machine.Exec.does_pure _ _))

/-- A routine that returns what another one returns. -/
theorem returns_callSelf {machine : Machine} {body rest : Code} {name : String}
    {routine : Machine.Routine} {value : Value} {act' : Activation} {locals : Table LocalId Value}
    (named : machine.routineNamed? name = some routine)
    (returns : Machine.Returns machine routine.body (ownFrame own) routine.body ⟨.empty, world⟩
      (some value) act') :
    Machine.Returns machine body (ownFrame own) (.ret (some (.callSelf name)) :: rest)
      ⟨locals, world⟩ (some value) ⟨locals, act'.world⟩ := by
  obtain ⟨cost, called⟩ := Machine.call_of_returns returns
  refine ⟨cost + 1, fun fuel => Machine.run_step (.done (some value)) cost (fun fuel => ?_) fuel⟩
  have evaluated : evalTerm machine (call machine) (ownFrame own) (.callSelf name)
      (Activation.withFuel ⟨locals, world⟩ (fuel + cost)) =
      .ok value (Activation.withFuel ⟨locals, act'.world⟩ fuel) := by
    simp only [evalTerm, Machine.Step.inWorld, Machine.callRoutine, named, Activation.withFuel,
      ownFrame_self]
    rw [bind_of_ok (called fuel)]
    rfl
  simp only [Machine.execInstr]
  rw [bind_of_ok evaluated]
  rfl

section
variable (enumerable : outline.kind = .enumerable) (equipped : Equipped outline.shape own world)
include enumerable equipped

theorem getEnumerator_spec : ∃ object world',
    (lowered.machine.getEnumerator (.object own)).Does world (.object object) world' ∧
    Vends outline.shape options own world object world' := by
  obtain ⟨routine, found, _, coded⟩ := outline.routine_getEnumerator enumerable
  obtain ⟨object, act', returns, vends⟩ := vending_returns outline coded equipped
  exact ⟨object, act'.world, callKind_of_returns found returns, vends⟩

theorem objectGetEnumerator_spec : ∃ object world',
    (lowered.machine.objectGetEnumerator (.object own)).Does world (.object object) world' ∧
    Vends outline.shape options own world object world' := by
  obtain ⟨routine, _, named, coded⟩ := outline.routine_getEnumerator enumerable
  obtain ⟨object, act', returns, vends⟩ := vending_returns outline coded equipped
  obtain ⟨outer, found, code⟩ := outline.routine_objectGetEnumerator enumerable
  have outerReturns : Machine.Returns lowered.machine outer.body (ownFrame own) outer.body
      ⟨.empty, world⟩ (some (.object object)) ⟨.empty, act'.world⟩ := by
    rw [code]
    exact returns_callSelf named returns
  exact ⟨object, act'.world, callKind_of_returns found outerReturns, vends⟩

end

end

end Simulation
end Resumable
