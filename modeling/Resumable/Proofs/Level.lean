import Resumable.Proofs.Operations

/-!
Worlds that are level: two machines for one method, whose instances have the same values in the
fields that both have. Building instances and handing out enumerators keeps worlds level.
-/

namespace Resumable

namespace Lowering
open Machine (Field FieldId Role)

/-- There is one field for each role, and the shape names all of them. -/
structure Shape.Exact (shape : Shape) : Prop extends shape.Sound where
  unique {id id' : FieldId} {role : Role} : shape.Bears id role → shape.Bears id' role → id = id'
  slotted {id : FieldId} {var : Var} : shape.Bears id (.hoisted var) → shape.slot? var = some id
  proxied {id : FieldId} {index : Nat} : shape.Bears id (.proxy index) → (index, id) ∈ shape.proxies
  stamped {id : FieldId} : shape.Bears id .initialThread → shape.initialThread = some id

/-- Two shapes of one method, whatever they capture. -/
structure Shape.Kin (left right : Shape) : Prop where
  exact : left.Exact
  exact' : right.Exact
  types {field field' : Field} : field ∈ left.fields → field' ∈ right.fields →
    field.role = field'.role → field.ty = field'.ty
  proxies : left.proxies.map (·.1) = right.proxies.map (·.1)
  threads : left.initialThread.isSome ↔ right.initialThread.isSome

theorem Shape.Kin.symm {left right : Shape} (kin : left.Kin right) : right.Kin left where
  exact := kin.exact'
  exact' := kin.exact
  types member member' same := (kin.types member' member same.symm).symm
  proxies := kin.proxies.symm
  threads := kin.threads.symm

namespace Outline
variable {method : Method} {options options' : Options} {lowered lowered' : Lowered}
  (outline : Outline method options lowered)

theorem exact : outline.shape.Exact where
  toSound := outline.built.toSound
  unique := outline.id_eq
  slotted := outline.slot_of_bears
  proxied {id index} bears := by
    have listed := outline.role_mem bears
    have known : index ∈ outline.shape.proxies.map (·.1) := by
      rw [outline.built.proxies_eq]
      cases kind : outline.kind <;> simpa [roles, threadRoles, kind] using listed
    obtain ⟨⟨_, id'⟩, among, rfl⟩ := List.mem_map.mp known
    rwa [outline.id_eq bears (outline.built.proxy among)]
  stamped {id} bears := by
    have listed := outline.role_mem bears
    have enumerable : outline.kind = .enumerable := by
      cases kind : outline.kind with
      | enumerator => simp [roles, threadRoles, kind] at listed
      | enumerable => rfl
    obtain ⟨id', found⟩ := Option.isSome_iff_exists.mp (outline.built.thread_isSome.mpr enumerable)
    rw [found, outline.id_eq bears (outline.built.thread found)]

theorem kind_unique (outline' : Outline method options' lowered') : outline'.kind = outline.kind :=
  Option.some.inj (outline'.classified.symm.trans outline.classified)

theorem kin (outline' : Outline method options' lowered') : outline.shape.Kin outline'.shape where
  exact := outline.exact
  exact' := outline'.exact
  types member member' same := by
    have typed := buildShape_typed outline.shaped _ member
    have typed' := buildShape_typed outline'.shaped _ member'
    rw [outline.expanded_eq outline', ← same] at typed'
    exact Except.ok.inj (typed.symm.trans typed')
  proxies := by
    rw [outline.built.proxies_eq, outline'.built.proxies_eq, outline.expanded_eq outline',
      outline.kind_unique outline']
    rfl
  threads := by
    rw [outline.built.thread_isSome, outline'.built.thread_isSome, outline.kind_unique outline']

end Outline
end Lowering

namespace Simulation
open Lowering (Outline Shape)
open Machine (Field FieldId Role World)

section
variable {shape : Shape} {own object : Nat} {world : World} {id : FieldId} {role : Role}

/-- A store into a field, of an integer if it is the state. -/
theorem Equipped.setSlot (sound : shape.Sound) (equipped : Equipped shape object world)
    (bears : shape.Bears id role) {value : Value} (stated : role = .state → ∃ state, value = .int state)
    (fixed : role ≠ .initialThread) : Equipped shape object (world.setSlot own id value) where
  present bears := (World.isSome_slot?_setSlot value).mpr (.inl (equipped.present bears))
  state := by
    by_cases here : object = own ∧ id = shape.state
    · obtain ⟨rfl, rfl⟩ := here
      obtain ⟨state, rfl⟩ := stated (sound.role_eq bears sound.state)
      exact ⟨state, World.slot?_setSlot_self _ (equipped.present sound.state)⟩
    · rw [World.slot?_setSlot_of_ne value (by grind)]
      exact equipped.state
  creator {thread} found := by
    rw [World.slot?_setSlot_of_ne value (.inr ?_)]
    · exact equipped.creator found
    · rintro rfl
      exact fixed (sound.role_eq bears (sound.thread found))

end

/-- Two worlds that differ only in where variables are stored. -/
structure Level (left right : Shape) (world world' : World) : Prop where
  thread : world'.thread = world.thread
  calls : world'.calls = world.calls
  arrays : world'.arrays = world.arrays
  size : world'.instances.size = world.instances.size
  equipped {object : Nat} : object < world.instances.size → Equipped left object world
  equipped' {object : Nat} : object < world.instances.size → Equipped right object world'
  same {object : Nat} {id id' : FieldId} {role : Role} : left.Bears id role → right.Bears id' role →
    world'.slot? object id' = world.slot? object id

namespace Level
variable {left right : Shape} {own : Nat} {world world' : World} {id id' : FieldId} {role : Role}

/-- Without instances there is nothing to differ in. -/
theorem start (empty : world.instances = #[]) : Level left right world world where
  thread := rfl
  calls := rfl
  arrays := rfl
  size := rfl
  equipped := by simp [empty]
  equipped' := by simp [empty]
  same _ _ := by rw [World.slot?_eq_none_of_ge (by simp [empty]), World.slot?_eq_none_of_ge (by simp [empty])]

/-- A world is level with itself. -/
theorem refl {shape : Shape} (exact : shape.Exact)
    (equipped : ∀ object < world.instances.size, Equipped shape object world) :
    Level shape shape world world where
  thread := rfl
  calls := rfl
  arrays := rfl
  size := rfl
  equipped inside := equipped _ inside
  equipped' inside := equipped _ inside
  same bears bears' := by rw [exact.unique bears bears']

theorem symm (level : Level left right world world') : Level right left world' world where
  thread := level.thread.symm
  calls := level.calls.symm
  arrays := level.arrays.symm
  size := level.size.symm
  equipped inside := level.equipped' (level.size ▸ inside)
  equipped' inside := level.equipped (level.size ▸ inside)
  same bears bears' := (level.same bears' bears).symm

theorem withFuel (level : Level left right world world') (fuel fuel' : Nat) :
    Level left right (world.withFuel fuel) (world'.withFuel fuel') :=
  ⟨level.thread, level.calls, level.arrays, level.size,
    fun inside => (level.equipped inside).of_slots fun _ => rfl,
    fun inside => (level.equipped' inside).of_slots fun _ => rfl, level.same⟩

/-- Both store the same into a field of one role. -/
theorem setSlot (level : Level left right world world') (exact : left.Exact) (exact' : right.Exact)
    (inside : own < world.instances.size) (bears : left.Bears id role) (bears' : right.Bears id' role)
    {value : Value} (stated : role = .state → ∃ state, value = .int state)
    (fixed : role ≠ .initialThread) :
    Level left right (world.setSlot own id value) (world'.setSlot own id' value) where
  thread := by simp [level.thread]
  calls := by simp [level.calls]
  arrays := by simp [level.arrays]
  size := by simp [level.size]
  equipped within :=
    (level.equipped (by simpa using within)).setSlot exact.toSound bears stated fixed
  equipped' within :=
    (level.equipped' (by simpa using within)).setSlot exact'.toSound bears' stated fixed
  same {object other other' role'} held held' := by
    by_cases here : object = own ∧ role' = role
    · obtain ⟨rfl, rfl⟩ := here
      obtain rfl := exact.unique held bears
      obtain rfl := exact'.unique held' bears'
      rw [World.slot?_setSlot_self _ ((level.equipped inside).present bears),
        World.slot?_setSlot_self _ ((level.equipped' inside).present bears')]
    · have apart {shape : Shape} (sound : shape.Sound) {id id' : FieldId} (bears : shape.Bears id role)
          (held : shape.Bears id' role') : object ≠ own ∨ id' ≠ id := by
        by_cases same : object = own
        · refine .inr ?_
          rintro rfl
          exact here ⟨same, sound.role_eq held bears⟩
        · exact .inl same
      rw [World.slot?_setSlot_of_ne _ (apart exact.toSound bears held),
        World.slot?_setSlot_of_ne _ (apart exact'.toSound bears' held'), level.same held held']

/-- One stores into a field that the other does not have. -/
theorem setSlot_left (level : Level left right world world') (exact : left.Exact)
    (bears : left.Bears id role) (alone : ∀ id', ¬ right.Bears id' role) {value : Value}
    (other : role ≠ .state) (fixed : role ≠ .initialThread) :
    Level left right (world.setSlot own id value) world' where
  thread := by simp [level.thread]
  calls := by simp [level.calls]
  arrays := by simp [level.arrays]
  size := by simp [level.size]
  equipped within := (level.equipped (by simpa using within)).setSlot exact.toSound bears
    (fun state => absurd state other) fixed
  equipped' within := level.equipped' (by simpa using within)
  same {object _ _ role'} held held' := by
    refine (level.same held held').trans (World.slot?_setSlot_of_ne value (.inr ?_)).symm
    rintro rfl
    exact alone _ (exact.role_eq held bears ▸ held')

/-- Both have a new or a changed instance, which agrees in the fields that both have. -/
theorem renew {next next' : World} {object : Nat} (level : Level left right world world')
    (thread : next.thread = world.thread) (thread' : next'.thread = world'.thread)
    (calls : next.calls = world.calls) (calls' : next'.calls = world'.calls)
    (arrays : next.arrays = world.arrays) (arrays' : next'.arrays = world'.arrays)
    (size : next'.instances.size = next.instances.size)
    (grown : ∀ other < next.instances.size, other ≠ object → other < world.instances.size)
    (others : ∀ other id, other ≠ object → next.slot? other id = world.slot? other id)
    (others' : ∀ other id, other ≠ object → next'.slot? other id = world'.slot? other id)
    (equipped : Equipped left object next) (equipped' : Equipped right object next')
    (same : ∀ id id' role, left.Bears id role → right.Bears id' role →
      next'.slot? object id' = next.slot? object id) : Level left right next next' where
  thread := by rw [thread', level.thread, thread]
  calls := by rw [calls', level.calls, calls]
  arrays := by rw [arrays', level.arrays, arrays]
  size := size
  equipped {other} inside := by
    by_cases here : other = object
    · rw [here]
      exact equipped
    · exact (level.equipped (grown other inside here)).of_slots fun id => others other id here
  equipped' {other} inside := by
    by_cases here : other = object
    · rw [here]
      exact equipped'
    · exact (level.equipped' (grown other inside here)).of_slots fun id => others' other id here
  same {other id id' role} bears bears' := by
    by_cases here : other = object
    · rw [here]
      exact same id id' role bears bears'
    · rw [others other id here, others' other id' here, level.same bears bears']

/-- Both build an instance that has nothing but the inputs of one call. -/
theorem invoked (level : Level left right world world') (kin : left.Kin right) {next next' : World}
    {state : Int64} {receiver : Option Value} {args : List Value}
    (constructed : Constructed left state world next) (constructed' : Constructed right state world' next')
    (primed : Primed left world.instances.size receiver args next)
    (primed' : Primed right world'.instances.size receiver args next')
    (blank : Blank left IsUnset world.instances.size next)
    (blank' : Blank right IsUnset world'.instances.size next') : Level left right next next' := by
  have equipped' := constructed'.equipped
  rw [level.size] at primed' blank' equipped'
  refine level.renew constructed.thread constructed'.thread constructed.calls constructed'.calls
    constructed.arrays constructed'.arrays ?_ ?_ (fun _ id => constructed.others id)
    (fun _ id => level.size ▸ constructed'.others id) constructed.equipped equipped' ?_
  · rw [constructed.size, constructed'.size, level.size]
  · intro other inside apart
    rw [constructed.size] at inside
    omega
  · intro id id' role bears bears'
    have unset (chosen : IsUnset role) :
        next'.slot? world.instances.size id' = next.slot? world.instances.size id := by
      obtain ⟨field, member, rfl, rfl⟩ := bears
      obtain ⟨field', member', rfl, same⟩ := bears'
      rw [blank field member chosen, blank' field' member' (same ▸ chosen),
        kin.types member member' same.symm]
    cases role with
    | state =>
      rw [kin.exact.unique bears kin.exact.state, kin.exact'.unique bears' kin.exact'.state,
        constructed.state, ← level.size, constructed'.state]
    | current => exact unset trivial
    | initialThread =>
      rw [constructed.creator (kin.exact.stamped bears), ← level.size,
        constructed'.creator (kin.exact'.stamped bears'), level.thread]
    | hoisted var =>
      have slot := kin.exact.slotted bears
      have slot' := kin.exact'.slotted bears'
      cases var with
      | receiver => rw [primed.receiver slot, primed'.receiver slot']
      | param index => rw [primed.params slot, primed'.params slot']
      | loc _ => exact unset trivial
    | proxy index =>
      rw [primed.proxy (kin.exact.proxied bears), primed'.proxy (kin.exact'.proxied bears')]

section
variable {options options' : Options}

/-- An instance that may be handed out itself on one side may be so on the other. -/
theorem reusable (level : Level left right world world') (kin : left.Kin right)
    (reuse : options'.reuseTemplate = options.reuseTemplate) (able : Reusable left options own world) :
    Reusable right options' own world' := by
  obtain ⟨reused, untouched, id, found, created⟩ := able
  obtain ⟨id', found'⟩ := Option.isSome_iff_exists.mp (kin.threads.mp (by rw [found]; rfl))
  refine ⟨by rw [reuse, reused], ?_, id', found', ?_⟩
  · rw [level.same kin.exact.state kin.exact'.state, untouched]
  · rw [level.same (kin.exact.thread found) (kin.exact'.thread found'), created, level.thread]

/-- Both hand out the same enumerator. -/
theorem vended (level : Level left right world world') (kin : left.Kin right)
    (reuse : options'.reuseTemplate = options.reuseTemplate) {object object' : Nat} {next next' : World}
    (inside : own < world.instances.size) (vends : Vends left options own world object next)
    (vends' : Vends right options' own world' object' next') :
    object' = object ∧ Level left right next next' := by
  have chosen : object' = object ∧ next'.instances.size = next.instances.size ∧
      ∀ other < next.instances.size, other ≠ object → other < world.instances.size := by
    by_cases able : Reusable left options own world
    · obtain ⟨rfl, size⟩ := vends.itself able
      obtain ⟨rfl, size'⟩ := vends'.itself (level.reusable kin reuse able)
      exact ⟨rfl, by rw [size', size, level.size], fun other within _ => size ▸ within⟩
    · obtain ⟨rfl, size⟩ := vends.copy able
      obtain ⟨rfl, size'⟩ := vends'.copy fun able' => able (level.symm.reusable kin.symm reuse.symm able')
      refine ⟨level.size, by rw [size', size, level.size], fun other within apart => ?_⟩
      omega
  obtain ⟨rfl, size, grown⟩ := chosen
  refine ⟨rfl, level.renew vends.thread vends'.thread vends.calls vends'.calls vends.arrays vends'.arrays
    size grown (fun _ id => vends.others id) (fun _ id => vends'.others id) vends.equipped vends'.equipped ?_⟩
  intro id id' role bears bears'
  have proxied (index : Nat) : (∃ proxy, (index, proxy) ∈ left.proxies) ↔ ∃ proxy, (index, proxy) ∈ right.proxies := by
    have listed := congrArg (index ∈ ·) kin.proxies
    simpa using listed
  have kept (captured : role.isCaptured) (plain : ∀ index proxy, (index, proxy) ∈ left.proxies → role ≠ .hoisted (.param index)) :
      next'.slot? object' id' = next.slot? object' id := by
    rw [vends.captured bears captured fun proxy => plain proxy.1 proxy.2,
      vends'.captured bears' captured fun proxy member => ?_, level.same bears bears']
    obtain ⟨other, listed⟩ := (proxied proxy.1).mpr ⟨proxy.2, member⟩
    exact plain proxy.1 other listed
  cases role with
  | state =>
    rw [kin.exact.unique bears kin.exact.state, kin.exact'.unique bears' kin.exact'.state,
      vends.state, vends'.state]
  | current =>
    by_cases itself : object' = own
    · have remains := vends.remains itself bears (.inl rfl)
      have remains' := vends'.remains itself bears' (.inl rfl)
      rw [itself, remains, remains', level.same bears bears']
    · obtain ⟨field, member, rfl, role⟩ := bears
      obtain ⟨field', member', rfl, role'⟩ := bears'
      rw [vends.copied itself member role, vends'.copied itself member' role',
        kin.types member member' (role.trans role'.symm)]
  | initialThread =>
    by_cases itself : object' = own
    · have remains := vends.remains itself bears (.inr rfl)
      have remains' := vends'.remains itself bears' (.inr rfl)
      rw [itself, remains, remains', level.same bears bears']
    · rw [vends.stamped itself (kin.exact.stamped bears), vends'.stamped itself (kin.exact'.stamped bears'),
        level.thread]
  | hoisted var =>
    by_cases restored : ∃ index proxy, (index, proxy) ∈ left.proxies ∧ var = .param index
    · obtain ⟨index, proxy, listed, rfl⟩ := restored
      obtain ⟨proxy', listed'⟩ := (proxied index).mp ⟨proxy, listed⟩
      rw [vends.restored listed (kin.exact.slotted bears), vends'.restored listed' (kin.exact'.slotted bears'),
        level.same (kin.exact.proxy listed) (kin.exact'.proxy listed')]
    · refine kept rfl fun index proxy listed same => restored ⟨index, proxy, listed, ?_⟩
      simpa using same
  | proxy index => exact kept rfl nofun

end

end Level

end Simulation
end Resumable
