import Mathlib.Data.List.Nodup
import Resumable.Lowering.Shape
import Resumable.Proofs.Binding

/-!
The fields of a machine. Every field has an identity of its own, so fields of different
roles never share storage: a variable does not disturb the protocol, another variable or
the argument that is kept for the next enumeration.
-/

namespace Resumable

namespace Table
variable {κ α : Type} [DecidableEq κ]

theorem get?_set (table : Table κ α) (key other : κ) (value : α) :
    (table.set key value).get? other = if other = key then some value else table.get? other := by
  split
  · next same => rw [same, get?_set_self]
  · next ne => exact get?_set_of_ne table value ne

theorem get?_foldl_set (pairs : List (κ × α)) (table : Table κ α) {key : κ} {value : α}
    (found : (pairs.foldl (fun table pair => table.set pair.1 pair.2) table).get? key = some value) :
    (key, value) ∈ pairs ∨ table.get? key = some value := by
  induction pairs generalizing table with
  | nil => exact .inr found
  | cons pair rest ih =>
    rcases ih _ found with later | earlier
    · exact .inl (List.mem_cons_of_mem _ later)
    · rw [get?_set] at earlier
      split at earlier
      · next same =>
        obtain rfl := Option.some.inj earlier
        exact .inl (same ▸ List.mem_cons_self)
      · exact .inr earlier

theorem mem_of_get?_ofList {pairs : List (κ × α)} {key : κ} {value : α}
    (found : (ofList pairs).get? key = some value) : (key, value) ∈ pairs := by
  rcases get?_foldl_set pairs empty found with member | absent
  · exact member
  · simp at absent

theorem isSome_get?_foldl_set (pairs : List (κ × α)) (table : Table κ α) {key : κ}
    (entered : (table.get? key).isSome ∨ key ∈ pairs.map (·.1)) :
    ((pairs.foldl (fun table pair => table.set pair.1 pair.2) table).get? key).isSome := by
  induction pairs generalizing table with
  | nil => simpa using entered
  | cons pair rest ih =>
    refine ih _ ?_
    rw [get?_set]
    by_cases same : key = pair.1
    · simp [same]
    · rw [if_neg same]
      simpa [same] using entered

theorem isSome_get?_ofList {pairs : List (κ × α)} {key : κ} (entered : key ∈ pairs.map (·.1)) :
    ((ofList pairs).get? key).isSome :=
  isSome_get?_foldl_set pairs empty (.inr entered)

end Table

namespace Lowering
open Machine (Field FieldId Role)

/-- A field of the machine has this identity and exists for this reason. -/
def Shape.Bears (shape : Shape) (id : FieldId) (role : Role) : Prop :=
  ∃ field ∈ shape.fields, field.id = id ∧ field.role = role

/-- The fields that the shape names are those of the machine, each with its role. -/
structure Shape.Sound (shape : Shape) : Prop where
  once : (shape.fields.map (·.id)).Nodup
  state : shape.Bears shape.state .state
  current : shape.Bears shape.current .current
  thread {id : FieldId} : shape.initialThread = some id → shape.Bears id .initialThread
  slot {var : Var} {id : FieldId} : shape.slot? var = some id → shape.Bears id (.hoisted var)
  proxy {index : Nat} {id : FieldId} : (index, id) ∈ shape.proxies → shape.Bears id (.proxy index)
  stateFirst : (shape.fields.find? fun field => field.role = .state).map (·.id) = some shape.state

theorem Shape.Sound.role_eq {shape : Shape} (sound : shape.Sound) {id : FieldId} {role role' : Role}
    (bears : shape.Bears id role) (bears' : shape.Bears id role') : role = role' := by
  obtain ⟨field, member, rfl, rfl⟩ := bears
  obtain ⟨field', member', same, rfl⟩ := bears'
  rw [List.inj_on_of_nodup_map sound.once member member' same.symm]

theorem Shape.Sound.slot_inj {shape : Shape} (sound : shape.Sound) {var var' : Var} {id : FieldId}
    (slot : shape.slot? var = some id) (slot' : shape.slot? var' = some id) : var = var' := by
  have same := sound.role_eq (sound.slot slot) (sound.slot slot')
  exact Role.hoisted.inj same

theorem Shape.Sound.slot_ne {shape : Shape} (sound : shape.Sound) {var : Var} {id other : FieldId}
    {role : Role} (slot : shape.slot? var = some id) (bears : shape.Bears other role)
    (different : role ≠ .hoisted var) : id ≠ other := by
  rintro rfl
  exact different (sound.role_eq bears (sound.slot slot))

theorem Shape.Sound.current_ne_state {shape : Shape} (sound : shape.Sound) :
    shape.current ≠ shape.state := by
  intro same
  have current := sound.current
  rw [same] at current
  exact nomatch sound.role_eq current sound.state

theorem slotFields_spec {method : Method} {visibility : Visibility} {vars : List Var}
    {next : FieldId} {names names' : NameSupply} {fields : List Field}
    (built : slotFields method visibility next vars names = .ok fields names') :
    fields.map (·.id) = List.range' next vars.length ∧
      fields.map (·.role) = vars.map Role.hoisted := by
  induction vars generalizing next names names' fields with
  | nil =>
    simp only [slotFields, pure_eq_ok] at built
    simp [← built.1]
  | cons var rest ih =>
    simp only [slotFields, bind_eq_ok, pure_eq_ok] at built
    obtain ⟨_, _, _, _, _, _, _, _, _, others, _, builtRest, rfl, _⟩ := built
    obtain ⟨ids, roles⟩ := ih builtRest
    simp [ids, roles, List.range'_succ]

theorem proxyFields_spec {method : Method} {visibility : Visibility} {indices : List Nat}
    {next : FieldId} {names names' : NameSupply} {fields : List Field}
    (built : proxyFields method visibility next indices names = .ok fields names') :
    fields.map (·.id) = List.range' next indices.length ∧
      fields.map (·.role) = indices.map Role.proxy := by
  induction indices generalizing next names names' fields with
  | nil =>
    simp only [proxyFields, pure_eq_ok] at built
    simp [← built.1]
  | cons index rest ih =>
    simp only [proxyFields, bind_eq_ok, pure_eq_ok] at built
    obtain ⟨_, _, _, _, _, _, _, _, _, others, _, builtRest, rfl, _⟩ := built
    obtain ⟨ids, roles⟩ := ih builtRest
    simp [ids, roles, List.range'_succ]

theorem threadFields_spec {kind : IteratorKind} {visibility : Visibility} {next : FieldId}
    {names names' : NameSupply} {fields : List Field}
    (built : threadFields kind visibility next names = .ok fields names') :
    match kind with
    | .enumerator => fields = []
    | .enumerable => ∃ name, fields = [⟨next, name, .int, .initialThread, visibility, true⟩] := by
  cases kind with
  | enumerator =>
    simp only [threadFields, pure_eq_ok] at built
    exact built.1.symm
  | enumerable =>
    simp only [threadFields, bind_eq_ok, pure_eq_ok] at built
    obtain ⟨name, _, _, rfl, _⟩ := built
    exact ⟨name, rfl⟩

/-- A list of keys and the fields made for it, one by one. -/
theorem field_of_zip {α : Type} (role : α → Role) {keys : List α} {fields : List Field}
    (roles : fields.map (·.role) = keys.map role) {key : α} {id : FieldId}
    (paired : (key, id) ∈ keys.zip (fields.map (·.id))) :
    ∃ field ∈ fields, field.id = id ∧ field.role = role key := by
  induction keys generalizing fields with
  | nil => simp at paired
  | cons first rest ih =>
    cases fields with
    | nil => simp at paired
    | cons field others =>
      simp only [List.map_cons, List.cons.injEq] at roles
      simp only [List.map_cons, List.zip_cons_cons, List.mem_cons, Prod.mk.injEq] at paired
      rcases paired with ⟨rfl, rfl⟩ | later
      · exact ⟨field, List.mem_cons_self, rfl, roles.1⟩
      · obtain ⟨found, member, same⟩ := ih roles.2 later
        exact ⟨found, List.mem_cons_of_mem _ member, same⟩

/-- What a shape stores, in terms of what was captured. -/
structure Shape.BuiltFor (shape : Shape) (kind : IteratorKind) (capture : Capture)
    (members : Members) : Prop extends shape.Sound where
  kind_eq : shape.kind = kind
  members_eq : shape.members = members
  thread_isSome : shape.initialThread.isSome ↔ kind = .enumerable
  slot_isSome (var : Var) : (shape.slot? var).isSome ↔ var ∈ capture.hoisted
  proxies_eq : shape.proxies.map (·.1) = proxied kind capture

theorem buildShape_spec {method : Method} {kind : IteratorKind} {capture : Capture}
    {members : Members} {options : Options} {names names' : NameSupply} {shape : Shape}
    (built : buildShape method kind capture members options names = .ok shape names') :
    shape.BuiltFor kind capture members := by
  simp only [buildShape, bind_eq_ok, pure_eq_ok] at built
  obtain ⟨_, _, _, _, _, _, stateName, _, _, currentName, _, _, thread, _, builtThread, slots, _,
    builtSlots, proxies, _, builtProxies, _, _, _, rfl, _⟩ := built
  obtain ⟨slotIds, slotRoles⟩ := slotFields_spec builtSlots
  obtain ⟨proxyIds, proxyRoles⟩ := proxyFields_spec builtProxies
  have threadIds : thread.map (·.id) = List.range' 2 thread.length := by
    have := threadFields_spec builtThread
    cases kind with
    | enumerator => simp_all
    | enumerable => obtain ⟨name, rfl⟩ := this; rfl
  have slotCount : slots.length = capture.hoisted.length := by simpa using congrArg List.length slotIds
  have proxyCount : proxies.length = (proxied kind capture).length := by
    simpa using congrArg List.length proxyIds
  have ids : ∀ count, (0 :: 1 :: List.range' 2 count).Nodup := fun count =>
    List.nodup_range' (s := 0) (n := count + 2)
  exact {
    once := by
      simp only [List.map_append, List.map_cons, List.map_nil, threadIds, slotIds, proxyIds,
        ← slotCount, ← proxyCount, List.append_assoc, List.range'_append_1]
      exact ids _
    state := ⟨_, List.mem_append_left _ (List.mem_append_left _ (List.mem_append_left _
      List.mem_cons_self)), rfl, rfl⟩
    current := ⟨_, List.mem_append_left _ (List.mem_append_left _ (List.mem_append_left _
      (List.mem_cons_of_mem _ List.mem_cons_self))), rfl, rfl⟩
    thread := fun {id} first => by
      have := threadFields_spec builtThread
      cases kind with
      | enumerator => simp_all
      | enumerable =>
        obtain ⟨name, rfl⟩ := this
        exact ⟨⟨2, name, .int, .initialThread, options.visibility.fields, true⟩, by simp,
          Option.some.inj first, rfl⟩
    slot := fun {var id} found => by
      obtain ⟨field, member, same⟩ :=
        field_of_zip Role.hoisted slotRoles (Table.mem_of_get?_ofList found)
      exact ⟨field, List.mem_append_left _ (List.mem_append_right _ member), same⟩
    proxy := fun {index id} paired => by
      obtain ⟨field, member, same⟩ := field_of_zip Role.proxy proxyRoles paired
      exact ⟨field, List.mem_append_right _ member, same⟩
    stateFirst := rfl
    kind_eq := rfl
    members_eq := rfl
    thread_isSome := by
      have := threadFields_spec builtThread
      cases kind with
      | enumerator => simp_all
      | enumerable => obtain ⟨name, rfl⟩ := this; simp
    slot_isSome := fun var => by
      constructor
      · intro found
        obtain ⟨id, found⟩ := Option.isSome_iff_exists.mp found
        exact (List.of_mem_zip (Table.mem_of_get?_ofList found)).1
      · intro member
        refine Table.isSome_get?_ofList ?_
        rw [List.map_fst_zip (by simp [slotCount])]
        exact member
    proxies_eq := List.map_fst_zip (by simp [proxyCount]) }

end Lowering

section
variable {α : Type} [DecidableEq α] {before : α → α → Bool}
  (transitive : ∀ a b c, before a b → before b c → before a c)
  (total : ∀ a b, a ≠ b → before a b = false → before b a)
include transitive total

theorem pairwise_insertSorted (a : α) {items : List α} (sorted : items.Pairwise (before · ·)) :
    (insertSorted before a items).Pairwise (before · ·) := by
  induction items with
  | nil => simp [insertSorted]
  | cons b rest ih =>
    unfold insertSorted
    split
    · exact sorted
    · next ne =>
      obtain ⟨first, sortedRest⟩ := List.pairwise_cons.mp sorted
      split
      · next earlier =>
        refine List.pairwise_cons.mpr ⟨fun c member => ?_, sorted⟩
        rcases List.mem_cons.mp member with rfl | member
        · exact earlier
        · exact transitive a b c earlier (first c member)
      · next later =>
        refine List.pairwise_cons.mpr ⟨fun c member => ?_, ih sortedRest⟩
        rcases (mem_insertSorted before a c rest).mp member with rfl | member
        · exact total c b ne (by simpa using later)
        · exact first c member

theorem pairwise_sortedSet (items : List α) : (sortedSet before items).Pairwise (before · ·) := by
  induction items with
  | nil => simp [sortedSet]
  | cons a rest ih => exact pairwise_insertSorted transitive total a ih

end

theorem Block.pairwise_assignedVars (body : Block) : body.assignedVars.Pairwise (Var.before · ·) := by
  refine pairwise_sortedSet ?_ ?_ _
  · intro a b c
    cases a <;> cases b <;> cases c <;> grind [Var.before]
  · intro a b
    cases a <;> cases b <;> grind [Var.before]

theorem Block.nodup_assignedVars (body : Block) : body.assignedVars.Nodup := by
  refine body.pairwise_assignedVars.imp fun {a b} earlier same => ?_
  subst same
  cases a <;> simp [Var.before] at earlier

theorem Lowering.nodup_assignedParams (body : Block) : (assignedParams body).Nodup := by
  refine body.nodup_assignedVars.filterMap fun a b index found found' => ?_
  cases a <;> cases b <;> simp_all

namespace Lowering

theorem nodup_eraseDups : (ids : List LocalId) → ids.eraseDups.Nodup
  | [] => List.nodup_nil
  | id :: rest => by
    rw [List.eraseDups_cons, List.nodup_cons]
    exact ⟨by simp [List.mem_eraseDups], nodup_eraseDups _⟩
termination_by ids => ids.length
decreasing_by exact Nat.lt_succ_of_le (List.length_filter_le _ _)

/-- Each captured variable is captured once. -/
theorem nodup_hoisted (method : Method) (policy : HoistPolicy) :
    (capture method policy).hoisted.Nodup := by
  have params : ((List.range method.params.length).map Var.param).Nodup :=
    List.nodup_range.map fun _ _ same => Var.param.inj same
  have locals : ((hoistedLocals policy method.body).map Var.loc).Nodup :=
    (nodup_eraseDups _).map fun _ _ same => Var.loc.inj same
  have receiver : (if method.receiver.isSome then [Var.receiver] else []).Nodup := by
    split <;> simp
  unfold capture
  rw [List.nodup_append, List.nodup_append]
  refine ⟨⟨receiver, params, ?_⟩, locals, ?_⟩
  · intro a inFirst b inSecond
    obtain ⟨index, _, rfl⟩ := List.mem_map.mp inSecond
    split at inFirst <;> simp_all
  · intro a inFirst b inSecond
    obtain ⟨id, _, rfl⟩ := List.mem_map.mp inSecond
    split at inFirst <;> grind

def threadRoles : IteratorKind → List Machine.Role
  | .enumerator => []
  | .enumerable => [.initialThread]

/-- The roles of the fields, in the order of the fields. -/
def roles (kind : IteratorKind) (capture : Capture) : List Machine.Role :=
  [.state, .current] ++ threadRoles kind ++ capture.hoisted.map .hoisted ++
    (proxied kind capture).map .proxy

theorem buildShape_fields {method : Method} {kind : IteratorKind} {capture : Capture}
    {members : Members} {options : Options} {names names' : NameSupply} {shape : Shape}
    (built : buildShape method kind capture members options names = .ok shape names') :
    shape.fields.map (·.id) = List.range shape.fields.length ∧
      shape.fields.map (·.role) = roles kind capture := by
  simp only [buildShape, bind_eq_ok, pure_eq_ok] at built
  obtain ⟨_, _, _, _, _, _, _, _, _, _, _, _, thread, _, builtThread, slots, _, builtSlots, proxies, _,
    builtProxies, _, _, _, rfl, _⟩ := built
  obtain ⟨slotIds, slotRoles⟩ := slotFields_spec builtSlots
  obtain ⟨proxyIds, proxyRoles⟩ := proxyFields_spec builtProxies
  have slotCount : slots.length = capture.hoisted.length := by simpa using congrArg List.length slotIds
  have proxyCount : proxies.length = (proxied kind capture).length := by
    simpa using congrArg List.length proxyIds
  have threadSpec : thread.map (·.id) = List.range' 2 thread.length ∧
      thread.map (·.role) = threadRoles kind := by
    have := threadFields_spec builtThread
    cases kind with
    | enumerator => simp_all [threadRoles]
    | enumerable =>
      obtain ⟨name, rfl⟩ := this
      exact ⟨rfl, rfl⟩
  rw [← slotCount] at slotIds
  rw [← proxyCount] at proxyIds
  constructor
  · simp only [List.map_append, List.map_cons, List.map_nil, threadSpec.1, slotIds, proxyIds,
      List.append_assoc, List.range'_append_1]
    rw [List.range_eq_range']
    have front (count : Nat) : [0, 1] ++ List.range' 2 count = List.range' 0 (2 + count) :=
      List.range'_append_1 (s := 0) (m := 2)
    rw [front]
    simp only [List.length_append, List.length_cons, List.length_nil, Nat.zero_add, Nat.reduceAdd]
  · simp only [List.map_append, List.map_cons, List.map_nil, threadSpec.2, slotRoles, proxyRoles, roles]

theorem nodup_roles (kind : IteratorKind) (method : Method) (policy : HoistPolicy) :
    (roles kind (capture method policy)).Nodup := by
  have slots : ((capture method policy).hoisted.map Machine.Role.hoisted).Nodup :=
    (nodup_hoisted method policy).map fun _ _ same => Machine.Role.hoisted.inj same
  have proxies : ((proxied kind (capture method policy)).map Machine.Role.proxy).Nodup := by
    apply List.Nodup.map fun _ _ same => Machine.Role.proxy.inj same
    unfold proxied
    split
    · exact List.nodup_nil
    · exact nodup_assignedParams _
  unfold roles
  cases kind <;> simp [List.nodup_append, threadRoles, slots, proxies]

section
open Machine (Field FieldId Role)

/-- A return type without an argument stands for one with `object`. -/
theorem elementType_cases {method : Method} {ty : Ty} (typed : elementType method = .ok ty) :
    ty = .object ∨ ∃ kind, method.returnType = .contract kind [ty] := by
  unfold elementType at typed
  split at typed
  case h_3 => cases typed
  all_goals
    next args found =>
    rcases args with _ | ⟨element, _ | _⟩
    · exact .inl (Except.ok.inj typed).symm
    · exact .inr ⟨_, Except.ok.inj typed ▸ found⟩
    · cases typed

/-- The type of the fields of a role. -/
def roleType (method : Method) : Role → Except LowerError Ty
  | .state | .initialThread => .ok .int
  | .current => do
    let ty ← elementType method
    rebind method.typeParams ty
  | .hoisted var => do
    let ty ← Lower.require (.noSymbol var) (method.varType? var)
    rebind method.typeParams ty
  | .proxy index => do
    let param ← Lower.require (.noParameter index) method.params[index]?
    rebind method.typeParams param.ty

theorem slotFields_typed {method : Method} {visibility : Visibility} {vars : List Var}
    {next : FieldId} {names names' : NameSupply} {fields : List Field}
    (built : slotFields method visibility next vars names = .ok fields names') :
    ∀ field ∈ fields, roleType method field.role = .ok field.ty := by
  induction vars generalizing next names names' fields with
  | nil =>
    simp only [slotFields, pure_eq_ok] at built
    simp [← built.1]
  | cons var rest ih =>
    simp only [slotFields, bind_eq_ok, checked_eq_ok, pure_eq_ok] at built
    obtain ⟨_, _, _, ty, _, ⟨found, _⟩, ty', _, ⟨moved, _⟩, others, _, builtRest, rfl, _⟩ := built
    refine List.forall_mem_cons.mpr ⟨?_, ih builtRest⟩
    exact except_bind_eq_ok.mpr ⟨ty, found, moved⟩

theorem proxyFields_typed {method : Method} {visibility : Visibility} {indices : List Nat}
    {next : FieldId} {names names' : NameSupply} {fields : List Field}
    (built : proxyFields method visibility next indices names = .ok fields names') :
    ∀ field ∈ fields, roleType method field.role = .ok field.ty := by
  induction indices generalizing next names names' fields with
  | nil =>
    simp only [proxyFields, pure_eq_ok] at built
    simp [← built.1]
  | cons index rest ih =>
    simp only [proxyFields, bind_eq_ok, checked_eq_ok, pure_eq_ok] at built
    obtain ⟨param, _, ⟨found, _⟩, _, _, _, ty, _, ⟨moved, _⟩, others, _, builtRest, rfl, _⟩ := built
    refine List.forall_mem_cons.mpr ⟨?_, ih builtRest⟩
    exact except_bind_eq_ok.mpr ⟨param, found, moved⟩

/-- The role of a field determines its type, whatever else is captured. -/
theorem buildShape_typed {method : Method} {kind : IteratorKind} {capture : Capture}
    {members : Members} {options : Options} {names names' : NameSupply} {shape : Shape}
    (built : buildShape method kind capture members options names = .ok shape names') :
    ∀ field ∈ shape.fields, roleType method field.role = .ok field.ty := by
  simp only [buildShape, bind_eq_ok, checked_eq_ok, pure_eq_ok] at built
  obtain ⟨element, _, ⟨found, _⟩, ty, _, ⟨moved, _⟩, _, _, _, _, _, _, thread, _, builtThread, slots, _,
    builtSlots, proxies, _, builtProxies, _, _, _, rfl, _⟩ := built
  have threadTyped : ∀ field ∈ thread, roleType method field.role = .ok field.ty := by
    have := threadFields_spec builtThread
    cases kind with
    | enumerator => simp_all
    | enumerable =>
      obtain ⟨name, rfl⟩ := this
      exact List.forall_mem_singleton.mpr rfl
  simp only [List.forall_mem_append, List.forall_mem_cons]
  exact ⟨⟨⟨⟨rfl, except_bind_eq_ok.mpr ⟨element, found, moved⟩, List.forall_mem_nil _⟩, threadTyped⟩,
    slotFields_typed builtSlots⟩, proxyFields_typed builtProxies⟩

end

end Lowering
end Resumable
