import Resumable.Proofs.Rebinding
import Resumable.Proofs.WellFormed

/-!
The types of a lowered method. Every type of the machine is made of basic types, of
contracts, of the machine itself and of types of the method that were moved, so it names
only parameters of the machine.
-/

namespace Resumable

namespace Ty

theorem paramsAll_eq_flatMap (tys : List Ty) : paramsAll tys = tys.flatMap params := by
  induction tys with
  | nil => rfl
  | cons ty rest ih => rw [paramsAll, ih, List.flatMap_cons]

theorem mem_params_applied {owner : Owner} {name : String} {names : List String} {param : TypeParam}
    (member : param ∈ (applied name owner names).params) :
    param.owner = owner ∧ names[param.index]? = some param.name := by
  simp only [applied, params, paramsAll_eq_flatMap, List.flatMap_map, List.mem_flatMap,
    List.mem_singleton] at member
  obtain ⟨⟨own, index⟩, listed, rfl⟩ := member
  exact ⟨rfl, List.mem_zipIdx_iff_getElem?.mp listed⟩

end Ty

namespace Machine

/-- The types of the parameters, of the result and of the frame variables. -/
def Routine.types (routine : Routine) : List Ty :=
  routine.params.map (·.2) ++ routine.returnType.toList ++ routine.locals.map (·.ty)

theorem Routine.forall_types {routine : Routine} {good : Ty → Prop} :
    (∀ ty ∈ routine.types, good ty) ↔ (∀ param ∈ routine.params, good param.2) ∧
      (∀ ty ∈ routine.returnType.toList, good ty) ∧ ∀ var ∈ routine.locals, good var.ty := by
  simp only [types, List.forall_mem_append, List.forall_mem_map, and_assoc]

/-- All types that occur in the machine. -/
def types (machine : Machine) : List Ty :=
  machine.elementType :: (machine.contracts ++ machine.fields.map (·.ty) ++
    (machine.constructor :: machine.routines).flatMap Routine.types)

end Machine

namespace Lowering
open Machine (Routine)

theorem moves_of_rebind {names : List String} {ty ty' : Ty} (done : rebind names ty = .ok ty') :
    List.Forall₂ (TypeParam.Moves .method .machine names) ty.params ty'.params := by
  unfold rebind at done
  split at done
  · cases done
  · next rebound moved =>
    split at done
    · cases done
    · obtain rfl := Except.ok.inj done
      exact Ty.moves_rebind? ty moved

/-- The element type is a part of the return type. -/
theorem params_elementType {method : Method} {ty : Ty} (typed : elementType method = .ok ty) :
    ty.params ⊆ method.returnType.params := by
  rcases elementType_cases typed with rfl | ⟨kind, returned⟩
  · exact List.nil_subset _
  · rw [returned]
    exact List.subset_append_left _ _

/-- Types that a machine for the method has. -/
inductive Fashioned (method : Method) : Ty → Prop
  | int : Fashioned method .int
  | bool : Fashioned method .bool
  | object : Fashioned method .object
  | contract {kind : Contract} {args : List Ty} (parts : ∀ arg ∈ args, Fashioned method arg) :
    Fashioned method (.contract kind args)
  | own (name : String) : Fashioned method (.applied name .machine method.typeParams)
  | moved {whole ty ty' : Ty} (listed : whole ∈ method.returnType :: method.varTypes)
    (part : ty.params ⊆ whole.params) (done : rebind method.typeParams ty = .ok ty') :
    Fashioned method ty'

namespace Fashioned
variable {method : Method} {ty : Ty}

theorem forall_params {good : TypeParam → Prop} (fashioned : Fashioned method ty)
    (own : ∀ param : TypeParam, param.owner = .machine →
      method.typeParams[param.index]? = some param.name → good param)
    (moved : ∀ whole ∈ method.returnType :: method.varTypes, ∀ old ∈ whole.params,
      ∀ param, old.Moves .method .machine method.typeParams param → good param) :
    ∀ param ∈ ty.params, good param := by
  induction fashioned with
  | int | bool | object => exact List.forall_mem_nil _
  | contract parts ih =>
    intro param member
    rw [Ty.params, Ty.paramsAll_eq_flatMap] at member
    obtain ⟨arg, listed, inside⟩ := List.mem_flatMap.mp member
    exact ih arg listed param inside
  | own name =>
    intro param member
    obtain ⟨owned, declared⟩ := Ty.mem_params_applied member
    exact own param owned declared
  | moved listed part done =>
    intro param member
    obtain ⟨old, among, moves⟩ := exists_of_forall₂ (moves_of_rebind done).flip member
    exact moved _ listed old (part among) param moves

/-- Whatever the types of the method mention, the machine mentions its own parameters. -/
theorem owner_eq (fashioned : Fashioned method ty) : ∀ param ∈ ty.params, param.owner = .machine := by
  refine fashioned.forall_params ?_ ?_
  · intro param owned _
    exact owned
  · intro whole _ old _ param moves
    cases moves with
    | moved => rfl
    | kept foreign =>
      cases owned : old.owner with
      | method => exact absurd owned foreign
      | machine => rfl

/-- In the types of a method that mention only its own parameters, each is replaced. -/
theorem declared (fashioned : Fashioned method ty)
    (apart : ∀ whole ∈ method.returnType :: method.varTypes, whole.mentions .machine = false) :
    ∀ param ∈ ty.params, method.typeParams[param.index]? = some param.name := by
  refine fashioned.forall_params ?_ ?_
  · intro param _ declared
    exact declared
  · intro whole listed old among param moves
    have foreign := (Ty.mentions_eq_false whole).mp (apart whole listed) old among
    cases moves with
    | moved declared => exact declared
    | kept unmoved =>
      cases owned : old.owner with
      | method => exact absurd owned unmoved
      | machine => exact absurd owned foreign

end Fashioned

section
variable {method : Method}

theorem fashioned_element {ty : Ty} (typed : roleType method .current = .ok ty) : Fashioned method ty := by
  obtain ⟨element, named, moved⟩ := except_bind_eq_ok.mp typed
  exact .moved List.mem_cons_self (params_elementType named) moved

theorem fashioned_var {ty ty' : Ty} (typed : ty ∈ method.varTypes)
    (moved : rebind method.typeParams ty = .ok ty') : Fashioned method ty' :=
  .moved (List.mem_cons_of_mem _ typed) (List.Subset.refl _) moved

theorem fashioned_role {role : Machine.Role} {ty : Ty} (typed : roleType method role = .ok ty) :
    Fashioned method ty := by
  cases role with
  | state | initialThread =>
    obtain rfl := Except.ok.inj typed
    exact .int
  | current => exact fashioned_element typed
  | hoisted var =>
    obtain ⟨known, found, moved⟩ := except_bind_eq_ok.mp typed
    exact fashioned_var (Method.mem_varTypes (Lower.require_eq_ok.mp found)) moved
  | proxy index =>
    obtain ⟨param, found, moved⟩ := except_bind_eq_ok.mp typed
    have listed := List.mem_of_getElem? (Lower.require_eq_ok.mp found)
    apply fashioned_var _ moved
    simp only [Method.varTypes, List.mem_append, List.mem_map]
    exact .inl (.inr ⟨param, listed, rfl⟩)

theorem fashioned_frameSymbols {ids : List LocalId} {vars : List Machine.FrameVar}
    (done : frameSymbols method ids = .ok vars) : ∀ var ∈ vars, Fashioned method var.ty := by
  induction ids generalizing vars with
  | nil =>
    obtain rfl := Except.ok.inj done
    exact List.forall_mem_nil _
  | cons id rest ih =>
    simp only [frameSymbols, except_bind_eq_ok, except_pure_eq_ok, Lower.require_eq_ok] at done
    obtain ⟨l, found, ty, moved, others, later, rfl⟩ := done
    refine List.forall_mem_cons.mpr ⟨?_, ih later⟩
    have typed : method.varType? (.loc id) = some l.ty := by simp [Method.varType?, found]
    exact fashioned_var (Method.mem_varTypes typed) moved

theorem fashioned_flatBody {code : Machine.Code} {body : FlatBody}
    (flattened : flatBody method code = .ok body) : ∀ var ∈ body.locals, Fashioned method var.ty := by
  obtain ⟨vars, found, built⟩ := except_bind_eq_ok.mp flattened
  obtain rfl := Except.ok.inj built
  exact fashioned_frameSymbols found

theorem fashioned_contracts (kind : IteratorKind) {element : Ty} (fashioned : Fashioned method element) :
    ∀ ty ∈ contracts kind element, Fashioned method ty := by
  have bare (contract : Contract) : Fashioned method (.contract contract []) :=
    .contract (List.forall_mem_nil _)
  have generic (contract : Contract) : Fashioned method (.contract contract [element]) :=
    .contract (List.forall_mem_singleton.mpr fashioned)
  have common : ∀ ty ∈ [.contract .disposable [], .contract .enumerator [], .enumeratorOf element],
      Fashioned method ty := by
    simp only [List.forall_mem_cons]
    exact ⟨bare _, bare _, generic _, List.forall_mem_nil _⟩
  refine List.forall_mem_append.mpr ⟨common, ?_⟩
  cases kind with
  | enumerator => exact List.forall_mem_nil _
  | enumerable => exact List.forall_mem_cons.mpr ⟨bare _, List.forall_mem_singleton.mpr (generic _)⟩

theorem buildShape_types {kind : IteratorKind} {capture : Capture} {members : Members} {options : Options}
    {names names' : NameSupply} {shape : Shape}
    (built : buildShape method kind capture members options names = .ok shape names') :
    shape.typeParams = method.typeParams ∧ shape.contracts = contracts kind shape.elementType ∧
      roleType method .current = .ok shape.elementType := by
  simp only [buildShape, bind_eq_ok, checked_eq_ok, pure_eq_ok] at built
  obtain ⟨element, _, ⟨found, _⟩, ty, _, ⟨moved, _⟩, _, _, _, _, _, _, _, _, _, _, _, _, _, _, _, _, _, _,
    rfl, _⟩ := built
  exact ⟨rfl, rfl, except_bind_eq_ok.mpr ⟨element, found, moved⟩⟩

end

namespace Outline
variable {method : Method} {options : Options} {lowered : Lowered}
  (outline : Outline method options lowered)
include outline

theorem returnType_eq : outline.expanded.returnType = method.returnType := by
  obtain ⟨locals, same, _⟩ := expandForeach_spec outline.expands
  rw [same]

theorem typeParams_expanded : outline.expanded.typeParams = method.typeParams := by
  obtain ⟨locals, same, _⟩ := expandForeach_spec outline.expands
  rw [same]

theorem fashioned_elementType : Fashioned outline.expanded outline.shape.elementType :=
  fashioned_element (buildShape_types outline.shaped).2.2

theorem fashioned_own : Fashioned outline.expanded
    (.applied outline.shape.name .machine outline.shape.typeParams) := by
  rw [(buildShape_types outline.shaped).1]
  exact .own _

theorem fashioned_cleanup {cleanup : String × FlatBody} (member : cleanup ∈ outline.progress.cleanups) :
    ∀ var ∈ cleanup.2.locals, Fashioned outline.expanded var.ty := by
  obtain ⟨harvest, bodies⟩ := outline.bodies_alone
  rw [bodies.cleanups_left] at member
  obtain ⟨both, among, rfl⟩ := List.mem_map.mp member
  exact fashioned_flatBody (bodies.routines both among).flat

theorem fashioned_enumeratorRoutines {routine : Routine}
    (member : routine ∈ enumeratorRoutines outline.shape outline.dispatch options) :
    ∀ ty ∈ routine.types, Fashioned outline.expanded ty := by
  simp only [enumeratorRoutines, List.mem_cons, List.not_mem_nil, or_false] at member
  refine Routine.forall_types.mpr ?_
  rcases member with rfl | rfl | rfl | rfl | rfl
  · exact ⟨List.forall_mem_nil _, List.forall_mem_singleton.mpr .bool, fashioned_flatBody outline.flattened⟩
  · exact ⟨List.forall_mem_nil _, List.forall_mem_singleton.mpr outline.fashioned_elementType,
      List.forall_mem_nil _⟩
  · exact ⟨List.forall_mem_nil _, List.forall_mem_singleton.mpr .object, List.forall_mem_nil _⟩
  · exact ⟨List.forall_mem_nil _, List.forall_mem_nil _, List.forall_mem_nil _⟩
  · exact ⟨List.forall_mem_nil _, List.forall_mem_nil _, List.forall_mem_nil _⟩

theorem fashioned_vending {routine : Routine} (member : routine ∈ outline.vending) :
    ∀ ty ∈ routine.types, Fashioned outline.expanded ty := by
  have vends := outline.vends
  unfold vendingRoutines at vends
  split at vends
  · obtain ⟨code, _, built⟩ := except_bind_eq_ok.mp vends
    rw [← Except.ok.inj built] at member
    simp only [List.mem_cons, List.not_mem_nil, or_false] at member
    refine Routine.forall_types.mpr ?_
    rcases member with rfl | rfl
    · have enumerator : Fashioned outline.expanded (.enumeratorOf outline.shape.elementType) :=
        .contract (List.forall_mem_singleton.mpr outline.fashioned_elementType)
      exact ⟨List.forall_mem_nil _, List.forall_mem_singleton.mpr enumerator,
        List.forall_mem_singleton.mpr outline.fashioned_own⟩
    · have enumerator : Fashioned outline.expanded (.contract .enumerator []) :=
        .contract (List.forall_mem_nil _)
      exact ⟨List.forall_mem_nil _, List.forall_mem_singleton.mpr enumerator, List.forall_mem_nil _⟩
  · rw [← Except.ok.inj vends] at member
    cases member

theorem fashioned_routine {routine : Routine} (member : routine ∈ lowered.machine.routines) :
    ∀ ty ∈ routine.types, Fashioned outline.expanded ty := by
  rw [outline.routines_eq, outline.cleanups_eq] at member
  rcases List.mem_append.mp member with protocol | cleans
  · rcases List.mem_append.mp protocol with enumerates | vends
    · exact outline.fashioned_enumeratorRoutines enumerates
    · exact outline.fashioned_vending vends
  · obtain ⟨cleanup, among, rfl⟩ := List.mem_map.mp cleans
    exact Routine.forall_types.mpr
      ⟨List.forall_mem_nil _, List.forall_mem_nil _, outline.fashioned_cleanup among⟩

theorem fashioned_constructor :
    ∀ ty ∈ lowered.machine.constructor.types, Fashioned outline.expanded ty := by
  obtain ⟨thread, _, built⟩ := except_bind_eq_ok.mp outline.constructs
  rw [← Except.ok.inj built]
  exact Routine.forall_types.mpr
    ⟨List.forall_mem_singleton.mpr .int, List.forall_mem_nil _, List.forall_mem_nil _⟩

/-- Every type gets into the machine on one of the ways of `Fashioned`. -/
theorem fashioned : ∀ ty ∈ lowered.machine.types, Fashioned outline.expanded ty := by
  obtain ⟨_, contracts, _⟩ := buildShape_types outline.shaped
  simp only [Machine.types, List.forall_mem_cons, List.forall_mem_append, List.forall_mem_map,
    List.forall_mem_flatMap]
  refine ⟨?_, ⟨?_, ?_⟩, outline.fashioned_constructor, fun _ => outline.fashioned_routine⟩
  · rw [outline.elementType_eq]
    exact outline.fashioned_elementType
  · rw [outline.contracts_eq, contracts]
    exact fashioned_contracts _ outline.fashioned_elementType
  · rw [outline.fields_eq]
    intro field member
    exact fashioned_role (buildShape_typed outline.shaped field member)

/-- The locals that the loops take add no parameter of the machine. -/
theorem apart_expanded (apart : ∀ ty ∈ method.returnType :: method.varTypes, ty.mentions .machine = false) :
    ∀ ty ∈ outline.expanded.returnType :: outline.expanded.varTypes, ty.mentions .machine = false := by
  obtain ⟨returned, vars⟩ := List.forall_mem_cons.mp apart
  have known : Known method (fun ty => ty.mentions .machine = false) method.locals :=
    ⟨List.prefix_refl _, vars, fun _ free => free, rfl⟩
  obtain ⟨expanded, expands, _, _, free⟩ := expandForeach_ok known outline.passed
  obtain rfl : expanded = outline.expanded := Except.ok.inj (expands.symm.trans outline.expands)
  refine List.forall_mem_cons.mpr ⟨?_, free⟩
  rw [outline.returnType_eq]
  exact returned

theorem kickoff_apart (apart : ∀ ty ∈ method.returnType :: method.varTypes, ty.mentions .machine = false) :
    ∀ ty ∈ lowered.kickoff.types, ty.mentions .machine = false := by
  obtain ⟨receiver, _, rest⟩ := except_bind_eq_ok.mp outline.kicksOff
  obtain ⟨params, _, built⟩ := except_bind_eq_ok.mp rest
  obtain ⟨returned, vars⟩ := List.forall_mem_cons.mp (outline.apart_expanded apart)
  rw [← Except.ok.inj built]
  refine Routine.forall_types.mpr ⟨?_, List.forall_mem_singleton.mpr returned, ?_⟩
  · simp only [List.forall_mem_map]
    intro param listed
    apply vars
    simp only [Method.varTypes, List.mem_append, List.mem_map]
    exact .inl (.inr ⟨param, listed, rfl⟩)
  · refine List.forall_mem_singleton.mpr ((Ty.mentions_eq_false _).mpr fun param member => ?_)
    obtain ⟨owned, _⟩ := Ty.mem_params_applied member
    rw [owned]
    decide

end Outline
end Lowering

/-- The contexts of the method and of the machine stay apart. When the method's own types are free
of parameters of the machine, those in the machine are declared by it, name and all. -/
theorem Method.contexts_of_lower {method : Method} {platform : Platform} {options : Options}
    {names names' : NameSupply} {lowered : Lowered}
    (done : method.lower platform options names = .ok lowered names') :
    lowered.machine.typeParams = method.typeParams ∧
    (∀ ty ∈ lowered.machine.types, ty.mentions .method = false) ∧
    ((∀ ty ∈ method.returnType :: method.varTypes, ty.mentions .machine = false) →
      (∀ ty ∈ lowered.machine.types, ∀ param ∈ ty.params,
        lowered.machine.typeParams[param.index]? = some param.name) ∧
      ∀ ty ∈ lowered.kickoff.types, ty.mentions .machine = false) := by
  obtain ⟨outline⟩ := Lowering.outline_of_lower done
  obtain ⟨shaped, _, _⟩ := Lowering.buildShape_types outline.shaped
  have typeParams : lowered.machine.typeParams = outline.expanded.typeParams :=
    outline.typeParams_eq.trans shaped
  refine ⟨typeParams.trans outline.typeParams_expanded, ?_, ?_⟩
  · intro ty member
    apply (Ty.mentions_eq_false ty).mpr
    intro param inside
    rw [(outline.fashioned ty member).owner_eq param inside]
    decide
  · intro apart
    refine ⟨?_, outline.kickoff_apart apart⟩
    intro ty member
    rw [typeParams]
    exact (outline.fashioned ty member).declared (outline.apart_expanded apart)

/-- Yields the pairs of its parameter, which it assigns; its cleanup has a local of its own. -/
def Method.storedPairs : Method :=
  { Method.draft "stored_pairs" (.enumerableOf .genericPair) with
    typeParams := ["T", "U"]
    receiver := some (.named "Store" [.methodParam 0 "T"])
    params := [⟨"pairs", .array .genericPair⟩]
    locals := [⟨0, "pair", .genericPair, false⟩, ⟨1, "seen", .enumerableOf .genericPair, false⟩]
    body :=
      [.tryFinally
        [.foreach 0 (.var (.param 0)) [.yield (.ofLocal 0)], .eval (.assign (.param 0) .null)]
        [.declare 1 none, .eval (.call "closed" [.ofLocal 1])]] }

theorem Method.storedPairs_apart :
    ∀ ty ∈ storedPairs.returnType :: storedPairs.varTypes, ty.mentions .machine = false := by
  decide +kernel

theorem Method.contexts_of_lower_storedPairs : ∃ lowered supply,
    storedPairs.lower .standard .standard .empty = .ok lowered supply ∧
    (lowered.machine.types.flatMap Ty.params).length = 25 ∧
    lowered.machine.typeParams = ["T", "U"] ∧
    (∀ ty ∈ lowered.machine.types, ty.mentions .method = false) ∧
    (∀ ty ∈ storedPairs.returnType :: storedPairs.varTypes, ty.mentions .machine = false) ∧
    (∀ ty ∈ lowered.machine.types, ∀ param ∈ ty.params,
      lowered.machine.typeParams[param.index]? = some param.name) ∧
    ∀ ty ∈ lowered.kickoff.types, ty.mentions .machine = false := by
  have evaluated : (result? (storedPairs.lower .standard .standard .empty)).map
      (fun lowered => (lowered.machine.types.flatMap Ty.params).length) = some 25 := by decide +kernel
  obtain ⟨lowered, found, count⟩ := Option.map_eq_some_iff.mp evaluated
  obtain ⟨supply, lowers⟩ := result?_eq_some.mp found
  obtain ⟨typeParams, machine, kickoff⟩ := contexts_of_lower lowers
  obtain ⟨declared, apart⟩ := kickoff storedPairs_apart
  exact ⟨lowered, supply, lowers, count, typeParams, machine, storedPairs_apart, declared, apart⟩

end Resumable
