import Resumable.Proofs.Vending

/-!
Disposal. Every suspension point leads to its own chain of cleanup routines, or straight to the
end when no region encloses it. A fresh instance has nothing to clean up, and in every other
state disposal does nothing at all.
-/

namespace Resumable

namespace Lowering
open Machine (Code Label Point)

theorem map_disposeTable (next : Label) (points : List Point) :
    (disposeTable next points).map (·.1) = points.map (·.state) := by
  induction points generalizing next with
  | nil => rfl
  | cons point rest ih =>
    unfold disposeTable
    split <;> simp [ih]

theorem labels_disposeChains (next : Label) (points : List Point) :
    ∃ count, Machine.Code.labels (disposeChains next points) = List.range' next count := by
  induction points generalizing next with
  | nil => exact ⟨0, rfl⟩
  | cons point rest ih =>
    unfold disposeChains
    split
    · exact ih next
    · obtain ⟨count, listed⟩ := ih (next + 1)
      have plain : Machine.Code.labels (point.cleanup.map callCleanup) = [] := by
        induction point.cleanup with
        | nil => rfl
        | cons _ _ ih => exact ih
      refine ⟨count + 1, ?_⟩
      rw [Machine.Code.labels_label, Machine.Code.labels_append, plain, List.nil_append,
        List.range'_succ]
      exact congrArg _ listed

/-- The entry of a point in the jump table, and where it leads. -/
theorem disposeTable_entry {points : List Point} {point : Point} (member : point ∈ points)
    (next : Label) : ∃ label, (point.state, label) ∈ disposeTable next points ∧
      (point.cleanup = [] → label = finishLabel) ∧
      (point.cleanup ≠ [] → ∃ rest, .label label :: (point.cleanup.map callCleanup ++
        .goto finishLabel :: rest) <:+ disposeChains next points) := by
  induction points generalizing next with
  | nil => cases member
  | cons first others ih =>
    unfold disposeTable disposeChains
    rcases List.mem_cons.mp member with rfl | later
    · split
      · next none =>
        refine ⟨finishLabel, List.mem_cons_self, fun _ => rfl, fun some => ?_⟩
        exact absurd (List.isEmpty_iff.mp none) some
      · next some =>
        refine ⟨next, List.mem_cons_self, fun none => ?_, fun _ => ⟨_, List.suffix_refl _⟩⟩
        exact absurd (List.isEmpty_iff.mpr none) some
    · split
      · obtain ⟨label, listed, plain, chained⟩ := ih later next
        exact ⟨label, List.mem_cons_of_mem _ listed, plain, chained⟩
      · obtain ⟨label, listed, plain, chained⟩ := ih later (next + 1)
        refine ⟨label, List.mem_cons_of_mem _ listed, plain, fun some => ?_⟩
        obtain ⟨rest, placed⟩ := chained some
        refine ⟨rest, placed.trans ?_⟩
        exact (List.suffix_cons _ _).trans ((List.suffix_append _ _).trans (List.suffix_cons _ _))

theorem once_disposeCode (shape : Shape) (points : List Point) :
    (Machine.Code.labels (disposeCode shape points)).Nodup := by
  obtain ⟨count, listed⟩ := labels_disposeChains 2 points
  have ending : Machine.Code.labels (disposeCode shape points) =
      List.range' 2 count ++ [finishLabel, doneLabel] := by
    rw [← listed]
    exact Machine.Code.labels_append _ _
  rw [ending, List.nodup_append]
  refine ⟨List.nodup_range', by decide, fun label listed other ending => ?_⟩
  simp only [List.mem_range'_1, List.mem_cons, List.not_mem_nil, or_false, finishLabel,
    doneLabel] at listed ending
  grind

section
variable {points : List Point} (numbered : Numbered points) (few : points.length < 2 ^ 63)
include numbered few

theorem nodup_states : (points.map (·.state)).Nodup := by
  rw [List.nodup_iff_getElem?_ne_getElem?]
  intro i j earlier inside same
  have inside : j < points.length := by simpa using inside
  simp only [List.getElem?_map, List.getElem?_eq_getElem inside,
    List.getElem?_eq_getElem (Nat.lt_trans earlier inside), Option.map_some, Option.some.injEq] at same
  have first := toInt_state numbered few (List.getElem?_eq_getElem (Nat.lt_trans earlier inside))
  have second := toInt_state numbered few (List.getElem?_eq_getElem inside)
  rw [same] at first
  omega

theorem caseTarget_dispose {point : Point} {label : Label}
    (listed : (point.state, label) ∈ disposeTable 2 points) (member : point ∈ points) :
    Machine.caseTarget point.state ((State.fresh, finishLabel) :: disposeTable 2 points) doneLabel =
      label := by
  have other : State.fresh ≠ point.state := by
    intro same
    have := state_pos numbered few member
    rw [← same] at this
    exact absurd this (by decide)
  have once : ((disposeTable 2 points).map (·.1)).Nodup :=
    map_disposeTable 2 points ▸ nodup_states numbered few
  have found : (disposeTable 2 points).find? (fun arm => arm.1 = point.state) =
      some (point.state, label) := by
    cases result : (disposeTable 2 points).find? fun arm => arm.1 = point.state with
    | none => simpa using List.find?_eq_none.mp result _ listed
    | some arm =>
      have same : arm.1 = point.state := by simpa using List.find?_some result
      rw [List.inj_on_of_nodup_map once (List.mem_of_find?_eq_some result) listed same]
  rw [Machine.caseTarget, List.find?_cons_of_neg (by simpa using other), found]

end

end Lowering

namespace Simulation
open Lowering (Outline Shape)
open Machine (Activation Code FieldId Point World)
open Structured (State)

section
variable {machine : Machine} {own : Nat} {shape : Shape} {body : Code}

/-- The end of disposal, where the instance becomes finished. -/
def closing (shape : Shape) : Code :=
  [.label Lowering.finishLabel, shape.setState State.finished, .label Lowering.doneLabel, .ret none]

theorem returns_closing {act : Activation}
    (present : (act.world.slot? own shape.state).isSome) :
    Machine.Returns machine body (ownFrame own) (closing shape) act none
      ⟨act.locals, act.world.setSlot own shape.state (.int State.finished)⟩ := by
  have writable : Writable own act (.field shape.state) := present
  exact (Machine.Reaches.label _).returns ((reaches_setState writable).returns
    ((Machine.Reaches.label _).returns .ret_none))

/-- Cleanup routines that end well are called one after another. -/
theorem reaches_unwound {last st : State} {names : Renaming} {world : World} {chain : List String}
    (unwinding : Unwinding machine own shape (.ok () last) chain st names world) (rest : Code)
    (locals : Table LocalId Value) : ∃ names' world',
    Machine.Reaches machine body (ownFrame own) (chain.map Lowering.callCleanup ++ rest)
      ⟨locals, world⟩ rest ⟨locals, world'⟩ ∧
    Advance st names world last names' world' ∧ names'.Consistent ∧
    (world'.slot? own shape.state).isSome := by
  generalize ended : EStateM.Result.ok () last = result at unwinding
  induction unwinding with
  | @done st names world same consistent present =>
    obtain rfl := (EStateM.Result.ok.inj (ended.trans same)).2
    exact ⟨names, world, .refl _ _, .refl _ _ _, consistent, present⟩
  | routine named returns advance others ih =>
    obtain ⟨names', world', reaches, more, consistent, present⟩ := ih
    exact ⟨names', world', (Machine.Reaches.callSelf named returns).trans reaches,
      advance.trans more, consistent, present⟩
  | failure named fails failed => cases ended.trans failed

end

section
variable {method : Method} {options : Options} {lowered : Lowered}
  (outline : Outline method options lowered) {own : Nat} {world : World}
include outline

theorem dispose_of_returns {act' : Activation}
    (returns : Machine.Returns lowered.machine
      (Lowering.disposeCode outline.shape lowered.machine.points) (ownFrame own)
      (Lowering.disposeCode outline.shape lowered.machine.points) ⟨.empty, world⟩ none act') :
    (lowered.machine.dispose (.object own)).Does world () act'.world := by
  obtain ⟨routine, found, code⟩ := outline.routine_dispose
  rw [← code] at returns
  exact (callKind_of_returns found returns).bind (Machine.Exec.does_pure () _)

theorem reaches_disposal {state : Int64} {rest : Code}
    (held : world.slot? own outline.shape.state = some (.int state))
    (leads : Machine.Code.from? (Machine.caseTarget state ((State.fresh, Lowering.finishLabel) ::
      Lowering.disposeTable 2 lowered.machine.points) Lowering.doneLabel)
      (Lowering.disposeCode outline.shape lowered.machine.points) = some rest) :
    Machine.Reaches lowered.machine (Lowering.disposeCode outline.shape lowered.machine.points)
      (ownFrame own) (Lowering.disposeCode outline.shape lowered.machine.points) ⟨.empty, world⟩
      rest ⟨.empty, world⟩ :=
  .switch (gives_field held) leads

theorem placed_closing : Machine.Code.from? Lowering.finishLabel
    (Lowering.disposeCode outline.shape lowered.machine.points) = some (closing outline.shape) :=
  Machine.Code.from?_of_suffix (Lowering.once_disposeCode _ _)
    ((List.suffix_append _ _).trans (List.suffix_cons _ _))

/-- A fresh instance becomes finished. -/
theorem dispose_fresh (held : world.slot? own outline.shape.state = some (.int State.fresh)) :
    (lowered.machine.dispose (.object own)).Does world ()
      (world.setSlot own outline.shape.state (.int State.finished)) := by
  have present : (world.slot? own outline.shape.state).isSome := by simp [held]
  exact dispose_of_returns outline ((reaches_disposal outline held
    (placed_closing outline)).returns (returns_closing present))

/-- A suspended instance runs the cleanups of its point and becomes finished. -/
theorem dispose_suspended (few : lowered.machine.points.length < 2 ^ 63) {point : Point}
    {last st : State} {names : Renaming} (member : point ∈ lowered.machine.points)
    (held : world.slot? own outline.shape.state = some (.int point.state))
    (unwinding : Unwinding lowered.machine own outline.shape (.ok () last) point.cleanup st names
      world) : ∃ names' world',
    (lowered.machine.dispose (.object own)).Does world () world' ∧
    Advance st names world last names' world' ∧ names'.Consistent ∧
    world'.slot? own outline.shape.state = some (.int State.finished) := by
  obtain ⟨label, listed, plain, chained⟩ := Lowering.disposeTable_entry member 2
  have target := Lowering.caseTarget_dispose outline.numbered few listed member
  obtain ⟨names', world', reaches, advance, consistent, present⟩ : ∃ names' world',
      Machine.Reaches lowered.machine (Lowering.disposeCode outline.shape lowered.machine.points)
        (ownFrame own) (Lowering.disposeCode outline.shape lowered.machine.points) ⟨.empty, world⟩
        (closing outline.shape) ⟨.empty, world'⟩ ∧
      Advance st names world last names' world' ∧ names'.Consistent ∧
      (world'.slot? own outline.shape.state).isSome := by
    by_cases none : point.cleanup = []
    · rw [none] at unwinding
      obtain ⟨names', world', reaches, more⟩ := reaches_unwound unwinding (closing outline.shape) .empty
      have leads := placed_closing outline
      rw [← plain none, ← target] at leads
      exact ⟨names', world', (reaches_disposal outline held leads).trans reaches, more⟩
    · obtain ⟨rest, before, chain⟩ := chained none
      obtain ⟨names', world', reaches, more⟩ := reaches_unwound unwinding
        (.goto Lowering.finishLabel :: (rest ++ closing outline.shape)) .empty
      have placed : .label label :: (point.cleanup.map Lowering.callCleanup ++
          .goto Lowering.finishLabel :: (rest ++ closing outline.shape)) <:+
            Lowering.disposeCode outline.shape lowered.machine.points := by
        refine List.IsSuffix.trans ⟨before, ?_⟩ (List.suffix_cons _ _)
        rw [← chain]
        simp [closing]
      have leads := Machine.Code.from?_of_suffix (Lowering.once_disposeCode _ _) placed
      rw [← target] at leads
      exact ⟨names', world', (reaches_disposal outline held leads).trans ((Machine.Reaches.label _).trans
        (reaches.trans (.goto (placed_closing outline)))), more⟩
  refine ⟨names', _, dispose_of_returns outline (reaches.returns (returns_closing present)), ?_,
    consistent, World.slot?_setSlot_self _ present⟩
  exact advance.trans (.of_same rfl rfl (World.setSlot_calls _ _ _ _) (.refl names'))

/-- Disposal in any other state does nothing. -/
theorem dispose_idle {state : Int64}
    (held : world.slot? own outline.shape.state = some (.int state)) (started : state ≠ State.fresh)
    (elsewhere : ∀ point ∈ lowered.machine.points, point.state ≠ state) :
    (lowered.machine.dispose (.object own)).Does world () world := by
  have missing : Machine.caseTarget state ((State.fresh, Lowering.finishLabel) ::
      Lowering.disposeTable 2 lowered.machine.points) Lowering.doneLabel = Lowering.doneLabel := by
    rw [Machine.caseTarget, List.find?_eq_none.mpr]
    intro arm member same
    have state_eq : arm.1 = state := by simpa using same
    rcases List.mem_cons.mp member with rfl | listed
    · exact started state_eq.symm
    · have known : arm.1 ∈ lowered.machine.points.map (·.state) :=
        Lowering.map_disposeTable 2 _ ▸ List.mem_map_of_mem listed
      obtain ⟨point, member, same⟩ := List.mem_map.mp known
      exact elsewhere point member (same.trans state_eq)
  have placed : Machine.Code.from? Lowering.doneLabel
      (Lowering.disposeCode outline.shape lowered.machine.points) =
        some [.label Lowering.doneLabel, .ret none] :=
    Machine.Code.from?_of_suffix (Lowering.once_disposeCode _ _)
      ((List.suffix_append_of_suffix (List.suffix_append [_, _] _)).trans (List.suffix_cons _ _))
  rw [← missing] at placed
  exact dispose_of_returns outline ((reaches_disposal outline held placed).returns
    ((Machine.Reaches.label _).returns .ret_none))

end

end Simulation
end Resumable
