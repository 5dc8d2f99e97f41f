import Mathlib.Algebra.Group.Nat.Defs
import Resumable.Proofs.Cleanups
import Resumable.Proofs.Outline

/-!
Advancing an instance from one suspension point to the next. Every state leads to its own
place in the resumable body, so what a run of the method does between two values, one
advance of the machine does.
-/

namespace Resumable

namespace State

theorem toInt_suspendedAt {k : Nat} (few : k + 1 < 2 ^ 63) : (suspendedAt k).toInt = k + 1 := by
  have shifted : suspendedAt k = Int64.ofNat (k + 1) := (Int64.ofNat_add k 1).symm
  rw [shifted, Int64.toInt_ofNat_of_lt few]
  rfl

end State

namespace Lowering
open Machine (Code Label Point caseTarget)

section
variable {points : List Point} (numbered : Numbered points) (few : points.length < 2 ^ 63)
include numbered few

theorem toInt_state {k : Nat} {point : Point} (found : points[k]? = some point) :
    point.state.toInt = k + 1 := by
  obtain ⟨inside, _⟩ := List.getElem?_eq_some_iff.mp found
  rw [numbered k point found, State.toInt_suspendedAt (by omega)]

theorem state_pos {point : Point} (member : point ∈ points) : 0 < point.state.toInt := by
  obtain ⟨k, found⟩ := List.getElem?_of_mem member
  rw [toInt_state numbered few found]
  omega

theorem state_le {point : Point} (member : point ∈ points) :
    point.state.toInt ≤ points.length := by
  obtain ⟨k, found⟩ := List.getElem?_of_mem member
  obtain ⟨inside, _⟩ := List.getElem?_eq_some_iff.mp found
  rw [toInt_state numbered few found]
  omega

/-- No two points share a state. -/
theorem state_inj {point point' : Point} (member : point ∈ points) (member' : point' ∈ points)
    (same : point.state = point'.state) : point = point' := by
  obtain ⟨k, found⟩ := List.getElem?_of_mem member
  obtain ⟨k', found'⟩ := List.getElem?_of_mem member'
  have first := toInt_state numbered few found
  have second := toInt_state numbered few found'
  have position : k = k' := by
    rw [same] at first
    omega
  subst position
  exact Option.some.inj (found.symm.trans found')

/-- A state between one and the number of points belongs to a point. -/
theorem exists_point {state : Int64} (above : 0 < state.toInt) (below : state.toInt ≤ points.length) :
    ∃ point ∈ points, point.state = state := by
  obtain ⟨k, position⟩ : ∃ k : Nat, state.toInt = k + 1 := ⟨(state.toInt - 1).toNat, by omega⟩
  have inside : k < points.length := by omega
  refine ⟨points[k], List.getElem_mem inside, ?_⟩
  rw [← Int64.toInt_inj, toInt_state numbered few (List.getElem?_eq_getElem inside), position]

/-- A jump on the state finds the entry for its point. -/
theorem find?_state {α : Type} (entry : Point → α) {point : Point} (member : point ∈ points) :
    (points.map fun p => (p.state, entry p)).find? (fun arm => arm.1 = point.state) =
      some (point.state, entry point) := by
  have found : points.find? (fun p => p.state = point.state) = some point := by
    cases result : points.find? (fun p => p.state = point.state) with
    | none =>
      have := List.find?_eq_none.mp result point member
      simp at this
    | some other =>
      have same : other.state = point.state := by simpa using List.find?_some result
      rw [state_inj numbered few (List.mem_of_find?_eq_some result) member same]
  rw [List.find?_map]
  simpa [Function.comp_def] using ⟨point, found, rfl, rfl⟩

theorem caseTarget_point {point : Point} (member : point ∈ points) :
    caseTarget point.state ((State.fresh, startLabel) :: points.map fun p => (p.state, p.resume))
      failLabel = point.resume := by
  have other : State.fresh ≠ point.state := by
    intro same
    have := state_pos numbered few member
    rw [← same] at this
    exact absurd this (by decide)
  rw [caseTarget, List.find?_cons_of_neg (by simpa using other), find?_state numbered few _ member]

end

end Lowering

namespace Simulation
open Lowering (Outline Shape)
open Machine (Activation Code FieldId Instr Label Point World call caseTarget evalTerm)
open Structured (Flow Run State Unreached)

theorem gives_field {machine : Machine} {own : Nat} {act : Activation} {id : FieldId} {value : Value}
    (held : act.world.slot? own id = some value) :
    (evalTerm machine (call machine) (ownFrame own) (.field id)).Gives act value act := by
  simp only [Machine.Term.field, evalTerm]
  exact gives_load (ownFrame_self own) held

section
variable {method : Method} {options : Options} {lowered : Lowered}
  (outline : Outline method options lowered) {own : Nat} {act : Activation}

theorem reaches_entry {state : Int64} {rest : Code}
    (held : act.world.slot? own outline.shape.state = some (.int state))
    (leads : Machine.Code.from? (caseTarget state ((State.fresh, Lowering.startLabel) ::
      lowered.machine.points.map fun p => (p.state, p.resume)) Lowering.failLabel) outline.body =
        some rest) :
    Machine.Reaches lowered.machine outline.body (ownFrame own) outline.body act rest act :=
  .switch (gives_field held) leads

/-- A fresh instance starts with the first statement. -/
theorem reaches_start (held : act.world.slot? own outline.shape.state = some (.int State.fresh)) :
    Machine.Reaches lowered.machine outline.body (ownFrame own) outline.body act
      (outline.code ++ outline.shape.finish)
      (put own act (.int State.running) (.field outline.shape.state)) := by
  have placed : .label Lowering.startLabel :: outline.shape.setState State.running ::
      (outline.code ++ outline.shape.finish) <:+ outline.body := List.suffix_append _ _
  have leads := Machine.Code.from?_of_suffix outline.once placed
  have present : Writable own act (.field outline.shape.state) := by simp [Writable, held]
  exact (reaches_entry outline held leads).trans ((Machine.Reaches.label _).trans
    (reaches_setState present))

/-- A suspended instance goes on behind its resume label. -/
theorem reaches_resume (few : lowered.machine.points.length < 2 ^ 63) {point : Point} {rest : Code}
    (member : point ∈ lowered.machine.points)
    (held : act.world.slot? own outline.shape.state = some (.int point.state))
    (placed : .label point.resume :: rest <:+ outline.body) :
    Machine.Reaches lowered.machine outline.body (ownFrame own) outline.body act rest act := by
  have leads := Machine.Code.from?_of_suffix outline.once placed
  rw [← Lowering.caseTarget_point outline.numbered few member] at leads
  exact (reaches_entry outline held leads).trans (.label _)

/-- An instance in any other state answers that there is nothing. -/
theorem returns_exhausted {state : Int64}
    (held : act.world.slot? own outline.shape.state = some (.int state)) (started : state ≠ State.fresh)
    (elsewhere : ∀ point ∈ lowered.machine.points, point.state ≠ state) :
    Machine.Returns lowered.machine outline.body (ownFrame own) outline.body act
      (some (.bool false)) act := by
  have placed : .label Lowering.failLabel :: .ret (some (.bool false)) :: .label Lowering.startLabel ::
      outline.shape.setState State.running :: (outline.code ++ outline.shape.finish) <:+
        outline.body := List.suffix_cons _ _
  have leads := Machine.Code.from?_of_suffix outline.once placed
  have missing : caseTarget state ((State.fresh, Lowering.startLabel) ::
      lowered.machine.points.map fun p => (p.state, p.resume)) Lowering.failLabel =
        Lowering.failLabel := by
    rw [caseTarget, List.find?_eq_none.mpr]
    intro arm member
    simp only [List.mem_cons, List.mem_map] at member
    rcases member with rfl | ⟨point, member, rfl⟩
    · simpa using started.symm
    · simpa using elsewhere point member
  rw [← missing] at leads
  refine (reaches_entry outline held leads).returns ((Machine.Reaches.label _).returns (.ret ?_))
  exact fun _ => by simp only [evalTerm]; rfl

/-- Cleanup routines run one by one and then leave the method in its last state. -/
inductive Unwinding (machine : Machine) (own : Nat) (shape : Shape)
    (result : EStateM.Result EvalError State Unit) : List String → State → Renaming → World → Prop where
  | done {st : State} {names : Renaming} {world : World} (last : result = .ok () st)
      (consistent : names.Consistent) (present : (world.slot? own shape.state).isSome) :
      Unwinding machine own shape result [] st names world
  | routine {st st' : State} {names names' : Renaming} {name : String} {chain : List String}
      {routine : Machine.Routine} {world : World} {act' : Activation}
      (named : machine.routineNamed? name = some routine)
      (returns : Machine.Returns machine routine.body (ownFrame own) routine.body ⟨.empty, world⟩
        none act')
      (advance : Advance st names world st' names' act'.world)
      (others : Unwinding machine own shape result chain st' names' act'.world) :
      Unwinding machine own shape result (name :: chain) st names world
  | failure {st last : State} {names : Renaming} {name : String} {chain : List String}
      {routine : Machine.Routine} {world : World} {e : EvalError}
      (named : machine.routineNamed? name = some routine)
      (fails : Machine.Fails machine routine.body (ownFrame own) routine.body ⟨.empty, world⟩ e)
      (failed : result = .error e last) :
      Unwinding machine own shape result (name :: chain) st names world

/-- From a position in the resumable body the machine goes on as the method does, now and whenever
it is advanced again, as long as nobody else touches the instance. The method ends in `result`. -/
inductive Proceeds (own : Nat) (limit : Option Nat) (result : EStateM.Result EvalError State Unit) :
    State → Renaming → Code → Activation → Prop where
  | yields {st st' : State} {names names' : Renaming} {code : Code} {act act' : Activation}
      {value : Value} {point : Point}
      (returns : Machine.Returns lowered.machine outline.body (ownFrame own) code act
        (some (.bool true)) act')
      (advance : Advance st names act.world st' names' act'.world)
      (paused : PausedAt outline.shape own lowered.machine.points names' value point act')
      (early : Unreached limit (produced st' value))
      (again : ∀ world, Undisturbed own act'.world world →
        Proceeds own limit result (produced st' value) names' outline.body ⟨.empty, world⟩) :
      Proceeds own limit result st names code act
  | stops {st st' : State} {names names' : Renaming} {code : Code} {act act' : Activation}
      {value : Value} {point : Point}
      (returns : Machine.Returns lowered.machine outline.body (ownFrame own) code act
        (some (.bool true)) act')
      (advance : Advance st names act.world st' names' act'.world)
      (paused : PausedAt outline.shape own lowered.machine.points names' value point act')
      (reached : limit = some (produced st' value).values.size)
      (unwinding : ∀ world, Undisturbed own act'.world world →
        Unwinding lowered.machine own outline.shape result point.cleanup (produced st' value) names'
          world) :
      Proceeds own limit result st names code act
  | ends {st last : State} {names names' : Renaming} {code : Code} {act act' : Activation}
      (returns : Machine.Returns lowered.machine outline.body (ownFrame own) code act
        (some (.bool false)) act')
      (advance : Advance st names act.world last names' act'.world)
      (finished : act'.world.slot? own outline.shape.state = some (.int State.finished))
      (consistent : names'.Consistent) (ended : result = .ok () last) :
      Proceeds own limit result st names code act
  | fails {st last : State} {names : Renaming} {code : Code} {act : Activation} {e : EvalError}
      (fails : Machine.Fails lowered.machine outline.body (ownFrame own) code act e)
      (failed : result = .error e last) :
      Proceeds own limit result st names code act

theorem Proceeds.back {own : Nat} {limit : Option Nat} {result : EStateM.Result EvalError State Unit}
    {st st' : State} {names names' : Renaming} {code code' : Code} {act act' : Activation}
    (advance : Advance st names act.world st' names' act'.world)
    (reaches : Machine.Reaches lowered.machine outline.body (ownFrame own) code act code' act')
    (later : Proceeds outline own limit result st' names' code' act') :
    Proceeds outline own limit result st names code act := by
  cases later with
  | yields returns more paused early again =>
    exact .yields (reaches.returns returns) (advance.trans more) paused early again
  | stops returns more paused reached unwinding =>
    exact .stops (reaches.returns returns) (advance.trans more) paused reached unwinding
  | ends returns more finished consistent ended =>
    exact .ends (reaches.returns returns) (advance.trans more) finished consistent ended
  | fails fails failed => exact .fails (reaches.fails fails) failed

/-- What the code of the body has to achieve. -/
def session (own : Nat) (limit : Option Nat) (result : EStateM.Result EvalError State Unit) :
    Goal lowered.machine own outline.body where
  Holds := Proceeds outline own limit result
  Unwinds := Unwinding lowered.machine own outline.shape result
  Fails e := ∃ last, result = .error e last
  back := Proceeds.back outline
  fail fails failed := by
    obtain ⟨last, failed⟩ := failed
    exact .fails fails failed

theorem session_pauses (few : lowered.machine.points.length < 2 ^ 63) (own : Nat) (limit : Option Nat)
    (result : EStateM.Result EvalError State Unit) :
    (session outline own limit result).Pauses outline.shape limit lowered.machine.points where
  pause {st names rest act value point} paused early placed again := by
    refine .yields (.ret fun _ => ?_) (.refl st names act.world) paused early fun world undisturbed => ?_
    · simp only [evalTerm]
      rfl
    · have held : world.slot? own outline.shape.state = some (.int point.state) :=
        (undisturbed.slots _).trans paused.state
      exact Proceeds.back outline (.refl _ names world)
        (reaches_resume outline few paused.known held ((List.suffix_cons _ _).trans placed))
        (again world undisturbed)
  last {st names rest act value point} paused reached unwinds := by
    refine .stops (.ret fun _ => ?_) (.refl st names act.world) paused reached unwinds
    simp only [evalTerm]
    rfl
  unwind named returns advance others := .routine named returns advance others
  unwindFails named fails failed := by
    obtain ⟨last, failed⟩ := failed
    exact .failure named fails failed

/-- An instance of a lowered method. -/
def setting (own : Nat) (limit : Option Nat) : Setting where
  machine := lowered.machine
  method := outline.expanded
  shape := outline.shape
  own := own
  limit := limit
  points := lowered.machine.points
  cleanups := outline.progress.cleanups
  sound := outline.built.toSound
  named _ member := ⟨_, outline.routine_cleanup member, rfl⟩

/-- At the end of the body the machine becomes finished. -/
theorem proceeds_finish {own : Nat} {limit : Option Nat} {scope : List LocalId} {last : State}
    {names : Renaming} {act : Activation} (rest : Code)
    (matching : Matches outline.shape own scope names last act) :
    Proceeds outline own limit (.ok () last) last names (outline.shape.finish ++ rest) act := by
  have present : Writable own act (.field outline.shape.state) :=
    matching.present outline.built.state
  have finished := content_put_self present (.int State.finished)
  have kept : Advance last names act.world last names
      (put own act (.int State.finished) (.field outline.shape.state)).world :=
    .of_same rfl rfl (by simp) (.refl names)
  refine .ends ((reaches_setState present).returns (.ret fun _ => ?_)) kept finished
    matching.between.consistent rfl
  simp only [evalTerm]
  rfl

section
variable {own : Nat} {limit : Option Nat} {st : State}

theorem emits_finish {code : Code}
    (emits : (Lowering.Exits.body outline.expanded outline.shape).onStop.Emits code) :
    code = outline.shape.finish := by
  obtain ⟨p, p', taken⟩ := emits
  exact (pure_eq_ok.mp taken).1.symm

theorem site_body (few : lowered.machine.points.length < 2 ^ 63) (live : Unreached limit st)
    (result : EStateM.Result EvalError State Unit) :
    (setting outline own limit).Site (session outline own limit result)
      (.body outline.expanded outline.shape) (Stmt.suspensionsAll outline.expanded.body ≠ 0)
      outline.progress st where
  once := outline.once
  tidy := Lowering.Exits.tidy_body _ _
  resumes _ :=
    { pauses := session_pauses outline few own limit result
      points := ⟨[], (List.append_nil _).trans outline.machinePoints_eq.symm⟩
      cleanups := List.prefix_refl _
      stops := ⟨outline.shape.finish, outline.progress, outline.progress, rfl⟩ }
  live _ := live

/-- However the statements of the body end, the machine ends with them. -/
theorem continues_body
    (data : ∀ e last, Structured.runBody outline.expanded limit st = .error e last → e.isData) :
    (setting outline own limit).Continues
      (session outline own limit (Structured.runBody outline.expanded limit st))
      (.body outline.expanded outline.shape) outline.shape.finish []
      (Stmt.scopeAfter [] outline.expanded.body)
      (Structured.execBlock outline.expanded limit outline.expanded.body st) := by
  cases executed : Structured.execBlock outline.expanded limit outline.expanded.body st with
  | error e last =>
    have failed : Structured.runBody outline.expanded limit st = .error e last :=
      bind_of_error executed
    exact ⟨data e last failed, last, failed⟩
  | ok flow last =>
    cases flow with
    | next =>
      have ended : Structured.runBody outline.expanded limit st = .ok () last := bind_of_ok executed
      intro names act matching
      have finishes : Proceeds outline own limit (.ok () last) last names (outline.shape.finish ++ [])
          act := proceeds_finish outline [] matching
      rw [List.append_nil] at finishes
      rw [ended]
      exact finishes
    | breaking =>
      intro code rest names act emits
      obtain ⟨p, p', taken⟩ := emits
      simp [Lowering.Exits.body, Lowering.Exit.none, Lowering.Exit.take] at taken
    | continuing =>
      intro code rest names act emits
      obtain ⟨p, p', taken⟩ := emits
      simp [Lowering.Exits.body, Lowering.Exit.none, Lowering.Exit.take] at taken
    | stopping =>
      have ended : Structured.runBody outline.expanded limit st = .ok () last := bind_of_ok executed
      rw [ended]
      refine ⟨fun _ code rest names act emits _ matching => ?_, fun _ _ names world matching => ?_⟩
      · rw [emits_finish outline emits]
        exact proceeds_finish outline rest matching
      · exact .done rfl matching.between.consistent (matching.present outline.built.state)

/-- The body of a fresh instance that holds the arguments proceeds as the method does. -/
theorem proceeds_start (few : lowered.machine.points.length < 2 ^ 63) {names : Renaming} {world : World}
    (ready : Lowering.ReadyAll outline.shape [] outline.expanded.body)
    (matching : Matches outline.shape own [] names st ⟨.empty, world⟩)
    (fresh : world.slot? own outline.shape.state = some (.int State.fresh))
    (live : Unreached limit st)
    (data : ∀ e last, Structured.runBody outline.expanded limit st = .error e last → e.isData) :
    Proceeds outline own limit (Structured.runBody outline.expanded limit st) st names outline.body
      ⟨.empty, world⟩ := by
  have started := matching.protocol outline.built.toSound outline.built.state (by simp)
    (.int State.running)
  have kept : Advance st names world st names
      (put own ⟨.empty, world⟩ (.int State.running) (.field outline.shape.state)).world :=
    .of_same rfl rfl (by simp) (.refl names)
  refine Proceeds.back outline kept (reaches_start outline fresh) ?_
  have placed : outline.code ++ outline.shape.finish <:+ outline.body :=
    (List.suffix_cons _ _).trans ((List.suffix_cons _ _).trans (List.suffix_append _ _))
  exact Setting.blockAchieves (setting outline own limit) outline.expanded.body _ [] ready
    (session outline own limit _) outline.emitted (site_body outline few live _) placed
    (continues_body outline data) started

end

end

end Simulation
end Resumable
