import Resumable.Proofs.Statements

/-!
Regions with a cleanup. A cleanup block is either repeated at every exit of its region or is
a routine that the exits, and disposal, call. Both ways it is run once for each time that
the region is left.
-/

namespace Resumable.Simulation
open Lowering (Emit Exit Exits FlatBody Progress Ready ReadyAll ReadyCases Shape declared emitBlock
  emitCases emitStmt)
open Machine (Activation Code Instr Label Point World call)
open Structured (Flow Run State Unreached execBlock execCases execInit execStmt)

/-- The goal of a routine that has to return with the method in the state `last`. -/
def returning (machine : Machine) (own : Nat) (body : Code) (shape : Shape) (scope : List LocalId)
    (last : State) : Goal machine own body where
  Holds st names code act := ∃ names' act',
    Machine.Returns machine body (ownFrame own) code act none act' ∧
      Advance st names act.world last names' act'.world ∧ Matches shape own scope names' last act'
  Unwinds _ _ _ _ := False
  Fails _ := False
  back advance reaches later := by
    obtain ⟨names', act', returns, advance', matching⟩ := later
    exact ⟨names', act', reaches.returns returns, advance.trans advance', matching⟩
  fail _ never := never.elim

/-- The goal of a routine that has to fail. -/
def failing (machine : Machine) (own : Nat) (body : Code) (e : EvalError) : Goal machine own body where
  Holds _ _ code act := Machine.Fails machine body (ownFrame own) code act e
  Unwinds _ _ _ _ := False
  Fails e' := e' = e
  back _ reaches later := reaches.fails later
  fail fails same := same ▸ fails

/-- What is claimed of a cleanup block: that it ends normally in a state with a property. -/
def Cleans {machine : Machine} {own : Nat} {body : Code} (goal : Goal machine own body)
    (claim : State → Prop) : EStateM.Result EvalError State Flow → Prop
  | .ok .next st => claim st
  | .ok _ _ => False
  | .error e _ => e.isData ∧ goal.Fails e

namespace Setting
variable {setting : Setting} {exits : Exits} {scope : List LocalId}

theorem not_emits_sealed (method : Method) (cleanups : List String) (code : Code) :
    ¬(Exits.sealed method cleanups).onStop.Emits code := by
  rintro ⟨p, p', taken⟩
  simp [Exits.sealed, Exit.none, Exit.take] at taken

/-- Nothing stops inside a cleanup block, and nothing suspends. -/
theorem site_sealed {body : Code} (goal : setting.Goal body) (once : body.labels.Nodup)
    (method : Method) (chain : List String) (p : Progress) (st : State) :
    setting.Site goal (Exits.sealed method chain) False p st where
  once := once
  tidy := Exits.tidy_sealed method chain
  resumes := False.elim
  live := fun ⟨code, emits⟩ => (not_emits_sealed method chain code emits).elim

theorem continues_sealed {body post : Code} {goal : setting.Goal body} {method : Method}
    {chain : List String} {result : EStateM.Result EvalError State Flow}
    (cleans : Cleans goal (fun st => ∀ names act, setting.Matches scope names st act →
      goal.Holds st names post act) result) :
    setting.Continues goal (Exits.sealed method chain) post scope scope result := by
  cases result with
  | error e st => exact cleans
  | ok flow st =>
    cases flow with
    | next => exact cleans
    | _ => exact cleans.elim

/-- Code that runs a cleanup block wherever it is placed. -/
def Cleanses (setting : Setting) {body : Code} (goal : setting.Goal body) (scope : List LocalId)
    (cleanup : List Stmt) (code : Code) : Prop :=
  ∀ {rest : Code} {st : State} {names : Renaming} {act : Activation}, code ++ rest <:+ body →
    setting.Matches scope names st act →
    Cleans goal (fun st' => ∀ names' act', setting.Matches scope names' st' act' →
      goal.Holds st' names' rest act') (execBlock setting.method setting.limit cleanup st) →
    goal.Holds st names (code ++ rest) act

section
variable {cleanup : List Stmt} {chain : List String}
  (block : setting.BlockAchieves (Exits.sealed setting.method chain) scope cleanup)
  (calm : Stmt.suspensionsAll cleanup = 0)
include block calm

/-- A cleanup block that is repeated in place. -/
theorem cleanses_repeated {body code : Code} (goal : setting.Goal body) (once : body.labels.Nodup)
    {p p' : Progress}
    (emitted : emitBlock setting.method setting.shape (Exits.sealed setting.method chain) cleanup p =
      .ok code p') : setting.Cleanses goal scope cleanup code := by
  intro rest st names act placed matching cleans
  have site : setting.Site goal (Exits.sealed setting.method chain) (Stmt.suspensionsAll cleanup ≠ 0)
      p' st := by
    simpa [calm] using setting.site_sealed goal once setting.method chain p' st
  exact block.leave goal emitted site placed (continues_sealed cleans) matching

variable {p p' : Progress} {code : Code}
  (emitted : emitBlock setting.method setting.shape (Exits.sealed setting.method chain) cleanup p =
    .ok code p')
include emitted

omit block calm in
theorem nodup_routine : (Machine.Code.labels (code ++ [.ret none])).Nodup := by
  have laid := Lowering.laid_block setting.method setting.shape cleanup
    (Exits.tidy_sealed setting.method chain) emitted
  simpa [Machine.Code.labels] using laid.once

/-- The routine of a cleanup block that ends normally. -/
theorem routine_returns {st st' : State} {names : Renaming} {world : World}
    (matching : setting.Matches scope names st ⟨.empty, world⟩)
    (done : execBlock setting.method setting.limit cleanup st = .ok .next st') :
    ∃ names' act', Machine.Returns setting.machine (code ++ [.ret none]) (ownFrame setting.own)
        (code ++ [.ret none]) ⟨.empty, world⟩ none act' ∧
      Advance st names world st' names' act'.world ∧ setting.Matches scope names' st' act' := by
  refine cleanses_repeated block calm
    (returning setting.machine setting.own (code ++ [.ret none]) setting.shape scope st')
    (nodup_routine emitted) emitted (List.suffix_refl _) matching ?_
  rw [done]
  exact fun names' act' matching' => ⟨names', act', .ret_none, .refl st' names' _, matching'⟩

theorem routine_fails {st st' : State} {names : Renaming} {world : World} {e : EvalError}
    (matching : setting.Matches scope names st ⟨.empty, world⟩)
    (done : execBlock setting.method setting.limit cleanup st = .error e st') (data : e.isData) :
    Machine.Fails setting.machine (code ++ [.ret none]) (ownFrame setting.own) (code ++ [.ret none])
      ⟨.empty, world⟩ e := by
  refine cleanses_repeated block calm
    (failing setting.machine setting.own (code ++ [.ret none]) e) (nodup_routine emitted) emitted
    (List.suffix_refl _) matching ?_
  rw [done]
  exact ⟨data, rfl⟩

variable {name : String} {routine : Machine.Routine} (stores : setting.shape.Stores scope)
  (named : setting.machine.routineNamed? name = some routine)
  (routineBody : routine.body = code ++ [.ret none])
include stores named routineBody

/-- A cleanup block that is called as a routine. -/
theorem cleanses_call {body : Code} (goal : setting.Goal body) :
    setting.Cleanses goal scope cleanup [Lowering.callCleanup name] := by
  intro rest st names act placed matching cleans
  have entered : setting.Matches scope names st ⟨.empty, act.world⟩ :=
    matching.reenter stores (.refl _ _) rfl rfl .empty
  cases done : execBlock setting.method setting.limit cleanup st with
  | error e st' =>
    rw [done] at cleans
    have fails := routine_fails block calm emitted entered done cleans.1
    exact goal.fail (.callSelf named (routineBody ▸ fails)) cleans.2
  | ok flow st' =>
    rw [done] at cleans
    cases flow with
    | next =>
      obtain ⟨names', act', returns, advance, matching'⟩ :=
        routine_returns block calm emitted entered done
      have left : setting.Matches scope names' st' ⟨act.locals, act'.world⟩ :=
        matching'.reenter stores (.refl _ _) rfl rfl act.locals
      have reaches : Machine.Reaches setting.machine body (ownFrame setting.own)
          (Lowering.callCleanup name :: rest) act rest ⟨act.locals, act'.world⟩ :=
        .callSelf named (routineBody ▸ returns)
      refine goal.back ?_ reaches (cleans names' _ left)
      exact advance
    | _ => exact cleans.elim

/-- A cleanup block that disposal runs. -/
theorem unwinds_routine {body : Code} {goal : setting.Goal body}
    (pauses : goal.Pauses setting.shape setting.limit setting.points) {rest : List String} {st : State}
    {names : Renaming} {world : World} (matching : setting.Matches scope names st ⟨.empty, world⟩)
    (cleans : Cleans goal (fun st' => ∀ names' world', setting.Matches scope names' st' ⟨.empty, world'⟩ →
      goal.Unwinds rest st' names' world') (execBlock setting.method setting.limit cleanup st)) :
    goal.Unwinds (name :: rest) st names world := by
  cases done : execBlock setting.method setting.limit cleanup st with
  | error e st' =>
    rw [done] at cleans
    have fails := routine_fails block calm emitted matching done cleans.1
    exact pauses.unwindFails named (routineBody ▸ fails) cleans.2
  | ok flow st' =>
    rw [done] at cleans
    cases flow with
    | next =>
      obtain ⟨names', act', returns, advance, matching'⟩ :=
        routine_returns block calm emitted matching done
      refine pauses.unwind named (routineBody ▸ returns) advance (cleans names' _ ?_)
      exact matching'.reenter stores (.refl _ _) rfl rfl .empty
    | _ => exact cleans.elim

end

section
variable {body : Code} {goal : setting.Goal body} {cleanup : List Stmt} {cleaning : Emit Code}

theorem Cleans.imp {claim claim' : State → Prop} {result : EStateM.Result EvalError State Flow}
    (cleans : Cleans goal claim result) (imply : ∀ st, claim st → claim' st) :
    Cleans goal claim' result := by
  cases result with
  | error e st => exact cleans
  | ok flow st =>
    cases flow with
    | next => exact imply st cleans
    | _ => exact cleans.elim

/-- An exit that runs the cleanup first. -/
theorem leaves_after {exit : Exit} {st : State}
    (cleanses : ∀ p first q, cleaning p = .ok first q → setting.Cleanses goal scope cleanup first)
    (cleans : Cleans goal (fun st' => Leaves goal setting.shape scope st' exit)
      (execBlock setting.method setting.limit cleanup st)) :
    Leaves goal setting.shape scope st (exit.after cleaning) := by
  intro code rest names act emits placed matching
  obtain ⟨first, others, p, q, rfl, emitted, left⟩ := Exit.emits_after emits
  rw [List.append_assoc] at placed ⊢
  refine cleanses p first q emitted placed matching (Cleans.imp cleans ?_)
  exact fun st' leaves names' act' matching' =>
    leaves others rest names' act' left ((List.suffix_append _ _).trans placed) matching'

/-- A region with a cleanup goes on the way it ended, once the cleanup has run. -/
theorem cleans_of_continues {post : Code} {flow : Flow} {st : State}
    (ready : ReadyAll setting.shape scope cleanup) (calm : Stmt.suspensionsAll cleanup = 0)
    (continues : setting.Continues goal exits post scope scope
      ((do let left ← execBlock setting.method setting.limit cleanup
           if left = .next then return flow else throw (.malformed .leftCleanup) : Run Flow) st)) :
    Cleans goal (fun st' => st'.values = st.values ∧
        setting.Continues goal exits post scope scope (.ok flow st'))
      (execBlock setting.method setting.limit cleanup st) := by
  cases done : execBlock setting.method setting.limit cleanup st with
  | error e st' =>
    rw [bind_of_error done] at continues
    exact continues
  | ok left st' =>
    rw [bind_of_ok done] at continues
    cases left with
    | next =>
      have orderly := Structured.orderly_block setting.method setting.limit setting.shape cleanup
        scope ready
      exact ⟨(orderly st .next st' done).1 calm, continues⟩
    | _ =>
      obtain ⟨data, _⟩ := continues
      cases data

/-- What is left to do inside a region, given what is left to do after it. -/
theorem continues_guarded {post last : Code} {st : State} {inner : List Stmt} {chain : List String}
    (ready : ReadyAll setting.shape scope cleanup) (calm : Stmt.suspensionsAll cleanup = 0)
    (placed : last ++ post <:+ body) (atEnd : setting.Cleanses goal scope cleanup last)
    (atExit : ∀ p first q, cleaning p = .ok first q → setting.Cleanses goal scope cleanup first)
    (unwinds : ∀ st', execBlock setting.method setting.limit inner st = .ok .stopping st' →
      ¬Unreached setting.limit st' → (∃ code, exits.onStop.Emits code) →
      ∀ names world, setting.Matches scope names st' ⟨.empty, world⟩ →
      Cleans goal (fun st'' => ∀ names' world', setting.Matches scope names' st'' ⟨.empty, world'⟩ →
        goal.Unwinds exits.cleanups st'' names' world')
        (execBlock setting.method setting.limit cleanup st') → goal.Unwinds chain st' names world)
    (continues : setting.Continues goal exits post scope scope
      ((do let flow ← execBlock setting.method setting.limit inner
           let left ← execBlock setting.method setting.limit cleanup
           if left = .next then return flow else throw (.malformed .leftCleanup) : Run Flow) st)) :
    setting.Continues goal { exits.guarded cleaning with cleanups := chain } (last ++ post) scope scope
      (execBlock setting.method setting.limit inner st) := by
  cases done : execBlock setting.method setting.limit inner st with
  | error e st' =>
    rw [bind_of_error done] at continues
    exact continues
  | ok flow st' =>
    rw [bind_of_ok done] at continues
    have cleans := cleans_of_continues ready calm continues
    cases flow with
    | next =>
      exact fun names act matching => atEnd placed matching (Cleans.imp cleans fun _ => And.right)
    | breaking => exact leaves_after atExit (Cleans.imp cleans fun _ => And.right)
    | continuing => exact leaves_after atExit (Cleans.imp cleans fun _ => And.right)
    | stopping =>
      refine ⟨fun early => leaves_after atExit (Cleans.imp cleans ?_), fun reached emits names world matching => ?_⟩
      · intro st'' ⟨values, continues⟩
        exact continues.1 (by simpa [Unreached, values] using early)
      · obtain ⟨code, emits⟩ := emits
        obtain ⟨_, rest, _, _, _, _, left⟩ := Exit.emits_after emits
        refine unwinds st' done reached ⟨rest, left⟩ names world matching (Cleans.imp cleans ?_)
        intro st'' ⟨values, continues⟩
        exact continues.2 (by simpa [Unreached, values] using reached) ⟨rest, left⟩

/-- The inside of a region, whose exits run the cleanup first. -/
theorem Site.guarded {suspends suspends' : Prop} {p q : Progress} {st : State} {chain : List String}
    (site : setting.Site goal exits suspends p st) (tidy : (exits.guarded cleaning).Tidy)
    (less : suspends' → suspends) (leads : q.Leads p)
    (stops : suspends' → (∃ code, exits.onStop.Emits code) →
      ∃ code, (exits.onStop.after cleaning).Emits code) :
    setting.Site goal { exits.guarded cleaning with cleanups := chain } suspends' q st where
  once := site.once
  tidy := tidy.enter chain
  resumes suspends := by
    have outside : setting.Site goal exits suspends' q st := site.part site.tidy rfl less leads
    obtain ⟨pauses, known, named, emits⟩ := outside.resumes suspends
    exact ⟨pauses, known, named, stops suspends emits⟩
  live := by
    rintro ⟨code, emits⟩
    obtain ⟨_, rest, _, _, _, _, left⟩ := Exit.emits_after emits
    exact site.live ⟨rest, left⟩

end

/-- A region without suspension points: its cleanup is repeated at every exit. -/
theorem achieves_try_repeated {inner cleanup : List Stmt} (ready : Ready setting.shape scope (.tryFinally inner cleanup))
    (quiet : Stmt.suspensionsAll inner = 0)
    (innerBlock : ∀ cleaning, setting.BlockAchieves (exits.guarded cleaning) scope inner)
    (cleanupBlock : ∀ chain, setting.BlockAchieves (Exits.sealed setting.method chain) scope cleanup) :
    setting.StmtAchieves exits scope (.tryFinally inner cleanup) := by
  intro body goal p p' code post st names act emitted site placed continues matching
  obtain ⟨readyInner, readyCleanup, calm, _⟩ := ready
  have never : ¬Block.suspends inner := by simp [Block.suspends, Block.suspensions, quiet]
  obtain ⟨innerCode, q, last, emittedInner, emittedLast, rfl⟩ :=
    (Lowering.emitStmt_tryFinally_eq_ok_of_not_suspends never).mp emitted
  simp only [execStmt] at continues
  simp only [Stmt.suspensions] at site
  rw [List.append_assoc] at placed ⊢
  have laid : ∀ p code p', emitBlock setting.method setting.shape
      (Exits.sealed setting.method exits.cleanups) cleanup p = .ok code p' → Lowering.Laid p code p' :=
    fun _ _ _ => Lowering.laid_block setting.method setting.shape cleanup (Exits.tidy_sealed _ _)
  have cleanses : ∀ p first q, emitBlock setting.method setting.shape
      (Exits.sealed setting.method exits.cleanups) cleanup p = .ok first q →
      setting.Cleanses goal scope cleanup first :=
    fun _ _ _ => cleanses_repeated (cleanupBlock _) calm goal site.once
  refine goal.burn sane matching continues fun st values matching continues => ?_
  have siteInner : setting.Site goal (exits.guarded _) (Stmt.suspensionsAll inner ≠ 0) q st :=
    (site.moved values).guarded (site.tidy.guarded laid) (fun suspends => (suspends quiet).elim)
      (laid _ _ _ emittedLast).leads fun suspends => (suspends quiet).elim
  refine BlockAchieves.leave (innerBlock _) goal emittedInner siteInner placed ?_ matching
  refine continues_guarded readyCleanup calm ((List.suffix_append _ _).trans placed)
    (cleanses _ _ _ emittedLast) cleanses ?_ continues
  intro st' done reached emits
  have orderly := Structured.orderly_block setting.method setting.limit setting.shape inner scope readyInner
  have same := (orderly st .stopping st' done).1 quiet
  exact absurd (by simpa [Unreached, same] using (site.moved values).live emits) reached

/-- A region with suspension points: its cleanup is a routine of its own. -/
theorem achieves_try_called {inner cleanup : List Stmt} (ready : Ready setting.shape scope (.tryFinally inner cleanup))
    (suspends : Stmt.suspensionsAll inner ≠ 0)
    (innerBlock : ∀ cleaning chain,
      setting.BlockAchieves { exits.guarded cleaning with cleanups := chain } scope inner)
    (cleanupBlock : ∀ chain, setting.BlockAchieves (Exits.sealed setting.method chain) scope cleanup) :
    setting.StmtAchieves exits scope (.tryFinally inner cleanup) := by
  intro body goal p p' code post st names act emitted site placed continues matching
  obtain ⟨readyInner, readyCleanup, calm, stores⟩ := ready
  have does : Block.suspends inner := by simp [Block.suspends, Block.suspensions, suspends]
  obtain ⟨name, cleanupCode, q, flat, innerCode, named, emittedCleanup, flattened, emittedInner, rfl⟩ :=
    (Lowering.emitStmt_tryFinally_eq_ok_of_suspends does).mp emitted
  simp only [execStmt] at continues
  simp only [Stmt.suspensions] at site
  rw [List.append_assoc] at placed ⊢
  have laid : ∀ p code p', (pure [Lowering.callCleanup name] : Emit Code) p = .ok code p' →
      Lowering.Laid p code p' := by
    intro p code p' done
    obtain ⟨rfl, rfl⟩ := pure_eq_ok.mp done
    exact .of_unlabelled (.refl p) rfl
  have tidy := site.tidy.guarded laid
  have laidInner := Lowering.laid_block setting.method setting.shape inner
    (tidy.enter (name :: exits.cleanups)) emittedInner
  obtain ⟨pauses, _, kept, _⟩ := site.resumes (by omega)
  have member : (name, flat) ∈ setting.cleanups := by
    obtain ⟨new, grown, _⟩ := laidInner.leads.cleanups
    refine kept.subset ?_
    simp [grown]
  obtain ⟨routine, found, routineBody⟩ := setting.named _ member
  have routineCode : routine.body = cleanupCode ++ [.ret none] :=
    routineBody.trans (Lowering.flatBody_code flattened)
  have cleanses : setting.Cleanses goal scope cleanup [Lowering.callCleanup name] :=
    cleanses_call (cleanupBlock []) calm emittedCleanup (stores suspends) found routineCode goal
  refine goal.burn sane matching continues fun st values matching continues => ?_
  have stops : (∃ code, exits.onStop.Emits code) →
      ∃ code, (exits.onStop.after (pure [Lowering.callCleanup name])).Emits code := by
    rintro ⟨code, p, p', taken⟩
    exact ⟨_, p, p', Exit.take_after.mpr ⟨_, p, code, rfl, taken, rfl⟩⟩
  have siteInner : setting.Site goal
      { exits.guarded (pure [Lowering.callCleanup name]) with cleanups := name :: exits.cleanups }
      (Stmt.suspensionsAll inner ≠ 0) _ st :=
    (site.moved values).guarded tidy (by omega) (.refl _) fun _ => stops
  refine BlockAchieves.leave (innerBlock _ _) goal emittedInner siteInner placed ?_ matching
  refine continues_guarded readyCleanup calm ((List.suffix_append _ _).trans placed) cleanses ?_ ?_
    continues
  · intro p first q done
    obtain ⟨rfl, rfl⟩ := pure_eq_ok.mp done
    exact cleanses
  · intro st' _ _ _ names world matching cleans
    exact unwinds_routine (cleanupBlock []) calm emittedCleanup (stores suspends) found routineCode
      pauses matching cleans

mutual
/-- The code of every statement achieves what the statement allows for. -/
theorem stmtAchieves (setting : Setting) : (s : Stmt) → (exits : Exits) → (scope : List LocalId) →
    Ready setting.shape scope s → setting.StmtAchieves exits scope s
  | .block body, exits, scope, ready => achieves_block (blockAchieves setting body exits scope ready)
  | .declare _ _, _, _, ready => achieves_declare ready
  | .eval _, _, _, ready => achieves_eval ready
  | .ite _ yes none, exits, scope, ready =>
    achieves_ite ready.1 (blockAchieves setting yes exits scope ready.2)
  | .ite _ yes (some no), exits, scope, ready => by
    obtain ⟨inside, readyYes, readyNo⟩ := ready
    exact achieves_ite_else inside (blockAchieves setting yes exits scope readyYes)
      (blockAchieves setting no exits scope readyNo)
  | .whileLoop _ body, _, scope, ready =>
    achieves_while ready.2 ready.1 fun _ _ => blockAchieves setting body _ scope ready.2
  | .forLoop init _ _ body, exits, scope, ready => by
    obtain ⟨readyInit, plain, insideCond, insideStep, readyBody⟩ := ready
    exact achieves_for plain insideCond insideStep readyBody
      (blockAchieves setting init exits scope readyInit)
      fun _ _ => blockAchieves setting body _ _ readyBody
  | .foreach _ _ _, _, _, ready => ready.elim
  | .switch _ cases none, _, scope, ready =>
    achieves_switch ready.1 (fun breakTo => casesAchieve setting cases _ scope breakTo ready.2) (by simp)
  | .switch _ cases (some default), _, scope, ready => by
    obtain ⟨inside, readyCases, readyDefault⟩ := ready
    refine achieves_switch inside (fun breakTo => casesAchieve setting cases _ scope breakTo readyCases) ?_
    rintro breakTo _ ⟨⟩
    exact blockAchieves setting default _ scope readyDefault
  | .tryFinally inner cleanup, _, scope, ready => by
    by_cases quiet : Stmt.suspensionsAll inner = 0
    · exact achieves_try_repeated ready quiet
        (fun _ => blockAchieves setting inner _ scope ready.1)
        fun _ => blockAchieves setting cleanup _ scope ready.2.1
    · exact achieves_try_called ready quiet
        (fun _ _ => blockAchieves setting inner _ scope ready.1)
        fun _ => blockAchieves setting cleanup _ scope ready.2.1
  | .breakOut, _, _, _ => achieves_break
  | .continueLoop, _, _, _ => achieves_continue
  | .yield _, _, _, ready => achieves_yield ready.1 ready.2
  | .stop, _, _, _ => achieves_stop

theorem blockAchieves (setting : Setting) : (body : List Stmt) → (exits : Exits) →
    (scope : List LocalId) → ReadyAll setting.shape scope body → setting.BlockAchieves exits scope body
  | [], _, _, _ => achieves_nil
  | s :: rest, exits, scope, ready =>
    achieves_cons ready.1 (stmtAchieves setting s exits scope ready.1)
      (blockAchieves setting rest exits _ ready.2)

theorem casesAchieve (setting : Setting) : (cases : List (List Int64 × List Stmt)) →
    (exits : Exits) → (scope : List LocalId) → (breakTo : Label) →
    ReadyCases setting.shape scope cases → setting.CasesAchieve exits scope breakTo cases
  | [], _, _, _, _ => achieve_no_cases
  | (_, body) :: rest, exits, scope, breakTo, ready =>
    achieve_case (blockAchieves setting body exits scope ready.1)
      (casesAchieve setting rest exits scope breakTo ready.2)
end

end Setting
end Resumable.Simulation
