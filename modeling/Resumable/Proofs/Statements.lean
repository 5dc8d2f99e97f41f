import Resumable.Proofs.Instructions

/-!
The code emitted for a statement achieves every goal that the way the statement ends allows
for. One lemma per kind of statement; the lemmas about statements with statements in them
assume as much of their parts.
-/

namespace Resumable.Simulation
open Lowering (Emit Exit Exits FlatBody Progress Ready ReadyAll ReadyCases Shape declared emitBlock
  emitCases emitStmt)
open Machine (Activation Code Instr Label Point World call)
open Structured (Flow Run State Unreached execBlock execCases execInit execStmt)

/-- A method, its machine and an instance of it, with all points and cleanups that were found. -/
structure Setting where
  machine : Machine
  method : Method
  shape : Shape
  own : Nat
  limit : Option Nat
  points : List Point
  cleanups : List (String × FlatBody)
  sound : shape.Sound
  named : ∀ c ∈ cleanups, ∃ routine, machine.routineNamed? c.1 = some routine ∧
    routine.body = c.2.code

namespace Setting

abbrev Goal (setting : Setting) (body : Code) := Simulation.Goal setting.machine setting.own body

abbrev Matches (setting : Setting) (scope : List LocalId) (names : Renaming) (st : State)
    (act : Activation) : Prop :=
  Simulation.Matches setting.shape setting.own scope names st act

abbrev Continues (setting : Setting) {body : Code} (goal : setting.Goal body) (exits : Exits)
    (post : Code) (scope after : List LocalId) : EStateM.Result EvalError State Flow → Prop :=
  Simulation.Continues goal setting.shape setting.limit exits post scope after

/-- What makes suspension possible where code was emitted up to `p`. -/
structure Resumes (setting : Setting) {body : Code} (goal : setting.Goal body) (exits : Exits)
    (p : Progress) : Prop where
  pauses : goal.Pauses setting.shape setting.limit setting.points
  points : p.points <+: setting.points
  cleanups : p.cleanups <+: setting.cleanups
  stops : ∃ code, exits.onStop.Emits code

/-- The place of a piece of code that may suspend, in a routine that is about to run it. -/
structure Site (setting : Setting) {body : Code} (goal : setting.Goal body) (exits : Exits)
    (suspends : Prop) (p : Progress) (st : State) : Prop where
  once : body.labels.Nodup
  tidy : exits.Tidy
  resumes : suspends → setting.Resumes goal exits p
  live : (∃ code, exits.onStop.Emits code) → Unreached setting.limit st

/-- Wherever the code is placed, it achieves every goal that the execution allows for. -/
def Achieves (setting : Setting) (exits : Exits) (emit : Emit Code) (suspends : Prop)
    (scope after : List LocalId) (exec : Run Flow) : Prop :=
  ∀ {body : Code} (goal : setting.Goal body) {p p' : Progress} {code post : Code} {st : State}
    {names : Renaming} {act : Activation}, emit p = .ok code p' →
    setting.Site goal exits suspends p' st → code ++ post <:+ body →
    setting.Continues goal exits post scope after (exec st) → setting.Matches scope names st act →
    goal.Holds st names (code ++ post) act

def StmtAchieves (setting : Setting) (exits : Exits) (scope : List LocalId) (s : Stmt) : Prop :=
  setting.Achieves exits (emitStmt setting.method setting.shape exits s) (s.suspensions ≠ 0) scope
    (declared s ++ scope) (execStmt setting.method setting.limit s)

def BlockAchieves (setting : Setting) (exits : Exits) (scope : List LocalId) (body : List Stmt) :
    Prop :=
  setting.Achieves exits (emitBlock setting.method setting.shape exits body)
    (Stmt.suspensionsAll body ≠ 0) scope (Stmt.scopeAfter scope body)
    (execBlock setting.method setting.limit body)

section
variable {setting : Setting} {body : Code} {goal : setting.Goal body} {exits exits' : Exits}
  {suspends suspends' : Prop} {p q : Progress} {st st' : State}

/-- A part of the code, before what follows it was emitted. -/
theorem Site.part (site : setting.Site goal exits suspends p st) (tidy : exits'.Tidy)
    (same : exits'.onStop = exits.onStop) (less : suspends' → suspends) (leads : q.Leads p) :
    setting.Site goal exits' suspends' q st where
  once := site.once
  tidy := tidy
  resumes suspends := by
    obtain ⟨pauses, known, named, stops⟩ := site.resumes (less suspends)
    obtain ⟨new, grown, _⟩ := leads.cleanups
    exact ⟨pauses, leads.points.trans known,
      (grown ▸ List.prefix_append q.cleanups new).trans named, same ▸ stops⟩
  live stops := site.live (same ▸ stops)

/-- The same code when the method has come to another state. -/
theorem Site.later (site : setting.Site goal exits suspends p st)
    (live : (∃ code, exits.onStop.Emits code) → Unreached setting.limit st') :
    setting.Site goal exits suspends p st' where
  once := site.once
  tidy := site.tidy
  resumes := site.resumes
  live := live

theorem Site.moved (site : setting.Site goal exits suspends p st) (values : st'.values = st.values) :
    setting.Site goal exits suspends p st' :=
  site.later fun stops => by
    have live := site.live stops
    simpa [Unreached, values] using live

theorem sane {post : Code} {scope after : List LocalId} :
    Sane goal (setting.Continues goal exits post scope after) :=
  sane_continues setting.limit exits post scope after

end

section
variable {setting : Setting} {exits : Exits} {scope : List LocalId}

theorem achieves_eval {value : Expr} (ready : Ready setting.shape scope (.eval value)) :
    setting.StmtAchieves exits scope (.eval value) := by
  intro body goal p p' code post st names act emitted site placed continues matching
  obtain ⟨instr, lowered, rfl, rfl⟩ := Lowering.emitStmt_eval_eq_ok.mp emitted
  simp only [execStmt] at continues
  refine goal.burn sane matching continues fun st values matching continues => ?_
  refine goal.step sane (simulates_effect setting.machine setting.sound lowered ready)
    matching continues ?_
  rintro _ st' names' act' outcome _ matching' rfl continues
  exact ⟨post, rfl, continues names' act' matching'⟩

theorem achieves_declare {id : LocalId} {init : Option Expr}
    (ready : Ready setting.shape scope (.declare id init)) :
    setting.StmtAchieves exits scope (.declare id init) := by
  intro body goal p p' code post st names act emitted site placed continues matching
  cases init with
  | none =>
    obtain ⟨term, place, lowered, stored, rfl, rfl⟩ := Lowering.emitStmt_declare_none_eq_ok.mp emitted
    simp only [execStmt] at continues
    refine goal.burn sane matching continues fun st values matching continues => ?_
    cases typed : setting.method.varType? (.loc id) with
    | none =>
      simp only [typed] at continues
      obtain ⟨data, _⟩ := continues
      cases data
    | some ty =>
      simp only [typed] at continues
      exact goal.declare (f := fun _ => pure .next) sane setting.sound
        (simulates_initial setting.machine lowered typed) stored matching continues
        fun st' names' act' matching' continues => continues names' act' matching'
  | some init =>
    obtain ⟨term, place, lowered, stored, rfl, rfl⟩ := Lowering.emitStmt_declare_some_eq_ok.mp emitted
    simp only [execStmt] at continues
    refine goal.burn sane matching continues fun st values matching continues => ?_
    have evaluated := simulates_expr setting.machine setting.sound (ownFrame_self setting.own) names
      init term lowered ready
    exact goal.declare sane setting.sound evaluated stored matching continues
      fun st' names' act' matching' continues => continues names' act' matching'

theorem achieves_nil : setting.BlockAchieves exits scope [] := by
  intro body goal p p' code post st names act emitted site placed continues matching
  simp only [emitBlock, pure_eq_ok] at emitted
  obtain ⟨rfl, rfl⟩ := emitted
  simp only [execBlock] at continues
  exact continues names act matching

theorem achieves_cons {s : Stmt} {rest : List Stmt} (ready : Ready setting.shape scope s)
    (first : setting.StmtAchieves exits scope s)
    (others : setting.BlockAchieves exits (declared s ++ scope) rest) :
    setting.BlockAchieves exits scope (s :: rest) := by
  intro body goal p p' code post st names act emitted site placed continues matching
  obtain ⟨firstCode, q, restCode, emittedFirst, emittedRest, rfl⟩ :=
    Lowering.emitBlock_cons_eq_ok.mp emitted
  have leads := (Lowering.laid_block setting.method setting.shape rest site.tidy emittedRest).leads
  simp only [Stmt.suspensionsAll] at site
  rw [List.append_assoc] at placed ⊢
  have siteFirst : setting.Site goal exits (s.suspensions ≠ 0) q st :=
    site.part site.tidy rfl (by omega) leads
  refine first goal emittedFirst siteFirst placed ?_ matching
  simp only [execBlock] at continues
  have orderly := Structured.orderly_stmt setting.method setting.limit setting.shape s scope ready st
  cases result : execStmt setting.method setting.limit s st with
  | error e st' =>
    rw [bind_of_error result] at continues
    exact continues
  | ok flow st' =>
    rw [bind_of_ok result] at continues
    cases flow with
    | next =>
      intro names' act' matching'
      have siteRest : setting.Site goal exits (Stmt.suspensionsAll rest ≠ 0) _ st' :=
        (site.part site.tidy rfl (by omega) (.refl _)).later
          fun stops => (orderly .next st' result).2 (by simp) (site.live stops)
      exact others goal emittedRest siteRest ((List.suffix_append _ _).trans placed)
        (continues.widen (List.subset_append_right _ _) (List.Subset.refl _)) matching'
    | breaking => exact continues
    | continuing => exact continues
    | stopping => exact continues

/-- Locals of a block are out of scope after it. -/
theorem BlockAchieves.leave {body : List Stmt} (block : setting.BlockAchieves exits scope body) :
    setting.Achieves exits (emitBlock setting.method setting.shape exits body)
      (Stmt.suspensionsAll body ≠ 0) scope scope (execBlock setting.method setting.limit body) := by
  intro _ goal p p' code post st names act emitted site placed continues matching
  exact block goal emitted site placed
    (continues.widen (List.Subset.refl _) (Stmt.subset_scopeAfter scope body)) matching

theorem achieves_block {body : List Stmt} (block : setting.BlockAchieves exits scope body) :
    setting.StmtAchieves exits scope (.block body) := by
  intro _ goal p p' code post st names act emitted site placed continues matching
  simp only [emitStmt] at emitted
  simp only [execStmt] at continues
  simp only [Stmt.suspensions] at site
  exact goal.burn sane matching continues fun st values matching continues =>
    block.leave goal emitted (site.moved values) placed continues matching

theorem achieves_break : setting.StmtAchieves exits scope .breakOut := by
  intro body goal p p' code post st names act emitted site placed continues matching
  simp only [emitStmt] at emitted
  simp only [execStmt] at continues
  exact goal.burn sane matching continues fun st values matching continues =>
    continues code post names act ⟨p, p', emitted⟩ placed matching

theorem achieves_continue : setting.StmtAchieves exits scope .continueLoop := by
  intro body goal p p' code post st names act emitted site placed continues matching
  simp only [emitStmt] at emitted
  simp only [execStmt] at continues
  exact goal.burn sane matching continues fun st values matching continues =>
    continues code post names act ⟨p, p', emitted⟩ placed matching

theorem achieves_stop : setting.StmtAchieves exits scope .stop := by
  intro body goal p p' code post st names act emitted site placed continues matching
  simp only [emitStmt] at emitted
  simp only [execStmt] at continues
  refine goal.burn sane matching continues fun st values matching continues => ?_
  have emits : exits.onStop.Emits code := ⟨p, p', emitted⟩
  exact continues.1 ((site.moved values).live ⟨code, emits⟩) code post names act emits placed matching

/-- Code in between that only passes control on. -/
theorem via {body post post' : Code} {goal : setting.Goal body} {after : List LocalId}
    {result : EStateM.Result EvalError State Flow}
    (continues : setting.Continues goal exits post scope after result)
    (passes : ∀ act, Machine.Reaches setting.machine body (ownFrame setting.own) post' act post act) :
    setting.Continues goal exits post' scope after result := by
  cases result with
  | error e st => exact continues
  | ok flow st =>
    cases flow with
    | next => exact fun names act matching => goal.along (passes act) (continues names act matching)
    | breaking => exact continues
    | continuing => exact continues
    | stopping => exact continues

theorem achieves_ite_else {cond : Expr} {yes no : List Stmt} (inside : cond.isScoped scope)
    (yesBlock : setting.BlockAchieves exits scope yes) (noBlock : setting.BlockAchieves exits scope no) :
    setting.StmtAchieves exits scope (.ite cond yes (some no)) := by
  intro body goal p p' code post st names act emitted site placed continues matching
  obtain ⟨term, yesCode, q, noCode, lowered, emittedYes, emittedNo, rfl⟩ :=
    Lowering.emitStmt_ite_some_eq_ok.mp emitted
  simp only [Stmt.suspensions] at site
  simp only [execStmt] at continues
  simp only [List.cons_append, List.append_assoc, List.nil_append] at placed ⊢
  have placedYes := (List.suffix_cons _ _).trans placed
  have placedLabel := ((List.suffix_cons _ _).trans (List.suffix_append _ _)).trans placedYes
  have placedNo := (List.suffix_cons _ _).trans placedLabel
  have leadsNo := Machine.Code.from?_of_suffix site.once placedLabel
  have leadsEnd := Machine.Code.from?_of_suffix site.once ((List.suffix_append _ _).trans placedNo)
  have leads := (Lowering.laid_block setting.method setting.shape no site.tidy emittedNo).leads
  refine goal.burn sane matching continues fun st values matching continues => ?_
  refine goal.step sane (simulates_condition setting.machine setting.sound lowered inside _)
    matching continues ?_
  rintro holds st' names' act' outcome evaluated matching' rfl continues
  have values' := Structured.silent_holds _ st holds st' evaluated
  have moved := site.moved (values'.trans values)
  cases holds with
  | true =>
    have part : setting.Site goal exits (Stmt.suspensionsAll yes ≠ 0) q st' :=
      moved.part site.tidy rfl (by omega) leads
    refine ⟨_, rfl, yesBlock.leave goal emittedYes part placedYes ?_ matching'⟩
    exact via continues fun act => (Machine.Reaches.goto leadsEnd).trans (.label _)
  | false =>
    have part : setting.Site goal exits (Stmt.suspensionsAll no ≠ 0) _ st' :=
      moved.part site.tidy rfl (by omega) (.refl _)
    refine ⟨_, leadsNo, goal.along (.label _) ?_⟩
    refine noBlock.leave goal emittedNo part placedNo ?_ matching'
    exact via continues fun act => .label _

/-- Without a second branch, code and execution are those of an empty one. -/
theorem achieves_ite {cond : Expr} {yes : List Stmt} (inside : cond.isScoped scope)
    (yesBlock : setting.BlockAchieves exits scope yes) :
    setting.StmtAchieves exits scope (.ite cond yes none) := by
  have empty : setting.StmtAchieves exits scope (.ite cond yes (some [])) :=
    achieves_ite_else inside yesBlock achieves_nil
  rw [StmtAchieves, Lowering.emitStmt_ite_none, Structured.execStmt_ite_none]
  exact empty

/-- What a turn of a loop has to achieve when the loop starts again at `top`. -/
def Turns (setting : Setting) {body : Code} (goal : setting.Goal body) (exits : Exits)
    (post : Code) (scope : List LocalId) (top : Code) :
    EStateM.Result EvalError State (Option Flow) → Prop
  | .ok none st => ((∃ code, exits.onStop.Emits code) → Unreached setting.limit st) →
    ∀ names act, setting.Matches scope names st act → goal.Holds st names top act
  | .ok (some flow) st => setting.Continues goal exits post scope scope (.ok flow st)
  | .error e st => setting.Continues goal exits post scope scope (.error e st)

theorem sane_turns {body post top : Code} {goal : setting.Goal body} :
    Sane goal (setting.Turns goal exits post scope top) :=
  fun _ _ claimed => claimed

/-- How the body of a loop ends decides where the loop goes on. -/
theorem continues_loop {body post fall again : Code} {goal : setting.Goal body}
    {breakTo continueTo : Label} {result : EStateM.Result EvalError State Flow}
    (onward : ∀ flow st, result = .ok flow st → flow = .next ∨ flow = .continuing →
      ∀ names act, setting.Matches scope names st act → goal.Holds st names again act)
    (otherwise : ∀ flow st, result = .ok flow st → Structured.afterBody flow ≠ none →
      setting.Continues goal exits post scope scope (.ok ((Structured.afterBody flow).getD .next) st))
    (failed : ∀ e st, result = .error e st → e.isData ∧ goal.Fails e)
    (falls : ∀ act, Machine.Reaches setting.machine body (ownFrame setting.own) fall act again act)
    (onContinue : body.from? continueTo = some again)
    (onBreak : body.from? breakTo = some (.label breakTo :: post)) :
    setting.Continues goal (exits.loop breakTo continueTo) fall scope scope result := by
  cases result with
  | error e st => exact failed e st rfl
  | ok flow st =>
    cases flow with
    | next =>
      exact fun names act matching => goal.along (falls act)
        (onward .next st rfl (.inl rfl) names act matching)
    | breaking =>
      intro code rest names act emits placed matching
      obtain rfl := Exit.emits_to emits
      exact goal.along ((Machine.Reaches.goto onBreak).trans (.label _))
        (otherwise .breaking st rfl (by simp [Structured.afterBody]) names act matching)
    | continuing =>
      intro code rest names act emits placed matching
      obtain rfl := Exit.emits_to emits
      exact goal.along (.goto onContinue) (onward .continuing st rfl (.inr rfl) names act matching)
    | stopping => exact otherwise .stopping st rfl (by simp [Structured.afterBody])

/-- Turn after turn; the induction is on the bound of the loop. -/
theorem achieves_turns {body post top : Code} {goal : setting.Goal body} {turn : Run (Option Flow)}
    (turns : ∀ st names act, ((∃ code, exits.onStop.Emits code) → Unreached setting.limit st) →
      setting.Matches scope names st act → setting.Turns goal exits post scope top (turn st) →
      goal.Holds st names top act)
    (bound : Nat) {st : State} {names : Renaming} {act : Activation}
    (live : (∃ code, exits.onStop.Emits code) → Unreached setting.limit st)
    (matching : setting.Matches scope names st act)
    (continues : setting.Continues goal exits post scope scope
      (Structured.repeatTurns turn bound st)) : goal.Holds st names top act := by
  induction bound generalizing st names act with
  | zero =>
    obtain ⟨data, _⟩ := continues
    cases data
  | succ bound ih =>
    refine turns st names act live matching ?_
    simp only [Structured.repeatTurns] at continues
    cases result : turn st with
    | error e st' =>
      rw [bind_of_error result] at continues
      exact continues
    | ok left st' =>
      rw [bind_of_ok result] at continues
      cases left with
      | none => exact fun live names' act' matching' => ih live matching' continues
      | some flow => exact continues

theorem achieves_while {cond : Expr} {body : List Stmt} (ready : ReadyAll setting.shape scope body)
    (inside : cond.isScoped scope)
    (block : ∀ breakTo continueTo, setting.BlockAchieves (exits.loop breakTo continueTo) scope body) :
    setting.StmtAchieves exits scope (.whileLoop cond body) := by
  intro code goal p p' _ post st names act emitted site placed continues matching
  obtain ⟨term, bodyCode, lowered, emittedBody, rfl⟩ := Lowering.emitStmt_whileLoop_eq_ok.mp emitted
  simp only [Stmt.suspensions] at site
  simp only [execStmt] at continues
  simp only [List.cons_append, List.append_assoc, List.nil_append] at placed ⊢
  have placedBody := (List.suffix_cons _ _).trans ((List.suffix_cons _ _).trans placed)
  have leadsTop := Machine.Code.from?_of_suffix site.once placed
  have leadsEnd := Machine.Code.from?_of_suffix site.once
    (((List.suffix_cons _ _).trans (List.suffix_append _ _)).trans placedBody)
  refine goal.burn sane matching continues fun st values matching continues => ?_
  refine achieves_turns (fun st names act live matching turns => ?_) (st.fuel + 1)
    (site.moved values).live matching continues
  refine goal.along (.label _) ?_
  refine goal.step sane_turns (simulates_condition setting.machine setting.sound lowered inside _)
    matching turns ?_
  rintro holds st' names' act' outcome evaluated matching' rfl turns
  have values' := Structured.silent_holds _ st holds st' evaluated
  cases holds with
  | false =>
    refine ⟨_, leadsEnd, goal.along (.label _) ?_⟩
    exact turns names' act' matching'
  | true =>
    refine ⟨_, rfl, goal.burn sane_turns matching' turns fun st'' values'' matching turns => ?_⟩
    have siteBody : setting.Site goal (exits.loop (p.nextLabel + 1) p.nextLabel)
        (Stmt.suspensionsAll body ≠ 0) _ st'' :=
      ((site.later live).moved (values''.trans values')).part (site.tidy.loop _ _) rfl id (.refl _)
    refine BlockAchieves.leave (block _ _) goal emittedBody siteBody placedBody ?_ matching
    have orderly := Structured.orderly_block setting.method setting.limit setting.shape body scope ready
    refine continues_loop (fun flow last result goes names act matching => ?_)
      (fun flow last result leaves => ?_) (fun e last result => ?_)
      (fun act => .goto leadsTop) leadsTop leadsEnd
    · rw [bind_of_ok result] at turns
      have live := fun stops => (orderly st'' flow last result).2 (by grind) (siteBody.live stops)
      rcases goes with rfl | rfl <;> exact turns live names act matching
    · rw [bind_of_ok result] at turns
      cases flow <;> first | exact turns | simp [Structured.afterBody] at leaves
    · rw [bind_of_error result] at turns
      exact turns

theorem achieves_for {init : List Stmt} {cond : Option Expr} {step : List Expr} {body : List Stmt}
    (plain : init.all Stmt.isPlain)
    (insideCond : cond.toList.all (Expr.isScoped (Stmt.scopeAfter scope init)))
    (insideStep : step.all (Expr.isScoped (Stmt.scopeAfter scope init)))
    (ready : ReadyAll setting.shape (Stmt.scopeAfter scope init) body)
    (header : setting.BlockAchieves exits scope init)
    (block : ∀ breakTo continueTo, setting.BlockAchieves (exits.loop breakTo continueTo)
      (Stmt.scopeAfter scope init) body) :
    setting.StmtAchieves exits scope (.forLoop init cond step body) := by
  intro code goal p p' _ post st names act emitted site placed continues matching
  obtain ⟨initCode, q, terms, bodyCode, stepCode, emittedInit, loweredCond, emittedBody, loweredStep, rfl⟩ :=
    Lowering.emitStmt_forLoop_eq_ok.mp emitted
  simp only [Stmt.suspensions] at site
  simp only [execStmt] at continues
  simp only [List.cons_append, List.append_assoc, List.nil_append] at placed ⊢
  have placedTop := (List.suffix_append _ _).trans placed
  have placedBody := ((List.suffix_append _ _).trans (List.suffix_cons _ _)).trans placedTop
  have placedStep := (List.suffix_append _ _).trans placedBody
  have placedEnd := ((List.suffix_cons _ _).trans ((List.suffix_append _ _).trans
    (List.suffix_cons _ _))).trans placedStep
  have leadsTop := Machine.Code.from?_of_suffix site.once placedTop
  have leadsStep := Machine.Code.from?_of_suffix site.once placedStep
  have leadsEnd := Machine.Code.from?_of_suffix site.once placedEnd
  have laid := Lowering.laid_block setting.method setting.shape body (site.tidy.loop _ _) emittedBody
  refine goal.burn sane matching continues fun st values matching continues => ?_
  have siteInit : setting.Site goal exits (Stmt.suspensionsAll init ≠ 0) q st :=
    (site.moved values).part site.tidy rfl (by omega) ((q.leads_reserve 3).trans laid.leads)
  refine header goal emittedInit siteInit placed ?_ matching
  rw [Structured.execBlock_plain plain]
  cases begun : execInit setting.method setting.limit init st with
  | error e st' =>
    rw [bind_of_error begun] at continues ⊢
    exact continues
  | ok _ st' =>
    rw [bind_of_ok begun] at continues ⊢
    intro names act matching
    have values' := Structured.silent_init setting.method setting.limit plain st _ st' begun
    have within := Stmt.subset_scopeAfter scope init
    refine achieves_turns (fun st names act live matching turns => ?_) (st'.fuel + 1)
      (site.moved (values'.trans values)).live matching (continues.widen within within)
    refine goal.burn sane_turns matching turns fun st'' values'' matching turns => ?_
    refine goal.along (.label _) ?_
    refine goal.condition setting.sound loweredCond insideCond leadsEnd sane_turns matching turns ?_
    intro holding st₁ names₁ act₁ evaluated matching₁ turns
    have values₁ := Structured.silent_holds _ st'' holding st₁ evaluated
    cases holding with
    | false => exact goal.along (.label _) (turns names₁ act₁ matching₁)
    | true =>
      rw [if_pos rfl] at turns
      have siteBody : setting.Site goal (exits.loop (q.nextLabel + 2) (q.nextLabel + 1))
          (Stmt.suspensionsAll body ≠ 0) _ st₁ :=
        ((site.later live).moved (values₁.trans values'')).part (site.tidy.loop _ _) rfl (by omega)
          (.refl _)
      refine BlockAchieves.leave (block _ _) goal emittedBody siteBody placedBody ?_ matching₁
      have orderly := Structured.orderly_block setting.method setting.limit setting.shape body _ ready
      refine continues_loop (fun flow last result goes names act matching => ?_)
        (fun flow last result leaves => ?_) (fun e last result => ?_)
        (fun act => .refl _ _) leadsStep leadsEnd
      · rw [bind_of_ok result] at turns
        have live := fun stops => (orderly st₁ flow last result).2 (by grind) (siteBody.live stops)
        have next : Structured.afterBody flow = none := by rcases goes with rfl | rfl <;> rfl
        simp only [next] at turns
        refine goal.along (.label _) ?_
        refine goal.effects setting.sound loweredStep insideStep sane_turns matching turns ?_
        intro vs st₂ names₂ act₂ evaluated₂ matching₂ turns
        have values₂ := Structured.silent_exprs step last vs st₂ evaluated₂
        refine goal.along (.goto leadsTop) (turns (fun stops => ?_) names₂ act₂ matching₂)
        have := live stops
        simpa [Unreached, values₂] using this
      · rw [bind_of_ok result] at turns
        cases flow <;> first | exact turns | simp [Structured.afterBody] at leaves
      · rw [bind_of_error result] at turns
        exact turns

theorem caseTarget_append (value : Int64) (values : List Int64) (label : Label)
    (table : List (Int64 × Label)) (default : Label) :
    Machine.caseTarget value (values.map (·, label) ++ table) default =
      if value ∈ values then label else Machine.caseTarget value table default := by
  induction values with
  | nil => simp
  | cons first rest ih =>
    by_cases same : first = value
    · simp [Machine.caseTarget, same]
    · have other : value ≠ first := fun eq => same eq.symm
      simp only [Machine.caseTarget, List.map_cons, List.cons_append] at ih ⊢
      rw [List.find?_cons_of_neg (by simpa using same), ih]
      simp [other]

/-- The jump on a value leads to the first case that lists it. -/
def CasesAchieve (setting : Setting) (exits : Exits) (scope : List LocalId) (breakTo : Label)
    (cases : List (List Int64 × List Stmt)) : Prop :=
  ∀ {body : Code} (goal : setting.Goal body) {p p' : Progress} {label default : Label}
    {code post ending : Code} {st : State} {names : Renaming} {act : Activation} (value : Int64)
    {otherwise : Run Flow}, label + cases.length ≤ p.nextLabel →
    emitCases setting.method setting.shape exits breakTo label cases p = .ok code p' →
    setting.Site goal exits (Stmt.suspensionsCases cases ≠ 0) p' st → code ++ post <:+ body →
    body.from? breakTo = some ending →
    (setting.Continues goal exits ending scope scope (otherwise st) →
      ∃ code', body.from? default = some code' ∧ goal.Holds st names code' act) →
    setting.Continues goal exits ending scope scope
      (execCases setting.method setting.limit value otherwise cases st) →
    setting.Matches scope names st act →
    ∃ code', body.from? (Machine.caseTarget value (Lowering.jumpTable label cases) default) =
      some code' ∧ goal.Holds st names code' act

theorem achieve_no_cases {breakTo : Label} : setting.CasesAchieve exits scope breakTo [] := by
  intro body goal p p' label default code post ending st names act value otherwise reserved emitted site
    placed leadsEnd onDefault continues matching
  simp only [execCases] at continues
  exact onDefault continues

theorem achieve_case {breakTo : Label} {values : List Int64} {body : List Stmt}
    {rest : List (List Int64 × List Stmt)} (block : setting.BlockAchieves exits scope body)
    (others : setting.CasesAchieve exits scope breakTo rest) :
    setting.CasesAchieve exits scope breakTo ((values, body) :: rest) := by
  intro code goal p p' label default _ post ending st names act value otherwise reserved emitted site
    placed leadsEnd onDefault continues matching
  obtain ⟨bodyCode, q, restCode, emittedBody, emittedRest, rfl⟩ :=
    Lowering.emitCases_cons_eq_ok.mp emitted
  simp only [Stmt.suspensionsCases] at site
  simp only [List.cons_append, List.append_assoc] at placed
  have placedBody := (List.suffix_cons _ _).trans placed
  have placedRest := ((List.suffix_cons _ _).trans (List.suffix_append _ _)).trans placedBody
  simp only [execCases] at continues
  simp only [Lowering.jumpTable, caseTarget_append]
  have laidBody := Lowering.laid_block setting.method setting.shape body site.tidy emittedBody
  have reservedRest : label + 1 + rest.length ≤ q.nextLabel := by
    have := laidBody.leads.labels
    simp only [List.length_cons] at reserved
    grind
  have leads := (Lowering.laid_cases setting.method setting.shape rest site.tidy reservedRest
    emittedRest).1
  split
  · next listed =>
    rw [if_pos listed] at continues
    have siteBody : setting.Site goal exits (Stmt.suspensionsAll body ≠ 0) q st :=
      site.part site.tidy rfl (by omega) leads
    refine ⟨_, Machine.Code.from?_of_suffix site.once placed, goal.along (.label _) ?_⟩
    exact block.leave goal emittedBody siteBody placedBody (via continues fun act => .goto leadsEnd)
      matching
  · next unlisted =>
    rw [if_neg unlisted] at continues
    exact others goal value reservedRest emittedRest (site.part site.tidy rfl (by omega) (.refl _)) placedRest
      leadsEnd onDefault continues matching

/-- A break out of a switch leads to its end. -/
theorem continues_switch {body post : Code} {goal : setting.Goal body} {breakTo : Label}
    {exec : Run Flow} {st : State} (leads : body.from? breakTo = some (.label breakTo :: post))
    (continues : setting.Continues goal exits post scope scope
      ((do let flow ← exec; return Structured.afterSwitch flow) st)) :
    setting.Continues goal (exits.switch breakTo) (.label breakTo :: post) scope scope (exec st) := by
  cases result : exec st with
  | error e st' =>
    rw [bind_of_error result] at continues
    exact continues
  | ok flow st' =>
    rw [bind_of_ok result] at continues
    cases flow with
    | next => exact fun names act matching => goal.along (.label _) (continues names act matching)
    | breaking =>
      intro code rest names act emits placed matching
      obtain rfl := Exit.emits_to emits
      exact goal.along ((Machine.Reaches.goto leads).trans (.label _)) (continues names act matching)
    | continuing => exact continues
    | stopping => exact continues

theorem achieves_switch {scrutinee : Expr} {cases : List (List Int64 × List Stmt)}
    {default : Option (List Stmt)} (inside : scrutinee.isScoped scope)
    (arms : ∀ breakTo, setting.CasesAchieve (exits.switch breakTo) scope breakTo cases)
    (block : ∀ breakTo, ∀ body ∈ default, setting.BlockAchieves (exits.switch breakTo) scope body) :
    setting.StmtAchieves exits scope (.switch scrutinee cases default) := by
  intro code goal p p' _ post st names act emitted site placed continues matching
  have silent : Structured.Silent (do let v ← Structured.evalExpr scrutinee; checked v.asInt) :=
    (Structured.silent_expr scrutinee).bind fun _ => .checked _
  cases default with
  | none =>
    obtain ⟨term, armCode, lowered, emittedArms, rfl⟩ := Lowering.emitStmt_switch_none_eq_ok.mp emitted
    simp only [Stmt.suspensions] at site
    simp only [execStmt] at continues
    simp only [List.cons_append, List.append_assoc, List.nil_append] at placed ⊢
    have placedArms := (List.suffix_cons _ _).trans placed
    have leadsEnd := Machine.Code.from?_of_suffix site.once
      ((List.suffix_append _ _).trans placedArms)
    refine goal.burn sane matching continues fun st values matching continues => ?_
    rw [← bind_assoc] at continues
    refine goal.step sane (simulates_scrutinee setting.machine setting.sound lowered inside _ _)
      matching continues ?_
    rintro value st' names' act' outcome evaluated matching' rfl continues
    have values' := silent st value st' evaluated
    have siteArms : setting.Site goal (exits.switch p.nextLabel) (Stmt.suspensionsCases cases ≠ 0) _
        st' := (site.moved (values'.trans values)).part (site.tidy.switch _) rfl id (.refl _)
    refine arms _ goal value (Nat.le_refl _) emittedArms siteArms placedArms leadsEnd ?_
      (continues_switch leadsEnd continues) matching'
    exact fun continues => ⟨_, leadsEnd, continues names' act' matching'⟩
  | some default =>
    obtain ⟨term, armCode, q, defaultCode, lowered, emittedArms, emittedDefault, rfl⟩ :=
      Lowering.emitStmt_switch_some_eq_ok.mp emitted
    simp only [Stmt.suspensions] at site
    simp only [execStmt] at continues
    simp only [List.cons_append, List.append_assoc, List.nil_append] at placed ⊢
    have placedArms := (List.suffix_cons _ _).trans placed
    have placedLabel := (List.suffix_append _ _).trans placedArms
    have placedDefault := (List.suffix_cons _ _).trans placedLabel
    have leadsDefault := Machine.Code.from?_of_suffix site.once placedLabel
    have leadsEnd := Machine.Code.from?_of_suffix site.once
      ((List.suffix_append _ _).trans placedDefault)
    have leads := (Lowering.laid_block setting.method setting.shape default
      (site.tidy.switch p.nextLabel) emittedDefault).leads
    refine goal.burn sane matching continues fun st values matching continues => ?_
    rw [← bind_assoc] at continues
    refine goal.step sane (simulates_scrutinee setting.machine setting.sound lowered inside _ _)
      matching continues ?_
    rintro value st' names' act' outcome evaluated matching' rfl continues
    have values' := silent st value st' evaluated
    have moved := site.moved (values'.trans values)
    have siteArms : setting.Site goal (exits.switch p.nextLabel) (Stmt.suspensionsCases cases ≠ 0) q
        st' := moved.part (site.tidy.switch _) rfl (by omega) leads
    have siteDefault : setting.Site goal (exits.switch p.nextLabel)
        (Stmt.suspensionsAll default ≠ 0) _ st' :=
      moved.part (site.tidy.switch _) rfl (by omega) (.refl _)
    refine arms _ goal value (Nat.le_succ _) emittedArms siteArms placedArms leadsEnd
      (fun continues => ⟨_, leadsDefault, goal.along (.label _) ?_⟩)
      (continues_switch leadsEnd continues) matching'
    exact BlockAchieves.leave (block _ default rfl) goal emittedDefault siteDefault placedDefault
      continues matching'

theorem achieves_yield {value : Expr} (inside : value.isScoped scope)
    (stores : setting.shape.Stores scope) : setting.StmtAchieves exits scope (.yield value) := by
  intro body goal p p' code post st names act emitted site placed continues matching
  obtain ⟨term, lowered, rfl, rfl⟩ := Lowering.emitStmt_yield_eq_ok.mp emitted
  obtain ⟨pauses, known, _, stops⟩ := site.resumes (by simp [Stmt.suspensions])
  simp only [execStmt] at continues
  simp only [List.cons_append, List.nil_append] at placed ⊢
  refine goal.burn sane matching continues fun st values matching continues => ?_
  have simulated := simulates_expr setting.machine setting.sound (ownFrame_self setting.own) names
    value term lowered inside st act matching
  cases result : Structured.evalExpr value st with
  | error e st' =>
    rw [result] at simulated
    rw [bind_of_error result] at continues
    exact goal.fail (.here (simulated continues.1).bind) continues.2
  | ok v st' =>
    rw [result] at simulated
    rw [bind_of_ok result] at continues
    obtain ⟨v', names', act', gives, matching', advance, alike⟩ := simulated
    have member := known.subset (List.mem_append_right p.points (List.mem_singleton_self _))
    have paused := pausedAt_handedOver matching' setting.sound member alike
    have handed := matching'.handedOver setting.sound v' (State.suspendedAt p.points.length)
    have kept : Advance st names act.world st' names'
        (handedOver setting.shape setting.own act' v' (State.suspendedAt p.points.length)).world :=
      advance.trans (.of_same rfl rfl (by simp [handedOver]) (.refl names'))
    refine goal.back kept (reaches_handedOver matching' setting.sound gives) ?_
    have placedRet := (List.suffix_cons _ _).trans ((List.suffix_cons _ _).trans placed)
    have again : ∀ world, Undisturbed setting.own
        (handedOver setting.shape setting.own act' v' (State.suspendedAt p.points.length)).world
          world → setting.Matches scope names' (produced st' v) ⟨.empty, world⟩ :=
      fun world undisturbed => handed.reenter stores undisturbed (produced_vars st' v)
        (produced_arrays st' v) .empty
    rw [produce_then] at continues
    by_cases reached : setting.limit = some (produced st' v).values.size
    · rw [if_pos reached] at continues
      exact pauses.last paused reached fun world undisturbed =>
        continues.2 (by simpa [Unreached] using reached) stops names' world (again world undisturbed)
    · rw [if_neg reached] at continues
      refine pauses.pause paused reached placedRet fun world undisturbed => ?_
      have matching := again world undisturbed
      have resumed := matching.protocol setting.sound setting.sound.state (by simp) (.int State.running)
      refine goal.back ?_ (reaches_setState (matching.present setting.sound.state))
        (continues names' _ resumed)
      exact .of_same rfl rfl (by simp) (.refl names')

end
end Setting
end Resumable.Simulation
