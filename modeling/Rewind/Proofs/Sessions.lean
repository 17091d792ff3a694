import Mathlib.Logic.Relation
import Rewind.Proofs.Ends
import Rewind.Proofs.Traits
import Rewind.Session

namespace Rewind

theorem Report.ofResult_eq_ok_iff {requireEnd : Bool} {r : Result} {v : Value} :
    Report.ofResult requireEnd r = .ok v ↔
      r.ok = true ∧ (requireEnd = true → r.cursor.rest = []) ∧ r.value = v := by
  rw [← Cursor.atEnd_iff_rest_eq_nil]
  obtain ⟨w, d, ok⟩ := r
  rcases ok with _ | _
  · simp [Report.ofResult]
  · rcases requireEnd with _ | _
    · simp [Report.ofResult]
    · by_cases ended : d.atEnd = true
      · simp [Report.ofResult, ended]
      · simp [Report.ofResult, ended]

/-- A value that is reported comes from a match. -/
theorem Result.Ends.of_reported {fails : Prop} {matched : Value → Cursor → Prop} {r : Result}
    (h : Result.Ends fails matched r) {requireEnd : Bool} {v : Value}
    (hv : Report.ofResult requireEnd r = .ok v) :
    ∃ d, matched v d ∧ (requireEnd = true → d.rest = []) := by
  obtain ⟨ok, ended, rfl⟩ := Report.ofResult_eq_ok_iff.1 hv
  unfold Result.Ends at h
  rw [if_pos ok] at h
  exact ⟨r.cursor, h, ended⟩

/-- A parser that cannot run for ever ends as it must within some budget. -/
theorem Parser.Ends.exists_run {C : Contract} {env : Env} {p : Parser} {c : Cursor}
    {raises : Fault → Prop} {fails : Prop} {matched : Value → Cursor → Prop} {store : Store}
    (h : p.Ends C env c raises fails matched) (hstore : C.store store) (ends : ¬C.endless) :
    ∃ n last, p.run env n c store = some last ∧
      C.Allows raises (Result.Ends fails matched) (some last) := by
  have hr := h store hstore
  rcases hlast : Parser.eval env p c store with _ | last
  · rw [hlast] at hr
    exact absurd hr ends
  · obtain ⟨n, hn⟩ := Parser.eval_eq_some_iff.1 hlast
    rw [hlast] at hr
    exact ⟨n, last, hn, hr⟩

/-- The rule of the command, if there is one, has the property. -/
def Command.Has (R : Rule → Prop) : Command → Prop
  | .bind _ rule | .define _ rule | .inspect rule | .feed rule => R rule
  | .parse rule _ _ | .run rule _ _ => R rule
  | .declare _ _ | .defineValue _ _ | .seek _ _ => True

/-- All parsers that the session knows by name or in a cell have the trait. -/
structure Trait.OfSession (T : Trait) (s : Session) : Prop where
  env : T.OfEnv s.env
  store : T.OfStore s.store

theorem Trait.any_ofSession (s : Session) : Trait.any.OfSession s where
  env _ _ := trivial
  store _ cell _ := by
    rcases cell with target | ⟨name, watched, thunk, built⟩
    · exact fun _ _ => trivial
    · exact ⟨trivial, fun _ _ => trivial⟩

namespace Session

/-- The sessions that allowed commands lead to from the first one, each with any budget. -/
inductive Reached (allowed : Command → Prop) : Session → Prop
  | start : Reached allowed .start
  | step {s s' : Session} {command : Command} {budget : Nat} {answer : Logged Event Answer}
      (before : Reached allowed s) (command_allowed : allowed command)
      (taken : s.step budget command = some (answer, s')) : Reached allowed s'

/-- One allowed command leads from a session to the next. -/
def Follows (allowed : Command → Prop) (s s' : Session) : Prop :=
  ∃ command budget answer, allowed command ∧ s.step budget command = some (answer, s')

/-- Any number of allowed commands, one after another, lead from a session to a later one. -/
abbrev Later (allowed : Command → Prop) : Session → Session → Prop :=
  Relation.ReflTransGen (Follows allowed)

/-- The commands are performed one after another, each with any budget that is large enough, and
give these answers. -/
inductive Performs : List Command → Session → List (Logged Event Answer) → Session → Prop
  | nil (s : Session) : Performs [] s [] s
  | cons {s s' s'' : Session} {command : Command} {commands : List Command} {budget : Nat}
      {answer : Logged Event Answer} {answers : List (Logged Event Answer)}
      (taken : s.step budget command = some (answer, s')) (rest : Performs commands s' answers s'') :
      Performs (command :: commands) s (answer :: answers) s''

variable {s s' : Session} {command : Command} {budget : Nat}

/-- The session after commands that are each given the same budget. One that needs more is left
out. -/
def after (budget : Nat) (commands : List Command) (s : Session) : Session :=
  commands.foldl (fun s command => ((s.step budget command).map Prod.snd).getD s) s

theorem later_after {allowed : Command → Prop} {budget : Nat} {commands : List Command}
    (h : ∀ command ∈ commands, allowed command) : Later allowed s (s.after budget commands) := by
  induction commands generalizing s with
  | nil => exact .refl
  | cons command commands ih =>
    have rest := fun command' mem => h command' (List.mem_cons_of_mem command mem)
    simp only [after, List.foldl_cons]
    rcases taken : s.step budget command with _ | ⟨answer, s'⟩
    · exact ih rest
    · exact .head ⟨command, budget, answer, h command List.mem_cons_self, taken⟩ (ih rest)

theorem Reached.mono {allowed allowed' : Command → Prop} (h : s.Reached allowed)
    (more : ∀ command, allowed command → allowed' command) : s.Reached allowed' := by
  induction h with
  | start => exact .start
  | step _ command_allowed taken ih => exact .step ih (more _ command_allowed) taken

theorem Reached.later {allowed : Command → Prop} (h : s.Reached allowed)
    (later : Later allowed s s') : s'.Reached allowed := by
  induction later with
  | refl => exact h
  | tail _ step ih =>
    obtain ⟨command, budget, answer, command_allowed, taken⟩ := step
    exact .step ih command_allowed taken

theorem reached_ofCommands {allowed : Command → Prop} {commands : List Command}
    (h : ∀ command ∈ commands, allowed command) : (ofCommands commands).Reached allowed :=
  have later : Later allowed .start (start.after 0 commands) := later_after h
  Reached.later .start later

theorem step_allows {C : Contract} {raises : Fault → Prop} {P : Answer × Env × Cursor → Prop}
    (h : (meaning budget s command).Meets C raises P) (hs : C.store s.store)
    {answer : Logged Event Answer} (taken : s.step budget command = some (answer, s')) :
    C.store s'.store ∧
      match answer.result with
      | .error fault => raises fault ∧ s'.env = s.env ∧ s'.cursor = s.cursor
      | .ok a => P (a, s'.env, s'.cursor) := by
  have hm := h s.store hs
  unfold step at taken
  generalize meaning budget s command s.store = last at hm taken
  rcases last with _ | ⟨⟨log, fault | ⟨a, env, cursor⟩⟩, store⟩
  · cases taken
  · cases taken
    exact ⟨hm.1, hm.2, rfl, rfl⟩
  · cases taken
    exact hm

theorem meets_parse {C : Contract} {raises : Fault → Prop} {Q : Parser → Prop} {P : Result → Prop}
    {rule : Rule} {text : Array Char} {position : Nat}
    (built : Build.Meets C.store raises (rule.build s.env) Q)
    (ran : ∀ p, Q p → (p.run s.env budget ⟨text, position⟩).Meets C raises P) :
    (meaning budget s (.parse rule text position)).Meets C raises
      fun a => ∃ name r, a.1 = .parsed name r ∧ P r := by
  have there : Cursor.at? text position = .ok ⟨text, position⟩ := by simp [Cursor.at?_eq_ok_iff]
  refine .bind (.ofBuild built) fun p hp => ?_
  refine .bind (P := fun c => c = ⟨text, position⟩) (.ofAct ?_ ?_) fun c hc => ?_
  · intro fault hf
    rw [there] at hf
    cases hf
  · intro c hc
    rw [there] at hc
    cases hc
    rfl
  · rw [hc]
    exact .bind (ran p hp) fun r hr => .pure ⟨p.name, r, rfl, hr⟩

variable {T : Trait}

theorem meets_undefinedCell {C : Contract} (p : Parser) :
    p.undefinedCell.Meets C (fun _ => True) fun _ => True := by
  intro store hstore
  unfold Parser.undefinedCell
  split
  · split
    · exact ⟨hstore, trivial⟩
    · exact ⟨hstore, trivial⟩
  · exact ⟨hstore, trivial⟩

theorem meets_define (p : Parser) {target : Parser} (h : T.parser target) :
    (p.define target).Meets T.contract (fun _ => True) fun _ => True := by
  refine .bind (meets_undefinedCell p) fun cell _ => ?_
  refine .bind (P := fun _ => True) (.write trivial) fun _ _ => ?_
  exact .ofBuild fun store hstore => ⟨Trait.OfStore.fill hstore h cell, trivial⟩

theorem meets_meaning (hs : T.OfSession s) (hc : command.Has T.rule) (budget : Nat) :
    (meaning budget s command).Meets T.contract (fun _ => True) fun a => T.OfEnv a.2.1 := by
  have extended : ∀ (name : String) {p : Parser}, T.parser p → T.OfEnv ((name, p) :: s.env) := by
    intro name p hp e he
    rcases List.mem_cons.1 he with rfl | he
    · exact hp
    · exact hs.env e he
  have built : ∀ {rule : Rule}, T.rule rule →
      (Run.ofBuild (rule.build s.env)).Meets T.contract (fun _ => True) T.parser :=
    fun hr => .ofBuild (Trait.meets_build hs.env hr)
  have found : ∀ name : String,
      (Run.ofBuild (Rule.lookup s.env name)).Meets T.contract (fun _ => True) T.parser :=
    fun name => .ofBuild (Trait.meets_lookup hs.env name)
  have ran : ∀ {p : Parser} (c : Cursor), T.parser p →
      (p.run s.env budget c).Meets T.contract (fun _ => True) fun _ => True :=
    fun c hp => (Trait.supports hs.env).run_meets budget hp c
  have placed : ∀ (text : Array Char) (position : Int),
      (Run.ofAct (Logged.ofExcept (Cursor.at? text position))).Meets T.contract (fun _ => True)
        fun _ => True :=
    fun _ _ => .anyAct _
  cases command with
  | bind name rule => exact .bind (built hc) fun _ hp => .pure (extended name hp)
  | declare name label =>
    have empty : T.OfCell (.forward none) := fun _ h => nomatch h
    have made : Build.Meets T.OfStore (fun _ => True) (Store.newForward label) T.parser :=
      .bind (P := fun _ => True) (.allocate fun _ hstore => ⟨hstore.push empty, trivial⟩)
        fun cell _ => .pure (T.forward cell label)
    exact .bind (.ofBuild made) fun _ hp => .pure (extended name hp)
  | define name rule =>
    refine .bind (found name) fun p _ => .bind (built hc) fun target ht => ?_
    exact .bind (meets_define p ht) fun _ _ => .pure hs.env
  | defineValue name value =>
    refine .bind (found name) fun p _ => ?_
    refine .bind (P := fun _ => True) (.bind (meets_undefinedCell p) fun _ _ => .raise trivial) ?_
    exact fun _ _ => .pure hs.env
  | inspect rule => exact .bind (built hc) fun _ _ => .pure hs.env
  | parse rule text position =>
    refine .bind (built hc) fun p hp => .bind (placed text position) fun c _ => ?_
    exact .bind (ran c hp) fun _ _ => .pure hs.env
  | run rule text requireEnd =>
    refine .bind (built hc) fun p hp => .bind (P := fun _ => True) ?_ fun _ _ => .pure hs.env
    exact .bind (ran (.start text) hp) fun _ _ => .pure trivial
  | seek text position => exact .bind (placed text position) fun _ _ => .pure hs.env
  | feed rule =>
    exact .bind (built hc) fun p hp => .bind (ran s.cursor hp) fun _ _ => .pure hs.env

/-- Commands whose rules have a trait lead to sessions that have it. -/
theorem Reached.ofTrait (h : s.Reached (Command.Has T.rule)) : T.OfSession s := by
  induction h with
  | start => exact ⟨fun _ h => (nomatch h), fun _ _ h => (nomatch h)⟩
  | step before command_allowed taken ih =>
    have kept := step_allows (meets_meaning ih command_allowed _) ih.store taken
    refine ⟨?_, kept.1⟩
    have env := kept.2
    split at env
    · rw [env.2.1]
      exact ih.env
    · exact env

/-- What a command answers if `run` runs its parser. -/
def meaningBy (run : Parser → Cursor → Run Result) (s : Session) : Command → Run (Answer × Env × Cursor)
  | .parse rule text position => do
    let p ← Run.ofBuild (rule.build s.env)
    let c ← Run.ofAct (Logged.ofExcept (Cursor.at? text position))
    let r ← run p c
    return (.parsed p.name r, s.env, s.cursor)
  | .run rule text requireEnd => do
    let p ← Run.ofBuild (rule.build s.env)
    let outcome ← Report.ofResult requireEnd <$> run p (.start text)
    return (.ran p.name outcome, s.env, s.cursor)
  | .feed rule => do
    let p ← Run.ofBuild (rule.build s.env)
    let r ← run p s.cursor
    return (.fed r, s.env, r.cursor)
  | command => meaning 0 s command

theorem meaning_tends (s : Session) (command : Command) :
    Run.Tends (fun n => meaning n s command) (meaningBy (Parser.eval s.env) s command) := by
  have each := Parser.run_tends s.env
  cases command with
  | parse rule text position =>
    exact .bind (.const _) fun p => .bind (.const _) fun c => .bind (each p c) fun _ => .const _
  | run rule text requireEnd =>
    refine .bind (.const _) fun p => .bind ?_ fun _ => .const _
    exact .bind (each p _) fun _ => .const _
  | feed rule => exact .bind (.const _) fun p => .bind (each p _) fun _ => .const _
  | _ => exact .const _

theorem meaning_below {m n : Nat} (more : m ≤ n) (s : Session) (command : Command) :
    (meaning m s command).Below (meaning n s command) :=
  (meaning_tends s command).rising m n more

/-- What is left of a session when its command has ended. -/
def conclude (s : Session) : Logged Event (Answer × Env × Cursor) × Store → Logged Event Answer × Session
  | (⟨log, .error fault⟩, store) => (⟨log, .error fault⟩, { s with store })
  | (⟨log, .ok (answer, env, cursor)⟩, store) => (⟨log, .ok answer⟩, ⟨env, store, cursor⟩)

theorem conclude_result (s : Session) (ended : Logged Event (Answer × Env × Cursor) × Store) :
    (s.conclude ended).1.result = ended.1.result.map Prod.fst := by
  obtain ⟨⟨log, fault | ⟨answer, env, cursor⟩⟩, store⟩ := ended
  · rfl
  · rfl

theorem step_eq_conclude (budget : Nat) (s : Session) (command : Command) :
    s.step budget command = (meaning budget s command s.store).map s.conclude := by
  unfold step
  rcases meaning budget s command s.store with _ | ⟨⟨log, fault | ⟨answer, env, cursor⟩⟩, store⟩
  · rfl
  · rfl
  · rfl

/-- With some budget a command comes to what it comes to without a bound. -/
theorem exists_step_iff {last : Logged Event Answer × Session} :
    (∃ budget, s.step budget command = some last) ↔
      (meaningBy (Parser.eval s.env) s command s.store).map s.conclude = some last := by
  simp only [step_eq_conclude, Option.map_eq_some_iff, (meaning_tends s command).ends]
  constructor
  · rintro ⟨budget, ended, meant, rfl⟩
    exact ⟨ended, ⟨budget, meant⟩, rfl⟩
  · rintro ⟨ended, ⟨budget, meant⟩, rfl⟩
    exact ⟨budget, ended, meant, rfl⟩

theorem step_below {m n : Nat} (more : m ≤ n) {last : Logged Event Answer × Session}
    (h : s.step m command = some last) : s.step n command = some last := by
  unfold step at h ⊢
  rcases hm : meaning m s command s.store with _ | x
  · rw [hm] at h
    cases h
  · rw [meaning_below more s command _ _ hm]
    rw [hm] at h
    exact h

/-- The answer, or the fault, that the session has for a command whatever the budget, if only it is
large enough. -/
def Answers (s : Session) (command : Command) (x : Except Fault Answer) : Prop :=
  ∃ n log s', ∀ budget, n ≤ budget → s.step budget command = some (⟨log, x⟩, s')

variable {x y : Except Fault Answer}

theorem answers_of_step {log : List Event} (h : s.step budget command = some (⟨log, x⟩, s')) :
    s.Answers command x :=
  ⟨budget, log, s', fun _ more => step_below more h⟩

/-- A command came to an answer that passes the check. -/
def passes (check : Answer → Bool) : Option (Logged Event Answer × Session) → Bool
  | some (⟨_, .ok answer⟩, _) => check answer
  | _ => false

theorem exists_answers_of_passes (s : Session) (budget : Nat) (command : Command)
    {check : Answer → Bool} (h : passes check (s.step budget command) = true) :
    ∃ answer, s.Answers command (.ok answer) ∧ check answer = true := by
  rcases taken : s.step budget command with _ | ⟨⟨log, fault | answer⟩, s'⟩
  · rw [taken] at h
    cases h
  · rw [taken] at h
    cases h
  · rw [taken] at h
    exact ⟨answer, answers_of_step taken, h⟩

/-- The answer to a run that came to a report. -/
def isReport : Answer → Bool
  | .ran _ (.error _) => true
  | _ => false

theorem exists_report_of_passes (s : Session) (budget : Nat) (command : Command)
    (h : passes isReport (s.step budget command) = true) :
    ∃ name report, s.Answers command (.ok (.ran name (.error report))) := by
  obtain ⟨answer, answered, reported⟩ := exists_answers_of_passes s budget command h
  unfold isReport at reported
  split at reported
  · exact ⟨_, _, answered⟩
  · cases reported

theorem Answers.unique (h : s.Answers command x) (h' : s.Answers command y) : x = y := by
  obtain ⟨m, log, s', hm⟩ := h
  obtain ⟨n, log', s'', hn⟩ := h'
  have same := (hm (max m n) (Nat.le_max_left m n)).symm.trans (hn (max m n) (Nat.le_max_right m n))
  cases same
  rfl

/-- A run of the parser that is built is what the session answers to. -/
theorem step_run_of_run {rule : Rule} {p : Parser} {store : Store} {text : Array Char}
    (requireEnd : Bool) (built : rule.build s.env s.store = (.ok p, store))
    {last : Logged Event Result × Store} (h : p.run s.env budget (.start text) store = some last) :
    s.step budget (.run rule text requireEnd) =
      some (⟨last.1.log, last.1.result.map fun r => .ran p.name (Report.ofResult requireEnd r)⟩,
        { s with store := last.2 }) := by
  obtain ⟨⟨log, fault | r⟩, store'⟩ := last
  · simp [step, meaning, Bind.bind, Run.bind, Run.ofBuild, Logged.ofExcept, built,
      Parser.runText, h, Logged.after, Except.map]
  · simp [step, meaning, Bind.bind, Run.bind, Run.ofBuild, Logged.ofExcept, built,
      Parser.runText, h, Logged.after, Except.map, Pure.pure, Run.pure, Logged.ok]

theorem step_parse_of_run {rule : Rule} {p : Parser} {store : Store} {text : Array Char}
    {position : Nat} (built : rule.build s.env s.store = (.ok p, store))
    {last : Logged Event Result × Store}
    (h : p.run s.env budget ⟨text, position⟩ store = some last) :
    s.step budget (.parse rule text position) =
      some (⟨last.1.log, last.1.result.map fun r => .parsed p.name r⟩,
        { s with store := last.2 }) := by
  have there : Cursor.at? text position = .ok ⟨text, position⟩ := by simp [Cursor.at?_eq_ok_iff]
  obtain ⟨⟨log, fault | r⟩, store'⟩ := last
  · simp [step, meaning, Bind.bind, Run.bind, Run.ofBuild, Run.ofAct, Logged.ofExcept, built,
      there, h, Logged.mapLog, Logged.after, Except.map]
  · simp [step, meaning, Bind.bind, Run.bind, Run.ofBuild, Run.ofAct, Logged.ofExcept, built,
      there, h, Logged.mapLog, Logged.after, Except.map, Pure.pure, Run.pure, Logged.ok]

theorem step_parse_of_none {rule : Rule} {p : Parser} {store : Store} {text : Array Char}
    {position : Nat} (built : rule.build s.env s.store = (.ok p, store))
    (h : p.run s.env budget ⟨text, position⟩ store = none) :
    s.step budget (.parse rule text position) = none := by
  have there : Cursor.at? text position = .ok ⟨text, position⟩ := by simp [Cursor.at?_eq_ok_iff]
  simp [step, meaning, Bind.bind, Run.bind, Run.ofBuild, Run.ofAct, Logged.ofExcept, built,
    there, h, Logged.mapLog]

/-- A text is run to an answer if the parser that is built cannot run for ever. -/
theorem exists_answers_run {C : Contract} {raises : Fault → Prop} {fails : Prop}
    {matched : Value → Cursor → Prop} {rule : Rule} {p : Parser} {store : Store}
    {text : Array Char} (requireEnd : Bool) (built : rule.build s.env s.store = (.ok p, store))
    (hstore : C.store store) (ends : ¬C.endless)
    (h : p.Ends C s.env (.start text) raises fails matched) :
    ∃ x, s.Answers (.run rule text requireEnd) x ∧
      match x with
      | .error fault => raises fault
      | .ok a => ∃ r, Result.Ends fails matched r ∧
          a = .ran p.name (Report.ofResult requireEnd r) := by
  obtain ⟨n, last, hn, hr⟩ := h.exists_run hstore ends
  refine ⟨_, answers_of_step (step_run_of_run requireEnd built hn), ?_⟩
  obtain ⟨⟨log, fault | r⟩, store'⟩ := last
  · exact hr.2
  · exact ⟨r, hr.2, rfl⟩

theorem exists_answers_parse {C : Contract} {raises : Fault → Prop} {fails : Prop}
    {matched : Value → Cursor → Prop} {rule : Rule} {p : Parser} {store : Store}
    {text : Array Char} {position : Nat} (built : rule.build s.env s.store = (.ok p, store))
    (hstore : C.store store) (ends : ¬C.endless)
    (h : p.Ends C s.env ⟨text, position⟩ raises fails matched) :
    ∃ x, s.Answers (.parse rule text position) x := by
  obtain ⟨n, last, hn, -⟩ := h.exists_run hstore ends
  exact ⟨_, answers_of_step (step_parse_of_run built hn)⟩

end Session

end Rewind
