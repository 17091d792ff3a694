import Mathlib.Logic.ExistsUnique
import Rewind.Proofs.Lookahead

namespace Rewind

/-- A text splits at a position inside it into what comes before and what is left. -/
theorem Cursor.remaining_eq_iff {c : Cursor} {leftover : String} :
    c.remaining = leftover ↔ c.text.toList = c.text.toList.take c.position ++ leftover.toList := by
  rw [Cursor.remaining, Cursor.rest, ← String.toList_inj, String.toList_ofList]
  constructor
  · intro same
    rw [← same, List.take_append_drop]
  · intro split
    have whole := List.take_append_drop c.position c.text.toList
    exact List.append_cancel_left (whole.trans split)

theorem Report.ofResult_eq_unconsumed_iff {requireEnd : Bool} {r : Result} {position : Nat}
    {leftover : String} : Report.ofResult requireEnd r = .error ⟨position, leftover, true⟩ ↔
      requireEnd = true ∧ r.ok = true ∧ r.cursor.position = position ∧ r.cursor.atEnd = false ∧
        r.cursor.remaining = leftover := by
  by_cases left : (requireEnd && !r.cursor.atEnd) = true
  · obtain ⟨rfl, inside⟩ : requireEnd = true ∧ r.cursor.atEnd = false := by simpa using left
    cases ok : r.ok with
    | false => simp [ofResult, ok]
    | true =>
      have given : ofResult true r = .error ⟨r.cursor.position, r.cursor.remaining, true⟩ := by
        simp [ofResult, ok, inside]
      rw [given, Except.error.injEq, mk.injEq, Int.natCast_inj]
      simp only [inside, true_and, and_true]
  · have given : ofResult requireEnd r ≠ .error ⟨position, leftover, true⟩ := by
      rw [ofResult, if_neg left]
      cases r.ok <;> simp
    exact ⟨fun same => absurd same given, fun found => absurd (by simp [found.1, found.2.2.2.1]) left⟩

/-- What may be found of a text. -/
inductive Verdict where
  | accepted (value : Value)
  | failed
  /-- A match left off at the position, with this text behind it. -/
  | unconsumed (position : Nat) (leftover : String)

namespace Verdict

/-- What a run gives for it. -/
def outcome : Verdict → Except Report Value
  | accepted v => .ok v
  | failed => .error ⟨0, "", false⟩
  | unconsumed position leftover => .error ⟨position, leftover, true⟩

/-- It is found of a text on which the parser ends with this result. -/
def Of (text : Array Char) (requireEnd : Bool) (r : Result) : Verdict → Prop
  | accepted v => r.ok = true ∧ r.value = v ∧ (requireEnd = false ∨ r.cursor.atEnd = true)
  | failed => r.ok = false
  | unconsumed position leftover => requireEnd = true ∧ r.ok = true ∧ r.cursor.position = position ∧
      position < text.size ∧ leftover ≠ "" ∧
      text.toList = text.toList.take position ++ leftover.toList

theorem outcome_injective : Function.Injective outcome := by
  intro x y same
  cases x with
  | accepted v =>
    cases y <;> cases same
    rfl
  | failed =>
    cases y <;> cases same
    rfl
  | unconsumed position leftover =>
    cases y <;> cases same
    rfl

variable {text : Array Char} {requireEnd : Bool} {r : Result}

theorem exists_ofResult (settled : r.ok = false → r = .failure (.start text)) :
    ∃ verdict, Report.ofResult requireEnd r = outcome verdict := by
  rcases ok : r.ok with _ | _
  · rw [settled ok]
    exact ⟨failed, rfl⟩
  · by_cases left : (requireEnd && !r.cursor.atEnd) = true
    · exact ⟨unconsumed r.cursor.position r.cursor.remaining, by simp [Report.ofResult, ok, left, outcome]⟩
    · exact ⟨accepted r.value, by simp [Report.ofResult, ok, left, outcome]⟩

/-- What a parser that keeps to the text finds of it is what is reported. -/
theorem ofResult_eq_outcome_iff (settled : r.ok = false → r = .failure (.start text))
    (reaches : r.ok = true → (Cursor.start text).Reaches r.cursor) (verdict : Verdict) :
    Report.ofResult requireEnd r = verdict.outcome ↔ verdict.Of text requireEnd r := by
  rcases ok : r.ok with _ | _
  · rw [settled ok]
    cases verdict <;> simp [Report.ofResult, Result.failure, Cursor.start, outcome, Of]
  · have kept : r.cursor.text = text := (reaches ok).text
    cases verdict with
    | accepted v =>
      rw [outcome, Report.ofResult_eq_ok_iff, ← Cursor.atEnd_iff_rest_eq_nil, Of]
      cases requireEnd <;> simp [and_comm]
    | failed =>
      rw [Of, ok]
      by_cases left : (requireEnd && !r.cursor.atEnd) = true
      · simp [Report.ofResult, ok, left, outcome]
      · simp [Report.ofResult, ok, left, outcome]
    | unconsumed position leftover =>
      rw [outcome, Report.ofResult_eq_unconsumed_iff, Of, Cursor.remaining_eq_iff, kept]
      constructor
      · rintro ⟨required, -, rfl, inside, split⟩
        have before : r.cursor.position < text.size := by simpa [Cursor.atEnd, kept] using inside
        have left : r.cursor.remaining ≠ "" := by
          rw [Ne, Cursor.remaining_eq_empty_iff, inside]
          exact Bool.false_ne_true
        rw [Cursor.remaining_eq_iff.2 (kept ▸ split)] at left
        exact ⟨required, ok, rfl, before, left, split⟩
      · rintro ⟨required, -, rfl, before, -, split⟩
        exact ⟨required, ok, rfl, by simpa [Cursor.atEnd, kept] using before, split⟩

end Verdict

namespace Rule

variable {env : Env}

/-- A rule behind which the text must have ended. -/
def toEnd (m : Rule) : Rule := m.bind fun v => pure (endOfInput.before (constant v))

theorem eval_endOfInput_before {v : Value} (fits : v.writable = true) (c : Cursor) :
    (endOfInput.before (constant v)).eval env c =
      pure (if c.atEnd then .success v c else .failure c) := by
  let ended : Parser := .label (.not (.satisfy (fun _ => true) "any_char")) "end of input"
  have built : endOfInput.build env = pure ended := rfl
  have made : (constant v).build env = pure (.constant v) := build_constant fits
  have built' : (endOfInput.before (constant v)).build env = pure (ended.before (.constant v)) := by
    simp only [before, build, built, made, LawfulMonad.pure_bind]
    rfl
  have looks : ended.eval env c = pure ⟨.none, c, c.atEnd⟩ :=
    (eval_of_pure built c).symm.trans (eval_endOfInput c)
  rw [eval_of_pure built', Parser.eval_before, looks, LawfulMonad.pure_bind, Parser.eval_constant,
    LawfulMonad.pure_bind]
  exact (apply_ite pure _ _ _).symm

end Rule

namespace Session

variable {s : Session} {rule : Rule} {text : Array Char} {requireEnd : Bool}

/-- A run of a text ends so, under any name, with every budget that is large enough: with these records,
this fault, value or report, and these cells. -/
def Runs (s : Session) (rule : Rule) (text : Array Char) (requireEnd : Bool)
    (last : Logged Event (Except Report Value) × Store) : Prop :=
  ∃ n name, ∀ budget, n ≤ budget → s.step budget (.run rule text requireEnd) =
    some (⟨last.1.log, last.1.result.map (Answer.ran name)⟩, { s with store := last.2 })

theorem step_run_of_none {p : Parser} {A : Store} {budget : Nat}
    (built : rule.build s.env s.store = (.ok p, A))
    (h : p.run s.env budget (.start text) A = none) :
    s.step budget (.run rule text requireEnd) = none := by
  simp [step, meaning, Parser.runText, Bind.bind, Run.bind, Run.ofBuild, Logged.ofExcept, built, h]

theorem map_ran_inj {name name' : String} {x : Except Fault Result}
    {y : Except Fault (Except Report Value)}
    (h : (x.map fun r => Answer.ran name (Report.ofResult requireEnd r)) = y.map (Answer.ran name')) :
    y = x.map (Report.ofResult requireEnd) := by
  cases x <;> cases y <;> cases h <;> rfl

/-- A run parses the text from its start and makes a report of the result. -/
theorem runs_iff {log : List Event} {y : Except Fault (Except Report Value)} {A : Store} :
    s.Runs rule text requireEnd (⟨log, y⟩, A) ↔
      ∃ x, s.Parses rule (.start text) (⟨log, x⟩, A) ∧ y = x.map (Report.ofResult requireEnd) := by
  simp only [parses_iff]
  rcases built : rule.build s.env s.store with ⟨fault | p, B⟩
  · have raised : ∀ budget, s.step budget (.run rule text requireEnd) =
        some (⟨[], .error fault⟩, { s with store := B }) := by
      intro budget
      simp only [step, meaning, Run.bind_of_error (Run.ofBuild_eq built)]
    rw [Rule.eval_of_raised built]
    constructor
    · rintro ⟨n, name, ended⟩
      have taken := (raised n).symm.trans (ended n (Nat.le_refl n))
      simp only [Option.some.injEq, Prod.mk.injEq, Logged.mk.injEq, Session.mk.injEq, true_and,
        and_true] at taken
      obtain ⟨⟨rfl, results⟩, rfl⟩ := taken
      exact ⟨.error fault, rfl, by cases y <;> cases results; rfl⟩
    · rintro ⟨x, same, rfl⟩
      cases same
      -- No parser was built, so that any name will do.
      exact ⟨0, "", fun budget _ => raised budget⟩
  · rw [Rule.eval_of_built built]
    simp only [Parser.eval_eq_some_iff]
    constructor
    · rintro ⟨n, name, ended⟩
      have taken := ended n (Nat.le_refl n)
      rcases ran : p.run s.env n (.start text) B with _ | ⟨⟨log', x⟩, D⟩
      · rw [step_run_of_none built ran] at taken
        cases taken
      · rw [step_run_of_run requireEnd built ran] at taken
        simp only [Option.some.injEq, Prod.mk.injEq, Logged.mk.injEq, Session.mk.injEq, true_and,
          and_true] at taken
        obtain ⟨⟨rfl, results⟩, rfl⟩ := taken
        exact ⟨x, ⟨n, ran⟩, map_ran_inj results⟩
    · rintro ⟨x, ⟨n, ran⟩, rfl⟩
      refine ⟨n, p.name, fun budget more => ?_⟩
      rw [step_run_of_run requireEnd built (Parser.run_below s.env more p _ _ _ ran)]
      cases x <;> rfl

theorem runs_ok_iff {log : List Event} {v : Value} {A : Store} :
    s.Runs rule text requireEnd (⟨log, .ok (.ok v)⟩, A) ↔
      ∃ r, s.Parses rule (.start text) (⟨log, .ok r⟩, A) ∧ r.ok = true ∧
        (requireEnd = true → r.cursor.rest = []) ∧ r.value = v := by
  rw [runs_iff]
  constructor
  · rintro ⟨fault | r, parsed, same⟩
    · cases same
    · exact ⟨r, parsed, Report.ofResult_eq_ok_iff.1 (Except.ok.inj same).symm⟩
  · rintro ⟨r, parsed, found⟩
    exact ⟨.ok r, parsed, congrArg Except.ok (Report.ofResult_eq_ok_iff.2 found).symm⟩

theorem parses_toEnd_iff {c : Cursor} {log : List Event} {y : Except Fault Result} {A : Store}
    (fits : s.Gives rule c fun v => v.writable = true) :
    s.Parses rule.toEnd c (⟨log, y⟩, A) ↔
      ∃ x, s.Parses rule c (⟨log, x⟩, A) ∧ y = x.map fun r =>
        if r.ok && r.cursor.atEnd then .success r.value r.cursor else .failure c := by
  simp only [parses_iff]
  rw [Rule.toEnd, Rule.eval_bind, ← Run.bind_pure_eq_some_iff]
  refine Eq.congr_left (Run.bind_congr_at rfl fun log r A ended => ?_)
  by_cases ok : r.ok = true
  · have value : r.value.writable = true := fits log r A (parses_iff.2 ended) ok
    rw [if_pos ok, Run.ofAct_pure, LawfulMonad.pure_bind, Rule.eval_endOfInput_before value,
      Run.settle_pure, ok]
    cases r.cursor.atEnd <;> rfl
  · have failed : r.ok = false := by simpa using ok
    rw [if_neg ok, failed]
    rfl

/-- To require the end is to ask for it behind the rule. -/
theorem runs_toEnd_iff {log : List Event} {v : Value} {A : Store}
    (fits : s.Gives rule (.start text) fun v => v.writable = true) :
    s.Runs rule text true (⟨log, .ok (.ok v)⟩, A) ↔
      s.Runs rule.toEnd text false (⟨log, .ok (.ok v)⟩, A) := by
  simp only [runs_ok_iff, parses_toEnd_iff fits]
  constructor
  · rintro ⟨r, parsed, ok, ended, rfl⟩
    have found : (r.ok && r.cursor.atEnd) = true := by
      rw [ok, (Cursor.atEnd_iff_rest_eq_nil r.cursor).2 (ended trivial)]
      rfl
    refine ⟨.success r.value r.cursor, ⟨.ok r, parsed, ?_⟩, rfl, nofun, rfl⟩
    rw [Except.map, if_pos found]
  · rintro ⟨t, ⟨fault | r, parsed, same⟩, ok, -, rfl⟩
    · cases same
    · by_cases found : (r.ok && r.cursor.atEnd) = true
      · rw [Except.map, if_pos found] at same
        cases same
        rw [Bool.and_eq_true] at found
        exact ⟨r, parsed, found.1, fun _ => (Cursor.atEnd_iff_rest_eq_nil r.cursor).1 found.2, rfl⟩
      · rw [Except.map, if_neg found] at same
        cases same
        cases ok

/-- Where a parse from the start leaves off, if the rule is plain. -/
theorem Parses.reaches (reached : s.Reached Command.Plain) (plain : rule.Plain) {c : Cursor}
    {log : List Event} {r : Result} {A : Store} (parsed : s.Parses rule c (⟨log, .ok r⟩, A))
    (ok : r.ok = true) : c.Reaches r.cursor := by
  obtain ⟨v, d, rfl⟩ : ∃ v d, r = .success v d := ⟨r.value, r.cursor, by rw [Result.success, ← ok]⟩
  have shows : s.Shows rule c ⟨_, .ok (.success v d)⟩ := ⟨log, A, parsed, rfl⟩
  exact shows.reaches reached plain

/-- In a session that plain commands lead to, with a plain rule, on every text, and whether the end is
required or not: where a run returns, just one verdict is found of what the rule comes to from the start
of the text, and this verdict is what the run gives. A value is given, whatever it is, just where the rule
matches with it and need not or does reach the end; a report of the start without leftover text just where
it fails; and a report of leftover text just where it matches, has to reach the end and does not, and then
the text is what it read and what is left, which is not empty. A run that requires the end gives a value
just where one that does not gives it for the rule with the end of the text asked for behind it. -/
theorem run_classified {s : Session} (reached : s.Reached Command.Plain) {rule : Rule}
    (plain : rule.Plain) (text : Array Char) (requireEnd : Bool) :
    (∀ log outcome A, s.Runs rule text requireEnd (⟨log, .ok outcome⟩, A) →
      ∃ r, s.Parses rule (.start text) (⟨log, .ok r⟩, A) ∧
        (∃! verdict : Verdict, verdict.Of text requireEnd r) ∧
        ∀ verdict : Verdict, outcome = verdict.outcome ↔ verdict.Of text requireEnd r) ∧
    ∀ v log A, s.Runs rule text true (⟨log, .ok (.ok v)⟩, A) ↔
      s.Runs rule.toEnd text false (⟨log, .ok (.ok v)⟩, A) := by
  have fits : s.Gives rule (.start text) fun v => v.writable = true := by
    intro log r A parsed
    have shows : s.Shows rule (.start text) ⟨_, .ok r⟩ := ⟨log, A, parsed, rfl⟩
    exact shows.writes reached plain
  refine ⟨fun log outcome A ran => ?_, fun v log A => runs_toEnd_iff fits⟩
  obtain ⟨x, parsed, same⟩ := runs_iff.1 ran
  obtain ⟨r, rfl, rfl⟩ : ∃ r, x = .ok r ∧ outcome = Report.ofResult requireEnd r := by
    rcases x with fault | r
    · cases same
    · exact ⟨r, rfl, Except.ok.inj same⟩
  have settled : r.ok = false → r = .failure (.start text) := by
    have shows : s.Shows rule (.start text) ⟨_, .ok r⟩ := ⟨log, A, parsed, rfl⟩
    exact shows.eq_failure
  have found : ∀ verdict : Verdict,
      Report.ofResult requireEnd r = verdict.outcome ↔ verdict.Of text requireEnd r :=
    Verdict.ofResult_eq_outcome_iff settled (parsed.reaches reached plain)
  have reported : ∃ verdict : Verdict, Report.ofResult requireEnd r = verdict.outcome :=
    Verdict.exists_ofResult settled
  obtain ⟨verdict, given⟩ := reported
  -- Two verdicts that both hold have one outcome, the one of the run, and so they are one.
  refine ⟨r, parsed, ?_, found⟩
  refine ⟨verdict, (found verdict).1 given, fun other holds => ?_⟩
  exact Verdict.outcome_injective (((found other).2 holds).symm.trans given)

/-- A digit that is not there may be left out, which gives no value and yet is a match: at the start all
of the text is left, and this is not the report of a failure. -/
theorem run_classified_omitted :
    start.Runs (.optional .digit) #['x'] true (⟨[], .ok (.error ⟨0, "x", true⟩)⟩, start.store) ∧
    (∃ r, start.Parses (.optional .digit) (.start #['x']) (⟨[], .ok r⟩, start.store) ∧
      (Verdict.unconsumed 0 "x").Of #['x'] true r ∧ ¬Verdict.failed.Of #['x'] true r) ∧
    ¬start.Runs (Rule.optional .digit).toEnd #['x'] false (⟨[], .ok (.ok .none)⟩, start.store) := by
  have plain : (Rule.optional .digit).Plain := trivial
  have run : start.step 9 (.run (.optional .digit) #['x'] true) =
    some (⟨[], .ok (.ran _ (.error ⟨0, "x", true⟩))⟩, start) := rfl
  have ran : start.Runs (.optional .digit) #['x'] true
      (⟨[], .ok (.error ⟨0, "x", true⟩)⟩, start.store) :=
    ⟨9, _, fun budget more => step_below more run⟩
  obtain ⟨classified, ended⟩ := run_classified .start plain #['x'] true
  obtain ⟨r, parsed, -, found⟩ := classified _ _ _ ran
  have left := (found (.unconsumed 0 "x")).1 rfl
  refine ⟨ran, ⟨r, parsed, left, fun failed => ?_⟩, fun accepted => ?_⟩
  · exact absurd ((found .failed).2 failed) (by simp [Verdict.outcome])
  · obtain ⟨n, name, gave⟩ := (ended .none [] start.store).2 accepted
    have both := (gave (max n 9) (Nat.le_max_left n 9)).symm.trans
      (step_below (Nat.le_max_right n 9) run)
    cases both

end Session

end Rewind
