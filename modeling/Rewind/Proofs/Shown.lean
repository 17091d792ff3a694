import Rewind.Proofs.Binding
import Rewind.Proofs.History
import Rewind.Proofs.Written

namespace Rewind

variable {s : Session} {A B : Store} {p : Parser} {c d : Cursor} {log : List Event} {v : Value}

theorem observed_notes (notes : List Note) : observed (notes.map .note) = notes.map .note := by
  induction notes with
  | nil => rfl
  | cons note notes ih => exact congrArg (Event.note note :: ·) ih

/-- Alike parsers end together also where the budget is not bounded. -/
theorem Likeness.couples_eval {L : Likeness} (exactly : ¬L.unfolds) (sound : L.Sound s) :
    L.Couples s (Parser.eval s.env) (Parser.eval s.env) := by
  intro A B p q c d hA hB alike hc
  have coupled : ∀ n, Run.Coupled L s A B (Parser.run s.env n p c) (Parser.run s.env n q d)
      fun _ _ => L.Results := by
    intro n
    have ended := couples_run sound n hA hB alike hc
    rwa [follow_of_not exactly] at ended
  unfold Run.Coupled at coupled ⊢
  -- One of the two runs ends within some budget, and with that budget the other one does, too.
  rcases hx : Parser.eval s.env p c A with _ | x
  · rcases hy : Parser.eval s.env q d B with _ | y
    · exact .spent
    · obtain ⟨n, hn⟩ := Parser.eval_eq_some_iff.1 hy
      have ended := coupled n
      rw [hn] at ended
      generalize hu : Parser.run s.env n p c A = u at ended
      cases ended with
      | behind unfolds => exact absurd unfolds exactly
      | ended =>
        have endless := hx.symm.trans (Parser.eval_eq_some_iff.2 ⟨n, hu⟩)
        cases endless
  · obtain ⟨n, hn⟩ := Parser.eval_eq_some_iff.1 hx
    have ended := coupled n
    rw [hn] at ended
    generalize hu : Parser.run s.env n q d B = u at ended
    cases ended with
    | ended left right logs answers =>
      rw [Parser.eval_eq_some_iff.2 ⟨n, hu⟩]
      exact .ended left right logs answers

namespace Session

variable {rule : Rule} {allowed : Command → Prop} {shown shown' : Logged Event Result}

theorem leads_of_eval (hA : s.Grown A) (h : p.eval s.env c A = some (shown, B)) : s.Leads A B := by
  obtain ⟨n, ran⟩ := Parser.eval_eq_some_iff.1 h
  exact leads_of_run hA ran

theorem parses_of_built (built : rule.build s.env s.store = (.ok p, A))
    (h : p.eval s.env c A = some (shown, B)) : s.Parses rule c (shown, B) :=
  parses_iff.2 ((Rule.eval_of_built built c).trans h)

/-- A parse of the rule ends with this fault or result and these records, apart from those of thunks. -/
def Shows (s : Session) (rule : Rule) (c : Cursor) (shown : Logged Event Result) : Prop :=
  ∃ log A, s.Parses rule c (⟨log, shown.result⟩, A) ∧ observed log = shown.log

/-- At every cursor a parse of the rule ends with a result. -/
def Returns (s : Session) (rule : Rule) : Prop := ∀ c, ∃ log r, s.Shows rule c ⟨log, .ok r⟩

theorem Shows.unique (h : s.Shows rule c shown) (h' : s.Shows rule c shown') : shown = shown' := by
  obtain ⟨log, A, parsed, logged⟩ := h
  obtain ⟨log', A', parsed', logged'⟩ := h'
  have same := parsed.unique parsed'
  simp only [Prod.mk.injEq, Logged.mk.injEq] at same
  obtain ⟨⟨rfl, results⟩, -⟩ := same
  obtain ⟨log₁, x⟩ := shown
  obtain ⟨log₂, y⟩ := shown'
  cases logged
  cases logged'
  cases results
  rfl

theorem shows_iff_of_built (built : rule.build s.env s.store = (.ok p, A)) :
    s.Shows rule c shown ↔
      ∃ log B, p.eval s.env c A = some (⟨log, shown.result⟩, B) ∧ observed log = shown.log := by
  simp only [Shows, parses_iff, Rule.eval_of_built built]

/-- What a rule makes, in whichever store, shows what a parse of the rule does. -/
theorem shows_iff (reached : s.Reached allowed) (hA : s.Grown A) (made : rule.Makes s A p) :
    s.Shows rule c shown ↔
      ∃ log B, p.eval s.env c A = some (⟨log, shown.result⟩, B) ∧ observed log = shown.log := by
  obtain ⟨q, A₀, built, leads, made₀⟩ := Rule.exists_makes (.refl s) made.refusal?_eq_none
  have sound : Likeness.equal.Sound s :=
    Likeness.equal_admits.sound (Trait.any_ofSession s) reached.scoped fun _ _ same => same
  have alike : q.Alike .equal s A₀ A p :=
    sound.alike_of_makes leads.grown.grows hA.grows (Likeness.equal_admits.rule trivial) made₀ made
  have coupled := Likeness.couples_eval id sound leads.grown hA alike (show c = c from rfl)
  unfold Run.Coupled at coupled
  rw [shows_iff_of_built built]
  generalize q.eval s.env c A₀ = u at coupled
  generalize p.eval s.env c A = v at coupled
  cases coupled with
  | spent => simp
  | behind unfolds => exact unfolds.elim
  | @ended log log' x y A' B' left right logs answers =>
    have logs : observed log = observed log' := logs trivial
    obtain rfl : x = y := answers.eq fun _ _ same => same.eq fun _ _ same => same
    constructor
    · rintro ⟨_, _, same, logged⟩
      cases same
      exact ⟨log', B', rfl, logs ▸ logged⟩
    · rintro ⟨_, _, same, logged⟩
      cases same
      exact ⟨log, A', rfl, logs ▸ logged⟩

/-- Two parsers in a row, of which the second one finds what the first one leaves. -/
theorem Shows.in_turn {rule' : Rule} {q : Parser} {log' : List Event} {x y : Except Fault Result}
    (first : s.Shows rule c ⟨log, x⟩) (second : s.Shows rule' d ⟨log', y⟩)
    (reached : s.Reached allowed) (hA : s.Grown A) (made : rule.Makes s A p)
    (made' : rule'.Makes s A q) :
    ∃ full B full' D, p.eval s.env c A = some (⟨full, x⟩, B) ∧
      q.eval s.env d B = some (⟨full', y⟩, D) ∧ observed full = log ∧ observed full' = log' := by
  obtain ⟨full, B, ends, logged⟩ := (shows_iff reached hA made).1 first
  have hB := leads_of_eval hA ends
  obtain ⟨full', D, ends', logged'⟩ := (shows_iff reached hB.grown (made'.mono hB.grows)).1 second
  exact ⟨full, B, full', D, ends, ends', logged, logged'⟩

/-- A failure gives back the cursor. -/
theorem Shows.eq_failure {r : Result} (h : s.Shows rule c ⟨log, .ok r⟩) (failed : r.ok = false) :
    r = .failure c := by
  obtain ⟨full, B, parsed, -⟩ := h
  have settled := congrFun (Rule.eval_settle s.env rule c) s.store
  simp only [Run.settle, parses_iff.1 parsed, Result.settle_of_not_ok failed] at settled
  cases settled
  rfl

/-- A rule that is refused has no result. -/
theorem Shows.accepted {r : Result} (h : s.Shows rule c ⟨log, .ok r⟩) :
    rule.refusal? s.env = none := by
  obtain ⟨full, B, parsed, -⟩ := h
  rw [parses_iff] at parsed
  rcases built : rule.build s.env s.store with ⟨fault | p, A⟩
  · rw [Rule.eval_of_raised built] at parsed
    cases parsed
  · exact (rule.build_becomes (.refl s) built).2.1

/-- What all runs of the parsers with a trait keep holds of the result of a rule that has it. -/
theorem Shows.of_meets {T : Trait} {P : Result → Prop} {r : Result} (hs : T.OfSession s)
    (hr : T.rule rule)
    (each : ∀ n p, T.parser p → (p.run s.env n c).Meets T.contract (fun _ => True) P)
    (h : s.Shows rule c ⟨log, .ok r⟩) : P r := by
  obtain ⟨full, B, parsed, -⟩ := h
  rw [parses_iff] at parsed
  have built := Trait.meets_build hs.env hr s.store hs.store
  rcases made : rule.build s.env s.store with ⟨fault | q, A⟩
  · rw [Rule.eval_of_raised made] at parsed
    cases parsed
  · rw [made] at built
    rw [Rule.eval_of_built made] at parsed
    obtain ⟨n, ran⟩ := Parser.eval_eq_some_iff.1 parsed
    have ends := each n q built.2 A built.1
    rw [ran] at ends
    exact ends.2

/-- Where a match of a plain rule leaves off. -/
theorem Shows.reaches (reached : s.Reached Command.Plain) (plain : rule.Plain)
    (h : s.Shows rule c ⟨log, .ok (.success v d)⟩) : c.Reaches d :=
  h.of_meets (T := .plain) ⟨reached.plain.env, reached.plain.store⟩ plain
    (fun n _ hp => Parser.run_reaches reached.plain.env n hp c) rfl

/-- The value of a match of a plain rule can be written. -/
theorem Shows.writes {r : Result} (reached : s.Reached Command.Plain) (plain : rule.Plain)
    (h : s.Shows rule c ⟨log, .ok r⟩) : r.Writes :=
  h.of_meets reached.library ⟨plain, trivial⟩ fun n _ hp =>
    Parser.run_writes reached.library.env n hp c

namespace Returns

/-- It is built, and fails and gives back the cursor, or matches. -/
theorem cases (returns : s.Returns rule) (c : Cursor) :
    (∃ log, s.Shows rule c ⟨log, .ok (.failure c)⟩) ∨
      ∃ log v d, s.Shows rule c ⟨log, .ok (.success v d)⟩ := by
  obtain ⟨log, ⟨v, d, ok⟩, shows⟩ := returns c
  rcases ok with _ | _
  · exact .inl ⟨log, shows.eq_failure rfl ▸ shows⟩
  · exact .inr ⟨log, v, d, shows⟩

theorem exists_built (returns : s.Returns rule) (hA : s.Grown A) :
    ∃ p B, rule.build s.env A = (.ok p, B) ∧ s.Leads A B ∧ rule.Makes s B p := by
  obtain ⟨log, r, shows⟩ := returns (.start #[])
  exact Rule.exists_makes hA shows.accepted

/-- A parser that cannot raise or run for ever at any cursor. -/
theorem of_ends (built : rule.build s.env s.store = (.ok p, A))
    (ends : ∀ c, p.Ends ⟨fun _ => True, False⟩ s.env c (fun _ => False) True fun _ _ => True) :
    s.Returns rule := by
  intro c
  have held : (⟨fun _ => True, False⟩ : Contract).store A := trivial
  obtain ⟨n, ⟨⟨full, fault | r⟩, B⟩, ran, allowed⟩ := (ends c).exists_run held id
  · exact allowed.2.elim
  · have evaluated := Parser.eval_eq_some_iff.2 ⟨n, ran⟩
    exact ⟨_, r, (shows_iff_of_built built).2 ⟨full, B, evaluated, rfl⟩⟩

end Returns

variable {test : Char → Bool} {name : String}

/-- A test that cannot raise reads a character that passes, and writes nothing. -/
theorem shows_ofTest_iff : s.Shows (.ofTest test name) c shown ↔ shown = ⟨[], .ok
    (match c.char? with
      | some x => if test x then .success (.ofChar x) c.next else .failure c
      | none => .failure c)⟩ := by
  have built : (Rule.ofTest test name).build s.env s.store =
      (.ok (.atom (.satisfy (.ofBool test) name)), s.store) := rfl
  have tested : (Parser.atom (.satisfy (.ofBool test) name)).eval s.env c = _ :=
    Parser.eval_satisfy test name c
  have shows : s.Shows (.ofTest test name) c ⟨[], _⟩ :=
    (shows_iff_of_built built).2 ⟨[], s.store, congrFun tested s.store, rfl⟩
  exact ⟨fun h => h.unique shows, fun same => same ▸ shows⟩

theorem returns_ofTest : s.Returns (.ofTest test name) :=
  fun _ => ⟨[], _, shows_ofTest_iff.2 rfl⟩

end Session

end Rewind
