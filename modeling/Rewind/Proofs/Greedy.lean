import Rewind.Proofs.Chains
import Rewind.Proofs.Lexemes
import Rewind.Proofs.Shown

namespace Rewind

namespace Cursor.Reaches

variable {c d : Cursor}

/-- Where a cursor may lead, getting nowhere is not to move. -/
theorem idle_iff (h : c.Reaches d) : idle c d = true ↔ ¬c.position < d.position := by
  have forward := h.forward
  have bounded := h.bounded
  rw [Rewind.idle_iff h.text, atEnd, atEnd, h.text, decide_eq_true_eq, decide_eq_true_eq]
  omega

theorem eq_of_not_lt (h : c.Reaches d) (still : ¬c.position < d.position) : d = c := by
  obtain ⟨text, position⟩ := d
  obtain ⟨rfl, forward, -⟩ := h
  obtain rfl : position = c.position := by
    simp only at still forward
    omega
  rfl

end Cursor.Reaches

namespace Parser

variable {env : Env} {p : Parser} {c d e : Cursor} {A B D : Store} {log log' : List Event}
  {values : List Value} {v : Value}

theorem eval_many1_of_failed (failed : p.eval env c A = some (⟨log, .ok (.failure c)⟩, B)) :
    p.many1.eval env c A = some (⟨log, .ok (.failure c)⟩, B) := by
  rw [many1, eval_label]
  exact eval_both_of_failed failed rfl

theorem eval_many1_of_matched (first : p.eval env c A = some (⟨log, .ok (.success v d)⟩, B))
    (rest : (many p).eval env d B = some (⟨log', .ok (.success (.list values) e)⟩, D))
    (fits : (Value.list (v :: values)).writable = true) :
    p.many1.eval env c A = some (⟨log ++ log', .ok (.success (.list (v :: values)) e)⟩, D) := by
  rw [many1, eval_label]
  exact eval_both_of_ok first rfl rest rfl (Value.asConstant_of_writable fits)

end Parser

namespace Chain

variable {env : Env} {p : Parser} {c d : Cursor} {A B D E : Store} {log log' log'' : List Event}
  {values : List Value} {v : Value} {r : Result}

theorem forward (h : Chain env p c A log values d B) : d.text = c.text ∧ c.position ≤ d.position := by
  induction h with
  | nil c A => exact ⟨rfl, Nat.le_refl _⟩
  | cons _ _ text _ further _ ih =>
    exact ⟨ih.1.trans text, Nat.le_trans (Nat.le_of_lt further) ih.2⟩

theorem further (h : Chain env p c A log (v :: values) d B) :
    c.position < c.text.size ∧ c.position < d.position := by
  cases h with
  | cons _ _ _ inside further later =>
    exact ⟨inside, Nat.lt_of_lt_of_le further later.forward.2⟩

theorem leads {s : Session} (h : Chain s.env p c A log values d B) (hA : s.Grown A) :
    s.Leads A B := by
  induction h with
  | nil c A => exact .refl hA
  | cons round _ _ _ _ _ ih =>
    have leads := Session.leads_of_eval hA round
    exact leads.trans (ih leads.grown)

/-- What a part made from a plain rule gathers can be written. -/
theorem writable {s : Session} {rule : Rule} (reached : s.Reached Command.Plain)
    (plain : rule.Plain) (h : Chain s.env p c A log values d B) (made : rule.Makes s A p)
    (hA : s.Grown A) : (Value.list values).writable = true := by
  refine Value.writable_list.2 ?_
  induction h with
  | nil c A => exact fun _ mem => absurd mem List.not_mem_nil
  | cons round ok _ _ _ _ ih =>
    have leads := Session.leads_of_eval hA round
    refine List.forall_mem_cons.2 ⟨?_, ih (made.mono leads.grows) leads.grown⟩
    have shows : s.Shows rule _ ⟨_, .ok _⟩ :=
      (Session.shows_iff reached hA made).2 ⟨_, _, round, rfl⟩
    exact shows.writes reached plain ok

/-- With one round or more, it makes no difference whether one is asked for. -/
theorem eval_many1 (h : Chain env p c A log (v :: values) d B)
    (last : p.eval env d B = some (⟨log', .ok r⟩, D)) (stops : r.ok = true → idle d r.cursor = true)
    (fits : (Value.list (v :: values)).writable = true) :
    p.many1.eval env c A = (Parser.many p).eval env c A := by
  rw [h.eval_many last stops]
  cases h with
  | @cons _ _ _ _ _ _ _ first _ round ok text inside further later =>
    obtain ⟨v, e, matched⟩ := first
    obtain rfl : matched = true := ok
    rw [Parser.eval_many1_of_matched round (later.eval_many last stops) fits]
    simp only [Result.success, List.append_assoc]

/-- A loop that ends with a failure, unrolled by one round. -/
theorem eval_option_many1 (h : Chain env p c A log values d B)
    (last : p.eval env d B = some (⟨log', .ok (.failure d)⟩, D))
    (fits : (Value.list values).writable = true) :
    (p.many1.option (.list [])).eval env c A = (Parser.many p).eval env c A := by
  have many := h.eval_many last fun ok => by cases ok
  rcases values with _ | ⟨v, values⟩
  · cases h with
    | nil =>
      rw [many, Parser.eval_option_of_failed (Parser.eval_many1_of_failed last) rfl]
      simp [Result.failure]
  · have one := (h.eval_many1 last (fun ok => by cases ok) fits).trans many
    rw [many, Parser.eval_option_of_matched one rfl]

/-- If a second loop finds nothing where the first one stopped, a loop of loops lists the first one
alone, and not even that if it found nothing. -/
theorem eval_many_many (h : Chain env p c A log values d B)
    (last : p.eval env d B = some (⟨log', .ok (.failure d)⟩, D))
    (again : p.eval env d D = some (⟨log'', .ok (.failure d)⟩, E)) :
    ∃ full E', (Parser.many (.many p)).eval env c A = some (⟨full, .ok (.success (.list
      (if values.isEmpty then [] else [.list values])) d)⟩, E') := by
  have many := h.eval_many last fun ok => by cases ok
  have stays : idle d d = true := (idle_iff rfl).2 (.inl rfl)
  rcases values with _ | ⟨v, values⟩
  · cases h with
    | nil => exact ⟨_, D, (Chain.nil c A).eval_many many fun _ => stays⟩
  · obtain ⟨text, -⟩ := h.forward
    obtain ⟨inside, further⟩ := h.further
    have rest := (Chain.nil d D).eval_many again fun ok => by cases ok
    have round : Chain env (.many p) c A _ [.list (v :: values)] d D :=
      .cons many rfl text inside further (.nil d D)
    exact ⟨_, E, round.eval_many rest fun _ => stays⟩

end Chain

namespace Session

variable {s : Session} {rule : Rule} {p : Parser} {A B : Store} {c d : Cursor} {log : List Event}
  {r : Result} {v : Value}

/-- A parser made from a plain rule that returns always ends, and does not move back. -/
theorem Returns.steady (returns : s.Returns rule) (reached : s.Reached Command.Plain)
    (plain : rule.Plain) (made : rule.Makes s A p) : p.Steady s.env (s.Leads A) := by
  intro c B hB
  have made := made.mono hB.grows
  rcases returns.cases c with ⟨log, shows⟩ | ⟨log, v, d, shows⟩
  · obtain ⟨full, D, ends, -⟩ := (shows_iff reached hB.grown made).1 shows
    exact ⟨_, D, ⟨full, ends⟩, hB.trans (leads_of_eval hB.grown ends), fun ok => by cases ok⟩
  · obtain ⟨full, D, ends, -⟩ := (shows_iff reached hB.grown made).1 shows
    have reaches := shows.reaches reached plain
    exact ⟨_, D, ⟨full, ends⟩, hB.trans (leads_of_eval hB.grown ends),
      fun _ => ⟨reaches.text, reaches.forward⟩⟩

/-- From everywhere there is a chain of rounds, and one round more that does not get on. -/
theorem Returns.exists_chain (returns : s.Returns rule) (reached : s.Reached Command.Plain)
    (plain : rule.Plain) (made : rule.Makes s A p) (hA : s.Grown A) (c : Cursor) :
    ∃ log values d B log' r D, Chain s.env p c A log values d B ∧
      p.eval s.env d B = some (⟨log', .ok r⟩, D) ∧ (r.ok = true → idle d r.cursor = true) := by
  have steady := returns.steady reached plain made
  obtain ⟨calls, full, values, d, D, repeats, -⟩ := steady.exists_repeats c (.refl hA)
  obtain ⟨log, B, log', r, chain, last, stops⟩ := repeats.exists_chain steady (.refl hA)
  exact ⟨log, values, d, B, log', r, D, chain, last, fun ok => (stops ok).2⟩

/-- Every match leaves off further on. -/
def Advances (s : Session) (rule : Rule) : Prop :=
  ∀ c log v d, s.Shows rule c ⟨log, .ok (.success v d)⟩ → c.position < d.position

theorem advances_ofTest {test : Char → Bool} {name : String} : s.Advances (.ofTest test name) := by
  intro c log v d shows
  have read := shows_ofTest_iff.1 shows
  simp only [Logged.mk.injEq, Except.ok.injEq] at read
  obtain ⟨-, read⟩ := read
  rcases seen : c.char? with _ | x
  · rw [seen] at read
    cases read
  · simp only [seen] at read
    split at read
    · cases read
      exact Nat.lt_succ_self c.position
    · cases read

/-- A round that does not get on, of a part that always does when it matches, is a failure. -/
theorem Advances.fails (advances : s.Advances rule) (reached : s.Reached Command.Plain)
    (plain : rule.Plain) (shows : s.Shows rule c ⟨log, .ok r⟩)
    (stops : r.ok = true → idle c r.cursor = true) : r = .failure c := by
  obtain ⟨v, d, ok⟩ := r
  rcases ok with _ | _
  · exact shows.eq_failure rfl
  · have stuck := (shows.reaches reached plain).idle_iff.1 (stops rfl)
    exact absurd (advances c log v d shows) stuck

/-- Let every parse of a plain rule end with a result, and every match get on. From any cursor the
repetition of the rule gives some list, maybe the empty one, and leaves off somewhere. To be followed
by its part it fails, and gives back the cursor that it began with. One round or more, or else the
empty list, is the same repetition: it ends in the same way, writes the same and leaves the same cells.
The repetition of the repetition leaves off at the same place, and lists what the repetition gives, or
nothing if that is the empty list. -/
theorem many_greedy (reached : s.Reached Command.Plain) (plain : rule.Plain)
    (returns : s.Returns rule) (advances : s.Advances rule) (c : Cursor) :
    ∃ log values d, s.Shows rule.many c ⟨log, .ok (.success (.list values) d)⟩ ∧
      (∃ log', s.Shows (rule.many.before rule) c ⟨log', .ok (.failure c)⟩) ∧
      (∃ last, s.Parses rule.many c last ∧ s.Parses (rule.many1.option (.list [])) c last) ∧
      ∃ log', s.Shows rule.many.many c
        ⟨log', .ok (.success (.list (if values.isEmpty then [] else [.list values])) d)⟩ := by
  obtain ⟨p, A, built, leads, made⟩ := returns.exists_built (.refl s)
  have hA := leads.grown
  obtain ⟨log, values, d, B, log', r, D, chain, last, stops⟩ :=
    returns.exists_chain reached plain made hA c
  have hB := chain.leads hA
  have failed : s.Shows rule d ⟨observed log', .ok r⟩ :=
    (shows_iff reached hB.grown (made.mono hB.grows)).2 ⟨log', D, last, rfl⟩
  obtain rfl := advances.fails reached plain failed stops
  have many := chain.eval_many last stops
  -- What the last round showed, the part shows again in the store that the loop leaves.
  have hD := hB.trans (leads_of_eval hB.grown last)
  obtain ⟨log'', E, again, -⟩ := (shows_iff reached hD.grown (made.mono hD.grows)).1 failed
  have made_many : rule.many.Makes s A (.many p) := .unary rfl made
  refine ⟨_, values, d, (shows_iff reached hA made_many).2 ⟨_, D, many, rfl⟩, ?_, ?_, ?_⟩
  · have dangling := Parser.eval_before_of_dangling many rfl again rfl
    exact ⟨_, (shows_iff reached hA (.binary .before made_many made)).2 ⟨_, E, dangling, rfl⟩⟩
  · have built_many : rule.many.build s.env s.store = (.ok (.many p), A) := Build.bind_of_ok built
    have built_many1 : rule.many1.build s.env s.store = (.ok p.many1, A) := Build.bind_of_ok built
    have built_option : (rule.many1.option (.list [])).build s.env s.store =
        (.ok (p.many1.option (.list [])), A) := Build.bind_of_ok built_many1
    have option := (chain.eval_option_many1 last (chain.writable reached plain made hA)).trans many
    exact ⟨_, parses_of_built built_many many, parses_of_built built_option option⟩
  · obtain ⟨full, E', twice⟩ := chain.eval_many_many last again
    exact ⟨_, (shows_iff reached hA (.unary rfl made_many)).2 ⟨full, E', twice, rfl⟩⟩

/-- Both digits are taken, and none is left for another one behind them. -/
theorem many_greedy_digits :
    start.Returns .digit ∧ start.Advances .digit ∧ ∃ log d,
      start.Shows (.many .digit) ⟨#['1', '2', 'x'], 0⟩
        ⟨log, .ok (.success (.list [.str "1", .str "2"]) d)⟩ ∧
      (∃ log', start.Shows (.before (.many .digit) .digit) ⟨#['1', '2', 'x'], 0⟩
        ⟨log', .ok (.failure ⟨#['1', '2', 'x'], 0⟩)⟩) ∧
      (∃ last, start.Parses (.many .digit) ⟨#['1', '2', 'x'], 0⟩ last ∧
        start.Parses (.option (.list []) (.many1 .digit)) ⟨#['1', '2', 'x'], 0⟩ last) ∧
      (∃ log', start.Shows (.many (.many .digit)) ⟨#['1', '2', 'x'], 0⟩
        ⟨log', .ok (.success (.list [.list [.str "1", .str "2"]]) d)⟩) ∧ d.position = 2 := by
  have plain : Rule.digit.Plain := trivial
  obtain ⟨log, values, d, shows, dangling, same, twice⟩ :=
    many_greedy .start plain returns_ofTest advances_ofTest ⟨#['1', '2', 'x'], 0⟩
  have computed : start.Shows (.many .digit) ⟨#['1', '2', 'x'], 0⟩
      ⟨[], .ok (.success (.list [.str "1", .str "2"]) ⟨#['1', '2', 'x'], 2⟩)⟩ :=
    ⟨[], #[], ⟨9, _, fun budget more => step_below more rfl⟩, rfl⟩
  cases shows.unique computed
  exact ⟨returns_ofTest, advances_ofTest, _, _, shows, dangling, same, twice, rfl⟩

theorem Shows.many_failure (shows : s.Shows rule c ⟨log, .ok (.failure c)⟩)
    (reached : s.Reached Command.Plain) (hA : s.Grown A) (made : rule.Makes s A p) :
    s.Shows rule.many1 c ⟨log, .ok (.failure c)⟩ ∧
      s.Shows rule.many c ⟨log, .ok (.success (.list []) c)⟩ := by
  obtain ⟨full, B, failed, logged⟩ := (shows_iff reached hA made).1 shows
  have many := (Chain.nil c A).eval_many failed fun ok => by cases ok
  constructor
  · exact (shows_iff reached hA (.unary rfl made)).2
      ⟨full, B, Parser.eval_many1_of_failed failed, logged⟩
  · exact (shows_iff reached hA (.unary rfl made)).2
      ⟨_, B, many, by simpa [Result.failure] using logged⟩

/-- The loop behind a match that stays in its place runs the rule again. -/
theorem Shows.many_still (shows : s.Shows rule c ⟨log, .ok (.success v c)⟩)
    (reached : s.Reached Command.Plain) (plain : rule.Plain) (hA : s.Grown A)
    (made : rule.Makes s A p) :
    s.Shows rule.many1 c
        ⟨log ++ log ++ [.stopped p.name c.position], .ok (.success (.list [v]) c)⟩ ∧
      s.Shows rule.many c ⟨log ++ [.stopped p.name c.position], .ok (.success (.list []) c)⟩ := by
  have stays : idle c c = true := (idle_iff rfl).2 (.inl rfl)
  obtain ⟨full, B, full', D, first, second, logged, logged'⟩ :=
    shows.in_turn shows reached hA made made
  have many := (Chain.nil c A).eval_many first fun _ => stays
  have rest := (Chain.nil c B).eval_many second fun _ => stays
  have value : v.writable = true := shows.writes reached plain rfl
  have fits : (Value.list [v]).writable = true := by simpa using value
  have one := Parser.eval_many1_of_matched first rest fits
  have stopped : observed [.stopped p.name c.position] = [.stopped p.name c.position] := rfl
  simp only [List.nil_append, Result.success, if_true] at many one
  constructor
  · refine (shows_iff reached hA (.unary rfl made)).2 ⟨_, D, one, ?_⟩
    simp only [observed_append, logged, logged', stopped, List.append_assoc]
  · refine (shows_iff reached hA (.unary rfl made)).2 ⟨_, B, many, ?_⟩
    simp only [observed_append, logged, stopped]

/-- Let every parse of a plain rule end with a result. Where the rule fails, one round or more fails, too,
and gives back the cursor, and any number of rounds is the empty list. Where it matches and gets on, both
end in the same way, with the value of the rule at the head of their list, write the same and leave the
same cells. Where it matches and does not get on, one round or more lists this one value, and any number
of rounds lists none; both stay in their place, and each records once that it stopped there, the first
after a second run of the rule and the other after the first run. -/
theorem many1_many (reached : s.Reached Command.Plain) (plain : rule.Plain)
    (returns : s.Returns rule) (built : rule.build s.env s.store = (.ok p, A)) (c : Cursor) :
    (∀ log, s.Shows rule c ⟨log, .ok (.failure c)⟩ →
      s.Shows rule.many1 c ⟨log, .ok (.failure c)⟩ ∧
        s.Shows rule.many c ⟨log, .ok (.success (.list []) c)⟩) ∧
    (∀ log v d, s.Shows rule c ⟨log, .ok (.success v d)⟩ → c.position < d.position →
      ∃ full values e D,
        s.Parses rule.many1 c (⟨full, .ok (.success (.list (v :: values)) e)⟩, D) ∧
        s.Parses rule.many c (⟨full, .ok (.success (.list (v :: values)) e)⟩, D)) ∧
    ∀ log v d, s.Shows rule c ⟨log, .ok (.success v d)⟩ → ¬c.position < d.position →
      s.Shows rule.many1 c
          ⟨log ++ log ++ [.stopped p.name c.position], .ok (.success (.list [v]) c)⟩ ∧
        s.Shows rule.many c
          ⟨log ++ [.stopped p.name c.position], .ok (.success (.list []) c)⟩ := by
  obtain ⟨leads, -, made⟩ := rule.build_becomes (.refl s) built
  have hA := leads.grown
  have built_many : rule.many.build s.env s.store = (.ok (.many p), A) := Build.bind_of_ok built
  have built_many1 : rule.many1.build s.env s.store = (.ok p.many1, A) := Build.bind_of_ok built
  refine ⟨fun log shows => shows.many_failure reached hA made, fun log v d shows further => ?_,
    fun log v d shows still => ?_⟩
  · obtain ⟨full, D, first, -⟩ := (shows_iff_of_built built).1 shows
    obtain ⟨log', values, e, B, log'', r, E, chain, last, stops⟩ :=
      returns.exists_chain reached plain made hA c
    have many := chain.eval_many last stops
    -- The first round of the chain is the parse of the rule, and it gets on.
    cases chain with
    | nil =>
      cases first.symm.trans last
      exact absurd further ((shows.reaches reached plain).idle_iff.1 (stops rfl))
    | cons round ok text inside further later =>
      cases first.symm.trans round
      have chain := Chain.cons round ok text inside further later
      have one := (chain.eval_many1 last stops (chain.writable reached plain made hA)).trans many
      exact ⟨_, _, e, E, parses_of_built built_many1 one, parses_of_built built_many many⟩
  · obtain rfl := (shows.reaches reached plain).eq_of_not_lt still
    exact shows.many_still reached plain hA made

/-- Takes a digit, or nothing if no `y` comes. -/
def digitOrGap : Rule := .or .digit (.unary .not (.char 'y'))

/-- It gets on at the digit, stays in its place behind it, and fails at the end. -/
theorem many1_many_digitOrGap :
    start.Returns digitOrGap ∧ ∃ p A, digitOrGap.build start.env start.store = (.ok p, A) ∧
      (start.Shows (.many1 digitOrGap) ⟨#['1', 'x', 'y'], 2⟩ ⟨[], .ok (.failure ⟨#['1', 'x', 'y'], 2⟩)⟩ ∧
        start.Shows (.many digitOrGap) ⟨#['1', 'x', 'y'], 2⟩
          ⟨[], .ok (.success (.list []) ⟨#['1', 'x', 'y'], 2⟩)⟩) ∧
      (∃ full values e D,
        start.Parses (.many1 digitOrGap) ⟨#['1', 'x', 'y'], 0⟩
          (⟨full, .ok (.success (.list (.str "1" :: values)) e)⟩, D) ∧
        start.Parses (.many digitOrGap) ⟨#['1', 'x', 'y'], 0⟩
          (⟨full, .ok (.success (.list (.str "1" :: values)) e)⟩, D)) ∧
      start.Shows (.many1 digitOrGap) ⟨#['1', 'x', 'y'], 1⟩ ⟨[.stopped p.name 1],
        .ok (.success (.list [.none]) ⟨#['1', 'x', 'y'], 1⟩)⟩ ∧
      start.Shows (.many digitOrGap) ⟨#['1', 'x', 'y'], 1⟩ ⟨[.stopped p.name 1],
        .ok (.success (.list []) ⟨#['1', 'x', 'y'], 1⟩)⟩ := by
  have plain : digitOrGap.Plain := ⟨trivial, trivial⟩
  have built : digitOrGap.build start.env start.store = (.ok _, #[]) := rfl
  have tested : ∀ test name c, (Parser.satisfy test name).Ends ⟨fun _ => True, False⟩ start.env c
      (fun _ => False) True fun _ _ => True := fun test name c =>
    (Parser.satisfy_ends test name c).imp (fun _ hf => hf) (fun _ => trivial) fun _ _ _ => trivial
  have returns : start.Returns digitOrGap :=
    .of_ends built fun c => .or (tested _ _ c) fun _ => .not (tested _ _ c)
  have fails : start.Shows digitOrGap ⟨#['1', 'x', 'y'], 2⟩
      ⟨[], .ok (.failure ⟨#['1', 'x', 'y'], 2⟩)⟩ :=
    ⟨[], #[], ⟨9, _, fun budget more => step_below more rfl⟩, rfl⟩
  have takes : start.Shows digitOrGap ⟨#['1', 'x', 'y'], 0⟩
      ⟨[], .ok (.success (.str "1") ⟨#['1', 'x', 'y'], 1⟩)⟩ :=
    ⟨[], #[], ⟨9, _, fun budget more => step_below more rfl⟩, rfl⟩
  have stays : start.Shows digitOrGap ⟨#['1', 'x', 'y'], 1⟩
      ⟨[], .ok (.success .none ⟨#['1', 'x', 'y'], 1⟩)⟩ :=
    ⟨[], #[], ⟨9, _, fun budget more => step_below more rfl⟩, rfl⟩
  refine ⟨returns, _, _, built, ?_, ?_, ?_⟩
  · exact (many1_many .start plain returns built _).1 _ fails
  · exact (many1_many .start plain returns built _).2.1 _ _ _ takes Nat.zero_lt_one
  · exact (many1_many .start plain returns built _).2.2 _ _ _ stays (Nat.lt_irrefl 1)

end Session

end Rewind
