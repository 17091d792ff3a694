import Rewind.Proofs.Matches
import Rewind.Proofs.Parses
import Rewind.Proofs.Repetition
import Rewind.Proofs.Rows

namespace Rewind

/-- Within a text, a success gets nowhere if it stays in its place, or begins and leaves off at the
end. -/
theorem idle_iff {c d : Cursor} (text : d.text = c.text) :
    idle c d = true ↔ d.position = c.position ∨ c.atEnd = true ∧ d.atEnd = true := by
  rw [idle, text, beq_self_eq_true, Bool.and_true, Bool.or_eq_true, Bool.and_eq_true, beq_iff_eq, or_comm,
    eq_comm]

/-- Rounds of a parser in a row, with the records and the values of all of them. Each matches and moves
on in its text to where the next one begins. -/
inductive Chain (env : Env) (p : Parser) :
    Cursor → Store → List Event → List Value → Cursor → Store → Prop
  | nil (c : Cursor) (A : Store) : Chain env p c A [] [] c A
  | cons {c d : Cursor} {A B D : Store} {log log' : List Event} {r : Result} {values : List Value}
      (round : p.eval env c A = some (⟨log, .ok r⟩, B)) (ok : r.ok = true)
      (text : r.cursor.text = c.text) (inside : c.position < c.text.size)
      (further : c.position < r.cursor.position) (later : Chain env p r.cursor B log' values d D) :
      Chain env p c A (log ++ log') (r.value :: values) d D

namespace Chain

variable {env : Env} {p : Parser} {c d : Cursor} {A B D : Store} {log log' : List Event}
  {values : List Value}

/-- The loop goes on as long as the rounds get on, and ends with the first that does not. -/
theorem rounds_eq (h : Chain env p c A log values d B) {r : Result}
    (last : p.eval env d B = some (⟨log', .ok r⟩, D)) (stops : r.ok = true → idle d r.cursor = true) :
    Parser.rounds env p c A =
      some (⟨log ++ log' ++ (if r.ok then [.stopped p.name d.position] else []), .ok (values, d)⟩,
        D) := by
  induction h with
  | nil c A =>
    rw [Parser.rounds_eq, Run.bind_of_ok last]
    by_cases ok : r.ok = true
    · have wrote : Run.write (.stopped p.name c.position) D =
          some (⟨[.stopped p.name c.position], .ok ()⟩, D) := rfl
      rw [if_pos ok, if_pos ok, if_pos (stops ok), Run.bind_of_ok wrote]
      simp [Pure.pure, Run.pure, Logged.ok, Logged.after]
    · rw [if_neg ok, if_neg ok]
      simp [Pure.pure, Run.pure, Logged.ok, Logged.after]
  | @cons c d A B _ log _ r' values round ok text inside further _ ih =>
    have moved : idle c r'.cursor = false := by
      rw [← Bool.not_eq_true, idle_iff text, Cursor.atEnd, decide_eq_true_eq]
      omega
    rw [Parser.rounds_eq, Run.bind_of_ok round, if_pos ok, moved, if_neg Bool.false_ne_true,
      Run.bind_of_ok (ih last stops)]
    simp [Pure.pure, Run.pure, Logged.ok, Logged.after]

theorem eval_many (h : Chain env p c A log values d B) {r : Result}
    (last : p.eval env d B = some (⟨log', .ok r⟩, D)) (stops : r.ok = true → idle d r.cursor = true) :
    (Parser.many p).eval env c A =
      some (⟨log ++ log' ++ (if r.ok then [.stopped p.name d.position] else []),
        .ok (.success (.list values) d)⟩, D) := by
  rw [Parser.eval_many, Run.bind_of_ok (h.rounds_eq last stops)]
  simp [Pure.pure, Run.pure, Logged.ok, Logged.after]

/-- The rounds are a row of as many parsers, if their values can be written. -/
theorem row (h : Chain env p c A log values d B) (fits : ∀ v ∈ values, v.writable = true) :
    Row env (List.replicate values.length p) c A log values d B := by
  induction h with
  | nil c A => exact .nil c A
  | @cons _ _ _ _ _ _ _ r _ round ok _ _ _ _ ih =>
    obtain ⟨fits, others⟩ := List.forall_mem_cons.1 fits
    exact .of_matched round ok fits (ih others)

/-- As many parsers in a row break off where a value cannot be written. -/
theorem exists_rowBreaks (h : Chain env p c A log values d B)
    (hidden : ¬∀ v ∈ values, v.writable = true) : ∃ log' e D, log' <+: log ∧
      RowBreaks env (List.replicate values.length p) c A log' e (.error .tooLongToWrite) D := by
  induction h with
  | nil c A => exact absurd (fun _ mem => nomatch mem) hidden
  | @cons c d A B D log log' r values round ok _ _ _ _ ih =>
    obtain ⟨v, e, matched⟩ := r
    obtain rfl : matched = true := ok
    by_cases fits : v.writable = true
    · have others : ¬∀ v ∈ values, v.writable = true :=
        fun others => hidden (List.forall_mem_cons.2 ⟨fits, others⟩)
      obtain ⟨log'', e, D, before, breaks⟩ := ih others
      exact ⟨_, e, D, (List.prefix_append_right_inj log).2 before, .later round fits breaks⟩
    · exact ⟨log, c, B, List.prefix_append log log', .here_unwritten round fits⟩

/-- As many of them in sequence match with the same values, at the same cursor. -/
theorem eval_times (h : Chain env p c A log values d B) (fits : ∀ v ∈ values, v.writable = true) :
    (p.times values.length).eval env c A = some (⟨log, .ok (.success (.list values) d)⟩, B) :=
  (h.row fits).eval_sequence

theorem exists_eval_times (h : Chain env p c A log values d B)
    (hidden : ¬∀ v ∈ values, v.writable = true) : ∃ log' D, log' <+: log ∧
      (p.times values.length).eval env c A = some (⟨log', .error .tooLongToWrite⟩, D) := by
  obtain ⟨log', e, D, before, breaks⟩ := h.exists_rowBreaks hidden
  have ended : Row.Ends env _ c A log' (.error .tooLongToWrite) D := ⟨e, breaks⟩
  refine ⟨log', D, before, ?_⟩
  rw [Parser.times, Parser.eval_sequence, Run.bind_pure_at, ended.inOrder_eq]
  rfl

end Chain

/-- The calls of a loop are a chain and one call more, which does not get on. -/
theorem Call.Repeats.exists_chain {env : Env} {p : Parser} {keeps : Store → Prop} {c d : Cursor}
    {A B : Store} {calls : List Call} {full : List Event} {values : List Value} (steady : p.Steady env keeps)
    (hA : keeps A) (h : Repeats env p c A calls full values d B) :
    ∃ log D log' r, Chain env p c A log values d D ∧ p.eval env d D = some (⟨log', .ok r⟩, B) ∧
      (r.ok = true → r.cursor.text = d.text ∧ idle d r.cursor = true) := by
  induction h with
  | @last c A B log' r round stops =>
    obtain ⟨r', A', round', -, forward⟩ := steady c A hA
    obtain ⟨rfl, -⟩ := round'.unique ⟨log', round⟩
    exact ⟨[], A, log', r', .nil c A, round, fun ok => ⟨(forward ok).1, stops ok⟩⟩
  | @next c d A _ _ log₀ _ r _ _ round ok moved _ ih =>
    obtain ⟨r', A', round', hA', forward⟩ := steady c A hA
    obtain ⟨rfl, rfl⟩ := round'.unique ⟨log₀, round⟩
    obtain ⟨text, le⟩ := forward ok
    obtain ⟨inside, further⟩ := position_lt_of_not_idle moved text le
    obtain ⟨log, D, log', r, later, last, stops⟩ := ih hA'
    exact ⟨log₀ ++ log, D, log', r, .cons round ok text inside further later, last, stops⟩

namespace Session

variable {s : Session} {rule : Rule} {p : Parser} {keeps : Store → Prop} {store : Store}

/-- A repetition of a part that always ends, and whose matches stay in the text and do not move back,
matches with the values of a chain of rounds and leaves off where the chain does. There the part is run
once more, and fails, or matches in its place, or begins and leaves off at the end; this value is dropped
and the cursor stays. The records are those of all these runs in order and, if the last one matched, one
that the repetition stopped there. The part as many times in sequence, from the same place, gives the
same values and leaves off at the same cursor, if all values can be written. If not, it raises. -/
theorem many_chain (built : rule.build s.env s.store = (.ok p, store))
    (steady : p.Steady s.env keeps) (hstore : keeps store) (c : Cursor) :
    ∃ log values d B log' r D, Chain s.env p c store log values d B ∧
      p.eval s.env d B = some (⟨log', .ok r⟩, D) ∧
      (r.ok = true → r.cursor.text = d.text ∧
        (r.cursor.position = d.position ∨ d.atEnd = true ∧ r.cursor.atEnd = true)) ∧
      s.Parses rule.many c
        (⟨log ++ log' ++ (if r.ok then [.stopped p.name d.position] else []),
          .ok (.success (.list values) d)⟩, D) ∧
      ((∀ v ∈ values, v.writable = true) → s.Parses (.unary (.times values.length) rule) c
        (⟨log, .ok (.success (.list values) d)⟩, B)) ∧
      ((∃ v ∈ values, ¬v.writable = true) → ∃ log'' D', log'' <+: log ∧
        s.Parses (.unary (.times values.length) rule) c
          (⟨log'', .error .tooLongToWrite⟩, D')) := by
  obtain ⟨calls, full, values, d, D, repeats, -⟩ := steady.exists_repeats c hstore
  obtain ⟨log, B, log', r, chain, last, stops⟩ := repeats.exists_chain steady hstore
  have built_many : rule.many.build s.env s.store = (.ok (.many p), store) := Build.bind_of_ok built
  have built_times : (Rule.unary (.times values.length) rule).build s.env s.store =
      (.ok (p.times values.length), store) := Build.bind_of_ok built
  refine ⟨log, values, d, B, log', r, D, chain, last, fun ok => ?_, ?_, fun fits => ?_, ?_⟩
  · exact ⟨(stops ok).1, (idle_iff (stops ok).1).1 (stops ok).2⟩
  · rw [parses_iff, Rule.eval_of_built built_many]
    exact chain.eval_many last fun ok => (stops ok).2
  · rw [parses_iff, Rule.eval_of_built built_times]
    exact chain.eval_times fits
  · rintro ⟨v, mem, hidden⟩
    obtain ⟨log'', D', before, raised⟩ := chain.exists_eval_times fun fits => hidden (fits v mem)
    refine ⟨log'', D', before, ?_⟩
    rw [parses_iff, Rule.eval_of_built built_times]
    exact raised

/-- Takes any character. At the end of the text it matches, too, and goes beyond it. -/
def stride : Atom := .handmade (fun c => pure (.success (.int c.position) c.next)) "stride" none

/-- The third round begins at the end and goes beyond it. It is dropped, and the cursor stays at the
end. -/
theorem many_chain_stride :
    (Parser.atom stride).Steady start.env (fun _ => True) ∧
      ∃ log values d B log' r D,
        Chain start.env (.atom stride) ⟨#['a', 'b'], 0⟩ start.store log values d B ∧
        (Parser.atom stride).eval start.env d B = some (⟨log', .ok r⟩, D) ∧
        start.Parses (.many (.atom stride)) ⟨#['a', 'b'], 0⟩
          (⟨log ++ log' ++ [.stopped "stride" 2], .ok (.success (.list values) d)⟩, D) ∧
        start.Parses (.unary (.times 2) (.atom stride)) ⟨#['a', 'b'], 0⟩
          (⟨log, .ok (.success (.list values) d)⟩, B) ∧
        values = [.int 0, .int 1] ∧ d.position = 2 ∧ r.cursor.position = 3 := by
  have strides : ∀ (c : Cursor) (A : Store), (Parser.atom stride).eval start.env c A =
      some (⟨[], .ok (.success (.int c.position) c.next)⟩, A) := by
    intro c A
    rw [Parser.eval_atom]
    rfl
  have steady : (Parser.atom stride).Steady start.env (fun _ => True) :=
    fun c A _ => ⟨_, A, ⟨[], strides c A⟩, trivial, fun _ => ⟨rfl, Nat.le_succ c.position⟩⟩
  have built : (Rule.atom stride).build start.env start.store = (.ok (.atom stride), start.store) := rfl
  obtain ⟨log, values, d, B, log', r, D, chain, last, -, parsed, sequenced, -⟩ :=
    many_chain built steady trivial ⟨#['a', 'b'], 0⟩
  have computed : start.Parses (.many (.atom stride)) ⟨#['a', 'b'], 0⟩
      (⟨[.stopped "stride" 2], .ok (.success (.list [.int 0, .int 1]) ⟨#['a', 'b'], 2⟩)⟩, #[]) :=
    ⟨9, _, fun budget more => step_below more rfl⟩
  have same := parsed.unique computed
  simp only [Prod.mk.injEq, Logged.mk.injEq, Except.ok.injEq, Result.success, Result.mk.injEq,
    Value.list.injEq, and_true] at same
  obtain ⟨⟨-, rfl, rfl⟩, -⟩ := same
  have strode := last.symm.trans (strides _ B)
  cases strode
  have fits : ∀ v ∈ [Value.int 0, .int 1], v.writable = true := by decide
  exact ⟨steady, log, _, _, B, _, _, _, chain, last, parsed, sequenced fits, rfl, rfl, rfl⟩

/-- Two rounds, whose values the repetition lists. The part twice in sequence raises. -/
theorem many_chain_unwritten :
    start.Parses (.many (.atom .bulky)) ⟨#['a', 'b'], 0⟩
        (⟨[.stopped "fn" 2], .ok (.success (.list [.long, .long]) ⟨#['a', 'b'], 2⟩)⟩, start.store) ∧
      ∃ D, start.Parses (.unary (.times 2) (.atom .bulky)) ⟨#['a', 'b'], 0⟩
        (⟨[], .error .tooLongToWrite⟩, D) := by
  have built : (Rule.atom .bulky).build start.env = pure (.atom .bulky) := rfl
  have takes (c : Cursor) : (Parser.atom .bulky).eval start.env c = pure (.success .long c.next) :=
    (Rule.eval_of_pure built c).symm.trans (Rule.eval_bulky c)
  have round (c : Cursor) : (Parser.atom .bulky).eval start.env c start.store =
      some (⟨[], .ok (.success .long c.next)⟩, start.store) := congrFun (takes c) _
  have chain : Chain start.env (.atom .bulky) ⟨#['a', 'b'], 0⟩ start.store ([] ++ ([] ++ []))
      [.long, .long] ⟨#['a', 'b'], 2⟩ start.store :=
    .cons (round _) rfl rfl (by decide) (by decide)
      (.cons (round _) rfl rfl (by decide) (by decide) (.nil _ _))
  have hidden : ¬∀ v ∈ [Value.long, .long], v.writable = true :=
    fun fits => Value.not_writable_long (fits _ List.mem_cons_self)
  constructor
  · have whole : (Rule.many (.atom .bulky)).build start.env = pure (.many (.atom .bulky)) := rfl
    rw [parses_iff, Rule.eval_of_pure whole]
    exact chain.eval_many (round _) fun _ => rfl
  · obtain ⟨log, D, before, raised⟩ := chain.exists_eval_times hidden
    obtain rfl := List.prefix_nil.1 before
    have twice : (Rule.unary (.times 2) (.atom .bulky)).build start.env =
        pure (.times 2 (.atom .bulky)) := rfl
    refine ⟨D, ?_⟩
    rw [parses_iff, Rule.eval_of_pure twice]
    exact raised

end Session

end Rewind
