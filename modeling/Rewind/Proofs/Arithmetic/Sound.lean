import Rewind.Proofs.Arithmetic.Complete

namespace Rewind.Grammar.Arithmetic

open Rewind.Parser Text

/-- What a run may raise in a text. -/
inductive Trouble (cs : List Char) : Fault → Prop
  | quotient {fault : Fault} (slash : '/' ∈ cs) : Trouble cs fault
  | number (n : Numeral) (inside : n.chars <:+: cs) (long : digitLimit < n.chars.length) :
    Trouble cs (.tooLongToRead n.chars.length)
  /-- A tree stands in the text whose integer cannot be written. -/
  | result {level : Level} (t : Tree level) (read : List Char) (inside : read <:+: cs)
    (layout : Written t.tokens read) (slashless : ['/'] ∉ t.tokens)
    (hidden : ¬(Value.int t.exact).writable = true) : Trouble cs .tooLongToWrite

theorem Trouble.mono {cs cs' : List Char} (less : cs' <:+ cs) {fault : Fault}
    (h : Trouble cs' fault) : Trouble cs fault := by
  cases h with
  | quotient slash => exact .quotient (less.mem slash)
  | number n inside long => exact .number n (inside.trans less.isInfix) long
  | result t read inside layout slashless hidden =>
    exact .result t read (inside.trans less.isInfix) layout slashless hidden

/-- A match at the cursor is a layout of a tree that comes to the value. -/
def Sound (level : Level) (c : Cursor) : Prop :=
  Ends level.parser c (Trouble c.rest) True fun v d =>
    ∃ t : Tree level, Cursor.Spans t.tokens c d ∧ t.outcome = .ok v

def SoundRounds (layer : Layer) (c : Cursor) : Prop :=
  RoundsEnd contract session.env (roundParser layer) c (Trouble c.rest) fun vs d =>
    ∃ (rs : Rounds layer) (pairs : List (Operator × Value)),
      Cursor.Spans rs.tokens c d ∧ rs.outcome = .ok pairs ∧ vs = pairs.map pairValue

theorem char_spans (x : Char) (c : Cursor) {raises : Fault → Prop} :
    Ends (charParser x) c raises True fun _ d => Cursor.Spans [[x]] c d := by
  refine ((satisfy_lexes (· == x) _).token_spans (Lexicon.one_writes _) c ?_).weaken ?_
  · rintro fault ⟨_, _, ⟨_, -, -, hf⟩, -⟩
    cases hf
  · intro v d hv
    obtain ⟨t, rest, ⟨y, hy, rfl, -⟩, read⟩ := hv
    obtain rfl : y = x := by simpa using hy
    exact read

theorem operator_spans (layer : Layer) (c : Cursor) {raises : Fault → Prop} :
    Ends (operatorParser layer) c raises True fun f d =>
      ∃ inverse, f = .op (layer.operator inverse) ∧ Cursor.Spans [[layer.sign inverse]] c d := by
  refine .map (((satisfy_lexes (signTest layer) _).token_spans (Lexicon.one_writes _) c ?_).weaken ?_)
  · rintro fault ⟨_, _, ⟨_, -, -, hf⟩, -⟩
    cases hf
  · intro v d hv
    obtain ⟨t, rest, ⟨x, hx, rfl, same⟩, read⟩ := hv
    cases same
    obtain ⟨inverse, rfl⟩ := signTest_iff.1 hx
    show (operatorOf _).asConstant.Ends _ _
    rw [operatorOf_sign]
    exact ⟨inverse, rfl, read⟩

theorem integer_spans (c : Cursor) :
    Ends integerParser c (Trouble c.rest) True fun v d =>
      ∃ n : Numeral, Cursor.Spans [n.chars] c d ∧ n.read = .ok v := by
  refine (integer_lexes.token_spans integers_writes c ?_).weaken ?_
  · rintro fault ⟨t, rest, ht, hc⟩
    obtain ⟨n, rfl, -, read⟩ := integers_iff.1 ht
    have inside : n.chars <:+: c.rest := by
      obtain ⟨gap, -, hgap⟩ := exists_gap c.rest
      exact ⟨gap, rest, by rw [hgap, hc, List.append_assoc]⟩
    rcases Nat.lt_or_ge digitLimit n.chars.length with long | short
    · have refused : n.read = .error (.tooLongToRead n.chars.length) := Value.readInt_of_lt long _
      rw [refused] at read
      cases read
      exact .number n inside long
    · have taken : n.read = .ok (.int n.value) := Value.readInt_of_le short _
      rw [taken] at read
      cases read
  · rintro v d ⟨t, rest, ht, spans⟩
    obtain ⟨n, rfl, -, read⟩ := integers_iff.1 ht
    exact ⟨n, spans, read.symm⟩

theorem Sound.factor {c : Cursor}
    (inner : ∀ d : Cursor, d.rest.length < c.rest.length → Sound (.chain .sum) d) :
    Sound .factor c := by
  refine .or ((integer_spans c).weaken ?_) fun _ => ?_
  · intro v d hv
    obtain ⟨n, read, hn⟩ := hv
    exact ⟨.number n, read, hn⟩
  · refine .between ((char_spans '(' c).weaken fun _ d opened => inner_ends ?_)
    have shorter := opened.length_lt List.mem_cons_self (by simp)
    refine (inner d shorter).imp (fun _ => .mono opened.suffix) id fun v e he => ?_
    obtain ⟨t, read, houtcome⟩ := he
    refine Value.asConstant_ends (t.outcome_writable houtcome) ?_
    refine (char_spans ')' e).weaken fun _ e' closed => ?_
    exact ⟨.parens t, opened.append (read.append closed), houtcome⟩

theorem Sound.signed {c : Cursor}
    (factor : ∀ d : Cursor, d.rest.length ≤ c.rest.length → Sound .factor d) : Sound .signed c := by
  refine .or (.map (.before ((char_spans '-' c).weaken fun _ d minus => ?_))) fun _ => ?_
  · refine (factor d minus.length_le).imp (fun _ => .mono minus.suffix) id fun x e he => ?_
    obtain ⟨f, read, houtcome⟩ := he
    refine Value.asConstant_ends (Value.writable_negated (f.outcome_writable houtcome)) ?_
    exact ⟨.minus f, minus.append read, bind_eq_ok.2 ⟨x, houtcome, rfl⟩⟩
  · refine (factor c (Nat.le_refl _)).weaken fun v d hd => ?_
    obtain ⟨f, read, houtcome⟩ := hd
    exact ⟨.bare f, read, houtcome⟩

theorem SoundRounds.of_operand {layer : Layer} {c : Cursor}
    (operand : ∀ d : Cursor, d.rest.length < c.rest.length → Sound layer.operand d) :
    SoundRounds layer c := by
  induction h : c.rest.length using Nat.strongRecOn generalizing c with
  | ind n ih =>
    refine .round (.both ((operator_spans layer c).imp (fun _ hf => hf) ?_ ?_))
    · intro _
      exact ⟨.nil, [], .nil c, rfl, rfl⟩
    · intro f d hf
      obtain ⟨inverse, rfl, sign⟩ := hf
      have shorter := sign.length_lt List.mem_cons_self (by simp)
      refine (operand d shorter).imp (fun _ => .mono sign.suffix) ?_ fun y e hy => ?_
      · intro _
        exact ⟨.nil, [], .nil c, rfl, rfl⟩
      · obtain ⟨t, read, ht⟩ := hy
        have pair : (Value.tuple [.op (layer.operator inverse), y]).writable = true := by
          simp [Value.writable, t.outcome_writable ht]
        refine Value.asConstant_ends pair ?_
        -- The sign at least was read, so the rounds behind are known by induction.
        have moved : e.rest.length < c.rest.length := by
          have := read.length_le
          omega
        have later := ih e.rest.length (h ▸ moved)
          (fun d' hd' => operand d' (Nat.lt_trans hd' moved)) rfl
        have both := sign.append read
        refine ⟨moved, Run.Meets.imp later (fun _ => .mono both.suffix) fun x hx => ?_⟩
        obtain ⟨rs, pairs, hrs, houtcome, hvs⟩ := hx
        refine ⟨.cons inverse t rs, (layer.operator inverse, y) :: pairs, ?_, ?_, ?_⟩
        · exact sign.append (read.append hrs)
        · exact bind_eq_ok.2 ⟨y, ht, bind_eq_ok.2 ⟨pairs, houtcome, rfl⟩⟩
        · rw [hvs]
          rfl

/-- What a chain without a quotient raises when its operands are read is that its integer cannot be
written. -/
theorem chain_ends {layer : Layer} {c e : Cursor} {first : Tree layer.operand} {rs : Rounds layer}
    {x : Value} {pairs : List (Operator × Value)} (hfirst : first.outcome = .ok x)
    (hrs : rs.outcome = .ok pairs) (whole : Cursor.Spans (Tree.chain first rs).tokens c e) :
    (Logged.ofExcept (fold x pairs) >>= Value.asConstant).Ends (Trouble c.rest) fun v =>
      ∃ t : Tree (.chain layer), Cursor.Spans t.tokens c e ∧ t.outcome = .ok v := by
  have folded : (Tree.chain first rs).eval = fold x pairs := by
    rw [Tree.eval, first.eval_of_outcome hfirst, rs.eval_of_outcome hrs]
    rfl
  have made : (Tree.chain first rs).outcome = (Logged.ofExcept (fold x pairs) >>=
      Value.asConstant).result := by
    rw [Tree.outcome, hfirst, hrs]
    show (fold x pairs >>= fun v => v.asConstant.result) = _
    rcases fold x pairs with fault | v <;> rfl
  refine Logged.ends_of_result (fun fault hf => ?_) fun v hv => ⟨_, whole, made.trans hv⟩
  by_cases slash : '/' ∈ c.rest
  · exact .quotient slash
  · have slashless : ['/'] ∉ (Tree.chain first rs).tokens :=
      fun there => slash (whole.mem_token there List.mem_cons_self)
    obtain ⟨read, layout, hread⟩ := whole
    have exactly := (Tree.chain first rs).eval_exact slashless
    rw [← folded, exactly] at hf
    have refused : (Value.int (Tree.chain first rs).exact).asConstant.result = .error fault := hf
    obtain ⟨rfl, hidden⟩ := Value.eq_of_asConstant_error refused
    exact .result _ read ⟨[], e.rest, by rw [hread]; rfl⟩ layout slashless hidden

theorem Sound.chain {layer : Layer} {c : Cursor}
    (operand : ∀ d : Cursor, d.rest.length ≤ c.rest.length → Sound layer.operand d) :
    Sound (.chain layer) c := by
  unfold Sound
  rw [parser_chain]
  refine .chainLeft ((operand c (Nat.le_refl _)).weaken fun x d hx => ?_)
  obtain ⟨first, read, hfirst⟩ := hx
  have rounds : SoundRounds layer d :=
    .of_operand fun d' hd' => operand d' (Nat.le_trans (Nat.le_of_lt hd') read.length_le)
  refine Run.Meets.imp rounds (fun _ => .mono read.suffix) fun y hy => ?_
  obtain ⟨rs, pairs, hrs, houtcome, hvs⟩ := hy
  rw [hvs, foldRounds_pairs]
  exact chain_ends hfirst houtcome (read.append hrs)

/-- All levels are sound as far as factors are. -/
theorem Sound.of_factor {n : Nat} (factor : ∀ c : Cursor, c.rest.length < n → Sound .factor c)
    (level : Level) (c : Cursor) (h : c.rest.length < n) : Sound level c := by
  have signed : ∀ c : Cursor, c.rest.length < n → Sound .signed c :=
    fun c hc => .signed fun d hd => factor d (Nat.lt_of_le_of_lt hd hc)
  have term : ∀ c : Cursor, c.rest.length < n → Sound (.chain .product) c :=
    fun c hc => .chain fun d hd => signed d (Nat.lt_of_le_of_lt hd hc)
  have sum : ∀ c : Cursor, c.rest.length < n → Sound (.chain .sum) c :=
    fun c hc => .chain fun d hd => term d (Nat.lt_of_le_of_lt hd hc)
  rcases level with _ | _ | _ | _
  · exact factor c h
  · exact signed c h
  · exact term c h
  · exact sum c h

theorem sound (level : Level) (c : Cursor) : Sound level c := by
  have factor : ∀ (n : Nat) (c : Cursor), c.rest.length < n → Sound .factor c := by
    intro n
    induction n with
    | zero =>
      intro c hc
      exact absurd hc (Nat.not_lt_zero _)
    | succ n ih =>
      intro c hc
      -- The inner expression of a factor has less text left, also its factors.
      refine .factor fun d hd => ?_
      exact Sound.of_factor ih (.chain .sum) d (by omega)
  exact .of_factor (factor _) level c (Nat.lt_succ_self _)

/-- The run of a text raises nothing, and gives a report if the text is no layout of an expression. -/
def Settles (text : Array Char) : Prop :=
  ∃ outcome, session.Answers (.run expression text true) (.ok (.ran "expr" outcome)) ∧
    ((∀ t : Expression, ¬Written t.tokens text.toList) → ∃ report, outcome = .error report)

/-- A tree stands in a text whose integer cannot be written. -/
def Overflows (text : Array Char) : Prop :=
  ∃ (level : Level) (t : Tree level) (read : List Char), read <:+: text.toList ∧
    Written t.tokens read ∧ ['/'] ∉ t.tokens ∧ ¬(Value.int t.exact).writable = true

theorem Overflows.digits {text : Array Char} (h : Overflows text) :
    digitLimit < text.toList.countP isDigit := by
  obtain ⟨level, t, read, inside, layout, slashless, hidden⟩ := h
  have few := Nat.le_trans (t.digits_le layout) (inside.sublist.countP_le)
  exact Nat.lt_of_not_le fun short =>
    hidden ((t.exact_fits slashless).writable (Nat.le_trans few short))

/-- A value is only got from a layout of an expression that comes to it. A text without a quotient and
without a number that is too long is run to an answer, which is a report if the text is no layout of an
expression; or an expression stands in the text whose integer has too many digits to be written, and
just this is raised. Then the text has more digits in all than can be written. -/
theorem expression_sound (text : Array Char) :
    (∀ v, session.Answers (.run expression text true) (.ok (.ran "expr" (.ok v))) →
      ∃ t : Expression, Written t.tokens text.toList ∧ t.eval = .ok v) ∧
    ('/' ∉ text.toList → (∀ n : Numeral, n.chars <:+: text.toList → n.chars.length ≤ digitLimit) →
      Settles text ∨
        session.Answers (.run expression text true) (.error .tooLongToWrite) ∧ Overflows text ∧
          digitLimit < text.toList.countP isDigit) := by
  obtain ⟨x, answered, hx⟩ := Session.exists_answers_run true built_expression rfl id
    (inner_ends (sound (.chain .sum) (.start text)))
  rcases x with fault | a
  · have trouble : Trouble text.toList fault := hx
    refine ⟨fun v hv => ?_, fun slashless short => .inr ?_⟩
    · cases hv.unique answered
    · cases trouble with
      | quotient slash => exact absurd slash slashless
      | number n inside long => exact absurd (short n inside) (Nat.not_le_of_lt long)
      | result t read inside layout slashless hidden =>
        have overflows : Overflows text := ⟨_, t, read, inside, layout, slashless, hidden⟩
        exact ⟨answered, overflows, overflows.digits⟩
  · obtain ⟨r, hr, rfl⟩ := hx
    have whole : ∀ v, Report.ofResult true r = .ok v →
        ∃ t : Expression, Written t.tokens text.toList ∧ t.eval = .ok v := by
      intro v hv
      obtain ⟨d, ⟨t, read, houtcome⟩, ended⟩ := hr.of_reported hv
      exact ⟨t, read.written (ended rfl), t.eval_of_outcome houtcome⟩
    refine ⟨fun v hv => ?_, fun _ _ => .inl ⟨_, answered, fun none => ?_⟩⟩
    · have same := hv.unique answered
      simp only [Except.ok.injEq, Answer.ran.injEq] at same
      exact whole v same.2.symm
    · rcases outcome : Report.ofResult true r with report | v
      · exact ⟨report, rfl⟩
      · obtain ⟨t, layout, -⟩ := whole v outcome
        exact absurd layout (none t)

/-- The text is no layout of an expression, since the answer to its run is a report. -/
theorem unread_of_report {text : Array Char} {name : String} {report : Report} (t : Expression)
    (reported : session.Answers (.run expression text true) (.ok (.ran name (.error report)))) :
    ¬Written t.tokens text.toList := by
  intro layout
  have read := answers_expression t text layout
  rcases outcome : t.outcome with fault | v
  · rw [outcome] at read
    cases read.unique reported
  · rw [outcome] at read
    cases read.unique reported

/-- An operator without a right operand is not read. -/
theorem expression_sound_dangling :
    (∃ t : Expression, Written t.tokens "1 + 2".toList ∧ t.eval = .ok (.int 3)) ∧
      (∀ t : Expression, ¬Written t.tokens "1 + 2 -".toList) ∧
      ∃ report, session.Answers (.run expression "1 + 2 -".toList.toArray true)
        (.ok (.ran "expr" (.error report))) := by
  let number (d : Nat) : Tree (.chain .product) := .chain (.bare (.number (.ofNat d))) .nil
  let t : Expression := .chain (number 1) (.cons false (number 2) .nil)
  have sum : session.Answers (.run expression "1 + 2".toList.toArray true)
      (.ok (.ran "expr" (.ok (.int 3)))) := by
    have answered := answers_expression t "1 + 2".toList.toArray
      (Written.of_gaps [(['1'], [' ']), (['+'], [' ']), (['2'], [])] rfl)
    rw [t.outcome_of_digits (by decide)] at answered
    exact answered
  obtain ⟨name, report, stopped⟩ := session.exists_report_of_passes 40
    (.run expression "1 + 2 -".toList.toArray true) (by decide +kernel)
  have unread : ∀ t : Expression, ¬Written t.tokens "1 + 2 -".toList :=
    fun t => unread_of_report t stopped
  refine ⟨(expression_sound _).1 _ sum, unread, ?_⟩
  have short : ∀ n : Numeral, n.chars <:+: "1 + 2 -".toList → n.chars.length ≤ digitLimit :=
    fun n inside => Nat.le_trans inside.length_le (by decide)
  rcases (expression_sound "1 + 2 -".toList.toArray).2 (by decide) short with settled | raised
  · obtain ⟨outcome, answered, reported⟩ := settled
    obtain ⟨report, rfl⟩ := reported unread
    exact ⟨report, answered⟩
  · cases raised.1.unique stopped

/-- What does not contain a character stands before it or behind it. -/
theorem isInfix_of_append_cons {x : Char} {s a b : List Char} (apart : x ∉ s)
    (h : s <:+: a ++ x :: b) : s <:+: a ∨ s <:+: b := by
  obtain ⟨u, v, whole⟩ := h
  rw [List.append_assoc] at whole
  rcases List.append_eq_append_iff.1 whole with ⟨front, rfl, inner⟩ | ⟨back, rfl, outer⟩
  · rcases List.append_eq_append_iff.1 inner with ⟨rest, rfl, -⟩ | ⟨back, rfl, outer⟩
    · exact .inl ⟨u, rest, by simp⟩
    · rcases back with _ | ⟨y, back⟩
      · exact .inl ⟨u, [], by simp⟩
      · obtain ⟨rfl, -⟩ := List.cons.inj outer
        exact absurd (by simp) apart
  · rcases back with _ | ⟨y, back⟩
    · rcases s with _ | ⟨y, s⟩
      · exact .inl List.nil_infix
      · obtain ⟨rfl, -⟩ := List.cons.inj outer
        exact absurd List.mem_cons_self apart
    · obtain ⟨-, rfl⟩ := List.cons.inj outer
      exact .inr ⟨back, v, by simp⟩

/-- A text without a quotient, with no number that is too long, of which the run raises something. -/
theorem expression_unsettled : '/' ∉ longSquare ∧
    (∀ n : Numeral, n.chars <:+: longSquare → n.chars.length < digitLimit) ∧
    session.Answers (.run expression longSquare.toArray true) (.error .tooLongToWrite) ∧
    ¬Settles longSquare.toArray := by
  refine ⟨?_, fun n inside => ?_, answers_longSquare, ?_⟩
  · intro slash
    rcases List.mem_append.1 slash with slash | slash
    · cases List.eq_of_mem_replicate slash
    · rcases List.mem_cons.1 slash with same | slash
      · cases same
      · cases List.eq_of_mem_replicate slash
  · have apart : '*' ∉ n.chars := by
      intro star
      have digit := n.digits '*' star
      revert digit
      decide
    have few : n.chars.length ≤ 2200 := by
      rcases isInfix_of_append_cons apart inside with before | behind
      · exact Nat.le_trans before.length_le (Nat.le_of_eq List.length_replicate)
      · exact Nat.le_trans behind.length_le (Nat.le_of_eq List.length_replicate)
    exact Nat.lt_of_le_of_lt few (by decide)
  · rintro ⟨outcome, answered, -⟩
    cases answered.unique answers_longSquare

end Rewind.Grammar.Arithmetic
