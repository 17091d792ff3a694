import Rewind.Proofs.Arithmetic.Parsers

namespace Rewind.Grammar.Arithmetic

open Rewind.Parser Text

/-- What may come behind a chain of a layer. -/
def Layer.stops : Layer → List Char
  | sum => [')']
  | product => ['+', '-', ')']

def Level.stops : Level → List Char
  | chain layer => layer.stops
  | _ => ['*', '/', '+', '-', ')']

theorem operand_stops (layer : Layer) :
    layer.operand.stops = layer.sign false :: layer.sign true :: layer.stops := by
  cases layer <;> rfl

theorem refuses_sign (layer : Layer) (x : Char) (hx : x ∈ layer.stops) :
    signTest layer x = false := by
  rw [← Bool.not_eq_true, signTest_iff]
  intro h
  obtain ⟨inverse, rfl⟩ := h
  revert hx
  cases layer <;> cases inverse <;> decide

/-- A level reads every layout of the tokens up to one of its stops. -/
def Level.Reads (level : Level) (tokens : List (List Char)) (o : Except Fault Value) : Prop :=
  Parser.Reads contract session.env level.parser (· ∈ level.stops) tokens o

def pairValue (pair : Operator × Value) : Value := .tuple [.op pair.1, pair.2]

/-- Operators of a layer are read up to the last one, each with its operand. -/
def Layer.ReadsRounds (layer : Layer) (tokens : List (List Char))
    (o : Except Fault (List (Operator × Value))) : Prop :=
  Parser.ReadsRounds contract session.env (roundParser layer) (· ∈ layer.stops) tokens
    (o.map (List.map pairValue))

theorem foldRounds_pairs (x : Value) (pairs : List (Operator × Value)) :
    foldRounds applyValue x (pairs.map pairValue) = Logged.ofExcept (fold x pairs) := by
  induction pairs generalizing x with
  | nil => rfl
  | cons pair pairs ih =>
    obtain ⟨o, y⟩ := pair
    have step : applyValue (.op o) x y = Logged.ofExcept (o.apply x y) := rfl
    simp only [List.map_cons, pairValue, foldRounds, fold, List.foldlM_cons, step]
    rcases o.apply x y with fault | z
    · rfl
    · exact ih z

theorem isDigit_stops (x : Char) (hx : x ∈ Level.factor.stops) : isDigit x = false := by
  have refused : (Level.factor.stops.all fun y => !isDigit y) = true := by decide
  simpa using List.all_eq_true.1 refused x hx

theorem reads_number (n : Numeral) : Level.factor.Reads [n.chars] n.read := by
  refine .or_left (.token integer_lexes integers_writes ((Lexicon.run1_clear isDigit).map _) ?_
    n.skipBlanks_append)
  intro gap rest hgap hrest
  exact integers_iff.2 ⟨n, rfl, hrest.refuses_isDigit isDigit_stops hgap, rfl⟩

theorem reads_inner {tokens : List (List Char)} {o : Except Fault Value}
    (h : (Level.chain .sum).Reads tokens o) :
    Parser.Reads contract session.env innerParser (· ∈ Layer.sum.stops) tokens o :=
  fun c body rest hbody hrest hc => inner_ends (h c body rest hbody hrest hc)

theorem reads_parens {tokens : List (List Char)} {o : Except Fault Value}
    (h : (Level.chain .sum).Reads tokens o) (fits : ∀ v, o = .ok v → v.writable = true) :
    Level.factor.Reads (['('] :: (tokens ++ [[')']])) o := by
  have blank : isBlank ')' = false := by decide
  have inner := (reads_inner h).next
  refine .or_right integer_needs ⟨'(', [], _, rfl, by decide⟩ ?_
  exact .between (char_reads (by decide) _) (char_reads blank) inner fits blank List.mem_cons_self

/-- A factor begins with a digit or a parenthesis. -/
theorem begins_factor (f : Tree .factor) :
    Begins (fun x => !isBlank x && !(x == '-')) f.tokens := by
  rcases f with n | inner
  · obtain ⟨x, xs, hx, digit⟩ := n.exists_head
    refine ⟨x, xs, [], by rw [Tree.tokens, hx], ?_⟩
    show (!isBlank x && !(x == '-')) = true
    rw [isBlank_of_isDigit digit, beq_of_test digit (by decide)]
    rfl
  · exact ⟨'(', [], _, rfl, by decide⟩

theorem reads_bare (f : Tree .factor) {o : Except Fault Value} (h : Level.factor.Reads f.tokens o) :
    Level.signed.Reads f.tokens o :=
  .or_right (.map (.before (char_needs '-'))) (begins_factor f) h

theorem reads_minus {tokens : List (List Char)} {o : Except Fault Value}
    (h : Level.factor.Reads tokens o) (fits : ∀ v, o = .ok v → v.writable = true) :
    Level.signed.Reads (['-'] :: tokens) (o.map Value.negated) := by
  have sign : Parser.Reads contract session.env (charParser '-') (fun _ => True) [['-']] _ :=
    char_reads (by decide) _
  have behind := sign.before h.next fun _ _ _ _ => .any _
  exact .or_left (behind.map fun v hv => Value.writable_negated (fits v hv))

/-- Behind an operand comes an operator of its layer or what may come behind the chain. -/
theorem Rounds.follows {layer : Layer} (rs : Rounds layer) (back rest : List Char)
    (h : Spaced rs.tokens back) (hrest : Follows (· ∈ layer.stops) rest) :
    Follows (· ∈ layer.operand.stops) (back ++ rest) := by
  rw [operand_stops]
  rcases rs with _ | ⟨inverse, operand, later⟩
  · rcases h
    refine hrest.mono fun x hx => ?_
    simp [hx]
  · obtain ⟨gap, body, -, -, rfl⟩ := h.uncons
    refine .head (sign_not_blank layer inverse) ?_
    cases inverse <;> simp

theorem reads_cons {layer : Layer} {inverse : Bool} {tokens : List (List Char)}
    {o : Except Fault Value} {later : Rounds layer} (h : layer.operand.Reads tokens o)
    (fits : ∀ v, o = .ok v → v.writable = true)
    (h' : layer.ReadsRounds later.tokens later.outcome) :
    layer.ReadsRounds ([layer.sign inverse] :: (tokens ++ later.tokens))
      (do let y ← o; let pairs ← later.outcome; return (layer.operator inverse, y) :: pairs) := by
  let round (y : Value) : Value := .tuple [.op (layer.operator inverse), y]
  have read : Parser.Reads contract session.env (roundParser layer) (· ∈ layer.operand.stops)
      ([[layer.sign inverse]] ++ tokens) (o.map round) := by
    have operator := operator_reads layer inverse fun _ => True
    have pair := operator.both (f := fun f y => (Value.tuple [f, y]).asConstant) h.next
      fun _ _ _ _ => .any _
    have same : (do
        let f ← Except.ok (Value.op (layer.operator inverse))
        let y ← o
        (Value.tuple [f, y]).asConstant.result) = o.map round := by
      rcases o with fault | y
      · rfl
      · have both : (round y).writable = true := by simp [round, Value.writable, fits y rfl]
        exact congrArg Logged.result (Value.asConstant_of_writable both)
    rw [← same]
    exact pair
  have begins : Begins (fun x => !isBlank x) ([[layer.sign inverse]] ++ tokens) :=
    .of_not_blank (sign_not_blank layer inverse) tokens
  -- A fault of the operand comes before any of the later rounds.
  have same : (do
      let x ← o.map round
      let xs ← later.outcome.map (List.map pairValue)
      return x :: xs) =
      (do let y ← o; let pairs ← later.outcome; return (layer.operator inverse, y) :: pairs).map
        (List.map pairValue) := by
    rcases o with fault | y
    · rfl
    · rcases later.outcome with fault | pairs <;> rfl
  unfold Layer.ReadsRounds
  rw [← same]
  exact .cons read h' begins later.follows

/-- The operators are applied when all operands are read, and what comes of them is made a constant. -/
theorem reads_chain {layer : Layer} {tokens : List (List Char)} {o : Except Fault Value}
    {rounds : Rounds layer} (h : layer.operand.Reads tokens o)
    (h' : layer.ReadsRounds rounds.tokens rounds.outcome) :
    (Level.chain layer).Reads (tokens ++ rounds.tokens)
      (do let x ← o; let pairs ← rounds.outcome; let v ← fold x pairs; v.asConstant.result) := by
  have same : (do
      let x ← o
      let ys ← (rounds.outcome.map (List.map pairValue)).map .list
      (pure (.tuple [x, ys]) : Act Value).result) >>=
        (fun v => (foldChain applyValue v >>= Value.asConstant).result) =
      (do let x ← o; let pairs ← rounds.outcome; let v ← fold x pairs; v.asConstant.result) := by
    rcases o with fault | x
    · rfl
    · rcases rounds.outcome with fault | pairs
      · rfl
      · show (foldRounds applyValue x (pairs.map pairValue) >>= Value.asConstant).result =
          fold x pairs >>= fun v => v.asConstant.result
        rw [foldRounds_pairs]
        rcases fold x pairs with fault | v <;> rfl
  unfold Level.Reads
  rw [← same, parser_chain]
  exact .label ((h.both h'.many rounds.follows).tryMap _)

mutual

theorem Tree.reads {level : Level} : (t : Tree level) → level.Reads t.tokens t.outcome
  | .number n => reads_number n
  | .parens body => reads_parens body.reads fun _ => body.outcome_writable
  | .bare f => reads_bare f f.reads
  | .minus f => reads_minus f.reads fun _ => f.outcome_writable
  | .chain first rounds => reads_chain first.reads rounds.reads

theorem Rounds.reads {layer : Layer} : (rs : Rounds layer) → layer.ReadsRounds rs.tokens rs.outcome
  | .nil => .nil (.both (operator_needs layer)) (refuses_sign layer)
  | .cons _ operand later => reads_cons operand.reads (fun _ => operand.outcome_writable) later.reads

end

theorem answers_expression (t : Expression) (text : Array Char)
    (layout : Written t.tokens text.toList) :
    session.Answers (.run expression text true) (t.outcome.map fun v => .ran "expr" (.ok v)) :=
  (reads_inner t.reads).answers built_expression rfl id layout true

/-- The square of a number. -/
def square (n : Numeral) : Expression :=
  .chain (.chain (.bare (.number n)) (.cons false (.bare (.number n)) .nil)) .nil

theorem square_layout (n : Numeral) : Written (square n).tokens (n.chars ++ '*' :: n.chars) := by
  have gaps := Written.of_gaps [(n.chars, []), (['*'], []), (n.chars, [])] rfl
  simpa [square, Tree.tokens, Rounds.tokens, Layer.sign] using gaps

theorem square_slashless (n : Numeral) : ['/'] ∉ (square n).tokens := by
  intro there
  have tokens : ['/'] ∈ [n.chars, ['*'], n.chars] := there
  have slash : '/' ∈ n.chars := by
    simp only [List.mem_cons, List.not_mem_nil, or_false, List.cons.injEq, and_true] at tokens
    rcases tokens with same | same | same
    · exact same ▸ List.mem_cons_self
    · cases same
    · exact same ▸ List.mem_cons_self
  have digit := n.digits '/' slash
  revert digit
  decide

theorem square_short {n : Numeral} (short : n.chars.length ≤ digitLimit) : (square n).Short := by
  intro m hm
  have tokens : m.chars ∈ [n.chars, ['*'], n.chars] := hm
  simp only [List.mem_cons, List.not_mem_nil, or_false] at tokens
  rcases tokens with same | same | same
  · exact same ▸ short
  · rw [same]
    decide
  · exact same ▸ short

theorem square_outcome {n : Numeral} (short : n.chars.length ≤ digitLimit)
    (hidden : ¬(Value.int (n.value * n.value)).writable = true) :
    (square n).outcome = .error .tooLongToWrite := by
  have read : n.read = .ok (.int n.value) := Value.readInt_of_le short _
  have rounds : (Rounds.cons false (.bare (.number n)) .nil : Rounds .product).outcome =
      .ok [(.mul, .int n.value)] := by
    show (n.read >>= fun y => Except.ok [(Operator.mul, y)]) = _
    rw [read]
    rfl
  have product : (.chain (.bare (.number n)) (.cons false (.bare (.number n)) .nil) :
      Tree (.chain .product)).outcome = .error .tooLongToWrite := by
    show (n.read >>= fun x => Rounds.outcome _ >>= fun pairs => fold x pairs >>= fun v =>
      v.asConstant.result) = _
    rw [read, rounds]
    exact congrArg Logged.result (Value.asConstant_of_not hidden)
  exact congrArg (· >>= fun x => (fold x [] >>= fun v => v.asConstant.result)) product

/-- So many digits nine. -/
def nines (k : Nat) (some : 0 < k) : Numeral where
  chars := List.replicate k '9'
  nonempty := by simp; omega
  digits := by
    intro x hx
    rw [List.eq_of_mem_replicate hx]
    decide

theorem nines_value (k : Nat) (some : 0 < k) : (nines k some).value + 1 = Nat.pow 10 k := by
  have nine : digitValue? '9' = Option.some 9 := by decide
  have values : (nines k some).digitValues = List.replicate k 9 := by
    simp [Numeral.digitValues, nines, nine]
  rw [Numeral.value, values, List.reverse_replicate]
  clear values some
  induction k with
  | zero => rfl
  | succ k ih =>
    rw [List.replicate_succ, Nat.ofDigits_cons]
    show 9 + 10 * _ + 1 = Nat.pow 10 k * 10
    omega

theorem square_nines_not_writable {k : Nat} (some : 0 < k) (long : digitLimit + 2 ≤ k + k) :
    ¬(Value.int ((nines k some).value * (nines k some).value)).writable = true := by
  have value := nines_value k some
  rw [Value.writable_int, Nat.not_lt]
  generalize digitLimit = limit at long ⊢
  generalize (nines k some).value = n at value ⊢
  obtain ⟨k, rfl⟩ : ∃ j, k = j + 1 := ⟨k - 1, by omega⟩
  have next : Nat.pow 10 (k + 1) = Nat.pow 10 k * 10 := rfl
  have pos : 0 < Nat.pow 10 k := Nat.pow_pos (by decide)
  have large : Nat.pow 10 k ≤ n := by omega
  calc Nat.pow 10 limit ≤ Nat.pow 10 (k + k) := Nat.pow_le_pow_right (by decide) (by omega)
    _ = Nat.pow 10 k * Nat.pow 10 k := Nat.pow_add 10 k k
    _ ≤ n * n := Nat.mul_le_mul large large
    _ = ((n : Int) * n).natAbs := by rw [Int.natAbs_mul, Int.natAbs_natCast]

/-- A number of so many nines times itself. -/
def longSquare : List Char := List.replicate 2200 '9' ++ '*' :: List.replicate 2200 '9'

theorem answers_longSquare :
    session.Answers (.run expression longSquare.toArray true) (.error .tooLongToWrite) := by
  have answered := answers_expression (square (nines 2200 (by decide))) longSquare.toArray
    (square_layout _)
  have few : (nines 2200 (by decide)).chars.length ≤ digitLimit :=
    Nat.le_trans (Nat.le_of_eq List.length_replicate) (by decide)
  rw [square_outcome few (square_nines_not_writable (by decide) (by decide))] at answered
  exact answered

/-- Every layout of an expression is run to its outcome. If all numbers can be read, this is what the
expression comes to, unless a chain in it comes to an integer that cannot be written; and it is that if
the expression has no more digits in all than can be written. Without a quotient the expression comes to
its exact integer. -/
theorem expression_complete (t : Expression) (text : Array Char)
    (layout : Written t.tokens text.toList) :
    session.Answers (.run expression text true) (t.outcome.map fun v => .ran "expr" (.ok v)) ∧
      (t.Short → t.outcome = t.eval ∨ t.outcome = .error .tooLongToWrite) ∧
      (t.digits ≤ digitLimit → t.outcome = t.eval) ∧
      (['/'] ∉ t.tokens → t.eval = .ok (.int t.exact)) :=
  ⟨answers_expression t text layout, t.outcome_of_short, t.outcome_of_digits, t.eval_exact⟩

/-- `2 * -3` is read as one operand of the difference. A quotient is a double, and there is none by
zero. -/
theorem expression_complete_quotient :
    (∃ t : Expression, Written t.tokens "8 - 2 * -3".toList ∧
      session.Answers (.run expression "8 - 2 * -3".toList.toArray true)
        (.ok (.ran "expr" (.ok (.int 14))))) ∧
    (∃ (t : Expression) (x : Float), Written t.tokens "7 / 2".toList ∧
      Decimal.ratio? false 7 2 = some x ∧
      session.Answers (.run expression "7 / 2".toList.toArray true)
        (.ok (.ran "expr" (.ok (.float x))))) ∧
    ∃ t : Expression, Written t.tokens "(1) / 0".toList ∧
      session.Answers (.run expression "(1) / 0".toList.toArray true) (.error .divisionByZero) := by
  let number (d : Nat) : Tree .signed := .bare (.number (.ofNat d))
  refine ⟨?_, ?_, ?_⟩
  · let t : Expression := .chain (.chain (number 8) .nil)
      (.cons true (.chain (number 2) (.cons false (.minus (.number (.ofNat 3))) .nil)) .nil)
    have layout : Written t.tokens "8 - 2 * -3".toList :=
      Written.of_gaps [(['8'], [' ']), (['-'], [' ']), (['2'], [' ']), (['*'], [' ']), (['-'], []),
        (['3'], [])] rfl
    obtain ⟨answered, -, few, exact⟩ := expression_complete t "8 - 2 * -3".toList.toArray layout
    rw [few (by decide), exact (by decide)] at answered
    exact ⟨t, layout, answered⟩
  · let t : Expression := .chain (.chain (number 7) (.cons true (number 2) .nil)) .nil
    have layout : Written t.tokens "7 / 2".toList :=
      Written.of_gaps [(['7'], [' ']), (['/'], [' ']), (['2'], [])] rfl
    obtain ⟨answered, -, few, -⟩ := expression_complete t "7 / 2".toList.toArray layout
    rw [few (by decide)] at answered
    exact ⟨t, _, layout, rfl, answered⟩
  · let one : Tree (.chain .sum) := .chain (.chain (number 1) .nil) .nil
    let t : Expression :=
      .chain (.chain (.bare (.parens one)) (.cons true (number 0) .nil)) .nil
    have layout : Written t.tokens "(1) / 0".toList :=
      Written.of_gaps [(['('], []), (['1'], []), ([')'], [' ']), (['/'], [' ']), (['0'], [])] rfl
    obtain ⟨answered, -, few, -⟩ := expression_complete t "(1) / 0".toList.toArray layout
    rw [few (by decide)] at answered
    exact ⟨t, layout, answered⟩

/-- Each number can be read, but the product cannot be written. -/
theorem expression_unwritten : ∃ t : Expression, t.Short ∧ ['/'] ∉ t.tokens ∧
    Written t.tokens longSquare ∧ t.eval = .ok (.int t.exact) ∧
    session.Answers (.run expression longSquare.toArray true) (.error .tooLongToWrite) := by
  let n := nines 2200 (by decide)
  have few : n.chars.length ≤ digitLimit :=
    Nat.le_trans (Nat.le_of_eq List.length_replicate) (by decide)
  exact ⟨square n, square_short few, square_slashless n, square_layout n,
    (square n).eval_exact (square_slashless n), answers_longSquare⟩

end Rewind.Grammar.Arithmetic
