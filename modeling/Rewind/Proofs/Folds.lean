import Rewind.Proofs.Separated

namespace Rewind

/-- The operators of rounds applied in order to an operand, each with the operand behind it. -/
def foldFrom (apply : Value → Value → Value → Act Value) (x : Value)
    (rounds : List (Value × Value)) : Act Value :=
  rounds.foldlM (fun z round => apply round.1 z round.2) x

/-- What a chain comes to: what its operators give, as a constant. -/
def foldedChain (apply : Value → Value → Value → Act Value) (x : Value)
    (rounds : List (Value × Value)) : Act Value :=
  foldFrom apply x rounds >>= Value.asConstant

/-- The items of a list put together from the left. -/
def foldLeft (f : Value → Value → Act Value) : Value → Act Value
  | .list (x :: xs) => xs.foldlM f x
  | v => pure v

theorem Parser.foldRounds_eq_foldFrom (apply : Value → Value → Value → Act Value) (x : Value)
    (rounds : List (Value × Value)) :
    foldRounds apply x (rounds.map fun round => .tuple [round.1, round.2]) =
      foldFrom apply x rounds := by
  induction rounds generalizing x with
  | nil => rfl
  | cons round rounds ih =>
    rw [List.map_cons, foldRounds, foldFrom, List.foldlM_cons]
    exact congrArg (apply round.1 x round.2 >>= ·) (funext ih)

/-- With one and the same operator in all rounds only the operands matter. -/
theorem foldFrom_const (apply : Value → Value → Value → Act Value) (f x : Value)
    (rounds : List (Value × Value)) :
    foldFrom apply x (rounds.map fun round => (f, round.2)) =
      foldLeft (apply f) (.list (x :: rounds.map Prod.snd)) := by
  rw [foldFrom, foldLeft, List.foldlM_map, List.foldlM_map]

namespace Session

variable {s : Session} {rule operand operator : Rule} {A : Store} {p q : Parser} {c d e : Cursor}
  {log log' log'' : List Event} {v x : Value} {rounds : List (Value × Value)} {matched : Bool}
  {f : Value → Act Value} {g : Value → Value}

theorem Shows.map (shows : s.Shows rule c ⟨log, .ok (.success x d)⟩)
    (reached : s.Reached Command.Plain) (hA : s.Grown A) (made : rule.Makes s A p) :
    s.Shows (.unary (.map f) rule) c
      ⟨log ++ (f x >>= Value.asConstant).log.map .note,
        (f x >>= Value.asConstant).result.map fun v => .success v d⟩ := by
  obtain ⟨full, B, ends, logged⟩ := (shows_iff reached hA made).1 shows
  refine (shows_iff reached hA (.unary rfl made)).2 ⟨_, B, Parser.eval_map_of_matched ends rfl, ?_⟩
  rw [observed_append, observed_notes, logged]
  rfl

theorem Shows.map_failure (shows : s.Shows rule c ⟨log, .ok (.failure c)⟩)
    (reached : s.Reached Command.Plain) (hA : s.Grown A) (made : rule.Makes s A p) :
    s.Shows (.unary (.map f) rule) c ⟨log, .ok (.failure c)⟩ := by
  obtain ⟨full, B, ends, logged⟩ := (shows_iff reached hA made).1 shows
  exact (shows_iff reached hA (.unary rfl made)).2
    ⟨full, B, Parser.eval_map_of_failed ends rfl, logged⟩

theorem Shows.map_value (shows : s.Shows rule c ⟨log, .ok (.success x d)⟩)
    (fits : (g x).writable = true) (reached : s.Reached Command.Plain) (hA : s.Grown A)
    (made : rule.Makes s A p) : s.Shows (rule.map g) c ⟨log, .ok (.success (g x) d)⟩ := by
  have mapped := shows.map (f := fun v => pure (g v)) reached hA made
  have made : (pure (g x) : Act Value) >>= Value.asConstant = pure (g x) := by
    rw [LawfulMonad.pure_bind, Value.asConstant_of_writable fits]
  rw [made] at mapped
  rwa [show log ++ List.map Event.note (pure (g x) : Act Value).log = log from List.append_nil log]
    at mapped

/-- Rounds do not depend on the values of the operators. -/
theorem Rounds.map_value (read : s.Rounds operator operand c log rounds d)
    (fits : ∀ x, (g x).writable = true) (reached : s.Reached Command.Plain) (hA : s.Grown A)
    (made : operator.Makes s A q) :
    s.Rounds (operator.map g) operand c log (rounds.map fun round => (g round.1, round.2)) d := by
  induction read with
  | nil c => exact .nil c
  | cons first second further _ ih =>
    exact .cons (first.map_value (fits _) reached hA made) second further ih

theorem Stops.map_value (stops : s.Stops operator operand c log matched)
    (fits : ∀ x, (g x).writable = true) (reached : s.Reached Command.Plain) (hA : s.Grown A)
    (made : operator.Makes s A q) :
    s.Stops (operator.map g) operand c log matched := by
  cases stops with
  | separator first => exact .separator (first.map_failure reached hA made)
  | element first second => exact .element (first.map_value (fits _) reached hA made) second
  | still first second still => exact .still (first.map_value (fits _) reached hA made) second still

theorem Shows.result_iff {rule' : Rule} {r r' : Except Fault Result} (shows : s.Shows rule c ⟨log, r⟩)
    (shows' : s.Shows rule' c ⟨log', r⟩) :
    (∃ log, s.Shows rule c ⟨log, r'⟩) ↔ ∃ log, s.Shows rule' c ⟨log, r'⟩ := by
  constructor
  · rintro ⟨log, other⟩
    cases other.unique shows
    exact ⟨log', shows'⟩
  · rintro ⟨log, other⟩
    cases other.unique shows'
    exact ⟨_, shows⟩

/-- An operand and the rounds behind it. The notes of the operators come after all other records. -/
theorem Rounds.shows_chainLeft (read : s.Rounds operator operand d log' rounds e)
    (stops : s.Stops operator operand e log'' matched) (reached : s.Reached Command.Plain)
    (plain : operator.Plain) (plain' : operand.Plain) (hA : s.Grown A)
    (made : operand.Makes s A p) (made' : operator.Makes s A q)
    (first : s.Shows operand c ⟨log, .ok (.success x d)⟩)
    (apply : Value → Value → Value → Act Value) :
    ∃ name, s.Shows (.binary (.chainLeft apply) operand operator) c
      ⟨log ++ log' ++ log'' ++ (if matched then [.stopped name e.position] else []) ++
          (foldedChain apply x rounds).log.map .note,
        (foldedChain apply x rounds).result.map fun v => .success v e⟩ := by
  let round := Parser.both q p fun f y => (Value.tuple [f, y]).asConstant
  have runs : s.RunsBoth A operator operand (fun f y => .tuple [f, y]) round :=
    ⟨q, p, _, made', made, fun _ => rfl,
      fun _ _ hf hy => Value.asConstant_of_writable (Value.writable_tuple.2 (by simp [hf, hy]))⟩
  obtain ⟨full, B, ends, logged⟩ :=
    runs.eval_both_many made reached plain plain' hA first read stops
      (fun x rounds => pure (.tuple [x, rounds])) rfl
  have folded : Parser.foldChain apply
      (.tuple [x, .list (rounds.map fun round => .tuple [round.1, round.2])]) =
      foldFrom apply x rounds := Parser.foldRounds_eq_foldFrom apply x rounds
  have chained : (p.chainLeft apply q).eval s.env c A =
      some (⟨full ++ (foldedChain apply x rounds).log.map .note,
        (foldedChain apply x rounds).result.map fun v => .success v e⟩, B) := by
    rw [Parser.chainLeft, Parser.eval_label, Parser.eval_map_of_matched ends rfl]
    simp only [Result.success, folded]
    rfl
  refine ⟨round.name,
    (shows_iff reached hA (.binary (.chainLeft apply) made made')).2 ⟨_, B, chained, ?_⟩⟩
  rw [observed_append, observed_notes, logged]
  exact congrArg (· ++ _) (List.append_nil _)

theorem Shows.chainLeft_failure (first : s.Shows operand c ⟨log, .ok (.failure c)⟩)
    (reached : s.Reached Command.Plain) (hA : s.Grown A) (made : operand.Makes s A p)
    (made' : operator.Makes s A q) (apply : Value → Value → Value → Act Value) :
    s.Shows (.binary (.chainLeft apply) operand operator) c ⟨log, .ok (.failure c)⟩ := by
  obtain ⟨full, B, ends, logged⟩ := (shows_iff reached hA made).1 first
  refine (shows_iff reached hA (.binary (.chainLeft apply) made made')).2 ⟨full, B, ?_, logged⟩
  rw [Binary.apply, Parser.chainLeft, Parser.eval_label]
  exact Parser.eval_map_of_failed (Parser.eval_both_of_failed ends rfl) rfl

/-- Let every parse of two plain rules end with a result, that of an operand and that of an operator. A
chain of them fails just where an operand does. Where an operand matches, the chain reads the rounds
behind it, an operator and an operand each, as many as can be read: at the end of them the operator fails,
or the operand behind it, or both match and do not get on. An operator without an operand is thus left
alone. Only then the operators are applied, from the left; what they write comes last, and the chain ends
with the value that they give, at the end of the rounds, or with the fault that one of them raises, or
with a fault if the value cannot be written. If all operators have the same value, and it can be written,
the chain ends as the list of operands with these operators for separators does, its items put together
from the left. -/
theorem chainLeft_folds (reached : s.Reached Command.Plain) (plain : operand.Plain)
    (plain' : operator.Plain) (returns : s.Returns operand) (returns' : s.Returns operator)
    (apply : Value → Value → Value → Act Value) (c : Cursor) :
    (∀ log, s.Shows (.binary (.chainLeft apply) operand operator) c ⟨log, .ok (.failure c)⟩ ↔
      s.Shows operand c ⟨log, .ok (.failure c)⟩) ∧
    (∀ log x d, s.Shows operand c ⟨log, .ok (.success x d)⟩ →
      ∃ log' rounds e log'' matched name, s.Rounds operator operand d log' rounds e ∧
        s.Stops operator operand e log'' matched ∧
        s.Shows (.binary (.chainLeft apply) operand operator) c
          ⟨log ++ log' ++ log'' ++ (if matched then [.stopped name e.position] else []) ++
              (foldedChain apply x rounds).log.map .note,
            (foldedChain apply x rounds).result.map fun v => .success v e⟩) ∧
    ∀ f r, f.writable = true →
      ((∃ log, s.Shows (.binary (.chainLeft apply) operand (operator.map fun _ => f)) c ⟨log, r⟩) ↔
        ∃ log, s.Shows (.unary (.map (foldLeft (apply f))) (.binary .sepBy1 operand operator)) c
          ⟨log, r⟩) := by
  obtain ⟨A, p, q, hA, made, made'⟩ := exists_made returns returns'
  have rounds := exists_rounds reached plain' plain returns' returns
  refine ⟨returns.failure_iff ?_ ?_, ?_, ?_⟩
  · exact fun log first => first.chainLeft_failure reached hA made made' apply
  · intro log x d first
    obtain ⟨log', rounds, e, log'', matched, read, stops⟩ := rounds d
    obtain ⟨name, shows⟩ := read.shows_chainLeft stops reached plain' plain hA made made' first apply
    exact ⟨_, _, e, shows⟩
  · intro log x d first
    obtain ⟨log', rounds, e, log'', matched, read, stops⟩ := rounds d
    obtain ⟨name, shows⟩ := read.shows_chainLeft stops reached plain' plain hA made made' first apply
    exact ⟨log', rounds, e, log'', matched, name, read, stops, shows⟩
  · intro f r fits
    have list : (Rule.binary .sepBy1 operand operator).Makes s A _ := .binary .sepBy1 made made'
    have same : (operator.map fun _ => f).Makes s A _ := .unary rfl made'
    rcases returns.cases c with ⟨log, first⟩ | ⟨log, x, d, first⟩
    · have chained := first.chainLeft_failure reached hA made same apply
      have listed := (first.sepBy_failure reached hA made made').1
      exact chained.result_iff (listed.map_failure reached hA list)
    · obtain ⟨log', rounds, e, log'', matched, read, stops⟩ := rounds d
      have read' := read.map_value (g := fun _ => f) (fun _ => fits) reached hA made'
      have stops' := stops.map_value (g := fun _ => f) (fun _ => fits) reached hA made'
      obtain ⟨name, chained⟩ :=
        read'.shows_chainLeft stops' reached plain' plain hA made same first apply
      obtain ⟨name', listed, -⟩ := read.shows_sepBy stops reached plain' plain hA made made' first
      rw [foldedChain, foldFrom_const] at chained
      exact chained.result_iff (listed.map reached hA list)

/-- Puts the operator between its operands, and notes the right one. -/
def infixed (f x y : Value) : Act Value := ⟨[.called "applied" y], .ok (.tuple [x, f, y])⟩

def differences : Cursor := .start #['9', '-', '3', '-', '2', '-', 'x']

/-- The first operator is applied first, and the third, which has no digit behind it, is left alone. -/
theorem chainLeft_folds_differences :
    start.Returns .digit ∧ start.Returns (.char '-') ∧
      start.Shows .digit differences ⟨[], .ok (.success (.str "9") differences.next)⟩ ∧
      (∃ log' rounds e log'' matched name,
        start.Rounds (.char '-') .digit differences.next log' rounds e ∧
        start.Stops (.char '-') .digit e log'' matched ∧
        start.Shows (.binary (.chainLeft infixed) .digit (.char '-')) differences
          ⟨log' ++ log'' ++ (if matched then [.stopped name e.position] else []) ++
              (foldedChain infixed (.str "9") rounds).log.map .note,
            (foldedChain infixed (.str "9") rounds).result.map fun v => .success v e⟩) ∧
      start.Shows (.binary (.chainLeft infixed) .digit (.char '-')) differences
        ⟨[.note (.called "applied" (.str "3")), .note (.called "applied" (.str "2"))],
          .ok (.success (.tuple [.tuple [.str "9", .str "-", .str "3"], .str "-", .str "2"])
            ⟨differences.text, 5⟩)⟩ ∧
      ∀ r, (∃ log, start.Shows (.binary (.chainLeft infixed) .digit
          (.map (.char '-') fun _ => .str "-")) differences ⟨log, r⟩) ↔
        ∃ log, start.Shows (.unary (.map (foldLeft (infixed (.str "-"))))
          (.binary .sepBy1 .digit (.char '-'))) differences ⟨log, r⟩ := by
  have plain : Rule.digit.Plain := trivial
  have plain' : (Rule.char '-').Plain := trivial
  have digit : start.Returns .digit := returns_ofTest
  have minus : start.Returns (.char '-') := returns_ofTest
  have first : start.Shows .digit differences ⟨[], .ok (.success (.str "9") differences.next)⟩ :=
    shows_ofTest_iff.2 rfl
  obtain ⟨-, chained, same⟩ :=
    chainLeft_folds .start plain plain' digit minus infixed differences
  have read : start.Rounds (.char '-') .digit differences.next _
      [(.str "-", .str "3"), (.str "-", .str "2")] ⟨differences.text, 5⟩ :=
    .cons (shows_ofTest_iff.2 rfl) (shows_ofTest_iff.2 rfl) (by decide)
      (.cons (shows_ofTest_iff.2 rfl) (shows_ofTest_iff.2 rfl) (by decide) (.nil _))
  have stops : start.Stops (.char '-') .digit ⟨differences.text, 5⟩ _ false :=
    .element (shows_ofTest_iff.2 rfl) (shows_ofTest_iff.2 rfl)
  obtain ⟨name, computed⟩ :=
    read.shows_chainLeft stops .start plain' plain (.refl start) (.atom rfl) (.atom rfl) first infixed
  exact ⟨digit, minus, first, chained _ _ _ first,
    computed, fun r => same (.str "-") r rfl⟩

/-- The operator gives an integer that cannot be written, and the chain raises. -/
theorem chainLeft_unwritten :
    start.Returns .digit ∧ start.Returns (.char '-') ∧
      start.Shows .digit ⟨#['9', '-', '3'], 0⟩
        ⟨[], .ok (.success (.str "9") ⟨#['9', '-', '3'], 1⟩)⟩ ∧
      start.Rounds (.char '-') .digit ⟨#['9', '-', '3'], 1⟩ [] [(.str "-", .str "3")]
        ⟨#['9', '-', '3'], 3⟩ ∧
      start.Stops (.char '-') .digit ⟨#['9', '-', '3'], 3⟩ [] false ∧
      foldFrom (fun _ _ _ => pure .long) (.str "9") [(.str "-", .str "3")] = pure .long ∧
      start.Shows (.binary (.chainLeft fun _ _ _ => pure .long) .digit (.char '-'))
        ⟨#['9', '-', '3'], 0⟩ ⟨[], .error .tooLongToWrite⟩ := by
  have plain : Rule.digit.Plain := trivial
  have plain' : (Rule.char '-').Plain := trivial
  have first : start.Shows .digit ⟨#['9', '-', '3'], 0⟩
      ⟨[], .ok (.success (.str "9") ⟨#['9', '-', '3'], 1⟩)⟩ := shows_ofTest_iff.2 rfl
  have minus : start.Shows (.char '-') ⟨#['9', '-', '3'], 1⟩
      ⟨[], .ok (.success (.str "-") ⟨#['9', '-', '3'], 2⟩)⟩ := shows_ofTest_iff.2 rfl
  have second : start.Shows .digit ⟨#['9', '-', '3'], 2⟩
      ⟨[], .ok (.success (.str "3") ⟨#['9', '-', '3'], 3⟩)⟩ := shows_ofTest_iff.2 rfl
  have read : start.Rounds (.char '-') .digit ⟨#['9', '-', '3'], 1⟩ [] [(.str "-", .str "3")]
      ⟨#['9', '-', '3'], 3⟩ := .cons minus second (by decide) (.nil _)
  have stops : start.Stops (.char '-') .digit ⟨#['9', '-', '3'], 3⟩ [] false :=
    .separator (shows_ofTest_iff.2 rfl)
  have folded : foldFrom (fun _ _ _ => pure .long) (.str "9") [(.str "-", .str "3")] = pure .long := rfl
  have raised : foldedChain (fun _ _ _ => pure .long) (.str "9") [(.str "-", .str "3")] =
      ⟨[], .error .tooLongToWrite⟩ := by
    rw [foldedChain, folded, LawfulMonad.pure_bind, Value.asConstant_of_not Value.not_writable_long]
    rfl
  obtain ⟨name, chained⟩ := read.shows_chainLeft stops .start plain' plain (.refl start) (.atom rfl)
    (.atom rfl) first fun _ _ _ => pure .long
  rw [raised] at chained
  exact ⟨returns_ofTest, returns_ofTest, first, read, stops, folded, chained⟩

end Session

end Rewind
