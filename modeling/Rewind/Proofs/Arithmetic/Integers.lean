import Mathlib.Data.Nat.Digits.Defs
import Rewind.Proofs.Arithmetic.Parsers
import Rewind.Proofs.Spacing
import Rewind.Proofs.Spans

namespace Rewind

namespace Grammar.Arithmetic

open Rewind.Parser Text

variable {env : Env} {c : Cursor} {rest : List Char}

theorem eval_integer (n : Numeral) (h : c.skipBlanks.rest = n.chars ++ rest)
    (ended : Refuses isDigit rest) : integerParser.eval env c = (do
      let value ← Run.ofAct (Logged.ofExcept n.read)
      return .success value (c.skipBlanks.skip n.chars.length).skipBlanks) := by
  rw [integerParser, eval_token, eval_map, eval_many1_of_run h n.nonempty n.digits ended]
  simp only [LawfulMonad.pure_bind, Result.success, if_true, Value.toInt_numeral]
  rcases read : n.read with fault | value
  · rfl
  · have fits := n.writable_of_read read
    have made : (Logged.ofExcept (.ok value) : Act Value) >>= Value.asConstant = pure value :=
      Value.asConstant_of_writable fits
    rw [made, Run.ofAct_pure, LawfulMonad.pure_bind, LawfulMonad.pure_bind]
    simp only [if_true, Run.ofAct_asConstant fits]
    rfl

theorem eval_integer_of_refuses (none : Refuses isDigit c.skipBlanks.rest) :
    integerParser.eval env c = pure (.failure c) := by
  rw [integerParser, eval_token, eval_map, eval_many1_of_refuses none]
  rfl

/-- In every session and from every cursor: skip all the blanks that are there. If a digit comes next, the
integer is the longest run of digits from there on. It is read with the value of its digits in base ten, each
of which has a value below ten, and with the blanks behind it, if there are no more of them than can be read,
and else it is refused; neither a record nor a cell is made. If no digit comes next, there is no integer, and
the cursor is given back. -/
theorem integer_exact (s : Session) (c : Cursor) :
    c.BlankUpTo c.skipBlanks ∧ ∃ n, IsGreatest {m | c.skipBlanks.Passes isDigit m} n ∧
      (c.skipBlanks.skip n).BlankUpTo (c.skipBlanks.skip n).skipBlanks ∧
      ((∃ x, c.skipBlanks.char? = some x ∧ isDigit x = true) → ∃ ds : List Nat,
        (c.skipBlanks.ahead n).map digitValue? = ds.map some ∧ (∀ d ∈ ds, d < 10) ∧
        (n ≤ digitLimit → s.Parses integer c (⟨[], .ok (.success
          (.int (Nat.ofDigits 10 ds.reverse : Nat)) (c.skipBlanks.skip n).skipBlanks)⟩, s.store)) ∧
        (digitLimit < n → s.Parses integer c (⟨[], .error (.tooLongToRead n)⟩, s.store))) ∧
      ((¬∃ x, c.skipBlanks.char? = some x ∧ isDigit x = true) →
        s.Parses integer c (⟨[], .ok (.failure c)⟩, s.store)) := by
  have built : integer.build s.env s.store = (.ok integerParser, s.store) := rfl
  have split := List.takeWhile_append_dropWhile (p := isDigit) (l := c.skipBlanks.rest)
  refine ⟨c.blankUpTo_skipBlanks, _, Cursor.isGreatest_passes isDigit _, Cursor.blankUpTo_skipBlanks _,
    fun there => ?_, fun none => ?_⟩
  · obtain ⟨x, next, digit⟩ := there
    obtain ⟨xs, hx⟩ := List.head?_eq_some_iff.1 (c.skipBlanks.char?_eq_head?.symm.trans next)
    let n : Numeral := ⟨c.skipBlanks.rest.takeWhile isDigit, by simp [hx, digit],
      List.all_eq_true.1 List.all_takeWhile⟩
    have read : integerParser.eval s.env c = _ :=
      eval_integer n split.symm (refuses_dropWhile isDigit _)
    refine ⟨n.digitValues, ?_, n.digitValues_lt, fun short => ?_, fun long => ?_⟩
    · rw [Cursor.ahead_takeWhile]
      exact n.map_digitValue?
    · have taken : n.read = .ok (.int n.value) := Value.readInt_of_le short _
      rw [Session.parses_iff, Rule.eval_of_built built, read, taken]
      rfl
    · have refused : n.read = .error (.tooLongToRead n.chars.length) := Value.readInt_of_lt long _
      rw [Session.parses_iff, Rule.eval_of_built built, read, refused]
      rfl
  · have refused : Refuses isDigit c.skipBlanks.rest := by
      intro x hx
      rw [← Bool.not_eq_true]
      exact fun digit => none ⟨x, by rw [Cursor.char?_eq_head?, hx], digit⟩
    rw [Session.parses_iff, Rule.eval_of_built built, eval_integer_of_refuses refused]
    rfl

/-- A zero in front, digits of two scripts, and a sign that is none of the integer. -/
theorem integer_exact_scripts :
    session.Parses integer (.start #[' ', '0', '٣', '7', ' ', 'x'])
        (⟨[], .ok (.success (.int 37) ⟨#[' ', '0', '٣', '7', ' ', 'x'], 5⟩)⟩, session.store) ∧
      session.Parses integer (.start #[' ', '-', '1'])
        (⟨[], .ok (.failure (.start #[' ', '-', '1']))⟩, session.store) := by
  constructor
  · obtain ⟨-, n, greatest, -, read, -⟩ := integer_exact session (.start #[' ', '0', '٣', '7', ' ', 'x'])
    obtain rfl : n = 3 := greatest.unique (Cursor.isGreatest_passes isDigit _)
    obtain ⟨ds, values, -, parsed, -⟩ := read ⟨'0', rfl, rfl⟩
    obtain rfl : [0, 3, 7] = ds := List.map_injective_iff.2 (Option.some_injective Nat) values
    exact parsed (by decide)
  · obtain ⟨-, n, -, -, -, failed⟩ := integer_exact session (.start #[' ', '-', '1'])
    refine failed ?_
    rintro ⟨x, next, digit⟩
    obtain rfl : '-' = x := Option.some.inj next
    cases digit

end Grammar.Arithmetic

end Rewind
