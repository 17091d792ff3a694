import Mathlib.Order.Bounds.Basic
import Rewind.Proofs.Parses
import Rewind.Proofs.Numerals
import Rewind.Rule.Combinators

namespace Rewind

namespace Cursor

variable {c : Cursor} {test : Char → Bool}

/-- Behind the longest run there is no character that passes. -/
theorem isGreatest_passes (test : Char → Bool) (c : Cursor) :
    IsGreatest {n | c.Passes test n} (c.rest.takeWhile test).length := by
  refine ⟨c.passes_skipWhile test, fun n passes => ?_⟩
  by_contra longer
  obtain ⟨x, there, passed⟩ := passes _ (Nat.lt_of_not_le longer)
  have next : (c.skipWhile test).char? = some x := there
  rw [char?_eq_head?, rest_skipWhile] at next
  rw [Text.refuses_dropWhile test c.rest x next] at passed
  cases passed

theorem ahead_takeWhile (test : Char → Bool) (c : Cursor) :
    c.ahead (c.rest.takeWhile test).length = c.rest.takeWhile test := by
  rw [ahead_eq_take]
  exact (List.prefix_iff_eq_take.1 (List.takeWhile_prefix _)).symm

theorem takeWhile_of_atEnd (ended : c.text.size ≤ c.position) : c.rest.takeWhile test = [] := by
  have nothing : c.rest = [] := (atEnd_iff_rest_eq_nil c).1 (decide_eq_true ended)
  rw [nothing]
  rfl

end Cursor

namespace Session

variable {s : Session} {ask : CharTest} {passes : Char → Bool}

theorem parses_many_tested (answers : ∀ x, (ask x).result = .ok (passes x)) (name : String)
    (c : Cursor) : s.Parses (Rule.satisfy ask name).many c
      (⟨((c.ahead ((c.rest.takeWhile passes).length + 1)).flatMap fun x => (ask x).log).map .note,
        .ok (.success (.list ((c.rest.takeWhile passes).map .ofChar)) (c.skipWhile passes))⟩,
        s.store) := by
  have built : (Rule.satisfy ask name).many.build s.env s.store =
      (.ok (.many (.atom (.satisfy ask name))), s.store) := rfl
  rw [parses_iff, Rule.eval_of_built built, Cursor.ahead_eq_take, Parser.eval_many_tested answers]
  rfl

/-- In every session and from every cursor, for every test that answers whatever it is asked about: its
repetition matches with the characters of the longest run that passes the test, which put together are the
text that is read, and leaves off behind them; where the text has ended the run is empty. The test is asked
about the characters of the run in order and then about the next one, if there is one. The records are those
that it writes at this, and no other. -/
theorem many_span (s : Session) (answers : ∀ x, (ask x).result = .ok (passes x)) (name : String)
    (c : Cursor) : ∃ n, IsGreatest {m | c.Passes passes m} n ∧ (c.text.size ≤ c.position → n = 0) ∧
      s.Parses (Rule.satisfy ask name).many c
        (⟨((c.ahead (n + 1)).flatMap fun x => (ask x).log).map .note,
          .ok (.success (.list ((c.ahead n).map .ofChar)) (c.skip n))⟩, s.store) ∧
      (∀ label, s.Parses (Rule.satisfy (ask.noted label) name).many c
        (⟨((c.ahead (n + 1)).flatMap fun x => .tested label x :: (ask x).log).map .note,
          .ok (.success (.list ((c.ahead n).map .ofChar)) (c.skip n))⟩, s.store)) ∧
      Value.joined (.list ((c.ahead n).map .ofChar)) = .str (String.ofList (c.ahead n)) := by
  refine ⟨_, c.isGreatest_passes passes, fun ended => ?_, ?_, fun label => ?_, Value.joined_map_ofChar _⟩
  · rw [Cursor.takeWhile_of_atEnd ended]
    rfl
  · rw [Cursor.ahead_takeWhile]
    exact parses_many_tested answers name c
  · rw [Cursor.ahead_takeWhile]
    have answers : ∀ x, (ask.noted label x).result = .ok (passes x) := answers
    exact parses_many_tested answers name c

/-- The letter behind the two digits is asked about, too. -/
theorem many_span_asked :
    (∀ x, (CharTest.ofBool Text.isDigit x).result = .ok (Text.isDigit x)) ∧
      start.Parses (Rule.satisfy (.noted "asked" (.ofBool Text.isDigit)) "digit").many
        ⟨#['a', '1', '2', 'x'], 1⟩
        (⟨['1', '2', 'x'].map fun x => .note (.tested "asked" x),
          .ok (.success (.list [.str "1", .str "2"]) ⟨#['a', '1', '2', 'x'], 3⟩)⟩, start.store) := by
  have answers : ∀ x, (CharTest.ofBool Text.isDigit x).result = .ok (Text.isDigit x) := fun _ => rfl
  obtain ⟨n, greatest, -, -, asked, -⟩ := many_span start answers "digit" ⟨#['a', '1', '2', 'x'], 1⟩
  obtain rfl : n = 2 := greatest.unique (Cursor.isGreatest_passes Text.isDigit _)
  exact ⟨answers, asked "asked"⟩

end Session

end Rewind
