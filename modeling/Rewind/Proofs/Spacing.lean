import Rewind.Proofs.Layout
import Rewind.Proofs.Parses
import Rewind.Rule.Combinators

namespace Rewind

namespace Cursor

/-- All characters from the first cursor up to the second one are blank, and the second one is at the end
or at a character that is not. -/
structure BlankUpTo (c d : Cursor) : Prop where
  text : d.text = c.text
  le : c.position ≤ d.position
  blank : ∀ i, c.position ≤ i → i < d.position → ∃ x, c.text[i]? = some x ∧ Text.isBlank x = true
  stops : d.atEnd = true ∨ ∃ x, d.char? = some x ∧ Text.isBlank x = false

theorem skipWhile_skipWhile (test : Char → Bool) (c : Cursor) :
    (c.skipWhile test).skipWhile test = c.skipWhile test := by
  have none : ((c.skipWhile test).rest).takeWhile test = [] := by
    rw [rest_skipWhile]
    exact (Text.refuses_dropWhile test c.rest).takeWhile_nil
  rw [skipWhile, none]
  rfl

theorem skipBlanks_skipBlanks (c : Cursor) : c.skipBlanks.skipBlanks = c.skipBlanks :=
  skipWhile_skipWhile Text.isBlank c

theorem blankUpTo_skipBlanks (c : Cursor) : c.BlankUpTo c.skipBlanks where
  text := rfl
  le := Nat.le_add_right _ _
  blank i from_c before_d := by
    obtain ⟨k, rfl⟩ := Nat.exists_eq_add_of_le from_c
    exact c.passes_skipWhile Text.isBlank k (Nat.lt_of_add_lt_add_left before_d)
  stops := by
    have refuses := Text.refuses_dropWhile Text.isBlank c.rest
    rcases h : c.skipBlanks.rest with _ | ⟨x, xs⟩
    · exact .inl ((atEnd_iff_rest_eq_nil _).2 h)
    · refine .inr ⟨x, ?_, ?_⟩
      · rw [char?_eq_head?, h]
        rfl
      · exact refuses x (by rw [← Text.skipBlanks, ← rest_skipBlanks, h]; rfl)

end Cursor

namespace Rule

variable {env : Env}

/-- The parser is run once, where the blanks end, and its value is made a constant. -/
theorem eval_token (m : Rule) (c : Cursor) :
    m.token.eval env c = (do
      let r ← m.eval env c.skipBlanks
      if r.ok then
        let value ← Run.ofAct r.value.asConstant
        return .success value r.cursor.skipBlanks
      else return .failure c) := by
  rw [token, eval_unary rfl, eval, LawfulMonad.bind_assoc]
  congr 1
  funext p
  exact Parser.eval_token p c

theorem token_token (m : Rule) (c : Cursor) :
    m.token.token.eval env c = m.token.eval env c := by
  rw [eval_token, eval_token, eval_token, LawfulMonad.bind_assoc, Cursor.skipBlanks_skipBlanks]
  congr 1
  funext r
  by_cases matched : r.ok = true
  · simp only [if_pos matched, LawfulMonad.bind_assoc]
    refine Run.ofAct_asConstant_congr fun fits => ?_
    rw [LawfulMonad.pure_bind]
    simp only [Result.success, if_true, Run.ofAct_asConstant fits, LawfulMonad.pure_bind,
      Cursor.skipBlanks_skipBlanks]
  · simp only [if_neg matched, LawfulMonad.pure_bind]
    rfl

theorem between_spaces (m : Rule) (c : Cursor) :
    (between spaces spaces m).eval env c = m.token.eval env c := by
  let blanks : Parser := .label (Parser.blank.skipMany) "spaces"
  have skips : ∀ d, blanks.eval env d = Pure.pure (.success .none d.skipBlanks) := by
    intro d
    rw [Parser.eval_label, Parser.skipMany, Parser.eval_map, Parser.blank,
      Parser.eval_many_satisfy, LawfulMonad.pure_bind]
    rfl
  have built : (between spaces spaces m).build env = m.build env >>= fun p =>
    Pure.pure (Parser.between blanks blanks p) := rfl
  rw [eval, built, Run.ofBuild_bind, LawfulMonad.bind_assoc, eval_token, eval, LawfulMonad.bind_assoc]
  congr 1
  funext p
  rw [Run.ofBuild_pure, LawfulMonad.pure_bind]
  exact Parser.eval_between_blanks skips p c

end Rule

namespace Session

variable {s : Session} {m : Rule} {c : Cursor} {log : List Event} {x : Except Fault Result} {B : Store}

/-- What a token makes of a result. -/
def tokenResult (c : Cursor) (r : Result) : Except Fault Result :=
  if r.ok then
    if r.value.writable then .ok (.success r.value r.cursor.skipBlanks) else .error .tooLongToWrite
  else .ok (.failure c)

theorem parses_token_iff : s.Parses m.token c (⟨log, x⟩, B) ↔
    ∃ y, s.Parses m c.skipBlanks (⟨log, y⟩, B) ∧ x = y >>= tokenResult c := by
  simp only [parses_iff]
  rw [Rule.eval_token, ← Run.bind_ofExcept_eq_some_iff]
  suffices same : ∀ r : Result, (if r.ok then (do
      let value ← Run.ofAct r.value.asConstant
      return .success value r.cursor.skipBlanks) else return .failure c) =
      Run.ofAct (Logged.ofExcept (tokenResult c r)) by
    simp only [same]
  intro r
  unfold tokenResult
  split
  · rw [Value.asConstant_eq]
    split
    · rfl
    · rfl
  · rfl

/-- In every session, for every parser `m` and at every cursor: a token skips all blanks that are there,
runs `m` once where they end, and behaves as it does: with the same records and cells it raises what `m`
raises; it matches where `m` does, with the value of `m`, and skips all blanks behind it, so that the end
of the text or a character that is not blank comes next, unless the value cannot be written, and then just
this is raised; it fails where `m` does, and gives back the cursor before the blanks. A token of a token
ends as the token does, and so does `m` between rules for blanks: in the same fault or result, with the same
records and the same cells, or neither ends. -/
theorem token_exact (s : Session) :
    (∀ c : Cursor, c.BlankUpTo c.skipBlanks) ∧
    (∀ m c log x B, s.Parses (.token m) c (⟨log, x⟩, B) ↔
      ∃ y, s.Parses m c.skipBlanks (⟨log, y⟩, B) ∧ x = y >>= tokenResult c) ∧
    (∀ m c last, s.Parses (.token (.token m)) c last ↔ s.Parses (.token m) c last) ∧
    ∀ m c last, s.Parses (.between .spaces .spaces m) c last ↔ s.Parses (.token m) c last := by
  refine ⟨Cursor.blankUpTo_skipBlanks, fun m c log x B => parses_token_iff, fun m c last => ?_,
    fun m c last => ?_⟩
  · rw [parses_iff, parses_iff, Rule.token_token]
  · rw [parses_iff, parses_iff, Rule.between_spaces]

/-- The parser matches, but the token does not give its value. -/
theorem token_unwritten :
    start.Parses (.atom .bulky) ⟨#['a', 'b'], 0⟩
        (⟨[], .ok (.success .long ⟨#['a', 'b'], 1⟩)⟩, start.store) ∧
      start.Parses (.token (.atom .bulky)) ⟨#['a', 'b'], 0⟩
        (⟨[], .error .tooLongToWrite⟩, start.store) := by
  have parsed : start.Parses (.atom .bulky) ⟨#['a', 'b'], 0⟩
      (⟨[], .ok (.success .long ⟨#['a', 'b'], 1⟩)⟩, start.store) :=
    (parses_iff_of_pure (Rule.eval_bulky _)).2 rfl
  refine ⟨parsed, parses_token_iff.2 ⟨_, parsed, ?_⟩⟩
  have refused : tokenResult ⟨#['a', 'b'], 0⟩ (.success .long ⟨#['a', 'b'], 1⟩) =
      .error .tooLongToWrite := if_neg Value.not_writable_long
  exact refused.symm

end Session

end Rewind
