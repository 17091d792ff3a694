import Rewind.Proofs.Numerals
import Rewind.Proofs.Reading
import Rewind.Proofs.Sequences

namespace Rewind

/-- A text stands at a cursor if it is the part of the whole text from there on that is as long. -/
theorem Cursor.prefix_rest_iff (chars : List Char) (c : Cursor) :
    chars <+: c.rest ↔ c.text.extract c.position (c.position + chars.length) = chars.toArray := by
  rw [List.prefix_iff_eq_take, ← ahead_eq_take, ahead, eq_comm, ← Array.toList_inj]

/-- Characters that are asked for one after another. -/
theorem Parser.inOrder_chars {env : Env} (name : Char → String) (chars : List Char) (c : Cursor) :
    inOrder env (chars.map fun x => satisfy (· == x) (name x)) c =
      pure (if chars <+: c.rest then some (chars.map .ofChar, c.skip chars.length) else none) := by
  induction chars generalizing c with
  | nil => simp [inOrder, Cursor.skip]
  | cons x xs ih =>
    rw [List.map_cons, inOrder]
    rcases h : c.rest with _ | ⟨y, ys⟩
    · have nothing : ∀ y, c.rest.head? = some y → (y == x) = false := by simp [h]
      rw [eval_satisfy_of_neg nothing, LawfulMonad.pure_bind]
      simp [Result.failure]
    · by_cases same : y = x
      · rw [eval_satisfy_of_pos h (by simpa using same), LawfulMonad.pure_bind, Result.success,
          if_pos rfl, Run.ofAct_asConstant (Value.writable_ofChar y), LawfulMonad.pure_bind, ih,
          Cursor.rest_next_of_cons h, LawfulMonad.pure_bind, Cursor.skip_next]
        by_cases there : xs <+: ys
        · simp [same, there]
        · simp [same, there]
      · have other : ∀ z, c.rest.head? = some z → (z == x) = false := by simp [h, same]
        rw [eval_satisfy_of_neg other, LawfulMonad.pure_bind]
        simp [Result.failure, Ne.symm same]

namespace Rule

variable {env : Env}

theorem eval_string (lit : String) (c : Cursor) :
    (string lit).eval env c = pure (if lit.toList <+: c.rest then
      .success (.str lit) (c.skip lit.length) else .failure c) := by
  have built : (string lit).build env = pure (.atom (.literal lit.toList (.str lit))) := rfl
  rw [eval_of_pure built, Parser.eval_literal, String.length_toList]

theorem eval_sequence_char (chars : List Char) (c : Cursor) :
    (sequence (chars.map char)).eval env c = pure (if chars <+: c.rest then
      .success (.list (chars.map .ofChar)) (c.skip chars.length) else .failure c) := by
  let name : Char → String := fun x => "char(" ++ Text.quoted (String.singleton x) ++ ")"
  have built : (chars.map char).mapM (build env) =
      pure (chars.map fun x => Parser.satisfy (· == x) (name x)) := by
    induction chars with
    | nil => rfl
    | cons x xs ih =>
      rw [List.map_cons, List.mapM_cons, ih]
      rfl
  rw [eval_sequence, built, Run.ofBuild_pure, LawfulMonad.pure_bind, Parser.eval_sequence,
    Parser.inOrder_chars, LawfulMonad.pure_bind]
  by_cases there : chars <+: c.rest
  · rw [if_pos there, if_pos there]
    rfl
  · rw [if_neg there, if_neg there]
    rfl

theorem eval_sequence_char_joined (lit : String) (c : Cursor) :
    ((sequence (lit.toList.map char)).map Value.joined).eval env c = (string lit).eval env c := by
  rw [map, eval_map, eval_sequence_char, LawfulMonad.pure_bind, eval_string]
  by_cases there : lit.toList <+: c.rest
  · rw [if_pos there, if_pos there, Result.success, if_pos rfl, LawfulMonad.pure_bind,
      Value.joined_map_ofChar, String.ofList_toList, Run.ofAct_asConstant (Value.writable_str lit),
      LawfulMonad.pure_bind, String.length_toList]
  · rw [if_neg there, if_neg there]
    rfl

/-- What stands behind the first literal is the second one where both stand together. -/
theorem eval_string_before (lit lit' : String) (c : Cursor) :
    ((string lit).before (string lit')).eval env c = pure (if (lit ++ lit').toList <+: c.rest then
      .success (.str lit') (c.skip (lit ++ lit').length) else .failure c) := by
  have built : ((string lit).before (string lit')).build env = pure
      ((Parser.atom (.literal lit.toList (.str lit))).before (.atom (.literal lit'.toList (.str lit')))) :=
    rfl
  rw [eval_of_pure built, Parser.eval_before, Parser.eval_literal, LawfulMonad.pure_bind,
    String.toList_append]
  by_cases first : lit.toList <+: c.rest
  · rw [if_pos first, Result.success, if_pos rfl]
    obtain ⟨rest, h⟩ := first
    have both : lit.toList ++ lit'.toList <+: c.rest ↔ lit'.toList <+: rest := by
      rw [← h, List.prefix_append_right_inj]
    have far : (c.skip lit.toList.length).skip lit'.toList.length = c.skip (lit ++ lit').length := by
      rw [Cursor.skip_skip, String.length_append, String.length_toList, String.length_toList]
    rw [Parser.eval_literal, LawfulMonad.pure_bind, Cursor.rest_skip_of_append h.symm, far]
    by_cases second : lit'.toList <+: rest
    · rw [if_pos second, if_pos (both.2 second)]
      rfl
    · rw [if_neg second, if_neg fun there => second (both.1 there)]
      rfl
  · have neither : ¬(lit.toList ++ lit'.toList <+: c.rest) := fun both =>
      first ((List.prefix_append _ _).trans both)
    rw [if_neg first, if_neg neither]
    rfl

end Rule

namespace Session

variable {s : Session}

/-- In every session and at every cursor: a literal matches just where the text from the cursor on, as much
of it as the literal is long, is the literal; then it gives the literal and leaves off behind it, and else
it fails and gives back the cursor. It writes nothing and leaves all cells. So where the text has ended
only the empty literal matches. Its characters one after another, with what they give put together, end in
the same way. One literal behind another matches just where both put together do, and leaves off at the
same place. -/
theorem string_atomic (s : Session) (c : Cursor) :
    (∀ lit last, s.Parses (.string lit) c last ↔ last = (⟨[], .ok
      (if c.text.extract c.position (c.position + lit.length) = lit.toList.toArray then
        .success (.str lit) ⟨c.text, c.position + lit.length⟩ else .failure c)⟩, s.store)) ∧
    (c.text.size ≤ c.position → ∀ lit : String,
      c.text.extract c.position (c.position + lit.length) = lit.toList.toArray ↔ lit = "") ∧
    (∀ lit last, s.Parses ((Rule.sequence (lit.toList.map .char)).map Value.joined) c last ↔
      s.Parses (.string lit) c last) ∧
    ∀ lit lit' : String, ∃ r r', s.Parses (.string (lit ++ lit')) c (⟨[], .ok r⟩, s.store) ∧
      s.Parses ((Rule.string lit).before (.string lit')) c (⟨[], .ok r'⟩, s.store) ∧
      r'.ok = r.ok ∧ r'.cursor = r.cursor := by
  refine ⟨fun lit last => ?_, fun ended lit => ?_, fun lit last => ?_, fun lit lit' => ?_⟩
  · simp only [parses_iff, Rule.eval_string, ← String.length_toList, ← Cursor.prefix_rest_iff]
    exact Option.some_inj.trans eq_comm
  · have nothing : c.rest = [] := (Cursor.atEnd_iff_rest_eq_nil c).1 (decide_eq_true ended)
    rw [← String.length_toList, ← Cursor.prefix_rest_iff, nothing, List.prefix_nil,
      String.toList_eq_nil_iff]
  · rw [parses_iff, parses_iff, Rule.eval_sequence_char_joined]
  · refine ⟨_, _, parses_iff.2 (congrFun (Rule.eval_string (lit ++ lit') c) s.store),
      parses_iff.2 (congrFun (Rule.eval_string_before lit lit' c) s.store), ?_⟩
    by_cases there : (lit ++ lit').toList <+: c.rest
    · rw [if_pos there, if_pos there]
      exact ⟨rfl, rfl⟩
    · rw [if_neg there, if_neg there]
      exact ⟨rfl, rfl⟩

/-- Beyond the end no character is read, though the text has it. -/
theorem string_atomic_beyond_end : start.Parses (.string "b") ⟨#['a', 'b'], 3⟩
    (⟨[], .ok (.failure ⟨#['a', 'b'], 3⟩)⟩, start.store) := by
  obtain ⟨reads, beyond, -⟩ := string_atomic start ⟨#['a', 'b'], 3⟩
  have ended : #['a', 'b'].size ≤ 3 := by decide
  have nothing := mt (beyond ended "b").1 (by decide)
  exact (reads "b" _).2 (by rw [if_neg nothing])

end Session

end Rewind
