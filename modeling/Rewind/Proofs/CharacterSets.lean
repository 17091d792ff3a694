import Rewind.Proofs.Choices
import Rewind.Proofs.Distinct
import Rewind.Proofs.Lexemes

namespace Rewind

namespace Rule

variable {cs ds : List String}

theorem isMember_iff {x : Char} : isMember cs x = true ↔ String.singleton x ∈ cs :=
  List.contains_iff_mem

theorem isMember_append (cs ds : List String) (x : Char) :
    isMember (cs ++ ds) x = (isMember cs x || isMember ds x) := by
  rw [Bool.eq_iff_iff, Bool.or_eq_true, isMember_iff, isMember_iff, isMember_iff, List.mem_append]

theorem isMember_congr (same : ∀ t, t ∈ cs ↔ t ∈ ds) : isMember cs = isMember ds := by
  funext x
  rw [Bool.eq_iff_iff, isMember_iff, isMember_iff]
  exact same (String.singleton x)

/-- What is not one character is no member. -/
theorem isMember_cons_of_length {t : String} (other : t.length ≠ 1) (cs : List String) :
    isMember (t :: cs) = isMember cs := by
  funext x
  rw [Bool.eq_iff_iff, isMember_iff, isMember_iff, List.mem_cons, or_iff_right]
  rintro rfl
  exact other String.length_singleton

theorem charIn_congr (same : ∀ t, t ∈ cs ↔ t ∈ ds) : charIn cs = charIn ds := by
  rw [charIn, charIn, isMember_congr same, membersText, membersText, mergeSort_eraseDups_congr same]

theorem charExcept_congr (same : ∀ t, t ∈ cs ↔ t ∈ ds) : charExcept cs = charExcept ds := by
  rw [charExcept, charExcept, isMember_congr same, membersText, membersText, mergeSort_eraseDups_congr same]

variable {env : Env}

theorem eval_ofTest (test : Char → Bool) (name : String) (c : Cursor) :
    (ofTest test name).eval env c = pure (.tested test c) := by
  have built : (ofTest test name).build env = pure (.satisfy test name) := rfl
  rw [eval_of_pure built, Parser.eval_satisfy]

/-- One test or the other. -/
theorem eval_ofTest_or (test test' : Char → Bool) (name name' : String) (c : Cursor) :
    ((ofTest test name).or (ofTest test' name')).eval env c =
      pure (.tested (fun x => test x || test' x) c) := by
  have built : ((ofTest test name).or (ofTest test' name')).build env =
      pure (.or (.satisfy test name) (.satisfy test' name')) := rfl
  rw [eval_of_pure built, Parser.eval_or, Parser.eval_satisfy, Parser.eval_satisfy, LawfulMonad.pure_bind]
  rcases h : c.char? with _ | x
  · simp [Result.tested, h, Result.failure]
  · by_cases passed : test x = true
    · simp [Result.tested, h, passed, Result.success]
    · simp [Result.tested, h, passed, Result.failure]

end Rule

namespace Result

variable {c : Cursor} {cs : List String} {x : Char}

theorem tested_of_atEnd (ended : c.atEnd = true) (test : Char → Bool) : tested test c = .failure c := by
  have nothing : c.char? = none := by
    rw [Cursor.char?_eq_head?, (Cursor.atEnd_iff_rest_eq_nil c).1 ended, List.head?_nil]
  simp only [tested, nothing]

theorem tested_isMember (there : c.char? = some x) (cs : List String) :
    tested (Rule.isMember cs) c =
      if String.singleton x ∈ cs then .success (.ofChar x) c.next else .failure c := by
  simp only [tested, there, Rule.isMember_iff]

theorem tested_not_isMember (there : c.char? = some x) (cs : List String) :
    tested (fun x => !Rule.isMember cs x) c =
      if String.singleton x ∈ cs then .failure c else .success (.ofChar x) c.next := by
  by_cases member : String.singleton x ∈ cs
  · simp [tested, there, Rule.isMember_iff.2 member, member]
  · have other : Rule.isMember cs x = false := by rwa [← Bool.not_eq_true, Rule.isMember_iff]
    simp [tested, there, other, member]

/-- Two tests are passed just where both of them are. -/
theorem ok_tested_and (test test' : Char → Bool) (c : Cursor) :
    (tested (fun x => test x && test' x) c).ok = true ↔
      (tested test c).ok = true ∧ (tested test' c).ok = true := by
  rcases h : c.char? with _ | x
  · simp [tested, h, failure]
  · cases passed : test x <;> cases passed' : test' x <;> simp [tested, h, passed, passed', success, failure]

end Result

namespace Session

theorem parses_ofTest_iff {s : Session} {test : Char → Bool} {name : String} {c : Cursor}
    {last : Logged Event Result × Store} :
    s.Parses (.ofTest test name) c last ↔ last = (⟨[], .ok (.tested test c)⟩, s.store) :=
  parses_iff_of_pure (Rule.eval_ofTest test name c)

/-- In every session and at every cursor, with any lists of texts: at the end of the text neither a character
of a set nor any other one is read. Before it just one of them is, the current character: the first if it
alone is a text of the list, and else the second. A text that is not one character makes no difference. A
character of one set or of the other is a character of both lists together; a character that is in neither
list is read just where each of them leaves it over. Two lists with the same texts, in any order and with any
repetitions, give one and the same rule, under one name. -/
theorem character_sets (s : Session) (c : Cursor) :
    (c.atEnd = true → ∀ cs, s.Parses (.charIn cs) c (⟨[], .ok (.failure c)⟩, s.store) ∧
      s.Parses (.charExcept cs) c (⟨[], .ok (.failure c)⟩, s.store)) ∧
    (∀ x, c.char? = some x → ∀ cs,
      s.Parses (.charIn cs) c (⟨[], .ok
        (if String.singleton x ∈ cs then .success (.ofChar x) c.next else .failure c)⟩, s.store) ∧
      s.Parses (.charExcept cs) c (⟨[], .ok
        (if String.singleton x ∈ cs then .failure c else .success (.ofChar x) c.next)⟩, s.store)) ∧
    (∀ t : String, t.length ≠ 1 → ∀ cs last,
      (s.Parses (.charIn (t :: cs)) c last ↔ s.Parses (.charIn cs) c last) ∧
      (s.Parses (.charExcept (t :: cs)) c last ↔ s.Parses (.charExcept cs) c last)) ∧
    (∀ cs ds last, s.Parses ((Rule.charIn cs).or (.charIn ds)) c last ↔
      s.Parses (.charIn (cs ++ ds)) c last) ∧
    (∀ cs ds, ∃ r r' t, s.Parses (.charExcept cs) c (⟨[], .ok r⟩, s.store) ∧
      s.Parses (.charExcept ds) c (⟨[], .ok r'⟩, s.store) ∧
      s.Parses (.charExcept (cs ++ ds)) c (⟨[], .ok t⟩, s.store) ∧
      (t.ok = true ↔ r.ok = true ∧ r'.ok = true)) ∧
    ∀ cs ds : List String, (∀ t, t ∈ cs ↔ t ∈ ds) →
      Rule.charIn cs = .charIn ds ∧ Rule.charExcept cs = .charExcept ds := by
  refine ⟨fun ended cs => ?_, fun x there cs => ?_, fun t other cs last => ?_, fun cs ds last => ?_,
    fun cs ds => ?_, fun cs ds same => ⟨Rule.charIn_congr same, Rule.charExcept_congr same⟩⟩
  · rw [Rule.charIn, Rule.charExcept, parses_ofTest_iff, parses_ofTest_iff,
      Result.tested_of_atEnd ended, Result.tested_of_atEnd ended]
    exact ⟨rfl, rfl⟩
  · rw [Rule.charIn, Rule.charExcept, parses_ofTest_iff, parses_ofTest_iff,
      Result.tested_isMember there, Result.tested_not_isMember there]
    exact ⟨rfl, rfl⟩
  · simp only [Rule.charIn, Rule.charExcept, parses_ofTest_iff, Rule.isMember_cons_of_length other,
      and_self]
  · have either : Rule.isMember (cs ++ ds) = fun x => Rule.isMember cs x || Rule.isMember ds x :=
      funext (Rule.isMember_append cs ds)
    simp only [Rule.charIn, parses_ofTest_iff, parses_iff_of_pure (Rule.eval_ofTest_or _ _ _ _ c), either]
  · refine ⟨_, _, _, parses_ofTest_iff.2 rfl, parses_ofTest_iff.2 rfl, parses_ofTest_iff.2 rfl, ?_⟩
    simp only [Rule.isMember_append, Bool.not_or, Result.ok_tested_and]

/-- Two characters and a text of both, with repetitions and without. -/
theorem character_sets_repeated :
    (∀ t, t ∈ ["b", "a", "ab", "b"] ↔ t ∈ ["ab", "a", "b"]) ∧
      Rule.charIn ["b", "a", "ab", "b"] = .charIn ["ab", "a", "b"] ∧
      start.Parses (.charIn ["b", "a", "ab", "b"]) (.start #['a', 'b'])
        (⟨[], .ok (.success (.str "a") ⟨#['a', 'b'], 1⟩)⟩, start.store) ∧
      start.Parses (.charExcept ["ab"]) (.start #['a', 'b'])
        (⟨[], .ok (.success (.str "a") ⟨#['a', 'b'], 1⟩)⟩, start.store) ∧
      start.Parses (.charExcept []) ⟨#['a', 'b'], 2⟩ (⟨[], .ok (.failure ⟨#['a', 'b'], 2⟩)⟩, start.store) := by
  have same : ∀ t, t ∈ ["b", "a", "ab", "b"] ↔ t ∈ ["ab", "a", "b"] := by
    intro t
    grind
  obtain ⟨-, reads, others, -, -, one⟩ := character_sets start (.start #['a', 'b'])
  obtain ⟨ended, -⟩ := character_sets start ⟨#['a', 'b'], 2⟩
  have member : String.singleton 'a' ∈ ["b", "a", "ab", "b"] := by decide
  have read := (reads 'a' rfl ["b", "a", "ab", "b"]).1
  rw [if_pos member] at read
  have left := (others "ab" (by decide) [] _).2.2 ((reads 'a' rfl []).2)
  exact ⟨same, (one _ _ same).1, read, left, (ended rfl []).2⟩

end Session

end Rewind
