import Rewind.Proofs.Lexemes
import Rewind.Proofs.Matches
import Rewind.Proofs.Numerals
import Rewind.Proofs.Parses
import Rewind.Rule.Combinators

namespace Rewind

namespace Text

/-- One character or more, none of them the separator. -/
structure Word (separator : Char) where
  chars : List Char
  nonempty : chars ≠ []
  free : separator ∉ chars

namespace Word

variable {separator : Char}

def text (w : Word separator) : String := String.ofList w.chars

/-- The texts of words with separators between them. -/
def join (ws : List (Word separator)) : String :=
  (String.singleton separator).intercalate (ws.map text)

/-- Words, each behind a separator. -/
def led (ws : List (Word separator)) : List Char := ws.flatMap fun w => separator :: w.chars

theorem led_cons (w : Word separator) (ws : List (Word separator)) :
    led (w :: ws) = separator :: (w.chars ++ led ws) := rfl

theorem toList_join_nil : (join ([] : List (Word separator))).toList = [] := by
  simp [join]

theorem toList_join_cons (w : Word separator) (ws : List (Word separator)) :
    (join (w :: ws)).toList = w.chars ++ led ws := by
  induction ws generalizing w with
  | nil => simp [join, led, text]
  | cons w' ws ih =>
    have later := ih w'
    simp only [join, String.toList_intercalate, List.map_cons, String.toList_singleton] at later ⊢
    rw [List.intercalate_cons_cons, later, led_cons]
    simp [text]

theorem passed (w : Word separator) : ∀ x ∈ w.chars, (x != separator) = true := by
  intro x hx
  rw [bne_iff_ne]
  rintro rfl
  exact w.free hx

theorem exists_front {cs : List Char} (h : ¬Refuses (· != separator) cs) :
    ∃ w : Word separator, cs = w.chars ++ cs.dropWhile (· != separator) := by
  refine ⟨⟨cs.takeWhile (· != separator), ?_, ?_⟩, List.takeWhile_append_dropWhile.symm⟩
  · intro nothing
    have all := refuses_dropWhile (· != separator) cs
    rw [← List.takeWhile_append_dropWhile (p := (· != separator)) (l := cs), nothing] at h
    exact h all
  · intro there
    have passed := List.all_eq_true.1 List.all_takeWhile separator there
    simp at passed

end Word

variable {separator : Char} {rest : List Char} {ws : List (Word separator)}

/-- Nothing is left, or a separator without a word behind it. -/
def Dangles (separator : Char) (rest : List Char) : Prop :=
  rest = [] ∨ ∃ behind, rest = separator :: behind ∧ Refuses (· != separator) behind

theorem refuses_separator (separator : Char) (cs : List Char) :
    Refuses (· != separator) (separator :: cs) := by
  intro x hx
  cases hx
  exact bne_self_eq_false separator

theorem Dangles.refuses_led (h : Dangles separator rest) (ws : List (Word separator)) :
    Refuses (· != separator) (Word.led ws ++ rest) := by
  rcases ws with _ | ⟨w, ws⟩
  · rcases h with rfl | ⟨behind, rfl, -⟩
    · intro x hx
      cases hx
    · exact refuses_separator separator behind
  · exact refuses_separator separator _

/-- Where a word has ended some words follow, each behind a separator. -/
theorem exists_led (cs : List Char) (h : Refuses (· != separator) cs) :
    ∃ (ws : List (Word separator)) (rest : List Char), cs = Word.led ws ++ rest ∧
      Dangles separator rest := by
  induction length : cs.length using Nat.strongRecOn generalizing cs with
  | ind n ih =>
    rcases cs with _ | ⟨x, behind⟩
    · exact ⟨[], [], rfl, .inl rfl⟩
    · obtain rfl : x = separator := by simpa using h x rfl
      by_cases word : Refuses (· != x) behind
      · exact ⟨[], x :: behind, rfl, .inr ⟨behind, rfl, word⟩⟩
      · -- A separator and a word are taken, and what is behind them is shorter.
        obtain ⟨w, hw⟩ := Word.exists_front word
        have shorter : (behind.dropWhile (· != x)).length < n := by
          have parts := congrArg List.length hw
          rw [List.length_append] at parts
          rw [List.length_cons] at length
          omega
        obtain ⟨ws, rest, later, dangles⟩ := ih _ shorter _ (refuses_dropWhile _ behind) rfl
        refine ⟨w :: ws, rest, ?_, dangles⟩
        rw [Word.led_cons, List.cons_append, List.append_assoc, ← later, ← hw]

/-- Words with separators between them cannot be gone on with: behind the last one no word follows, and
there is none in front if there are none at all. -/
def Longest (ws : List (Word separator)) (rest : List Char) : Prop :=
  match ws with
  | [] => Refuses (· != separator) rest
  | _ :: _ => Dangles separator rest

theorem longest_nil (ws : List (Word separator)) : Longest ws [] := by
  rcases ws with _ | ⟨w, ws⟩
  · intro x hx
    cases hx
  · exact .inl rfl

/-- What is left is nothing or begins with a separator. -/
theorem Longest.head? (h : Longest ws rest) : rest = [] ∨ rest.head? = some separator := by
  rcases rest with _ | ⟨x, rest⟩
  · exact .inl rfl
  · right
    rcases ws with _ | ⟨w, ws⟩
    · obtain rfl : x = separator := by simpa using h x rfl
      rfl
    · rcases h with nothing | ⟨behind, same, -⟩
      · cases nothing
      · cases same
        rfl

/-- Every text begins with as many words as there are, with separators between them. -/
theorem exists_join (separator : Char) (cs : List Char) : ∃ (ws : List (Word separator)) (rest : List Char),
    cs = (Word.join ws).toList ++ rest ∧ Longest ws rest := by
  by_cases word : Refuses (· != separator) cs
  · exact ⟨[], cs, by rw [Word.toList_join_nil, List.nil_append], word⟩
  · obtain ⟨w, hw⟩ := Word.exists_front word
    obtain ⟨ws, rest, later, dangles⟩ := exists_led _ (refuses_dropWhile (· != separator) cs)
    refine ⟨w :: ws, rest, ?_, dangles⟩
    rw [Word.toList_join_cons, List.append_assoc, ← later, ← hw]

end Text

namespace Parser

variable {env : Env} {separator : Char} {name name' : String} {c : Cursor} {rest : List Char}

/-- One character or more that are no separators, put together. -/
def word (separator : Char) (name : String) : Parser :=
  (satisfy (· != separator) name).many1.map fun v => pure v.joined

theorem eval_word (w : Text.Word separator) (h : c.rest = w.chars ++ rest)
    (ended : Text.Refuses (· != separator) rest) :
    eval env (word separator name) c = pure (.success (.str w.text) (c.skip w.chars.length)) := by
  rw [word, eval_map, eval_many1_of_run h w.nonempty w.passed ended, LawfulMonad.pure_bind,
    Result.success, if_pos rfl, LawfulMonad.pure_bind, Value.joined_map_ofChar,
    Value.asConstant_of_writable (Value.writable_str _)]
  rfl

theorem eval_word_of_refuses (h : Text.Refuses (· != separator) c.rest) :
    eval env (word separator name) c = pure (.failure c) := by
  rw [word, eval_map, eval_many1_of_refuses h, LawfulMonad.pure_bind]
  rfl

/-- A separator and a word. -/
def led (separator : Char) (name name' : String) : Parser :=
  (satisfy (· == separator) name').before (word separator name)

theorem eval_led (w : Text.Word separator) (h : c.rest = separator :: (w.chars ++ rest))
    (ended : Text.Refuses (· != separator) rest) :
    eval env (led separator name name') c =
      pure (.success (.str w.text) (c.skip (w.chars.length + 1))) := by
  have later := Cursor.rest_next_of_cons h
  rw [led, eval_before, eval_char separator h, LawfulMonad.pure_bind, Result.success, if_pos rfl,
    eval_word w later ended, LawfulMonad.pure_bind, Cursor.skip_next]
  rfl

theorem eval_led_of_dangles (h : Text.Dangles separator c.rest) :
    eval env (led separator name name') c = pure (.failure c) := by
  rw [led, eval_before]
  rcases h with nothing | ⟨behind, h, refused⟩
  · have failed : ∀ x, c.rest.head? = some x → (x == separator) = false := by simp [nothing]
    rw [eval_satisfy_of_neg failed, LawfulMonad.pure_bind]
    rfl
  · -- The separator is read, but no word behind it, and so it is given back.
    have later := Cursor.rest_next_of_cons h
    rw [eval_char separator h, LawfulMonad.pure_bind, Result.success, if_pos rfl,
      eval_word_of_refuses (by rwa [later]), LawfulMonad.pure_bind]
    rfl

theorem rounds_led (ws : List (Text.Word separator)) (h : c.rest = Text.Word.led ws ++ rest)
    (dangles : Text.Dangles separator rest) :
    rounds env (led separator name name') c =
      pure (ws.map fun w => .str w.text, c.skip (Text.Word.led ws).length) := by
  induction ws generalizing c with
  | nil =>
    rw [rounds_eq, eval_led_of_dangles (by rwa [h]), LawfulMonad.pure_bind]
    rfl
  | cons w ws ih =>
    rw [Text.Word.led_cons, List.cons_append, List.append_assoc] at h
    have later : (c.skip (w.chars.length + 1)).rest = Text.Word.led ws ++ rest := by
      rw [Cursor.rest_skip, h, List.drop_succ_cons, List.drop_left]
    -- A round takes a separator at least, so the loop is not stopped for getting nowhere.
    have moved : idle c (c.skip (w.chars.length + 1)) = false := by
      apply idle_eq_false
      simp only [later, h, List.length_cons, List.length_append]
      omega
    have length : (Text.Word.led (w :: ws)).length = w.chars.length + 1 + (Text.Word.led ws).length := by
      rw [Text.Word.led_cons, List.length_cons, List.length_append]
      omega
    rw [rounds_eq, eval_led w h (dangles.refuses_led ws), LawfulMonad.pure_bind]
    simp only [Result.success, if_true, moved, ih later, LawfulMonad.pure_bind, Cursor.skip_skip, length]
    rfl

theorem writable_words (ws : List (Text.Word separator)) :
    (Value.list (ws.map fun w => .str w.text)).writable = true := by
  simp

theorem eval_words (ws : List (Text.Word separator)) (h : c.rest = (Text.Word.join ws).toList ++ rest)
    (longest : Text.Longest ws rest) :
    eval env ((word separator name).sepBy (satisfy (· == separator) name')) c =
      pure (.success (.list (ws.map fun w => .str w.text))
        (c.skip (Text.Word.join ws).toList.length)) := by
  funext A
  rcases ws with _ | ⟨w, ws⟩
  · rw [Text.Word.toList_join_nil, List.nil_append] at h
    have none : (word separator name).eval env c A = some (⟨[], .ok (.failure c)⟩, A) := by
      rw [eval_word_of_refuses (by rwa [h])]
      rfl
    rw [Text.Word.toList_join_nil]
    exact eval_option_of_failed (eval_both_of_failed none rfl) rfl
  · rw [Text.Word.toList_join_cons, List.append_assoc] at h
    have first : (word separator name).eval env c A =
        some (⟨[], .ok (.success (.str w.text) (c.skip w.chars.length))⟩, A) := by
      rw [eval_word w h (longest.refuses_led ws)]
      rfl
    have others : (many (led separator name name')).eval env (c.skip w.chars.length) A =
        some (⟨[], .ok (.success (.list (ws.map fun w => .str w.text))
          (c.skip (w.chars.length + (Text.Word.led ws).length)))⟩, A) := by
      rw [eval_many, rounds_led ws (Cursor.rest_skip_of_append h) longest, LawfulMonad.pure_bind,
        Cursor.skip_skip]
      rfl
    rw [Text.Word.toList_join_cons, List.length_append]
    have fits := Value.asConstant_of_writable (writable_words (w :: ws))
    exact eval_option_of_matched (eval_both_of_ok first rfl others rfl fits) rfl

end Parser

namespace Rule

/-- Words with a separator between them, listed. -/
def words (separator : Char) : Rule :=
  .sepBy ((Rule.charExcept (Rule.membersOf (String.singleton separator))).many1.map Value.joined)
    (.char separator)

theorem isMember_singleton (separator : Char) :
    (fun x => !isMember (membersOf (String.singleton separator)) x) = (· != separator) := by
  funext x
  rw [isMember_membersOf, String.toList_singleton, List.contains_cons, List.contains_nil, Bool.or_false]
  rfl

theorem eval_words {env : Env} {separator : Char} {c : Cursor} {rest : List Char}
    (ws : List (Text.Word separator)) (h : c.rest = (Text.Word.join ws).toList ++ rest)
    (longest : Text.Longest ws rest) :
    (words separator).eval env c = pure (.success (.list (ws.map fun w => .str w.text))
      (c.skip (Text.Word.join ws).toList.length)) := by
  obtain ⟨name, name', built⟩ : ∃ name name', (words separator).build env =
      pure ((Parser.word separator name).sepBy (.satisfy (· == separator) name')) := by
    rw [words, charExcept, isMember_singleton]
    exact ⟨_, _, rfl⟩
  rw [eval_of_pure built, Parser.eval_words ws h longest]

end Rule

namespace Session

/-- In every session, with every character for the separator: words with separators between them are
listed again, and all of the text is read. Of any text some words with separators between them are
listed, those with which it begins, and behind them it ends or goes on with a separator. Nothing is
recorded, and the cells stay as they are. -/
theorem words_split_join (s : Session) (separator : Char) :
    (∀ ws : List (Text.Word separator),
      s.Parses (.words separator) (.start (Text.Word.join ws).toList.toArray)
        (⟨[], .ok (.success (.list (ws.map fun w => .str w.text))
          ⟨(Text.Word.join ws).toList.toArray, (Text.Word.join ws).length⟩)⟩, s.store)) ∧
    ∀ text : Array Char, ∃ (ws : List (Text.Word separator)) (n : Nat), n ≤ text.size ∧
      Text.Word.join ws = String.ofList (text.toList.take n) ∧
      (n = text.size ∨ text[n]? = some separator) ∧
      s.Parses (.words separator) (.start text)
        (⟨[], .ok (.success (.list (ws.map fun w => .str w.text)) ⟨text, n⟩)⟩, s.store) := by
  constructor
  · intro ws
    have whole : (Cursor.start (Text.Word.join ws).toList.toArray).rest =
        (Text.Word.join ws).toList ++ [] := (List.append_nil _).symm
    rw [parses_iff, Rule.eval_words ws whole (Text.longest_nil ws), Cursor.skip_start,
      String.length_toList]
    rfl
  · intro text
    obtain ⟨ws, rest, split, longest⟩ := Text.exists_join separator text.toList
    have length := congrArg List.length split
    rw [List.length_append, Array.length_toList] at length
    refine ⟨ws, (Text.Word.join ws).toList.length, by omega, ?_, ?_, ?_⟩
    · rw [split, List.take_left, String.ofList_toList]
    · rcases longest.head? with rfl | head
      · left
        simpa using length.symm
      · right
        rw [← Array.getElem?_toList, split, List.getElem?_append_right (Nat.le_refl _), Nat.sub_self,
          ← List.head?_eq_getElem?, head]
    · have whole : (Cursor.start text).rest = (Text.Word.join ws).toList ++ rest := split
      rw [parses_iff, Rule.eval_words ws whole longest, Cursor.skip_start]
      rfl

end Session

end Rewind
