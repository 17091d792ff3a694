import Rewind.Proofs.Document.Lexemes
import Rewind.Proofs.Parses

namespace Rewind.Grammar.Document

open Rewind.Parser Text

variable {cs rest : List Char}

theorem Number.not_blank (n : Number) : ∀ x ∈ n.token, isBlank x = false := by
  obtain ⟨negative, whole, fraction⟩ := n
  intro x hx
  rcases List.mem_append.1 hx with sign | hx
  · rcases negative with _ | _
    · cases sign
    · obtain rfl := List.mem_singleton.1 sign
      decide
  · rcases List.mem_append.1 hx with digit | point
    · exact isBlank_of_isDigit (whole.digits x digit)
    · rcases fraction with _ | f
      · cases point
      · rcases List.mem_cons.1 point with rfl | digit
        · decide
        · exact isBlank_of_isDigit (f.digits x digit)

/-- A number that may end before a text may end before the front of it. -/
theorem Number.Ended.front {n : Number} {t : List Char} (h : n.Ended (t ++ rest)) : n.Ended t := by
  constructor
  · intro x hx
    obtain ⟨xs, rfl⟩ := List.head?_eq_some_iff.1 hx
    exact h.1 x rfl
  · rintro none x xs rfl
    exact h.2 none x (xs ++ rest) rfl

/-- Of two numbers at the front of one text the longer one is that which may end where it does. -/
theorem Number.token_isPrefix {n n' : Number} {rest' : List Char} (ended : n.Ended rest)
    (same : n.token ++ rest = n'.token ++ rest') : n'.token <+: n.token := by
  rcases List.append_eq_append_iff.1 same with ⟨t, longer, rfl⟩ | ⟨t, shorter, -⟩
  · -- The longer one may end where nothing is left, and then the two are one.
    have nothing : n'.Ended [] := ⟨fun _ h => (nomatch h), fun _ _ _ h => nomatch h⟩
    have one := numbers_clear _ _ _ _ _ _ ⟨n, rfl, ended.front, rfl⟩ ⟨n', rfl, nothing, rfl⟩
      (show n.token ++ t = n'.token ++ [] by rw [longer, List.append_nil])
    exact one.1 ▸ List.prefix_rfl
  · exact ⟨t, shorter.symm⟩

/-- At the front of a text this is the longest that is a number between blanks. -/
structure LongestNumber (cs : List Char) (n : Number) (read : List Char) : Prop where
  written : Written [n.token] read
  front : read <+: cs
  longest : ∀ (n' : Number) (read' : List Char), Written [n'.token] read' → read' <+: cs → read' <+: read

theorem Written.exists_number {n : Number} {read : List Char} (h : Written [n.token] read) :
    ∃ before behind, (∀ x ∈ before, isBlank x = true) ∧ (∀ x ∈ behind, isBlank x = true) ∧
      read = before ++ (n.token ++ behind) := by
  obtain ⟨before, body, blank, spaced, rfl⟩ := h
  obtain ⟨behind, blank', rfl⟩ := spaced.single
  exact ⟨before, behind, blank, blank', rfl⟩

theorem takeWhile_isBlank_append (h : skipBlanks cs = rest) : cs.takeWhile isBlank ++ rest = cs := by
  rw [← h]
  exact List.takeWhile_append_dropWhile

theorem longestNumber_of_ended {n : Number} (h : skipBlanks cs = n.token ++ rest)
    (ended : n.Ended rest) :
    LongestNumber cs n (cs.takeWhile isBlank ++ (n.token ++ rest.takeWhile isBlank)) := by
  refine ⟨.token (List.all_eq_true.1 List.all_takeWhile) (List.all_eq_true.1 List.all_takeWhile),
    ⟨rest.dropWhile isBlank, ?_⟩, ?_⟩
  · rw [List.append_assoc, List.append_assoc, List.takeWhile_append_dropWhile,
      takeWhile_isBlank_append h]
  · intro n' read' written front
    obtain ⟨before, behind, blank, blank', rfl⟩ := Written.exists_number written
    obtain ⟨left, hleft⟩ := front
    rw [List.append_assoc, List.append_assoc] at hleft
    have refused : Refuses isBlank (n'.token ++ (behind ++ left)) := by
      obtain ⟨x, xs, hx, -⟩ := n'.exists_head
      intro y hy
      rw [hx] at hy
      cases hy
      exact n'.not_blank x (by rw [hx]; exact List.mem_cons_self)
    have gap : cs.takeWhile isBlank = before := by
      rw [← hleft, refused.takeWhile_append blank]
    have same : n.token ++ rest = n'.token ++ (behind ++ left) := by
      rw [← h, ← hleft, skipBlanks_append blank, n'.skipBlanks_append]
    obtain ⟨t, shorter⟩ := Number.token_isPrefix ended same
    rw [← shorter, List.append_assoc, List.append_cancel_left_eq] at same
    rw [gap, ← shorter, List.append_assoc, List.prefix_append_right_inj, List.prefix_append_right_inj]
    rcases t with _ | ⟨x, t⟩
    · -- The two numbers are one, and the blanks behind it are among those that are there.
      rw [List.nil_append] at same
      rw [same, List.takeWhile_append_of_pos blank']
      exact List.prefix_append _ _
    · -- There is more of the longer one, so no blank is behind the shorter one.
      rcases behind with _ | ⟨y, behind⟩
      · exact List.nil_prefix
      · obtain ⟨rfl, -⟩ := List.cons.inj same
        have inside : x ∈ n.token := by rw [← shorter]; simp
        have blank := blank' x List.mem_cons_self
        rw [n.not_blank x inside] at blank
        cases blank

/-- Every text and every place in it, in any session. A number begins there if, behind blanks, there is a
minus sign or none and a digit right after it; then there are digits that no digit follows, with a fraction
if a point with a digit behind it comes next, whose digits no digit follows either. What is read is the
longest text from there on that is such a number between blanks; the value is the integer or, with a
fraction, the double that it writes, and neither a record nor a cell is made. Only an integer with more
digits than can be read is refused. Where no number begins, no text from there on is one between blanks, and
the parse fails and reads nothing. -/
theorem number_longest (s : Session) (c : Cursor) :
    (Starts (skipBlanks c.rest) → ∃ (n : Number) (rest : List Char),
      skipBlanks c.rest = n.token ++ rest ∧ n.Ended rest) ∧
    (∀ (n : Number) (rest : List Char), skipBlanks c.rest = n.token ++ rest → n.Ended rest →
      ∃ read, LongestNumber c.rest n read ∧ c.rest = read ++ skipBlanks rest ∧
        (n.Short → s.Parses number c (⟨[], .ok (.success n.value (c.skip read.length))⟩, s.store)) ∧
        (¬n.Short →
          s.Parses number c (⟨[], .error (.tooLongToRead n.whole.chars.length)⟩, s.store))) ∧
    (¬Starts (skipBlanks c.rest) →
      (∀ (n : Number) (read : List Char), Written [n.token] read → ¬read <+: c.rest) ∧
        s.Parses number c (⟨[], .ok (.failure c)⟩, s.store)) := by
  have built : number.build s.env s.store = (.ok unspacedParser.token, s.store) := rfl
  refine ⟨Starts.exists_number, fun n rest there ended => ?_, fun none => ⟨?_, ?_⟩⟩
  · have behind : c.skipBlanks.rest = n.token ++ rest := by rw [Cursor.rest_skipBlanks, there]
    have far : (c.skipBlanks.skip n.token.length).skipBlanks =
        c.skip (c.rest.takeWhile isBlank ++ (n.token ++ rest.takeWhile isBlank)).length := by
      rw [Cursor.skipBlanks, Cursor.skipWhile, Cursor.rest_skip_of_append behind, Cursor.skipBlanks,
        Cursor.skipWhile, Cursor.skip_skip, Cursor.skip_skip, List.length_append, List.length_append]
    have read : unspacedParser.eval s.env c.skipBlanks s.store = _ := eval_unspaced n behind ended
    refine ⟨_, longestNumber_of_ended there ended, ?_, fun short => ?_, fun long => ?_⟩
    · rw [List.append_assoc, List.append_assoc, skipBlanks, List.takeWhile_append_dropWhile,
        takeWhile_isBlank_append there]
    · have taken := Number.read_of_short short
      rw [taken] at read
      rw [Session.parses_iff, Rule.eval_of_built built, eval_token, Run.bind_of_ok read, ← far]
      simp only [Result.success, Run.ofAct_asConstant (Number.writable_of_read taken)]
      rfl
    · rw [Number.read_of_not_short long] at read
      rw [Session.parses_iff, Rule.eval_of_built built, eval_token, Run.bind_of_error read]
  · rintro n read written ⟨left, hleft⟩
    obtain ⟨before, behind, blank, -, rfl⟩ := Written.exists_number written
    rw [← hleft, List.append_assoc, List.append_assoc, skipBlanks_append blank,
      n.skipBlanks_append] at none
    exact none (n.starts _)
  · have failed : unspacedParser.eval s.env c.skipBlanks s.store = _ :=
      eval_unspaced_of_not_starts (by rw [Cursor.rest_skipBlanks]; exact none)
    rw [Session.parses_iff, Rule.eval_of_built built, eval_token, Run.bind_of_ok failed]
    rfl

/-- A point without a digit behind it is left, and a sign without one is given back. -/
theorem number_longest_given_back :
    session.Parses number (.start #[' ', '-', '1', '.'])
        (⟨[], .ok (.success (.int (-1)) ⟨#[' ', '-', '1', '.'], 3⟩)⟩, session.store) ∧
      session.Parses number (.start #['-', ' ', '1'])
        (⟨[], .ok (.failure (.start #['-', ' ', '1']))⟩, session.store) := by
  constructor
  · let n : Number := ⟨true, .ofNat 1, none⟩
    have ended : n.Ended ['.'] := by
      constructor
      · intro x hx
        cases hx
        decide
      · intro _ x xs same
        cases same
    obtain ⟨read, -, whole, parsed, -⟩ :=
      (number_longest session (.start #[' ', '-', '1', '.'])).2.1 n ['.'] rfl ended
    obtain rfl : [' ', '-', '1'] = read := List.append_cancel_right whole
    exact parsed fun _ => by decide
  · have none : ¬Starts (skipBlanks (Cursor.start #['-', ' ', '1']).rest) := by
      rintro ⟨negative, x, xs, same, digit⟩
      rcases negative with _ | _
      · cases same
        cases digit
      · cases same
        cases digit
    exact ((number_longest session (.start #['-', ' ', '1'])).2.2 none).2

end Rewind.Grammar.Document
