import Rewind.Proofs.Equations
import Rewind.Parser.Combinators

namespace Rewind

namespace Text

/-- What is left after the blanks at the front. -/
def skipBlanks (cs : List Char) : List Char := cs.dropWhile isBlank

theorem skipBlanks_skipBlanks (cs : List Char) : skipBlanks (skipBlanks cs) = skipBlanks cs := by
  induction cs with
  | nil => rfl
  | cons x xs ih =>
    by_cases hx : isBlank x = true
    · simpa [skipBlanks, hx] using ih
    · simp [skipBlanks, hx]

theorem skipBlanks_append {gap : List Char} (h : ∀ x ∈ gap, isBlank x = true) (cs : List Char) :
    skipBlanks (gap ++ cs) = skipBlanks cs :=
  List.dropWhile_append_of_pos h

theorem skipBlanks_of_not {x : Char} (h : isBlank x = false) (cs : List Char) :
    skipBlanks (x :: cs) = x :: cs := by
  simp [skipBlanks, h]

/-- The blanks that are skipped. -/
theorem exists_gap (cs : List Char) :
    ∃ gap, (∀ x ∈ gap, isBlank x = true) ∧ cs = gap ++ skipBlanks cs := by
  refine ⟨cs.takeWhile isBlank, ?_, (List.takeWhile_append_dropWhile).symm⟩
  intro x hx
  exact List.all_eq_true.1 List.all_takeWhile x hx

end Text

namespace Cursor

theorem getElem?_rest (c : Cursor) (k : Nat) : c.rest[k]? = c.text[c.position + k]? := by
  simp [rest]

/-- The next `n` characters, or as many as there are. -/
def ahead (c : Cursor) (n : Nat) : List Char :=
  (c.text.extract c.position (c.position + n)).toList

theorem ahead_eq_take (c : Cursor) (n : Nat) : c.ahead n = c.rest.take n := by
  rw [ahead, Array.toList_extract, List.extract_eq_take_drop, Nat.add_sub_cancel_left, rest]

theorem rest_next_of_cons {c : Cursor} {x : Char} {xs : List Char} (h : c.rest = x :: xs) :
    c.next.rest = xs := by
  rw [rest_next, h, List.tail_cons]

/-- The cursor some characters further on. -/
def skip (c : Cursor) (n : Nat) : Cursor := ⟨c.text, c.position + n⟩

theorem rest_skip (c : Cursor) (n : Nat) : (c.skip n).rest = c.rest.drop n := by
  simp [skip, rest]

theorem rest_skip_of_append {c : Cursor} {front back : List Char} (h : c.rest = front ++ back) :
    (c.skip front.length).rest = back := by
  rw [rest_skip, h, List.drop_left]

theorem skip_skip (c : Cursor) (m n : Nat) : (c.skip m).skip n = c.skip (m + n) := by
  simp only [skip, Cursor.mk.injEq, true_and]
  omega

theorem skip_start (text : Array Char) (n : Nat) : (start text).skip n = ⟨text, n⟩ := by
  rw [start, skip, Nat.zero_add]

theorem skip_next (c : Cursor) (n : Nat) : c.next.skip n = c.skip (n + 1) := by
  simp only [skip, next, Cursor.mk.injEq, true_and]
  omega

/-- The cursor after the longest run of characters that pass a test. -/
def skipWhile (test : Char → Bool) (c : Cursor) : Cursor := c.skip (c.rest.takeWhile test).length

theorem rest_skipWhile (test : Char → Bool) (c : Cursor) :
    (c.skipWhile test).rest = c.rest.dropWhile test := by
  rw [skipWhile, rest_skip]
  calc c.rest.drop (c.rest.takeWhile test).length
      = (c.rest.takeWhile test ++ c.rest.dropWhile test).drop (c.rest.takeWhile test).length := by
        rw [List.takeWhile_append_dropWhile]
    _ = c.rest.dropWhile test := List.drop_left

/-- The next `n` characters are there, and all of them pass the test. -/
def Passes (c : Cursor) (test : Char → Bool) (n : Nat) : Prop :=
  ∀ i < n, ∃ x, c.text[c.position + i]? = some x ∧ test x = true

theorem passes_skipWhile (test : Char → Bool) (c : Cursor) :
    c.Passes test (c.rest.takeWhile test).length := by
  intro i inside
  have run : c.rest.takeWhile test <+: c.rest := List.takeWhile_prefix _
  refine ⟨(c.rest.takeWhile test)[i], ?_, ?_⟩
  · rw [← getElem?_rest]
    exact List.prefix_iff_getElem?.1 run i inside
  · exact List.all_eq_true.1 List.all_takeWhile _ (List.getElem_mem inside)

def skipBlanks (c : Cursor) : Cursor := c.skipWhile Text.isBlank

theorem rest_skipBlanks (c : Cursor) : c.skipBlanks.rest = Text.skipBlanks c.rest :=
  rest_skipWhile Text.isBlank c

end Cursor

/-- A success that leaves less text got somewhere. -/
theorem idle_eq_false {c d : Cursor} (h : d.rest.length < c.rest.length) : idle c d = false := by
  have inside : c.atEnd = false := by
    rw [← Bool.not_eq_true, Cursor.atEnd_iff_rest_eq_nil]
    intro nil
    rw [nil] at h
    exact absurd h (Nat.not_lt_zero _)
  have moved : (c.position == d.position && c.text == d.text) = false := by
    rw [← Bool.not_eq_true, Bool.and_eq_true, beq_iff_eq, beq_iff_eq]
    rintro ⟨position, text⟩
    simp [Cursor.rest, position, text] at h
  rw [idle, inside, moved]
  rfl

/-- A round that goes on begins before the end of the text and moves. -/
theorem position_lt_of_not_idle {c d : Cursor} (moved : idle c d = false) (text : d.text = c.text)
    (le : c.position ≤ d.position) : c.position < c.text.size ∧ c.position < d.position := by
  obtain ⟨inside, apart⟩ := Bool.or_eq_false_iff.1 moved
  rw [text, beq_self_eq_true, Bool.and_true, beq_eq_false_iff_ne] at apart
  rw [Cursor.atEnd, Cursor.atEnd, text, Bool.and_eq_false_iff, decide_eq_false_iff_not,
    decide_eq_false_iff_not] at inside
  omega

/-- The characters of a literal are read where they stand, all or none. -/
theorem Atom.readLiteral_eq (chars : List Char) (c : Cursor) :
    readLiteral chars c = if chars <+: c.rest then some (c.skip chars.length) else none := by
  induction chars generalizing c with
  | nil => simp [readLiteral, Cursor.skip]
  | cons x xs ih =>
    rw [readLiteral, Cursor.char?_eq_head?]
    rcases h : c.rest with _ | ⟨y, ys⟩
    · simp
    · rw [ih, Cursor.rest_next_of_cons h, Cursor.skip_next]
      by_cases same : y = x
      · simp [same]
      · simp [same, Ne.symm same]

/-- What comes of reading one character that must pass a test. -/
def Result.tested (test : Char → Bool) (c : Cursor) : Result :=
  match c.char? with
  | some x => if test x then .success (.ofChar x) c.next else .failure c
  | none => .failure c

namespace Parser

variable {env : Env} {test : Char → Bool} {name : String} {c : Cursor} {x : Char} {xs : List Char}

/-- A character that is there is tested, and the notes of the test are written. -/
theorem eval_tested {ask : CharTest} {passed : Bool} (h : c.rest = x :: xs)
    (answer : (ask x).result = .ok passed) :
    eval env (.atom (.satisfy ask name)) c = (do
      Run.writeNotes (ask x).log
      return if passed then .success (.ofChar x) c.next else .failure c) := by
  have head : c.char? = some x := by rw [Cursor.char?_eq_head?, h]; rfl
  have asked : (Atom.satisfy ask name).run c =
      ask x >>= fun passed => pure (if passed then .success (.ofChar x) c.next else .failure c) := by
    simp only [Atom.run, head]
  rw [eval_atom, asked, Run.ofAct_bind, Run.ofAct_of_ok answer, LawfulMonad.bind_assoc, Run.settle_bind]
  simp only [LawfulMonad.pure_bind, Run.ofAct_pure, Run.settle_pure]
  cases passed
  · rfl
  · rfl

theorem eval_tested_of_nil {ask : CharTest} (h : c.rest = []) :
    eval env (.atom (.satisfy ask name)) c = pure (.failure c) := by
  have none : c.char? = none := by rw [Cursor.char?_eq_head?, h]; rfl
  rw [eval_atom]
  simp only [Atom.run, none]
  rfl

/-- A test that writes nothing reads a character that passes. -/
theorem eval_satisfy (test : Char → Bool) (name : String) (c : Cursor) :
    eval env (satisfy test name) c = pure (.tested test c) := by
  rw [Result.tested, Cursor.char?_eq_head?]
  rcases h : c.rest with _ | ⟨x, xs⟩
  · exact eval_tested_of_nil h
  · have tested : eval env (satisfy test name) c = _ := eval_tested h rfl
    exact tested

theorem eval_satisfy_of_pos (h : c.rest = x :: xs) (hx : test x = true) :
    eval env (satisfy test name) c = pure (.success (.ofChar x) c.next) := by
  rw [eval_satisfy, Result.tested, Cursor.char?_eq_head?, h]
  exact congrArg pure (if_pos hx)

/-- A character that is asked for by itself. -/
theorem eval_char (x : Char) (h : c.rest = x :: xs) :
    eval env (satisfy (· == x) name) c = pure (.success (.ofChar x) c.next) :=
  eval_satisfy_of_pos h (beq_self_eq_true x)

theorem eval_satisfy_of_neg (h : ∀ x, c.rest.head? = some x → test x = false) :
    eval env (satisfy test name) c = pure (.failure c) := by
  rw [eval_satisfy, Result.tested, Cursor.char?_eq_head?]
  rcases head : c.rest.head? with _ | x
  · rfl
  · simp only [h x head, Bool.false_eq_true, if_false]

theorem eval_literal (chars : List Char) (value : Value) (c : Cursor) :
    eval env (.atom (.literal chars value)) c =
      pure (if chars <+: c.rest then .success value (c.skip chars.length) else .failure c) := by
  rw [eval_atom, Atom.run, Atom.readLiteral_eq]
  by_cases there : chars <+: c.rest
  · rw [if_pos there, if_pos there]
    rfl
  · rw [if_neg there, if_neg there]
    rfl

/-- The rounds of a test that cannot raise are the longest run that passes it. The characters of the run are
tested in order, and the one behind them, if there is one. -/
theorem rounds_tested {ask : CharTest} {passes : Char → Bool}
    (answers : ∀ x, (ask x).result = .ok (passes x)) (name : String) (c : Cursor) :
    rounds env (.atom (.satisfy ask name)) c = (do
      Run.writeNotes ((c.rest.take ((c.rest.takeWhile passes).length + 1)).flatMap fun x => (ask x).log)
      return ((c.rest.takeWhile passes).map .ofChar, c.skipWhile passes)) := by
  induction h : c.rest generalizing c with
  | nil =>
    rw [rounds_eq, eval_tested_of_nil h, LawfulMonad.pure_bind]
    simp [Result.failure, Cursor.skipWhile, h, Cursor.skip, Run.writeNotes_nil]
  | cons x xs ih =>
    rw [rounds_eq, eval_tested h (answers x), LawfulMonad.bind_assoc]
    by_cases hx : passes x = true
    · have later := Cursor.rest_next_of_cons h
      have moved : idle c c.next = false := idle_eq_false (by simp [later, h])
      simp only [LawfulMonad.pure_bind, hx, if_true, Result.success, moved, ih c.next later]
      simp [hx, Cursor.skipWhile, h, later, Cursor.skip_next, Run.writeNotes_append]
    · simp [hx, Result.failure, Cursor.skipWhile, h, Cursor.skip]

theorem eval_many_tested {ask : CharTest} {passes : Char → Bool}
    (answers : ∀ x, (ask x).result = .ok (passes x)) (name : String) (c : Cursor) :
    eval env (many (.atom (.satisfy ask name))) c = Run.ofAct
      ⟨(c.rest.take ((c.rest.takeWhile passes).length + 1)).flatMap fun x => (ask x).log,
        .ok (.success (.list ((c.rest.takeWhile passes).map .ofChar)) (c.skipWhile passes))⟩ := by
  rw [eval_many, rounds_tested answers, LawfulMonad.bind_assoc, Run.ofAct_of_ok rfl]
  simp only [LawfulMonad.pure_bind]

theorem eval_many_satisfy (test : Char → Bool) (name : String) (c : Cursor) :
    eval env (many (satisfy test name)) c =
      pure (.success (.list ((c.rest.takeWhile test).map .ofChar)) (c.skipWhile test)) := by
  have tested : eval env (many (satisfy test name)) c = _ := eval_many_tested (fun _ => rfl) name c
  have silent : ∀ cs : List Char, (cs.flatMap fun x => (pure (test x) : Act Bool).log) = [] :=
    fun _ => List.flatMap_eq_nil_iff.2 fun _ _ => rfl
  rw [tested, silent]
  rfl

theorem eval_before (p q : Parser) (c : Cursor) :
    eval env (p.before q) c = (do
      let r ← eval env p c
      if r.ok then
        let s ← eval env q r.cursor
        return if s.ok then .success s.value s.cursor else .failure c
      else return .failure c) := by
  rw [before, eval_label, eval_both]
  congr 1
  funext r
  congr 1
  congr 1
  funext s
  split
  · rfl
  · rfl

/-- Between two parsers that skip all blanks. What they give is dropped. -/
theorem eval_between_blanks {blanks : Parser} {v : Cursor → Value}
    (skips : ∀ d, eval env blanks d = pure (.success (v d) d.skipBlanks)) (p : Parser) (c : Cursor) :
    eval env (between blanks blanks p) c = (do
      let r ← eval env p c.skipBlanks
      if r.ok then
        let value ← Run.ofAct r.value.asConstant
        return .success value r.cursor.skipBlanks
      else return .failure c) := by
  rw [between, eval_followedBy, eval_before]
  simp only [skips, Result.success, if_true, LawfulMonad.pure_bind, LawfulMonad.bind_assoc]
  congr 1
  funext r
  by_cases matched : r.ok = true
  · simp only [matched, if_true]
  · simp [matched, Result.failure]

theorem eval_token (p : Parser) (c : Cursor) :
    eval env p.token c = (do
      let r ← eval env p c.skipBlanks
      if r.ok then
        let value ← Run.ofAct r.value.asConstant
        return .success value r.cursor.skipBlanks
      else return .failure c) := by
  rw [token, eval_label]
  exact eval_between_blanks (fun d => eval_many_satisfy Text.isBlank "whitespace" d) p c

end Parser

end Rewind
