import Rewind.Proofs.Lexemes
import Rewind.Proofs.Numerals
import Rewind.Proofs.Sequences

namespace Rewind

/-- A length, a colon and what stands behind it. -/
def Text.announced (n : Nat) (rest : String) : Array Char := (toString n ++ ":" ++ rest).toList.toArray

theorem Cursor.rest_announced (n : Nat) (rest : String) :
    (start (Text.announced n rest)).rest = (Text.Numeral.ofNat n).chars ++ ':' :: rest.toList := by
  rw [← Text.Numeral.toList_toString]
  simp [start, Cursor.rest, Text.announced]

theorem Parser.inOrder_anyChar {env : Env} (n : Nat) (c : Cursor) :
    inOrder env (List.replicate n (satisfy (fun _ => true) "any_char")) c =
      pure (if n ≤ c.rest.length then some ((c.rest.take n).map .ofChar, c.skip n) else none) := by
  induction n generalizing c with
  | zero => rfl
  | succ n ih =>
    rw [List.replicate_succ, inOrder]
    rcases h : c.rest with _ | ⟨x, xs⟩
    · have nothing : ∀ x, c.rest.head? = some x → (fun _ => true) x = false := by simp [h]
      rw [eval_satisfy_of_neg nothing, LawfulMonad.pure_bind]
      rfl
    · rw [eval_satisfy_of_pos h rfl, LawfulMonad.pure_bind, Result.success, if_pos rfl,
        Run.ofAct_asConstant (Value.writable_ofChar x), LawfulMonad.pure_bind, ih,
        Cursor.rest_next_of_cons h, LawfulMonad.pure_bind, Cursor.skip_next]
      by_cases enough : n ≤ xs.length
      · simp [enough]
      · simp [enough]

namespace Rule

variable {env : Env} {c : Cursor} {rest : List Char}

/-- One digit or more, read as a number. -/
def numeral : Rule := digit.many1.tryMap fun v => v.joined.toInt

/-- A number and a colon. -/
def header : Rule := numeral.bind fun n => pure ((char ':').map fun _ => n)

/-- As many characters as stand announced in front of them. -/
def counted : Rule := header.bind fun n => do
  let count ← Logged.ofExcept n.asCount
  return sequence (List.replicate count anyChar)

theorem eval_numeral (n : Text.Numeral) (h : c.rest = n.chars ++ rest)
    (ended : Text.Refuses Text.isDigit rest) : numeral.eval env c = (do
      let value ← Run.ofAct (Logged.ofExcept n.read)
      return .success value (c.skip n.chars.length)) := by
  rw [numeral, tryMap, eval_map, eval_of_pure (p := (Parser.satisfy Text.isDigit "digit").many1) rfl,
    Parser.eval_many1_of_run h n.nonempty n.digits ended]
  simp only [LawfulMonad.pure_bind, Result.success, if_true, Value.toInt_joined_numeral]
  rcases read : n.read with fault | value
  · rfl
  · have made : (Logged.ofExcept (.ok value) : Act Value) >>= Value.asConstant = pure value :=
      Value.asConstant_of_writable (n.writable_of_read read)
    rw [made]
    rfl

theorem eval_header (n : Text.Numeral) (h : c.rest = n.chars ++ ':' :: rest) :
    header.eval env c = (do
      let value ← Run.ofAct (Logged.ofExcept n.read)
      return .success value (c.skip (n.chars.length + 1))) := by
  -- No colon is a digit of any script, so the number ends before it.
  have colon : Text.Refuses Text.isDigit (':' :: rest) := by
    intro x hx
    cases hx
    rfl
  have built : (char ':').build env = pure (.satisfy (· == ':') "char(':')") := rfl
  rw [header, eval_bind, eval_numeral n h colon, LawfulMonad.bind_assoc]
  rcases read : n.read with fault | value
  · rfl
  · have given : Run.ofAct (Logged.ofExcept (.ok value) : Act Value) = pure value := rfl
    rw [given, LawfulMonad.pure_bind, LawfulMonad.pure_bind, LawfulMonad.pure_bind, Result.success,
      if_pos rfl, Run.ofAct_pure, LawfulMonad.pure_bind, map, eval_map, eval_of_pure built,
      Parser.eval_char ':' (Cursor.rest_skip_of_append h), LawfulMonad.pure_bind, Result.success,
      if_pos rfl, LawfulMonad.pure_bind, Run.ofAct_asConstant (n.writable_of_read read),
      LawfulMonad.pure_bind, Run.settle_pure, Result.settle_of_ok rfl]
    rfl

theorem eval_sequence_anyChar (n : Nat) (c : Cursor) :
    (sequence (List.replicate n anyChar)).eval env c = pure (if n ≤ c.rest.length then
      .success (.list ((c.rest.take n).map .ofChar)) (c.skip n) else .failure c) := by
  have built : (List.replicate n anyChar).mapM (build env) =
      pure (List.replicate n (Parser.satisfy (fun _ => true) "any_char")) := by
    induction n with
    | zero => rfl
    | succ n ih =>
      rw [List.replicate_succ, List.mapM_cons, ih]
      rfl
  rw [eval_sequence, built, Run.ofBuild_pure, LawfulMonad.pure_bind, Parser.eval_sequence,
    Parser.inOrder_anyChar, LawfulMonad.pure_bind]
  by_cases enough : n ≤ c.rest.length
  · rw [if_pos enough, if_pos enough]
    rfl
  · rw [if_neg enough, if_neg enough]
    rfl

theorem eval_counted (n : Text.Numeral) (h : c.rest = n.chars ++ ':' :: rest)
    (short : n.chars.length ≤ Text.digitLimit) :
    counted.eval env c = pure (if n.value ≤ rest.length then
      .success (.list ((rest.take n.value).map .ofChar)) (c.skip (n.chars.length + 1 + n.value))
        else .failure c) := by
  have read : n.read = .ok (.int n.value) := Value.readInt_of_le short _
  have count : (Value.int n.value).asCount = .ok n.value := rfl
  have later : (c.skip (n.chars.length + 1)).rest = rest := by
    rw [← Cursor.skip_skip, Cursor.rest_skip, Cursor.rest_skip_of_append h]
    rfl
  have given {α : Type} (a : α) : Run.ofAct (Logged.ofExcept (.ok a) : Act α) = pure a := rfl
  -- The failure of the sequence, far behind, is settled at the cursor of the whole.
  rw [counted, eval_bind, eval_header n h, read, given, LawfulMonad.pure_bind, LawfulMonad.pure_bind,
    Result.success, if_pos rfl, count, Run.ofAct_bind, given, LawfulMonad.pure_bind, Run.ofAct_pure,
    LawfulMonad.pure_bind, eval_sequence_anyChar, later, Cursor.skip_skip, Run.settle_pure]
  by_cases enough : n.value ≤ rest.length
  · rw [if_pos enough, if_pos enough]
    rfl
  · rw [if_neg enough, if_neg enough]
    rfl

/-- A number of too many digits is refused. -/
theorem eval_counted_of_long (n : Text.Numeral) (h : c.rest = n.chars ++ ':' :: rest)
    (long : Text.digitLimit < n.chars.length) :
    counted.eval env c = Run.raise (.tooLongToRead n.chars.length) := by
  have refused : n.read = .error (.tooLongToRead n.chars.length) := Value.readInt_of_lt long _
  rw [counted, eval_bind, eval_header n h, refused]
  rfl

theorem eval_counted_of_enough (n : Text.Numeral) {front back : List Char}
    (h : c.rest = n.chars ++ ':' :: (front ++ back)) (short : n.chars.length ≤ Text.digitLimit)
    (length : front.length = n.value) :
    ∃ d : Cursor, d.text = c.text ∧ d.rest = back ∧
      ∀ env, counted.eval env c = pure (.success (.list (front.map .ofChar)) d) := by
  have enough : n.value ≤ (front ++ back).length := by
    rw [List.length_append]
    omega
  have behind : (c.skip (n.chars.length + 1 + n.value)).rest = back := by
    rw [← Cursor.skip_skip, ← Cursor.skip_skip, ← length]
    apply Cursor.rest_skip_of_append
    rw [Cursor.rest_skip, Cursor.rest_skip_of_append h]
    rfl
  refine ⟨c.skip (n.chars.length + 1 + n.value), rfl, behind, fun env => ?_⟩
  rw [eval_counted n h short, if_pos enough, ← length, List.take_left]

theorem eval_counted_of_few (n : Text.Numeral) (h : c.rest = n.chars ++ ':' :: rest)
    (short : n.chars.length ≤ Text.digitLimit) (few : rest.length < n.value) :
    counted.eval env c = pure (.failure c) := by
  rw [eval_counted n h short, if_neg (Nat.not_le.2 few)]

end Rule

namespace Session

/-- In every session: behind its length and a colon a text is read back, character by character,
whatever it is made of, and what stands behind it is left. Where there is less than is announced
there is no match, and the cursor at the very start is given back. Nothing is recorded, and the cells
stay as they are. A length of more digits than can be read is refused. -/
theorem counted_decodes (s : Session) (body : String) :
    ((toString body.length).length ≤ Text.digitLimit →
      (∀ behind : String, ∃ d : Cursor, d.text = Text.announced body.length (body ++ behind) ∧
        d.remaining = behind ∧
        s.Parses .counted (.start (Text.announced body.length (body ++ behind)))
          (⟨[], .ok (.success (.list (body.toList.map .ofChar)) d)⟩, s.store)) ∧
      ∀ k < body.length,
        s.Parses .counted (.start (Text.announced body.length (String.ofList (body.toList.take k))))
          (⟨[], .ok (.failure
            (.start (Text.announced body.length (String.ofList (body.toList.take k)))))⟩, s.store)) ∧
    (Text.digitLimit < (toString body.length).length → ∀ behind : String,
      s.Parses .counted (.start (Text.announced body.length behind))
        (⟨[], .error (.tooLongToRead (toString body.length).length)⟩, s.store)) := by
  have value : (Text.Numeral.ofNat body.length).value = body.length := Text.Numeral.value_ofNat _
  have digits : (toString body.length).length = (Text.Numeral.ofNat body.length).chars.length := by
    rw [← Text.Numeral.toList_toString, String.length_toList]
  rw [digits]
  refine ⟨fun short => ⟨fun behind => ?_, fun k few => ?_⟩, fun long behind => ?_⟩
  · have whole := Cursor.rest_announced body.length (body ++ behind)
    rw [String.toList_append] at whole
    obtain ⟨d, text, rest, ended⟩ :=
      Rule.eval_counted_of_enough _ whole short (String.length_toList.trans value.symm)
    refine ⟨d, text, ?_, ?_⟩
    · rw [Cursor.remaining, rest, String.ofList_toList]
    · rw [parses_iff, ended s.env]
      rfl
  · have less : (String.ofList (body.toList.take k)).toList.length <
        (Text.Numeral.ofNat body.length).value := by
      rw [String.toList_ofList, List.length_take, value]
      omega
    rw [parses_iff, Rule.eval_counted_of_few _ (Cursor.rest_announced body.length _) short less]
    rfl
  · rw [parses_iff, Rule.eval_counted_of_long _ (Cursor.rest_announced body.length behind) long]
    rfl

/-- The digit and the colon behind the first colon are read as they stand, and so is a text of two
characters where three are announced. -/
theorem counted_decodes_digits :
    (∃ d : Cursor, d.remaining = "7" ∧
      start.Parses .counted (.start #['3', ':', '1', ':', 'x', '7'])
        (⟨[], .ok (.success (.list [.str "1", .str ":", .str "x"]) d)⟩, start.store)) ∧
    2 < "1:x".length ∧
    start.Parses .counted (.start #['3', ':', '1', ':'])
      (⟨[], .ok (.failure (.start #['3', ':', '1', ':']))⟩, start.store) := by
  obtain ⟨whole, short⟩ := (counted_decodes start "1:x").1 (by decide +kernel)
  obtain ⟨d, -, left, ended⟩ := whole "7"
  exact ⟨⟨d, left, ended⟩, by decide, short 2 (by decide)⟩

end Session

end Rewind
