import Rewind.Proofs.Document.Parsers
import Rewind.Proofs.Matches

namespace Rewind.Grammar.Document

open Rewind.Parser Text

variable {C : Contract} {env : Env} {size : Nat} {raises : Fault → Prop}

def quotes : Lexicon := fun t _ o => ∃ s : Unquoted, t = s.token ∧ o = .ok (.str s.text)

theorem unquoted_test (x : Char) : (!Rule.isMember ["\""] x) = (x != '"') := by
  have member := Rule.isMember_membersOf "\"" x
  have single : Rule.membersOf "\"" = ["\""] := rfl
  rw [single] at member
  rw [member]
  by_cases hx : x = '"'
  · simp [hx]
  · simp [hx, bne]

theorem Unquoted.passes (s : Unquoted) : ∀ x ∈ s.chars, (x != '"') = true := by
  intro x hx
  rw [bne_iff_ne]
  rintro rfl
  exact s.unquoted hx

theorem refuses_quote (cs : List Char) : Refuses (· != '"') ('"' :: cs) := by
  intro x hx
  cases hx
  rfl

theorem Unquoted.token_append (s : Unquoted) (rest : List Char) :
    s.token ++ rest = '"' :: (s.chars ++ '"' :: rest) := by
  simp [Unquoted.token]

theorem quotes_clear : quotes.Clear := by
  intro t rest v t' rest' v' h h' same
  obtain ⟨s, rfl, rfl⟩ := h
  obtain ⟨s', rfl, rfl⟩ := h'
  rw [s.token_append, s'.token_append] at same
  have chars := (refuses_quote rest).unique (refuses_quote rest') s.passes s'.passes
    (List.cons.inj same).2
  simp only [Unquoted.token, Unquoted.text, chars.1, and_self]

theorem quotes_writes : quotes.Writes := by
  intro t rest v h
  obtain ⟨s, -, same⟩ := h
  cases same
  rfl

theorem quotes_begins : quotes.Begins (· == '"') := by
  intro t rest v h
  obtain ⟨s, rfl, -⟩ := h
  exact ⟨'"', s.chars ++ ['"'], rfl, rfl⟩

theorem quoted_lexes : Lexes C env quotedParser quotes := by
  intro c
  refine .map (.between ((satisfy_ends (· == '"') _ c).imp (fun _ hf => hf) ?_ ?_))
  · intro none
    exact quotes_begins.not_at (Lexicon.refuses_of_not_at none)
  · intro _ d hd
    obtain ⟨x, -, hx, hc⟩ := hd
    obtain rfl : x = '"' := by simpa using hx
    refine (many_satisfy_ends _ _ d).imp (fun _ hf => hf) False.elim ?_
    intro w e hw
    obtain ⟨t, rfl, ht, ended, hd⟩ := hw
    simp only [unquoted_test] at ht ended
    have whole : c.rest = '"' :: (t ++ e.rest) := by rw [hc, hd]
    refine Value.asConstant_ends (Value.writable_chars t) ?_
    refine (satisfy_ends (· == '"') _ e).imp (fun _ hf => hf) ?_ ?_
    · -- Without a quote at the end there is no text in quotes at all.
      intro none there
      obtain ⟨_, rest, _, ⟨s, rfl, -⟩, hs⟩ := there
      rw [whole, s.token_append] at hs
      have left := ended.unique (refuses_quote rest) ht s.passes (List.cons.inj hs).2
      exact none ⟨['"'], rest, _, ⟨'"', rfl, rfl, rfl⟩, left.2⟩
    · intro _ e' he
      obtain ⟨y, -, hy, he⟩ := he
      obtain rfl : y = '"' := by simpa using hy
      have unquoted : '"' ∉ t := by
        intro hm
        exact absurd (ht '"' hm) (by decide)
      let s : Unquoted := ⟨t, unquoted⟩
      show ((Value.list (t.map .ofChar)).joined).asConstant.Ends _ _
      rw [Value.joined_map_ofChar]
      refine ⟨s.token, ⟨s, rfl, rfl⟩, ?_⟩
      rw [whole, he, s.token_append]

theorem symbol_reads {s : String} {x : Char} {xs : List Char} (hs : s.toList = x :: xs)
    (h : isBlank x = false) (stops : Char → Prop) :
    Reads C env (symbolParser s) stops [s.toList] (.ok (.str s)) := by
  refine .token (literal_lexes _ _) (Lexicon.literal_writes _ rfl) (Lexicon.literal_clear _ _)
    (fun _ _ _ _ => ⟨rfl, rfl⟩) ?_
  intro cs
  rw [hs, List.cons_append, skipBlanks_of_not h]

theorem symbol_needs {s : String} {x : Char} {xs : List Char} (hs : s.toList = x :: xs) :
    Needs C env (symbolParser s) (· == x) := by
  refine .token (literal_lexes _ _) ?_
  intro t rest o ht
  obtain ⟨rfl, -⟩ := ht
  exact ⟨x, xs, hs, by simp⟩

theorem word_reads {s : String} {x : Char} {xs : List Char} (hs : s.toList = x :: xs)
    (h : isBlank x = false) (v : Value) (stops : Char → Prop) :
    Reads C env (wordParser s v) stops [s.toList] (.ok v) :=
  (symbol_reads hs h stops).before_constant v

theorem word_needs {s : String} {x : Char} {xs : List Char} (hs : s.toList = x :: xs) (v : Value) :
    Needs C env (wordParser s v) (· == x) :=
  .before (symbol_needs hs)

def fractionText : Option Numeral → String
  | none => ""
  | some f => "." ++ String.ofList f.chars

/-- No fraction stands at the front of a text. -/
def Unpointed (cs : List Char) : Prop := ∀ x rest, cs = '.' :: x :: rest → isDigit x = false

/-- What may be left behind a number. -/
def Number.Ended (n : Number) (rest : List Char) : Prop :=
  Refuses isDigit rest ∧ (n.fraction = none → Unpointed rest)

def numbers : Lexicon := fun t rest o => ∃ n : Number, t = n.token ∧ n.Ended rest ∧ o = n.read

theorem Number.token_append (n : Number) (rest : List Char) :
    n.token ++ rest =
      signChars n.negative ++ (n.whole.chars ++ (fractionChars n.fraction ++ rest)) := by
  simp only [Number.token, List.append_assoc]

theorem refuses_minus (n : Numeral) (cs : List Char) : Refuses (· == '-') (n.chars ++ cs) := by
  obtain ⟨x, xs, hx, digit⟩ := n.exists_head
  intro y hy
  rw [hx] at hy
  cases hy
  exact beq_of_test digit (by decide)

/-- What stands without a sign is not mistaken for one. -/
theorem sign_unique {b b' : Bool} {cs cs' : List Char} (h : b = false → Refuses (· == '-') cs)
    (h' : b' = false → Refuses (· == '-') cs') (same : signChars b ++ cs = signChars b' ++ cs') :
    b = b' ∧ cs = cs' := by
  rcases b with _ | _ <;> rcases b' with _ | _
  · exact ⟨rfl, same⟩
  · have minus := h rfl '-' (by rw [show cs = _ from same]; rfl)
    cases minus
  · have minus := h' rfl '-' (by rw [show cs' = _ from same.symm]; rfl)
    cases minus
  · exact ⟨rfl, (List.cons.inj same).2⟩

theorem refuses_fraction {rest : List Char} (h : Refuses isDigit rest) (f : Option Numeral) :
    Refuses isDigit (fractionChars f ++ rest) := by
  rcases f with _ | f
  · exact h
  · intro x hx
    cases hx
    decide

theorem not_unpointed (f : Numeral) (rest : List Char) : ¬Unpointed ('.' :: (f.chars ++ rest)) := by
  intro h
  obtain ⟨x, xs, hx, digit⟩ := f.exists_head
  rw [h x (xs ++ rest) (by rw [hx]; rfl)] at digit
  cases digit

theorem fraction_unique {f f' : Option Numeral} {rest rest' : List Char}
    (h : Refuses isDigit rest) (h' : Refuses isDigit rest') (none : f = none → Unpointed rest)
    (none' : f' = Option.none → Unpointed rest')
    (same : fractionChars f ++ rest = fractionChars f' ++ rest') : f = f' := by
  rcases f with _ | f <;> rcases f' with _ | f'
  · rfl
  · have free := none rfl
    rw [show rest = _ from same] at free
    exact absurd free (not_unpointed f' rest')
  · have free := none' rfl
    rw [show rest' = _ from same.symm] at free
    exact absurd free (not_unpointed f rest)
  · have chars := h.unique h' f.digits f'.digits (List.cons.inj same).2
    rw [Numeral.ext chars.1]

theorem numbers_clear : numbers.Clear := by
  intro t rest v t' rest' v' h h' same
  obtain ⟨⟨b, n, f⟩, rfl, ended, rfl⟩ := h
  obtain ⟨⟨b', n', f'⟩, rfl, ended', rfl⟩ := h'
  rw [Number.token_append, Number.token_append] at same
  obtain ⟨rfl, same⟩ := sign_unique (fun _ => refuses_minus n _) (fun _ => refuses_minus n' _) same
  obtain ⟨chars, same⟩ := (refuses_fraction ended.1 f).unique (refuses_fraction ended'.1 f')
    n.digits n'.digits same
  obtain rfl := fraction_unique ended.1 ended'.1 ended.2 ended'.2 same
  obtain rfl := Numeral.ext chars
  exact ⟨rfl, rfl⟩

theorem numbers_writes : numbers.Writes := by
  intro t rest v h
  obtain ⟨n, -, -, read⟩ := h
  exact Number.writable_of_read read.symm

theorem Number.exists_head (n : Number) :
    ∃ x xs, n.token = x :: xs ∧ (x == '-' || isDigit x) = true := by
  obtain ⟨b, n, f⟩ := n
  rcases b with _ | _
  · obtain ⟨x, xs, hx, digit⟩ := n.exists_head
    refine ⟨x, xs ++ fractionChars f, ?_, by simp [digit]⟩
    show n.chars ++ fractionChars f = _
    rw [hx]
    rfl
  · exact ⟨'-', n.chars ++ fractionChars f, rfl, by simp⟩

theorem Number.skipBlanks_append (n : Number) (cs : List Char) :
    skipBlanks (n.token ++ cs) = n.token ++ cs := by
  obtain ⟨x, xs, hx, start⟩ := n.exists_head
  have blank : isBlank x = false := by
    rcases Bool.or_eq_true_iff.1 start with minus | digit
    · obtain rfl := beq_iff_eq.1 minus
      decide
    · exact isBlank_of_isDigit digit
  rw [hx, List.cons_append, skipBlanks_of_not blank]

theorem numbers_begins : numbers.Begins fun x => x == '-' || isDigit x := by
  intro t rest v h
  obtain ⟨n, rfl, -⟩ := h
  exact n.exists_head

theorem digitValues_fraction (f : Numeral) :
    digitValues ("." ++ String.ofList f.chars) = f.digitValues := by
  have point : digitValue? '.' = none := by decide
  have chars : ("." ++ String.ofList f.chars).toList = '.' :: f.chars := by
    simp
  rw [digitValues, Numeral.digitValues, chars, List.filterMap_cons_none point]

theorem numberOf_parts (n : Number) :
    numberOf (if n.negative then "-" else "") (String.ofList n.whole.chars)
      (fractionText n.fraction) = n.read := by
  obtain ⟨b, n, f⟩ := n
  have sign : ((if b then "-" else "") == "-") = b := by
    rcases b with _ | _ <;> rfl
  have whole : digitValues (String.ofList n.chars) = n.digitValues := by
    rw [digitValues, String.toList_ofList, Numeral.digitValues]
  rcases f with _ | f
  · have none : (fractionText none).isEmpty = true := rfl
    simp only [numberOf, sign, whole, none, if_true, positional_eq_ofDigits, String.length_ofList]
    rfl
  · have some : ("." ++ String.ofList f.chars).isEmpty = false := by
      rw [← Bool.not_eq_true, String.isEmpty_iff]
      intro h
      have nil := congrArg String.toList h
      rw [String.toList_append] at nil
      cases nil
    simp only [numberOf, sign, whole, fractionText, some, digitValues_fraction]
    rfl

variable {c : Cursor} {A : Store} {cs rest : List Char}

theorem exists_cons_or_refuses (x : Char) (cs : List Char) :
    (∃ xs, cs = x :: xs) ∨ Refuses (· == x) cs := by
  rcases cs with _ | ⟨y, xs⟩
  · exact .inr fun _ h => nomatch h
  · by_cases same : y = x
    · exact .inl ⟨xs, by rw [same]⟩
    · refine .inr fun z hz => ?_
      cases hz
      exact beq_eq_false_iff_ne.2 same

theorem eval_sign {negative : Bool} (h : c.rest = signChars negative ++ cs)
    (unsigned : negative = false → Refuses (· == '-') cs) :
    signParser.eval env c A = some (⟨[], .ok (.success (.str (if negative then "-" else ""))
      (c.skip (signChars negative).length))⟩, A) := by
  rcases negative with _ | _
  · have none : (charParser '-').eval env c A = some (⟨[], .ok (.failure c)⟩, A) :=
      congrFun (eval_satisfy_of_neg (h ▸ unsigned rfl)) A
    exact eval_option_of_failed none rfl
  · have minus : (charParser '-').eval env c A =
        some (⟨[], .ok (.success (.ofChar '-') c.next)⟩, A) := congrFun (eval_char '-' h) A
    exact eval_option_of_matched minus rfl

theorem eval_digits (n : Numeral) (h : c.rest = n.chars ++ rest) (ended : Refuses isDigit rest) :
    digitsParser.eval env c A =
      some (⟨[], .ok (.success (.str (String.ofList n.chars)) (c.skip n.chars.length))⟩, A) := by
  have run : (satisfy isDigit "digit").many1.eval env c A =
      some (⟨[], .ok (.success (.list (n.chars.map .ofChar)) (c.skip n.chars.length))⟩, A) :=
    congrFun (eval_many1_of_run h n.nonempty n.digits ended) A
  exact eval_map_of_ok run rfl (congrArg pure (Value.joined_map_ofChar n.chars)) rfl

theorem eval_digits_of_refuses (h : Refuses isDigit c.rest) :
    digitsParser.eval env c A = some (⟨[], .ok (.failure c)⟩, A) :=
  eval_map_of_failed (congrFun (eval_many1_of_refuses h) A) rfl

/-- A point and the digits behind it. -/
def pointParser : Parser :=
  (charParser '.').before (digitsParser.map fun v => pure (v.surrounded "." ""))

theorem eval_point (f : Numeral) (h : c.rest = '.' :: (f.chars ++ rest))
    (ended : Refuses isDigit rest) :
    pointParser.eval env c A = some (⟨[], .ok (.success (.str (fractionText (some f)))
      (c.skip (fractionChars (some f)).length))⟩, A) := by
  have point : (charParser '.').eval env c A =
      some (⟨[], .ok (.success (.ofChar '.') c.next)⟩, A) := congrFun (eval_char '.' h) A
  have digits : digitsParser.eval env c.next A = _ :=
    eval_digits f (Cursor.rest_next_of_cons h) ended
  have text : (Value.str (String.ofList f.chars)).surrounded "." "" =
      .str (fractionText (some f)) := congrArg Value.str String.append_empty
  have marked : (digitsParser.map fun v => pure (v.surrounded "." "")).eval env c.next A =
      some (⟨[], .ok (.success (.str (fractionText (some f)))
        (c.next.skip f.chars.length))⟩, A) :=
    eval_map_of_ok digits rfl (congrArg pure text) rfl
  rw [Cursor.skip_next] at marked
  rw [pointParser, before, eval_label]
  exact eval_both_of_ok point rfl marked rfl rfl

/-- A point is given back if no digit is behind it. -/
theorem eval_point_of_unpointed (free : Unpointed c.rest) :
    pointParser.eval env c A = some (⟨[], .ok (.failure c)⟩, A) := by
  rcases exists_cons_or_refuses '.' c.rest with ⟨xs, pointed⟩ | refused
  · have point : (charParser '.').eval env c A =
        some (⟨[], .ok (.success (.ofChar '.') c.next)⟩, A) := congrFun (eval_char '.' pointed) A
    have refused : Refuses isDigit c.next.rest := by
      intro x hx
      rw [Cursor.rest_next_of_cons pointed] at hx
      obtain ⟨ys, rfl⟩ := List.head?_eq_some_iff.1 hx
      exact free x ys pointed
    have dangling : (digitsParser.map fun v => pure (v.surrounded "." "")).eval env c.next A =
        some (⟨[], .ok (.failure c.next)⟩, A) :=
      eval_map_of_failed (eval_digits_of_refuses refused) rfl
    exact eval_before_of_dangling point rfl dangling rfl
  · have none : (charParser '.').eval env c A = some (⟨[], .ok (.failure c)⟩, A) :=
      congrFun (eval_satisfy_of_neg refused) A
    rw [pointParser, before, eval_label]
    exact eval_both_of_failed none rfl

theorem eval_fraction {f : Option Numeral} (h : c.rest = fractionChars f ++ rest)
    (ended : Refuses isDigit rest) (free : f = none → Unpointed rest) :
    fractionParser.eval env c A = some (⟨[], .ok (.success (.str (fractionText f))
      (c.skip (fractionChars f).length))⟩, A) := by
  rcases f with _ | f
  · have unpointed : Unpointed c.rest := h ▸ free rfl
    exact eval_option_of_failed (eval_point_of_unpointed unpointed) rfl
  · exact eval_option_of_matched (eval_point f h ended) rfl

/-- A number begins: there is a minus sign or none, and a digit right behind it. -/
def Starts (cs : List Char) : Prop :=
  ∃ negative x xs, cs = signChars negative ++ x :: xs ∧ isDigit x = true

theorem Number.starts (n : Number) (cs : List Char) : Starts (n.token ++ cs) := by
  obtain ⟨x, xs, hx, digit⟩ := n.whole.exists_head
  refine ⟨n.negative, x, xs ++ (fractionChars n.fraction ++ cs), ?_, digit⟩
  rw [n.token_append, hx]
  rfl

theorem exists_numeral {x : Char} (digit : isDigit x = true) (xs : List Char) :
    ∃ (n : Numeral) (rest : List Char), x :: xs = n.chars ++ rest ∧ Refuses isDigit rest := by
  have nonempty : (x :: xs).takeWhile isDigit ≠ [] := by simp [digit]
  let n : Numeral := ⟨_, nonempty, List.all_eq_true.1 List.all_takeWhile⟩
  exact ⟨n, _, (List.takeWhile_append_dropWhile).symm, refuses_dropWhile isDigit (x :: xs)⟩

/-- Behind digits there is a fraction, or there is none. -/
theorem exists_fraction (ended : Refuses isDigit cs) : ∃ (f : Option Numeral) (rest : List Char),
    cs = fractionChars f ++ rest ∧ Refuses isDigit rest ∧ (f = none → Unpointed rest) := by
  by_cases free : Unpointed cs
  · exact ⟨none, cs, rfl, ended, fun _ => free⟩
  · simp only [Unpointed, not_forall, Bool.not_eq_false] at free
    obtain ⟨x, xs, rfl, digit⟩ := free
    obtain ⟨f, rest, hf, ended'⟩ := exists_numeral digit xs
    exact ⟨some f, rest, by rw [hf]; rfl, ended', fun h => nomatch h⟩

/-- Where a number begins, one is there that may end where it does. -/
theorem Starts.exists_number (h : Starts cs) :
    ∃ (n : Number) (rest : List Char), cs = n.token ++ rest ∧ n.Ended rest := by
  obtain ⟨negative, x, xs, rfl, digit⟩ := h
  obtain ⟨whole, behind, hwhole, ended⟩ := exists_numeral digit xs
  obtain ⟨fraction, rest, rfl, ended', free⟩ := exists_fraction ended
  let n : Number := ⟨negative, whole, fraction⟩
  exact ⟨n, rest, by rw [n.token_append, hwhole], ended', free⟩

/-- The number that was read so far, behind its sign. -/
def unsignedParser (sign : Value) : Parser :=
  .andThen digitsParser (fun _ => []) fun w =>
    Grammar.Document.fraction.tryMap (numberOfValues sign w.value)

theorem eval_unsigned (n : Number) (h : c.rest = n.whole.chars ++ (fractionChars n.fraction ++ rest))
    (ended : n.Ended rest) :
    (unsignedParser (.str (if n.negative then "-" else ""))).eval env c A = some (⟨[],
      n.read.map fun v => .success v (c.skip (n.whole.chars ++ fractionChars n.fraction).length)⟩,
      A) := by
  have digits : digitsParser.eval env c A = _ :=
    eval_digits n.whole h (refuses_fraction ended.1 n.fraction)
  have fraction : fractionParser.eval env (c.skip n.whole.chars.length) A = _ :=
    eval_fraction (Cursor.rest_skip_of_append h) ended.1 ended.2
  let parts := numberOfValues (.str (if n.negative then "-" else ""))
    (.str (String.ofList n.whole.chars))
  have made : (Logged.ofExcept (parts (.str (fractionText n.fraction))) >>= Value.asConstant :
      Act Value) = Logged.ofExcept n.read := by
    have number : parts (.str (fractionText n.fraction)) = n.read := numberOf_parts n
    rw [number]
    rcases read : n.read with fault | v
    · rfl
    · exact Value.asConstant_of_writable (Number.writable_of_read read)
  have whole : (fractionParser.map fun v => Logged.ofExcept (parts v)).eval env
      (c.skip n.whole.chars.length) A = some (⟨[], n.read.map fun v =>
        .success v (c.skip (n.whole.chars ++ fractionChars n.fraction).length)⟩, A) := by
    rw [eval_map_of_matched fraction rfl, List.length_append, ← Cursor.skip_skip]
    simp only [Result.success, made]
    rfl
  rw [← Result.settle_success _ _ c]
  exact eval_andThen_of_matched digits rfl rfl whole

theorem eval_unspaced (n : Number) (h : c.rest = n.token ++ rest) (ended : n.Ended rest) :
    unspacedParser.eval env c A =
      some (⟨[], n.read.map fun v => .success v (c.skip n.token.length)⟩, A) := by
  rw [n.token_append] at h
  have sign : signParser.eval env c A = _ := eval_sign h fun _ => refuses_minus n.whole _
  have unsigned : (unsignedParser (.str (if n.negative then "-" else ""))).eval env
      (c.skip (signChars n.negative).length) A = _ :=
    eval_unsigned n (Cursor.rest_skip_of_append h) ended
  rw [Number.token, List.length_append, ← Cursor.skip_skip, ← Result.settle_success _ _ c]
  exact eval_andThen_of_matched sign rfl rfl unsigned

/-- A sign is given back if no digit is behind it. -/
theorem eval_unspaced_of_not_starts (h : ¬Starts c.rest) :
    unspacedParser.eval env c A = some (⟨[], .ok (.failure c)⟩, A) := by
  have signed : ∃ negative cs, c.rest = signChars negative ++ cs ∧
      (negative = false → Refuses (· == '-') cs) := by
    rcases exists_cons_or_refuses '-' c.rest with ⟨xs, minus⟩ | refused
    · exact ⟨true, xs, minus, fun h => nomatch h⟩
    · exact ⟨false, c.rest, rfl, fun _ => refused⟩
  obtain ⟨negative, cs, hc, unsigned⟩ := signed
  have refused : Refuses isDigit (c.skip (signChars negative).length).rest := by
    intro x hx
    rw [Cursor.rest_skip_of_append hc] at hx
    obtain ⟨xs, rfl⟩ := List.head?_eq_some_iff.1 hx
    rw [← Bool.not_eq_true]
    exact fun digit => h ⟨negative, x, xs, hc, digit⟩
  have sign : signParser.eval env c A = _ := eval_sign hc unsigned
  have failed : (unsignedParser (.str (if negative then "-" else ""))).eval env
      (c.skip (signChars negative).length) A = _ :=
    eval_andThen_of_failed (eval_digits_of_refuses refused) rfl
  exact eval_andThen_of_matched sign rfl rfl failed

theorem number_lexes : Lexes C env unspacedParser numbers := by
  intro c
  by_cases starts : Starts c.rest
  · obtain ⟨n, rest, there, ended⟩ := starts.exists_number
    have behind := Cursor.rest_skip_of_append there
    have token : numbers n.token (c.skip n.token.length).rest n.read := by
      rw [behind]
      exact ⟨n, rfl, ended, rfl⟩
    intro store hstore
    rw [eval_unspaced n there ended]
    rcases read : n.read with fault | v
    · exact ⟨hstore, n.token, _, read ▸ token, by rw [behind, there]⟩
    · have whole : c.rest = n.token ++ (c.skip n.token.length).rest := by rw [behind, there]
      exact ⟨hstore, n.token, read ▸ token, whole⟩
  · refine .of_failure (funext fun _ => eval_unspaced_of_not_starts starts) ?_
    rintro ⟨_, rest, _, ⟨n, rfl, -⟩, there⟩
    exact starts (there ▸ n.starts rest)

end Rewind.Grammar.Document
