import Rewind.Proofs.Reading

namespace Rewind.Text

/-- Tokens in order, each with blanks behind it. -/
inductive Spaced : List (List Char) → List Char → Prop
  | nil : Spaced [] []
  | cons {token gap text : List Char} {tokens : List (List Char)}
      (blank : ∀ x ∈ gap, isBlank x = true) (later : Spaced tokens text) :
      Spaced (token :: tokens) (token ++ (gap ++ text))

/-- Tokens in order, with blanks also before the first one. -/
def Written (tokens : List (List Char)) (text : List Char) : Prop :=
  ∃ gap body, (∀ x ∈ gap, isBlank x = true) ∧ Spaced tokens body ∧ text = gap ++ body

/-- Items with a separator between them. -/
def separated (separator : List Char) : List (List (List Char)) → List (List Char)
  | [] => []
  | tokens :: rest => tokens ++ rest.flatMap fun later => separator :: later

/-- The first token begins with a character that passes the test. -/
def Begins (test : Char → Bool) (tokens : List (List Char)) : Prop :=
  ∃ x t ts, tokens = (x :: t) :: ts ∧ test x = true

/-- What is left, but for blanks, is nothing or begins with one of the characters. -/
def Follows (stops : Char → Prop) (cs : List Char) : Prop :=
  ∀ x, (skipBlanks cs).head? = some x → stops x

/-- The first character, if there is one, does not pass a test. -/
def Refuses (test : Char → Bool) (cs : List Char) : Prop := ∀ x, cs.head? = some x → test x = false

variable {tokens tokens' : List (List Char)} {text text' : List Char}

/-- Characters that a test tells apart are not equal. -/
theorem beq_of_test {test : Char → Bool} {x y : Char} (hx : test x = true) (hy : test y = false) :
    (x == y) = false := by
  rw [beq_eq_false_iff_ne]
  rintro rfl
  rw [hx] at hy
  cases hy

theorem length_skipBlanks_le (cs : List Char) : (skipBlanks cs).length ≤ cs.length := by
  obtain ⟨gap, -, hcs⟩ := exists_gap cs
  have h := congrArg List.length hcs
  rw [List.length_append] at h
  omega

theorem Spaced.append (h : Spaced tokens text) (h' : Spaced tokens' text') :
    Spaced (tokens ++ tokens') (text ++ text') := by
  induction h with
  | nil => exact h'
  | cons blank later ih =>
    simp only [List.append_assoc, List.cons_append]
    exact .cons blank ih

theorem Spaced.uncons {token : List Char} (h : Spaced (token :: tokens) text) :
    ∃ gap body, (∀ x ∈ gap, isBlank x = true) ∧ Spaced tokens body ∧
      text = token ++ (gap ++ body) := by
  rcases h with _ | ⟨blank, later⟩
  exact ⟨_, _, blank, later, rfl⟩

theorem Spaced.split (h : Spaced (tokens ++ tokens') text) :
    ∃ front back, Spaced tokens front ∧ Spaced tokens' back ∧ text = front ++ back := by
  induction tokens generalizing text with
  | nil => exact ⟨[], text, .nil, h, rfl⟩
  | cons token tokens ih =>
    obtain ⟨gap, body, blank, later, rfl⟩ := h.uncons
    obtain ⟨front, back, hfront, hback, rfl⟩ := ih later
    exact ⟨_, back, .cons blank hfront, hback, by simp only [List.append_assoc]⟩

theorem Spaced.single {token : List Char} (h : Spaced [token] text) :
    ∃ gap, (∀ x ∈ gap, isBlank x = true) ∧ text = token ++ gap := by
  obtain ⟨gap, body, blank, later, rfl⟩ := h.uncons
  rcases later
  exact ⟨gap, blank, by rw [List.append_nil]⟩

theorem Spaced.singleton (token : List Char) {gap : List Char}
    (hgap : ∀ x ∈ gap, isBlank x = true) : Spaced [token] (token ++ gap) := by
  have h : Spaced [token] (token ++ (gap ++ [])) := .cons hgap .nil
  rw [List.append_nil] at h
  exact h

theorem Spaced.mem (h : Spaced tokens text) {token : List Char} (ht : token ∈ tokens) {x : Char}
    (hx : x ∈ token) : x ∈ text := by
  induction h with
  | nil => cases ht
  | cons blank later ih =>
    rcases List.mem_cons.1 ht with rfl | ht
    · exact List.mem_append_left _ hx
    · exact List.mem_append_right _ (List.mem_append_right _ (ih ht))

theorem Spaced.append_blanks (h : Spaced tokens text) (some : tokens ≠ []) {gap : List Char}
    (hgap : ∀ x ∈ gap, isBlank x = true) : Spaced tokens (text ++ gap) := by
  induction h with
  | nil => exact absurd rfl some
  | @cons token gap' text tokens blank later ih =>
    rcases tokens with _ | ⟨next, tokens⟩
    · -- Behind the last token the gaps join.
      rcases later
      rw [List.append_nil, List.append_assoc]
      have both : ∀ x ∈ gap' ++ gap, isBlank x = true := by
        intro x hx
        rcases List.mem_append.1 hx with hx | hx
        · exact blank x hx
        · exact hgap x hx
      exact .singleton token both
    · simp only [List.append_assoc]
      exact .cons blank (ih (List.cons_ne_nil next tokens))

/-- A text is spaced by the blanks that stand behind each token. -/
theorem Spaced.of_gaps (pairs : List (List Char × List Char))
    (blank : (pairs.all fun pair => pair.2.all isBlank) = true) :
    Spaced (pairs.map Prod.fst) (pairs.flatMap fun pair => pair.1 ++ pair.2) := by
  induction pairs with
  | nil => exact .nil
  | cons pair pairs ih =>
    rw [List.all_cons, Bool.and_eq_true] at blank
    rw [List.map_cons, List.flatMap_cons, List.append_assoc]
    exact .cons (List.all_eq_true.1 blank.1) (ih blank.2)

theorem Written.nil : Written [] [] := ⟨[], [], by simp, .nil, rfl⟩

theorem Written.of_gaps (pairs : List (List Char × List Char))
    (blank : (pairs.all fun pair => pair.2.all isBlank) = true) :
    Written (pairs.map Prod.fst) (pairs.flatMap fun pair => pair.1 ++ pair.2) :=
  ⟨[], _, by simp, .of_gaps pairs blank, rfl⟩

theorem Written.token {token before behind : List Char} (hbefore : ∀ x ∈ before, isBlank x = true)
    (hbehind : ∀ x ∈ behind, isBlank x = true) : Written [token] (before ++ (token ++ behind)) := by
  exact ⟨before, token ++ behind, hbefore, .singleton token hbehind, rfl⟩

theorem Written.append (h : Written tokens text) (h' : Written tokens' text') :
    Written (tokens ++ tokens') (text ++ text') := by
  obtain ⟨gap, body, hgap, hbody, rfl⟩ := h
  obtain ⟨gap', body', hgap', hbody', rfl⟩ := h'
  rcases tokens with _ | ⟨first, tokens⟩
  · -- Without tokens the text is a gap in front of the next one.
    rcases hbody
    refine ⟨gap ++ gap', body', ?_, hbody', by simp only [List.append_assoc, List.nil_append]⟩
    intro x hx
    rcases List.mem_append.1 hx with hx | hx
    · exact hgap x hx
    · exact hgap' x hx
  · have padded := hbody.append_blanks (List.cons_ne_nil first tokens) hgap'
    exact ⟨gap, _, hgap, padded.append hbody', by simp only [List.append_assoc]⟩

theorem Written.mem (h : Written tokens text) {token : List Char} (ht : token ∈ tokens) {x : Char}
    (hx : x ∈ token) : x ∈ text := by
  obtain ⟨gap, body, -, hbody, rfl⟩ := h
  exact List.mem_append_right _ (hbody.mem ht hx)

theorem Spaced.sublist (h : Spaced tokens text) : tokens.flatten.Sublist text := by
  induction h with
  | nil => exact .slnil
  | cons blank later ih => exact (ih.trans (List.sublist_append_right _ _)).append_left _

theorem Written.sublist (h : Written tokens text) : tokens.flatten.Sublist text := by
  obtain ⟨gap, body, -, hbody, rfl⟩ := h
  exact hbody.sublist.trans (List.sublist_append_right gap body)

theorem Begins.of_not_blank {x : Char} (blank : isBlank x = false) (tokens : List (List Char)) :
    Begins (fun y => !isBlank y) ([x] :: tokens) := by
  refine ⟨x, [], tokens, rfl, ?_⟩
  show (!isBlank x) = true
  rw [blank]
  rfl

theorem Begins.exists_cons {test : Char → Bool} (h : Begins test tokens)
    (spaced : Spaced tokens text) : ∃ x xs, text = x :: xs ∧ test x = true := by
  obtain ⟨x, t, ts, rfl, passed⟩ := h
  obtain ⟨gap, body, -, -, rfl⟩ := spaced.uncons
  exact ⟨x, t ++ (gap ++ body), rfl, passed⟩

section Follows

variable {stops stops' : Char → Prop} {test : Char → Bool} {cs : List Char}

theorem Follows.mono (h : Follows stops cs) (more : ∀ x, stops x → stops' x) : Follows stops' cs :=
  fun x hx => more x (h x hx)

theorem Follows.any (cs : List Char) : Follows (fun _ => True) cs := fun _ _ => trivial

theorem Follows.nil (stops : Char → Prop) : Follows stops [] := by
  intro x hx
  cases hx

theorem Follows.head {x : Char} (h : isBlank x = false) (hx : stops x) :
    Follows stops (x :: cs) := by
  intro y hy
  rw [skipBlanks_of_not h] at hy
  cases hy
  exact hx

theorem Follows.refuses_skipBlanks (h : Follows stops cs) (stop : ∀ x, stops x → test x = false) :
    Refuses test (skipBlanks cs) :=
  fun x hx => stop x (h x hx)

/-- Blanks and what may follow them end a run of characters that are neither blanks nor stops. -/
theorem Follows.refuses {gap : List Char} (h : Follows stops cs)
    (stop : ∀ x, stops x → test x = false) (blank : ∀ x, isBlank x = true → test x = false)
    (hgap : ∀ x ∈ gap, isBlank x = true) : Refuses test (gap ++ cs) := by
  intro x hx
  by_cases hb : isBlank x = true
  · exact blank x hb
  · -- What is no blank stands behind the gap, so it is one of the stops.
    have hx' : isBlank x = false := by simpa using hb
    rcases gap with _ | ⟨y, gap⟩
    · rcases cs with _ | ⟨y, cs⟩
      · cases hx
      · cases hx
        exact stop x (h x (by rw [skipBlanks_of_not hx']; rfl))
    · cases hx
      exact absurd (hgap x List.mem_cons_self) hb

end Follows

theorem refuses_dropWhile (test : Char → Bool) (cs : List Char) :
    Refuses test (cs.dropWhile test) := by
  intro x hx
  have last := List.head?_dropWhile_not test cs
  rw [hx] at last
  simpa using last

/-- The longest run that passes a test is one run only. -/
theorem Refuses.unique {test : Char → Bool} {run rest run' rest' : List Char}
    (h : Refuses test rest) (h' : Refuses test rest') (passed : ∀ x ∈ run, test x = true)
    (passed' : ∀ x ∈ run', test x = true) (same : run ++ rest = run' ++ rest') :
    run = run' ∧ rest = rest' := by
  induction run generalizing run' with
  | nil =>
    rcases run' with _ | ⟨x, run'⟩
    · exact ⟨rfl, same⟩
    · have hx := h x (by rw [show rest = _ from same]; rfl)
      rw [passed' x List.mem_cons_self] at hx
      cases hx
  | cons x run ih =>
    rcases run' with _ | ⟨y, run'⟩
    · have hx := h' x (by rw [← show _ = rest' from same]; rfl)
      rw [passed x List.mem_cons_self] at hx
      cases hx
    · simp only [List.cons_append, List.cons.injEq] at same
      have later := ih (fun z hz => passed z (List.mem_cons_of_mem x hz))
        (fun z hz => passed' z (List.mem_cons_of_mem y hz)) same.2
      exact ⟨by rw [same.1, later.1], later.2⟩

theorem Refuses.takeWhile_append {test : Char → Bool} {run rest : List Char} (h : Refuses test rest)
    (passed : ∀ x ∈ run, test x = true) : (run ++ rest).takeWhile test = run := by
  have longest := h.unique (refuses_dropWhile test (run ++ rest)) passed
    (List.all_eq_true.1 List.all_takeWhile) List.takeWhile_append_dropWhile.symm
  exact longest.1.symm

theorem Refuses.takeWhile_nil {test : Char → Bool} {cs : List Char} (h : Refuses test cs) :
    cs.takeWhile test = [] :=
  h.takeWhile_append fun _ mem => absurd mem List.not_mem_nil

end Rewind.Text
