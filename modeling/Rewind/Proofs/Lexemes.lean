import Mathlib.Data.List.Forall2
import Rewind.Proofs.Ends
import Rewind.Proofs.Layout
import Rewind.Rule.Characters

namespace Rewind

/-- Between two cursors stand some tokens, with blanks before, between and behind them. -/
def Cursor.Spans (tokens : List (List Char)) (c d : Cursor) : Prop :=
  ∃ read, Text.Written tokens read ∧ c.rest = read ++ d.rest

namespace Cursor.Spans

variable {tokens tokens' : List (List Char)} {c d e : Cursor}

theorem nil (c : Cursor) : Spans [] c c := ⟨[], .nil, rfl⟩

theorem token {token rest : List Char} (hc : Text.skipBlanks c.rest = token ++ rest)
    (hd : d.rest = Text.skipBlanks rest) : Spans [token] c d := by
  obtain ⟨before, hbefore, hgap⟩ := Text.exists_gap c.rest
  obtain ⟨behind, hbehind, hrest⟩ := Text.exists_gap rest
  refine ⟨before ++ (token ++ behind), .token hbefore hbehind, ?_⟩
  calc c.rest = before ++ (token ++ rest) := by rw [hgap, hc]
    _ = before ++ (token ++ (behind ++ d.rest)) := by rw [hd, ← hrest]
    _ = before ++ (token ++ behind) ++ d.rest := by simp only [List.append_assoc]

theorem append (h : Spans tokens c d) (h' : Spans tokens' d e) : Spans (tokens ++ tokens') c e := by
  obtain ⟨read, hread, hc⟩ := h
  obtain ⟨read', hread', hd⟩ := h'
  exact ⟨read ++ read', hread.append hread', by rw [hc, hd, List.append_assoc]⟩

theorem suffix (h : Spans tokens c d) : d.rest <:+ c.rest := by
  obtain ⟨read, -, hc⟩ := h
  exact ⟨read, hc.symm⟩

theorem mem_token (h : Spans tokens c d) {t : List Char} (ht : t ∈ tokens) {x : Char}
    (hx : x ∈ t) : x ∈ c.rest := by
  obtain ⟨read, hread, hc⟩ := h
  rw [hc]
  exact List.mem_append_left _ (hread.mem ht hx)

theorem length_le (h : Spans tokens c d) : d.rest.length ≤ c.rest.length := by
  obtain ⟨read, -, hc⟩ := h
  rw [hc, List.length_append]
  omega

theorem length_lt (h : Spans tokens c d) {t : List Char} (ht : t ∈ tokens) (some : t ≠ []) :
    d.rest.length < c.rest.length := by
  obtain ⟨read, hread, hc⟩ := h
  obtain ⟨x, hx⟩ := List.exists_mem_of_ne_nil t some
  have inside : 0 < read.length := List.length_pos_of_mem (hread.mem ht hx)
  rw [hc, List.length_append]
  omega

theorem blanks (c : Cursor) : Spans [] c c.skipBlanks := by
  obtain ⟨gap, hgap, hrest⟩ := Text.exists_gap c.rest
  exact ⟨gap, ⟨gap, [], hgap, .nil, (List.append_nil gap).symm⟩, by rw [rest_skipBlanks, ← hrest]⟩

theorem written {text : Array Char} (h : Spans tokens (.start text) d) (hd : d.rest = []) :
    Text.Written tokens text.toList := by
  obtain ⟨read, hread, htext⟩ := h
  have whole : text.toList = read ++ d.rest := htext
  rw [whole, hd, List.append_nil]
  exact hread

end Cursor.Spans

/-- What each pair has makes all items on the right have it. -/
theorem forall_mem_of_forall₂ {α β : Type} {R : α → β → Prop} {P : β → Prop} {xs : List α}
    {ys : List β} (h : List.Forall₂ R xs ys) (each : ∀ x y, R x y → P y) : ∀ y ∈ ys, P y := by
  induction h with
  | nil => exact fun _ hy => nomatch hy
  | cons first _ ih => exact List.forall_mem_cons.2 ⟨each _ _ first, ih⟩

theorem Rule.isMember_membersOf (s : String) (x : Char) :
    isMember (membersOf s) x = s.toList.contains x := by
  have inj : Function.Injective String.singleton := by
    intro a b h
    simpa using congrArg String.toList h
  simp [isMember, membersOf, inj.eq_iff]

/-- Tokens, each with what may be left behind it and what comes of it. -/
abbrev Lexicon := List Char → List Char → Except Fault Value → Prop

namespace Lexicon

variable {L : Lexicon} {test : Char → Bool} {cs : List Char} {f : Value → Except Fault Value}

/-- A token stands at the front of the text. -/
def At (L : Lexicon) (cs : List Char) : Prop := ∃ t rest o, L t rest o ∧ cs = t ++ rest

/-- A token that is refused with the fault stands at the front of the text. -/
def Refused (L : Lexicon) (cs : List Char) (fault : Fault) : Prop :=
  ∃ t rest, L t rest (.error fault) ∧ cs = t ++ rest

/-- No text has two tokens at its front, and of no token come two things. -/
def Clear (L : Lexicon) : Prop :=
  ∀ t rest o t' rest' o', L t rest o → L t' rest' o' → t ++ rest = t' ++ rest' → t = t' ∧ o = o'

/-- All tokens begin with a character that passes the test. -/
def Begins (L : Lexicon) (test : Char → Bool) : Prop :=
  ∀ t rest o, L t rest o → ∃ x xs, t = x :: xs ∧ test x = true

/-- All values can be written. -/
def Writes (L : Lexicon) : Prop := ∀ t rest v, L t rest (.ok v) → v.writable = true

theorem Begins.not_at (h : L.Begins test) (refused : Text.Refuses test cs) : ¬L.At cs := by
  intro there
  obtain ⟨t, rest, o, ht, rfl⟩ := there
  obtain ⟨x, xs, rfl, passed⟩ := h t rest o ht
  rw [refused x rfl] at passed
  cases passed

theorem Refused.at {fault : Fault} (h : L.Refused cs fault) : L.At cs := by
  obtain ⟨t, rest, ht, hc⟩ := h
  exact ⟨t, rest, _, ht, hc⟩

/-- One character that passes a test. -/
def one (test : Char → Bool) : Lexicon := fun t _ o =>
  ∃ x, test x = true ∧ t = [x] ∧ o = .ok (.ofChar x)

theorem one_clear (test : Char → Bool) : (one test).Clear := by
  intro t rest o t' rest' o' h h' same
  obtain ⟨x, -, rfl, rfl⟩ := h
  obtain ⟨y, -, rfl, rfl⟩ := h'
  cases same
  exact ⟨rfl, rfl⟩

theorem one_begins (test : Char → Bool) : (one test).Begins test := by
  intro t rest o h
  obtain ⟨x, passed, rfl, -⟩ := h
  exact ⟨x, [], rfl, passed⟩

theorem one_writes (test : Char → Bool) : (one test).Writes := by
  intro t rest v h
  obtain ⟨x, -, -, same⟩ := h
  cases same
  rfl

theorem refuses_of_not_at (h : ¬(one test).At cs) : Text.Refuses test cs := by
  intro x hx
  obtain ⟨xs, rfl⟩ := List.head?_eq_some_iff.1 hx
  rw [← Bool.not_eq_true]
  intro passed
  exact h ⟨[x], xs, _, ⟨x, passed, rfl, rfl⟩, rfl⟩

/-- A run of characters that pass a test, as long as there are any. -/
def run (test : Char → Bool) : Lexicon := fun t rest o =>
  (∀ x ∈ t, test x = true) ∧ Text.Refuses test rest ∧ o = .ok (.list (t.map .ofChar))

theorem run_clear (test : Char → Bool) : (run test).Clear := by
  intro t rest o t' rest' o' h h' same
  obtain ⟨passed, ended, rfl⟩ := h
  obtain ⟨passed', ended', rfl⟩ := h'
  obtain ⟨rfl, -⟩ := ended.unique ended' passed passed' same
  exact ⟨rfl, rfl⟩

/-- A run that is not empty. -/
def run1 (test : Char → Bool) : Lexicon := fun t rest o => t ≠ [] ∧ run test t rest o

theorem run1_clear (test : Char → Bool) : (run1 test).Clear := by
  intro t rest o t' rest' o' h h' same
  exact run_clear test _ _ _ _ _ _ h.2 h'.2 same

theorem run1_begins (test : Char → Bool) : (run1 test).Begins test := by
  intro t rest o h
  obtain ⟨nonempty, passed, -⟩ := h
  obtain ⟨x, xs, rfl⟩ := List.exists_cons_of_ne_nil nonempty
  exact ⟨x, xs, rfl, passed x List.mem_cons_self⟩

/-- One text, with one value. -/
def literal (chars : List Char) (value : Value) : Lexicon := fun t _ o => t = chars ∧ o = .ok value

theorem literal_clear (chars : List Char) (value : Value) : (literal chars value).Clear := by
  intro t rest o t' rest' o' h h' _
  obtain ⟨rfl, rfl⟩ := h
  obtain ⟨rfl, rfl⟩ := h'
  exact ⟨rfl, rfl⟩

theorem literal_writes (chars : List Char) {value : Value} (fits : value.writable = true) :
    (literal chars value).Writes := by
  intro t rest v h
  obtain ⟨-, same⟩ := h
  cases same
  exact fits

/-- The same tokens with changed values, some of which may be refused. -/
def map (L : Lexicon) (f : Value → Except Fault Value) : Lexicon := fun t rest o =>
  ∃ o', L t rest o' ∧ o = o' >>= f

theorem Clear.map (h : L.Clear) (f : Value → Except Fault Value) : (L.map f).Clear := by
  intro t rest o t' rest' o' hw hw' same
  obtain ⟨w, hv, rfl⟩ := hw
  obtain ⟨w', hv', rfl⟩ := hw'
  obtain ⟨rfl, rfl⟩ := h _ _ _ _ _ _ hv hv' same
  exact ⟨rfl, rfl⟩

theorem Begins.map (h : L.Begins test) (f : Value → Except Fault Value) : (L.map f).Begins test := by
  intro t rest o hw
  obtain ⟨w, hv, -⟩ := hw
  exact h t rest w hv

theorem at_map : (L.map f).At cs ↔ L.At cs := by
  constructor
  · intro there
    obtain ⟨t, rest, _, ⟨o, ht, -⟩, hc⟩ := there
    exact ⟨t, rest, o, ht, hc⟩
  · intro there
    obtain ⟨t, rest, o, ht, hc⟩ := there
    exact ⟨t, rest, _, ⟨o, ht, rfl⟩, hc⟩

end Lexicon

namespace Parser

variable {C : Contract} {env : Env} {p : Parser} {L : Lexicon} {c : Cursor}
  {raises : Fault → Prop} {fails : Prop} {t rest : List Char} {o : Except Fault Value}

section Runs

variable {test : Char → Bool} {name : String}

/-- A run of characters that pass a test, where the first one behind it does not. -/
theorem eval_many1_of_run {run : List Char} (h : c.rest = run ++ rest) (nonempty : run ≠ [])
    (passed : ∀ x ∈ run, test x = true) (ended : Text.Refuses test rest) :
    eval env (satisfy test name).many1 c =
      pure (.success (.list (run.map .ofChar)) (c.skip run.length)) := by
  obtain ⟨x, xs, rfl⟩ := List.exists_cons_of_ne_nil nonempty
  have first : test x = true := passed x List.mem_cons_self
  have later : c.next.rest = xs ++ rest := Cursor.rest_next_of_cons h
  have others : c.next.rest.takeWhile test = xs := by
    rw [later, ended.takeWhile_append fun y hy => passed y (List.mem_cons_of_mem x hy)]
  rw [many1, eval_label, cons, eval_both, eval_satisfy_of_pos h first, LawfulMonad.pure_bind]
  simp only [Result.success, if_true, eval_many_satisfy, LawfulMonad.pure_bind, others,
    Cursor.skipWhile, Cursor.skip_next]
  have fits : ((Value.ofChar x).cons (.list (xs.map .ofChar))).writable = true :=
    Value.writable_chars (x :: xs)
  rw [Run.ofAct_asConstant fits]
  rfl

theorem eval_many1_of_refuses (h : Text.Refuses test c.rest) :
    eval env (satisfy test name).many1 c = pure (.failure c) := by
  rw [many1, eval_label, cons, eval_both, eval_satisfy_of_neg h, LawfulMonad.pure_bind]
  rfl

end Runs

/-- Takes a token of the lexicon or raises what comes of it, and fails only where none stands. -/
def Lexes (C : Contract) (env : Env) (p : Parser) (L : Lexicon) : Prop :=
  ∀ c : Cursor, Ends C env p c (L.Refused c.rest) (¬L.At c.rest) fun v d =>
    ∃ t, L t d.rest (.ok v) ∧ c.rest = t ++ d.rest

theorem satisfy_lexes (test : Char → Bool) (name : String) :
    Lexes C env (satisfy test name) (.one test) := by
  intro c
  rcases hc : c.rest with _ | ⟨x, xs⟩
  · have none : Text.Refuses test c.rest := by
      intro x hx
      rw [hc] at hx
      cases hx
    rw [hc] at none
    exact .of_failure (eval_satisfy_of_neg (by rwa [hc])) ((Lexicon.one_begins test).not_at none)
  · by_cases hx : test x = true
    · have later := Cursor.rest_next_of_cons hc
      refine .of_success (eval_satisfy_of_pos hc hx) ⟨[x], ⟨x, hx, rfl, rfl⟩, ?_⟩
      rw [later]
      rfl
    · have none : Text.Refuses test (x :: xs) := by
        intro y hy
        cases hy
        simpa using hx
      exact .of_failure (eval_satisfy_of_neg (by rwa [hc])) ((Lexicon.one_begins test).not_at none)

/-- One character is no reason for a fault. -/
theorem satisfy_ends (test : Char → Bool) (name : String) (c : Cursor) :
    Ends C env (satisfy test name) c raises (¬(Lexicon.one test).At c.rest) fun v d =>
      ∃ x, v = .ofChar x ∧ test x = true ∧ c.rest = x :: d.rest := by
  refine (satisfy_lexes test name c).imp ?_ id ?_
  · rintro fault ⟨_, _, ⟨_, -, -, hf⟩, -⟩
    cases hf
  · rintro v d ⟨_, ⟨x, passed, rfl, hv⟩, hc⟩
    cases hv
    exact ⟨x, rfl, passed, hc⟩

theorem many_satisfy_ends (test : Char → Bool) (name : String) (c : Cursor) :
    Ends C env (many (satisfy test name)) c raises False fun v d =>
      ∃ t, v = .list (t.map .ofChar) ∧ (∀ x ∈ t, test x = true) ∧ Text.Refuses test d.rest ∧
        c.rest = t ++ d.rest := by
  refine .of_success (eval_many_satisfy test name c) ⟨c.rest.takeWhile test, rfl, ?_, ?_, ?_⟩
  · exact List.all_eq_true.1 List.all_takeWhile
  · rw [Cursor.rest_skipWhile]
    exact Text.refuses_dropWhile test c.rest
  · rw [Cursor.rest_skipWhile, List.takeWhile_append_dropWhile]

theorem many1_satisfy_lexes (test : Char → Bool) (name : String) :
    Lexes C env (satisfy test name).many1 (.run1 test) := by
  intro c
  refine .label (.both ((satisfy_ends test name c).imp (fun _ hf => hf) ?_ ?_))
  · intro none there
    obtain ⟨t, rest, o, ht, hc⟩ := there
    obtain ⟨x, xs, rfl, passed⟩ := Lexicon.run1_begins test t rest o ht
    exact none ⟨[x], xs ++ rest, _, ⟨x, passed, rfl, rfl⟩, hc⟩
  · intro v d hv
    obtain ⟨x, rfl, passed, hc⟩ := hv
    refine (many_satisfy_ends test name d).imp (fun _ hf => hf) False.elim ?_
    intro w e hw
    obtain ⟨t, rfl, ht, ended, hd⟩ := hw
    refine Value.asConstant_ends (Value.writable_chars (x :: t)) ⟨x :: t, ?_, ?_⟩
    · exact ⟨List.cons_ne_nil x t, List.forall_mem_cons.2 ⟨passed, ht⟩, ended, rfl⟩
    · rw [hc, hd]
      rfl

theorem literal_lexes (chars : List Char) (value : Value) :
    Lexes C env (.atom (.literal chars value)) (.literal chars value) := by
  intro c
  have read : eval env (.atom (.literal chars value)) c = _ := eval_literal chars value c
  by_cases there : chars <+: c.rest
  · rw [if_pos there] at read
    obtain ⟨rest, hc⟩ := there
    refine .of_success read ⟨chars, ⟨rfl, rfl⟩, ?_⟩
    rw [Cursor.rest_skip_of_append hc.symm, hc]
  · rw [if_neg there] at read
    refine .of_failure read ?_
    rintro ⟨t, rest, o, ⟨rfl, -⟩, hc⟩
    exact there ⟨rest, hc.symm⟩

namespace Lexes

/-- What the change gives must be writable. -/
theorem map {f : Value → Except Fault Value} (h : Lexes C env p L) (writes : (L.map f).Writes) :
    Lexes C env (p.map fun v => Logged.ofExcept (f v)) (L.map f) := by
  intro c
  refine .map ((h c).imp ?_ ?_ ?_)
  · intro fault hf
    obtain ⟨t, rest, ht, hc⟩ := hf
    exact ⟨t, rest, ⟨_, ht, rfl⟩, hc⟩
  · exact fun none there => none (Lexicon.at_map.1 there)
  · intro v d hv
    obtain ⟨t, ht, hc⟩ := hv
    have token : L.map f t d.rest (f v) := ⟨_, ht, rfl⟩
    refine Value.ofExcept_asConstant_ends ?_ ?_
    · exact fun fault hf => ⟨t, d.rest, hf ▸ token, hc⟩
    · exact fun w hw => ⟨writes t d.rest w (hw ▸ token), t, hw ▸ token, hc⟩

theorem takes (h : Lexes C env p L) (clear : L.Clear) (ht : L t rest o)
    (hc : c.rest = t ++ rest) : Ends C env p c (fun fault => o = .error fault) fails fun w d =>
      o = .ok w ∧ d.rest = rest := by
  refine (h c).imp ?_ (fun none => absurd ⟨t, rest, o, ht, hc⟩ none) ?_
  · intro fault hf
    obtain ⟨t', rest', ht', hc'⟩ := hf
    exact (clear _ _ _ _ _ _ ht ht' (hc.symm.trans hc')).2
  · intro w d hw
    obtain ⟨t', ht', hc'⟩ := hw
    rw [hc] at hc'
    obtain ⟨rfl, rfl⟩ := clear _ _ _ _ _ _ ht ht' hc'
    exact ⟨rfl, (List.append_cancel_left hc').symm⟩

theorem rejects (h : Lexes C env p L) (none : ¬L.At c.rest) (hc : fails) :
    Ends C env p c raises fails fun _ _ => False := by
  refine (h c).imp (fun _ hf => absurd hf.at none) (fun _ => hc) ?_
  intro v d hv
  obtain ⟨t, ht, there⟩ := hv
  exact none ⟨t, d.rest, _, ht, there⟩

theorem token_takes (h : Lexes C env p L) (writes : L.Writes) (clear : L.Clear) (ht : L t rest o)
    (hc : Text.skipBlanks c.rest = t ++ rest) :
    Ends C env p.token c (fun fault => o = .error fault) fails fun w d =>
      o = .ok w ∧ d.rest = Text.skipBlanks rest := by
  refine .token ((h.takes clear ht (by rw [Cursor.rest_skipBlanks, hc])).weaken ?_)
  intro w d hw
  obtain ⟨rfl, hd⟩ := hw
  refine Value.asConstant_ends (writes t rest w ht) ⟨rfl, ?_⟩
  rw [Cursor.rest_skipBlanks, hd]

theorem token_rejects (h : Lexes C env p L) (none : ¬L.At (Text.skipBlanks c.rest)) (hc : fails) :
    Ends C env p.token c raises fails fun _ _ => False := by
  refine .token ((h.rejects ?_ hc).weaken fun _ _ => False.elim)
  rw [Cursor.rest_skipBlanks]
  exact none

theorem token_spans (h : Lexes C env p L) (writes : L.Writes) (c : Cursor)
    (faults : ∀ fault, L.Refused (Text.skipBlanks c.rest) fault → raises fault) :
    Ends C env p.token c raises True fun v d =>
      ∃ t rest, L t rest (.ok v) ∧ Cursor.Spans [t] c d := by
  have skipped := h c.skipBlanks
  rw [Cursor.rest_skipBlanks] at skipped
  refine .token (skipped.imp faults (fun _ => trivial) ?_)
  intro v d hv
  obtain ⟨t, ht, hc⟩ := hv
  exact Value.asConstant_ends (writes t d.rest v ht)
    ⟨t, d.rest, ht, .token hc (Cursor.rest_skipBlanks d)⟩

end Lexes

end Parser

end Rewind
