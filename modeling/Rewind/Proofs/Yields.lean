import Rewind.Proofs.Lexemes

namespace Rewind.Parser

open Text

/-- Tokens that go together with a value. -/
abbrev Phrases := List (List Char) → Value → Prop

/-- Phrases of tokens of a kind, with values that can be written. -/
structure Phrases.Of (T : List Char → Prop) (F : Phrases) : Prop where
  tokens : ∀ {tokens v}, F tokens v → ∀ t ∈ tokens, T t
  writes : ∀ {tokens v}, F tokens v → v.writable = true

/-- Phrases with a separator between them, and the list of their values. -/
def Phrases.listed (t : List Char) (F : Phrases) : Phrases := fun tokens v =>
  ∃ tss vs, tokens = separated t tss ∧ v = .list vs ∧ List.Forall₂ F tss vs

/-- Tokens of a kind lead from one cursor to another. -/
def Over (T : List Char → Prop) (c d : Cursor) : Prop :=
  ∃ tokens, Cursor.Spans tokens c d ∧ ∀ t ∈ tokens, T t

section Over

variable {T : List Char → Prop} {c d e : Cursor}

theorem Over.refl (c : Cursor) : Over T c c := ⟨[], .nil c, fun _ ht => nomatch ht⟩

theorem Over.trans (h : Over T c d) (h' : Over T d e) : Over T c e := by
  obtain ⟨tokens, spans, all⟩ := h
  obtain ⟨tokens', spans', all'⟩ := h'
  refine ⟨tokens ++ tokens', spans.append spans', fun t ht => ?_⟩
  rcases List.mem_append.1 ht with ht | ht
  · exact all t ht
  · exact all' t ht

theorem Over.length_le (h : Over T c d) : d.rest.length ≤ c.rest.length := by
  obtain ⟨tokens, spans, -⟩ := h
  exact spans.length_le

end Over

/-- A match at the cursor reads a layout of a phrase and gives its value. -/
def Yields (C : Contract) (env : Env) (p : Parser) (raises : Fault → Prop) (F : Phrases)
    (c : Cursor) : Prop :=
  Ends C env p c raises True fun v d => ∃ tokens, Cursor.Spans tokens c d ∧ F tokens v

variable {C : Contract} {env : Env} {p q sep : Parser} {raises : Fault → Prop} {F G : Phrases}
  {L : Lexicon} {c : Cursor} {t : List Char} {T : List Char → Prop}

namespace Yields

theorem mono (h : Yields C env p raises F c) (more : ∀ tokens v, F tokens v → G tokens v) :
    Yields C env p raises G c :=
  h.weaken fun _ _ hv => hv.imp fun tokens htokens => ⟨htokens.1, more tokens _ htokens.2⟩

theorem token (h : Lexes C env p L) (writes : L.Writes) (c : Cursor)
    (faults : ∀ fault, L.Refused (skipBlanks c.rest) fault → raises fault) :
    Yields C env p.token raises (fun tokens v => ∃ t rest, tokens = [t] ∧ L t rest (.ok v)) c := by
  refine (h.token_spans writes c faults).weaken fun v d hv => ?_
  obtain ⟨t, rest, ht, read⟩ := hv
  exact ⟨[t], read, t, rest, rfl, ht⟩

theorem map {f : Value → Value} (h : Yields C env p raises (fun tokens v => F tokens (f v)) c)
    (of : F.Of T) : Yields C env (p.map fun v => pure (f v)) raises F c := by
  refine Ends.map (h.weaken fun v d hv => ?_)
  obtain ⟨tokens, read, hF⟩ := hv
  exact Value.asConstant_ends (of.writes hF) ⟨tokens, read, hF⟩

theorem or (h : Yields C env p raises F c) (h' : Yields C env q raises F c) :
    Yields C env (.or p q) raises F c :=
  Ends.or h fun _ => h'

/-- One part after another, where the second may rely on what the first has read. -/
theorem before (h : Yields C env p raises F c)
    (h' : ∀ tokens x d, Cursor.Spans tokens c d → F tokens x → Yields C env q raises G d) :
    Yields C env (p.before q) raises
      (fun tokens v => ∃ front back x, tokens = front ++ back ∧ F front x ∧ G back v) c := by
  refine Ends.before (h.weaken fun x d hx => ?_)
  obtain ⟨tokens, read, hF⟩ := hx
  refine (h' tokens x d read hF).weaken fun y e hy => ?_
  obtain ⟨tokens', read', hG⟩ := hy
  exact ⟨tokens ++ tokens', read.append read', tokens, tokens', x, rfl, hF, hG⟩

/-- The rounds behind an element, each a separator and an element. -/
theorem separators (t_nonempty : t ≠ []) (ht : T t) (of : F.Of T)
    (hsep : ∀ d, Yields C env sep raises (fun tokens _ => tokens = [t]) d) (c : Cursor)
    (element : ∀ d, Over T c d → d.rest.length < c.rest.length → Yields C env p raises F d) :
    RoundsEnd C env (sep.before p) c raises fun vs d => ∃ tss, List.Forall₂ F tss vs ∧
      Cursor.Spans (tss.flatMap fun tokens => t :: tokens) c d := by
  induction h : c.rest.length using Nat.strongRecOn generalizing c with
  | ind n ih =>
    have across : ∀ {d}, Cursor.Spans [t] c d → Over T c d := fun read =>
      ⟨[t], read, fun t' ht' => List.mem_singleton.1 ht' ▸ ht⟩
    have behind : ∀ tokens (x : Value) d, Cursor.Spans tokens c d → tokens = [t] →
        Yields C env p raises F d := by
      rintro tokens _ d read rfl
      exact element d (across read) (read.length_lt List.mem_cons_self t_nonempty)
    refine .round ((before (hsep c) behind).imp (fun _ hf => hf) ?_ fun v d hv => ?_)
    · exact fun _ => ⟨[], .nil, .nil c⟩
    · obtain ⟨_, read, front, tokens, _, rfl, rfl, hF⟩ := hv
      have shorter := read.length_lt (t := t) (by simp) t_nonempty
      have further : Over T c d := by
        refine ⟨_, read, fun t' ht' => ?_⟩
        rcases List.mem_append.1 ht' with ht' | ht'
        · exact List.mem_singleton.1 ht' ▸ ht
        · exact of.tokens hF t' ht'
      have later := ih d.rest.length (h ▸ shorter) d
        (fun e he less => element e (further.trans he) (Nat.lt_trans less shorter)) rfl
      refine ⟨shorter, Run.Meets.imp later (fun _ hf => hf) fun x hx => ?_⟩
      obtain ⟨tss, each, read'⟩ := hx
      exact ⟨tokens :: tss, .cons hF each, read.append read'⟩

theorem sepBy (t_nonempty : t ≠ []) (ht : T t) (of : F.Of T)
    (hsep : ∀ d, Yields C env sep raises (fun tokens _ => tokens = [t]) d)
    (element : ∀ d, Over T c d → Yields C env p raises F d) :
    Yields C env (p.sepBy sep) raises (F.listed t) c := by
  refine Ends.or (.both ((element c (.refl c)).weaken fun x d hx => ?_)) fun _ => ?_
  · obtain ⟨tokens, read, hF⟩ := hx
    have across : Over T c d := ⟨tokens, read, of.tokens hF⟩
    have rounds := separators t_nonempty ht of hsep d fun e he _ => element e (across.trans he)
    refine .many (Run.Meets.imp rounds (fun _ hf => hf) fun y hy => ?_)
    obtain ⟨tss, each, read'⟩ := hy
    have all : List.Forall₂ F (tokens :: tss) (x :: y.1) := .cons hF each
    have fits := forall_mem_of_forall₂ all fun _ _ hF => of.writes hF
    exact Value.asConstant_ends (Value.writable_list.2 fits)
      ⟨_, read.append read', tokens :: tss, x :: y.1, rfl, rfl, all⟩
  · exact .constant ⟨[], .nil c, [], [], rfl, rfl, .nil⟩

end Yields

end Rewind.Parser
