import Rewind.Proofs.Lexemes
import Rewind.Proofs.Sessions

namespace Rewind.Parser

open Text

/-- Every layout of the tokens is read to its end, with the given outcome. -/
def Reads (C : Contract) (env : Env) (p : Parser) (stops : Char → Prop) (tokens : List (List Char))
    (o : Except Fault Value) : Prop :=
  ∀ (c : Cursor) (body rest : List Char), Spaced tokens body → Follows stops rest →
    skipBlanks c.rest = skipBlanks (body ++ rest) →
      Ends C env p c (fun fault => o = .error fault) False fun v d =>
        o = .ok v ∧ d.rest = skipBlanks rest

/-- The same where the blanks in front are skipped already. -/
def ReadsNext (C : Contract) (env : Env) (p : Parser) (stops : Char → Prop)
    (tokens : List (List Char)) (o : Except Fault Value) : Prop :=
  ∀ (c : Cursor) (body rest : List Char), Spaced tokens body → Follows stops rest →
    c.rest = skipBlanks (body ++ rest) →
      Ends C env p c (fun fault => o = .error fault) False fun v d =>
        o = .ok v ∧ d.rest = skipBlanks rest

/-- Every layout of the tokens is read in rounds to its end, with the given outcome. -/
def ReadsRounds (C : Contract) (env : Env) (p : Parser) (stops : Char → Prop)
    (tokens : List (List Char)) (o : Except Fault (List Value)) : Prop :=
  ∀ (c : Cursor) (body rest : List Char), Spaced tokens body → Follows stops rest →
    c.rest = skipBlanks (body ++ rest) →
      RoundsEnd C env p c (fun fault => o = .error fault) fun vs d =>
        o = .ok vs ∧ d.rest = skipBlanks rest

/-- There is no match where the text, but for blanks, does not begin with a character that passes
the test. -/
def Needs (C : Contract) (env : Env) (p : Parser) (test : Char → Bool) : Prop :=
  ∀ (c : Cursor) (raises : Fault → Prop), Refuses test (skipBlanks c.rest) →
    Ends C env p c raises True fun _ _ => False

variable {C : Contract} {env : Env} {p q opening closing : Parser} {L L' : Lexicon}
  {test test' : Char → Bool} {stops stops' : Char → Prop} {tokens tokens' : List (List Char)}
  {t t' : List Char} {v w : Value} {o o' : Except Fault Value}

/-- A part that comes to an outcome brings the whole to its fault, or leaves the whole to go on with
its value. -/
theorem Ends.outcome {α : Type} {f : Value → Except Fault α} {c : Cursor} {left : List Char}
    {fails : Prop} {matched : Value → Cursor → Prop}
    (h : Ends C env p c (fun fault => o = .error fault) False fun v d => o = .ok v ∧ d.rest = left)
    (later : ∀ v d, o = .ok v → d.rest = left → matched v d) :
    Ends C env p c (fun fault => o >>= f = .error fault) fails matched := by
  refine h.imp ?_ False.elim fun v d hv => later v d hv.1 hv.2
  intro fault hf
  rw [hf]
  rfl

namespace Needs

theorem token (h : Lexes C env p L) (begins : L.Begins test) : Needs C env p.token test :=
  fun _ _ refused => h.token_rejects (begins.not_at refused) trivial

theorem map {f : Value → Act Value} (h : Needs C env p test) : Needs C env (p.map f) test :=
  fun c raises refused => .map ((h c raises refused).weaken fun _ _ => False.elim)

theorem both {combine : Value → Value → Act Value} (h : Needs C env p test) :
    Needs C env (.both p q combine) test :=
  fun c raises refused => .both ((h c raises refused).weaken fun _ _ => False.elim)

theorem before (h : Needs C env p test) : Needs C env (p.before q) test :=
  fun c raises refused => .label (h.both c raises refused)

theorem between (h : Needs C env opening test) : Needs C env (between opening closing p) test :=
  h.before.map.both

/-- A choice needs a character that one of its parts needs. -/
theorem or (h : Needs C env p test) (h' : Needs C env q test') :
    Needs C env (.or p q) fun x => test x || test' x := by
  intro c raises refused
  have neither : ∀ x, (skipBlanks c.rest).head? = some x → test x = false ∧ test' x = false := by
    intro x hx
    simpa using refused x hx
  refine .or (h c raises fun x hx => (neither x hx).1) fun _ => ?_
  exact h' c raises fun x hx => (neither x hx).2

end Needs

namespace Reads

/-- A token is read where it stands in its lexicon whatever may follow. -/
theorem token (h : Lexes C env p L) (writes : L.Writes) (clear : L.Clear)
    (stands : ∀ gap rest, (∀ x ∈ gap, isBlank x = true) → Follows stops rest → L t (gap ++ rest) o)
    (front : ∀ cs, skipBlanks (t ++ cs) = t ++ cs) : Reads C env p.token stops [t] o := by
  intro c body rest hbody hrest hc
  obtain ⟨gap, hgap, rfl⟩ := hbody.single
  rw [List.append_assoc, front] at hc
  refine (h.token_takes writes clear (stands gap rest hgap hrest) hc).weaken ?_
  intro w d hw
  rw [skipBlanks_append hgap] at hw
  exact hw

theorem tryMap (h : Reads C env p stops tokens o) (f : Value → Act Value) :
    Reads C env (p.map f) stops tokens (o >>= fun x => (f x >>= Value.asConstant).result) := by
  intro c body rest hbody hrest hc
  refine .map ((h c body rest hbody hrest hc).outcome fun v d hv hd => ?_)
  rw [hv]
  exact Logged.ends_of_result (fun fault hf => hf) fun w hw => ⟨hw, hd⟩

theorem map (h : Reads C env p stops tokens o) {f : Value → Value}
    (fits : ∀ v, o = .ok v → (f v).writable = true) :
    Reads C env (p.map fun v => pure (f v)) stops tokens (o.map f) := by
  have same : (o >>= fun x => ((pure (f x) : Act Value) >>= Value.asConstant).result) = o.map f := by
    rcases o with fault | x
    · rfl
    · show (f x).asConstant.result = .ok (f x)
      rw [Value.asConstant_of_writable (fits x rfl)]
      rfl
  rw [← same]
  exact h.tryMap _

theorem next (h : Reads C env p stops tokens o) : ReadsNext C env p stops tokens o :=
  fun c body rest hbody hrest hc => h c body rest hbody hrest (by rw [hc, skipBlanks_skipBlanks])

/-- One part after another. What begins the second must not go on with the first. -/
theorem both {f : Value → Value → Act Value} (h : Reads C env p stops' tokens o)
    (h' : ReadsNext C env q stops tokens' o')
    (stop : ∀ back rest, Spaced tokens' back → Follows stops rest → Follows stops' (back ++ rest)) :
    Reads C env (.both p q f) stops (tokens ++ tokens')
      (do let x ← o; let y ← o'; (f x y).result) := by
  intro c body rest hbody hrest hc
  obtain ⟨front, back, hfront, hback, rfl⟩ := hbody.split
  rw [List.append_assoc] at hc
  have first := h c front _ hfront (stop back rest hback hrest) hc
  refine .both (first.outcome fun x d hx hd => ?_)
  rw [hx]
  refine (h' d back rest hback hrest hd).outcome fun y e hy he => ?_
  rw [hy]
  exact Logged.ends_of_result (fun fault hf => hf) fun z hz => ⟨hz, he⟩

theorem label {name : String} (h : Reads C env p stops tokens o) :
    Reads C env (.label p name) stops tokens o :=
  fun c body rest hbody hrest hc => .label (h c body rest hbody hrest hc)

theorem before (h : Reads C env p stops' tokens (.ok v)) (h' : ReadsNext C env q stops tokens' o)
    (stop : ∀ back rest, Spaced tokens' back → Follows stops rest → Follows stops' (back ++ rest)) :
    Reads C env (p.before q) stops (tokens ++ tokens') o := by
  have same : (do let _ ← Except.ok v; let y ← o; (pure y : Act Value).result) = o := by
    rcases o with fault | y <;> rfl
  rw [← same]
  exact (h.both h' stop).label

theorem before_constant (h : Reads C env p stops tokens (.ok w)) (v : Value) :
    Reads C env (p.before (constant v)) stops tokens (.ok v) := by
  intro c body rest hbody hrest hc
  refine .before ((h c body rest hbody hrest hc).imp ?_ id fun _ d hd => .constant ⟨rfl, hd.2⟩)
  intro fault hf
  cases hf

theorem followedBy (h : Reads C env p stops' tokens o) (fits : ∀ x, o = .ok x → x.writable = true)
    (h' : ReadsNext C env q stops tokens' (.ok v))
    (stop : ∀ back rest, Spaced tokens' back → Follows stops rest → Follows stops' (back ++ rest)) :
    Reads C env (p.followedBy q) stops (tokens ++ tokens') o := by
  have same : (do let x ← o.map id; let _ ← Except.ok v; (pure x : Act Value).result) = o := by
    rcases o with fault | x <;> rfl
  rw [← same]
  exact (h.map (f := id) fits).both h' stop

/-- Between two tokens that need nothing behind them. -/
theorem between {x : Char} (hopen : Reads C env opening (fun _ => True) [t] (.ok v))
    (hclose : ∀ stops, Reads C env closing stops [[x]] (.ok w))
    (h : ReadsNext C env p stops' tokens o) (fits : ∀ y, o = .ok y → y.writable = true)
    (blank : isBlank x = false) (here : stops' x) :
    Reads C env (between opening closing p) stops (t :: (tokens ++ [[x]])) o := by
  have opened := hopen.before h fun _ _ _ _ => .any _
  refine opened.followedBy fits (hclose stops).next fun back rest hback _ => ?_
  obtain ⟨gap, body, -, -, rfl⟩ := hback.uncons
  exact .head blank here

theorem or_left (h : Reads C env p stops tokens o) : Reads C env (.or p q) stops tokens o :=
  fun c body rest hbody hrest hc => .or (h c body rest hbody hrest hc) False.elim

theorem or_right (needs : Needs C env p test)
    (begins : Begins (fun x => !isBlank x && !test x) tokens) (h : Reads C env q stops tokens o) :
    Reads C env (.or p q) stops tokens o := by
  intro c body rest hbody hrest hc
  have refused : Refuses test (skipBlanks c.rest) := by
    obtain ⟨x, xs, rfl, hx⟩ := begins.exists_cons hbody
    simp only [Bool.and_eq_true, Bool.not_eq_true'] at hx
    intro y hy
    rw [hc, List.cons_append, skipBlanks_of_not hx.1] at hy
    cases hy
    exact hx.2
  exact .or ((needs c _ refused).weaken fun _ _ => False.elim) fun _ =>
    h c body rest hbody hrest hc

end Reads

namespace ReadsRounds

theorem nil (needs : Needs C env p test) (stop : ∀ x, stops x → test x = false) :
    ReadsRounds C env p stops [] (.ok []) := by
  intro c body rest hbody hrest hc
  rcases hbody
  rw [List.nil_append] at hc
  have refused : Refuses test (skipBlanks c.rest) := by
    rw [hc, skipBlanks_skipBlanks]
    exact hrest.refuses_skipBlanks stop
  refine .round ((needs c _ refused).imp (fun _ hf => hf) ?_ fun _ _ => False.elim)
  intro _
  exact ⟨rfl, hc⟩

/-- The first round takes at least the first character of its tokens. -/
theorem cons {o' : Except Fault (List Value)} (h : Reads C env p stops' tokens o)
    (h' : ReadsRounds C env p stops tokens' o') (begins : Begins (fun x => !isBlank x) tokens)
    (stop : ∀ back rest, Spaced tokens' back → Follows stops rest → Follows stops' (back ++ rest)) :
    ReadsRounds C env p stops (tokens ++ tokens') (do let x ← o; let xs ← o'; return x :: xs) := by
  intro c body rest hbody hrest hc
  obtain ⟨front, back, hfront, hback, rfl⟩ := hbody.split
  rw [List.append_assoc] at hc
  have there : skipBlanks c.rest = skipBlanks (front ++ (back ++ rest)) := by
    rw [hc, skipBlanks_skipBlanks]
  have first := h c front _ hfront (stop back rest hback hrest) there
  refine .round (first.outcome fun x d hx hd => ?_)
  rw [hx]
  constructor
  · obtain ⟨y, ys, rfl, hy⟩ := begins.exists_cons hfront
    have shorter := length_skipBlanks_le (back ++ rest)
    rw [hd, hc, List.cons_append, skipBlanks_of_not (by simpa using hy)]
    simp only [List.length_cons, List.length_append] at shorter ⊢
    omega
  · refine Run.Meets.imp (h' d back rest hback hrest hd) ?_ ?_
    · intro fault hf
      rw [hf]
      rfl
    · intro xs hxs
      rw [hxs.1]
      exact ⟨rfl, hxs.2⟩

theorem many {o : Except Fault (List Value)} (h : ReadsRounds C env p stops tokens o) :
    ReadsNext C env (.many p) stops tokens (o.map .list) := by
  intro c body rest hbody hrest hc
  refine .many (Run.Meets.imp (h c body rest hbody hrest hc) ?_ ?_)
  · intro fault hf
    rw [hf]
    rfl
  · intro xs hxs
    rw [hxs.1]
    exact ⟨rfl, hxs.2⟩

end ReadsRounds

section Separated

variable {sep : Parser} {x : Char} {tss : List (List (List Char))} {vs : List Value}

/-- Behind an element comes a separator or what may come behind all elements. -/
theorem follows_separators (blank : isBlank x = false) (here : stops' x)
    (more : ∀ y, stops y → stops' y) (tss : List (List (List Char))) (back rest : List Char)
    (spaced : Spaced (tss.flatMap fun later => [x] :: later) back) (hrest : Follows stops rest) :
    Follows stops' (back ++ rest) := by
  rcases tss with _ | ⟨tokens, tss⟩
  · rcases spaced
    exact hrest.mono more
  · obtain ⟨gap, body, -, -, rfl⟩ := spaced.uncons
    exact .head blank here

theorem ReadsRounds.separators (hsep : Reads C env sep (fun _ => True) [[x]] (.ok w))
    (needs : Needs C env sep (· == x)) (blank : isBlank x = false) (here : stops' x)
    (more : ∀ y, stops y → stops' y) (apart : ¬stops x)
    (each : List.Forall₂ (fun tokens v => Reads C env p stops' tokens (.ok v)) tss vs) :
    ReadsRounds C env (sep.before p) stops (tss.flatMap fun later => [x] :: later) (.ok vs) := by
  induction each with
  | nil =>
    refine .nil needs.before fun y hy => ?_
    rw [beq_eq_false_iff_ne]
    rintro rfl
    exact apart hy
  | @cons tokens v tss vs h _ ih =>
    have round := hsep.before h.next fun _ _ _ _ => .any _
    exact .cons round ih (.of_not_blank blank tokens) (follows_separators blank here more tss)

theorem ReadsNext.sepBy (hsep : Reads C env sep (fun _ => True) [[x]] (.ok w))
    (needs : Needs C env sep (· == x)) (blank : isBlank x = false) (here : stops' x)
    (more : ∀ y, stops y → stops' y) (apart : ¬stops x)
    (element : Needs C env p test) (free : ∀ y, stops y → test y = false)
    (fits : ∀ v ∈ vs, v.writable = true)
    (each : List.Forall₂ (fun tokens v => Reads C env p stops' tokens (.ok v)) tss vs) :
    ReadsNext C env (p.sepBy sep) stops (separated [x] tss) (.ok (.list vs)) := by
  rcases each with _ | @⟨tokens, v, tss, vs, h, each⟩
  · -- What follows does not begin an element, so there are none.
    intro c body rest hbody hrest hc
    rcases hbody
    rw [List.nil_append] at hc
    have refused : Refuses test (skipBlanks c.rest) := by
      rw [hc, skipBlanks_skipBlanks]
      exact hrest.refuses_skipBlanks free
    refine .or ((element.both c _ refused).weaken fun _ _ => False.elim) fun _ => ?_
    exact .constant ⟨rfl, hc⟩
  · have rounds := ReadsRounds.separators hsep needs blank here more apart each
    have list := h.both (f := fun x xs => (x.cons xs).asConstant) rounds.many
      (follows_separators blank here more tss)
    have same : ((Value.list (v :: vs)).asConstant).result = .ok (.list (v :: vs)) := by
      rw [Value.asConstant_of_writable (Value.writable_list.2 fits)]
      rfl
    rw [← same]
    exact list.or_left.next

end Separated

/-- A text that is a layout of the tokens is run to their outcome, with the end required or not. -/
theorem Reads.answers {s : Session} {rule : Rule} {store : Store} {text : Array Char}
    (h : Reads C s.env p stops tokens o) (built : rule.build s.env s.store = (.ok p, store))
    (hstore : C.store store) (ends : ¬C.endless) (layout : Written tokens text.toList)
    (requireEnd : Bool) :
    s.Answers (.run rule text requireEnd) (o.map fun v => .ran p.name (.ok v)) := by
  obtain ⟨gap, body, hgap, hbody, htext⟩ := layout
  have start : skipBlanks (Cursor.start text).rest = skipBlanks (body ++ []) := by
    show skipBlanks text.toList = _
    rw [htext, skipBlanks_append hgap, List.append_nil]
  have read := h (.start text) body [] hbody (.nil _) start
  obtain ⟨x, answered, hx⟩ := Session.exists_answers_run requireEnd built hstore ends read
  rcases x with fault | a
  · rw [hx]
    exact answered
  · obtain ⟨⟨v, d, ok⟩, hr, rfl⟩ := hx
    rcases ok with _ | _
    · exact hr.elim
    · have ended : Report.ofResult requireEnd ⟨v, d, true⟩ = .ok v :=
        Report.ofResult_eq_ok_iff.2 ⟨rfl, fun _ => hr.2, rfl⟩
      rw [ended] at answered
      rw [hr.1]
      exact answered

end Rewind.Parser
