import Rewind.Proofs.Choices
import Rewind.Proofs.Reading
import Rewind.Proofs.Shown

namespace Rewind

namespace Run

variable {α β : Type} {x : Run α} {A : Store}

/-- The fault or the answer in which a run ends, if it does. -/
def outcome (x : Run α) (A : Store) : ExceptT Fault Option α :=
  ExceptT.mk ((x A).map fun last => last.1.result)

theorem outcome_eq_some_iff {e : Except Fault α} :
    x.outcome A = some e ↔ ∃ log B, x A = some (⟨log, e⟩, B) := by
  show Option.map _ _ = some e ↔ _
  rw [Option.map_eq_some_iff]
  constructor
  · rintro ⟨⟨⟨log, y⟩, B⟩, ended, rfl⟩
    exact ⟨log, B, ended⟩
  · rintro ⟨log, B, ended⟩
    exact ⟨_, ended, rfl⟩

/-- What follows matters only in the stores to which the first part leads. -/
theorem outcome_bind {f : α → Run β} {g : α → ExceptT Fault Option β}
    (later : ∀ log a B, x A = some (⟨log, .ok a⟩, B) → (f a).outcome B = g a) :
    (x >>= f).outcome A = x.outcome A >>= g := by
  rcases h : x A with _ | ⟨⟨log, fault | a⟩, B⟩
  · simp only [outcome, bind_of_none h, h]
    rfl
  · simp only [outcome, bind_of_error h, h]
    rfl
  · have first : x.outcome A = Pure.pure a := by
      simp only [outcome, h]
      rfl
    have forgotten : (x >>= f).outcome A = (f a).outcome B := by
      simp only [outcome, bind_of_ok h, Option.map_map]
      rfl
    rw [forgotten, first, LawfulMonad.pure_bind, later log a B h]

theorem outcome_bind_pure (f : α → β) :
    (x >>= fun a => Pure.pure (f a)).outcome A = x.outcome A >>= fun a => Pure.pure (f a) :=
  outcome_bind fun _ _ _ _ => rfl

theorem outcome_ofAct_bind {act : Act α} {f : α → Run β} {g : α → ExceptT Fault Option β}
    (later : ∀ a, (f a).outcome A = g a) :
    (ofAct act >>= f).outcome A = ExceptT.mk (some act.result) >>= g := by
  apply outcome_bind
  intro log a B gave
  simp only [ofAct, Option.some.injEq, Prod.mk.injEq] at gave
  obtain ⟨-, rfl⟩ := gave
  exact later a

theorem outcome_settle (start : Cursor) (x : Run Result) :
    (x.settle start).outcome A = x.outcome A >>= fun r => Pure.pure (r.settle start) := by
  rw [settle_eq_bind, outcome_bind_pure]

end Run

variable {s : Session} {allowed : Command → Prop} {A B : Store} {p : Parser} {m r r' : Rule}
  {f g : Continuation} {c : Cursor} {fault : Fault} {x : Except Fault Result}

namespace Rule

theorem leads_of_eval (hA : s.Grown A) {shown : Logged Event Result}
    (h : r.eval s.env c A = some (shown, B)) : s.Leads A B := by
  rcases built : r.build s.env A with ⟨fault | p, D⟩
  · rw [Rule.eval_of_raised built] at h
    cases h
    exact (r.build_becomes hA built).1
  · rw [Rule.eval_of_built built] at h
    have leads := (r.build_becomes hA built).1
    exact leads.trans (Session.leads_of_eval leads.grown h)

theorem outcome_of_refused (hA : s.Grown A) (refused : r.refusal? s.env = some fault) :
    (r.eval s.env c).outcome A = throw fault := by
  rcases built : r.build s.env A with ⟨fault' | p, B⟩
  · have refused' := (r.build_becomes hA built).2
    cases refused.symm.trans refused'
    simp only [Run.outcome, eval_of_raised built]
    rfl
  · obtain ⟨-, accepted, -⟩ := r.build_becomes hA built
    cases accepted.symm.trans refused

end Rule

namespace Session

/-- The fault or the result in which a parse ends, if it does. -/
noncomputable def outcome (s : Session) (rule : Rule) (c : Cursor) : ExceptT Fault Option Result :=
  (rule.eval s.env c).outcome s.store

theorem outcome_eq_some_iff : s.outcome r c = some x ↔ ∃ log B, s.Parses r c (⟨log, x⟩, B) := by
  simp only [outcome, Run.outcome_eq_some_iff, parses_iff]

/-- A parse that ends with some budget ends so with every larger one. -/
theorem outcome_iff_eq_some : s.Outcome r c.text c.position x ↔ s.outcome r c = some x := by
  rw [outcome_eq_some_iff]
  constructor
  · rintro ⟨name, n, log, s', ended⟩
    exact ⟨log, _, parses_iff.2 (eval_of_step (ended n (Nat.le_refl n)))⟩
  · rintro ⟨log, B, n, name, ended⟩
    exact ⟨name, n, log, _, ended⟩

/-- What a rule makes comes to the same in every store. -/
theorem outcome_of_makes (reached : s.Reached allowed) (hA : s.Grown A) (made : r.Makes s A p) :
    (p.eval s.env c).outcome A = s.outcome r c := by
  apply Option.ext
  intro x
  have shows : ∀ log, s.Shows r c ⟨log, x⟩ ↔
      ∃ full B, p.eval s.env c A = some (⟨full, x⟩, B) ∧ observed full = log :=
    fun log => shows_iff reached hA made
  calc (p.eval s.env c).outcome A = some x
      ↔ ∃ log, s.Shows r c ⟨log, x⟩ := by
        rw [Run.outcome_eq_some_iff]
        constructor
        · rintro ⟨log, B, ends⟩
          exact ⟨_, (shows _).2 ⟨log, B, ends, rfl⟩⟩
        · rintro ⟨log, shown⟩
          obtain ⟨log, B, ends, -⟩ := (shows _).1 shown
          exact ⟨log, B, ends⟩
    _ ↔ s.outcome r c = some x := by
        rw [outcome_eq_some_iff]
        constructor
        · rintro ⟨log, full, B, parsed, -⟩
          exact ⟨full, B, parsed⟩
        · rintro ⟨log, B, parsed⟩
          exact ⟨_, log, B, parsed, rfl⟩

/-- A rule comes to the same in every store. -/
theorem outcome_eval (reached : s.Reached allowed) (hA : s.Grown A) :
    (r.eval s.env c).outcome A = s.outcome r c := by
  rcases refused : r.refusal? s.env with _ | fault
  · obtain ⟨p, B, built, leads, made⟩ := Rule.exists_makes hA refused
    have same := Rule.eval_of_built built c
    rw [← outcome_of_makes reached leads.grown made]
    simp only [Run.outcome, same]
  · rw [Rule.outcome_of_refused hA refused, outcome, Rule.outcome_of_refused (.refl s) refused]

theorem outcome_of_refused (refused : r.refusal? s.env = some fault) : s.outcome r c = throw fault :=
  Rule.outcome_of_refused (.refl s) refused

theorem outcome_bind (reached : s.Reached allowed) (m : Rule) (f : Continuation) (c : Cursor) :
    s.outcome (m.bind f) c = (do
      let r ← s.outcome m c
      if r.ok then
        let q ← ExceptT.mk (some (f r.value).result)
        let t ← s.outcome q r.cursor
        return t.settle c
      else return .failure c) := by
  rw [outcome, Rule.eval_bind]
  apply Run.outcome_bind
  intro log r A ends
  have hA := (Rule.leads_of_eval (.refl s) ends).grown
  by_cases matched : r.ok = true
  · rw [if_pos matched, if_pos matched]
    apply Run.outcome_ofAct_bind
    intro q
    rw [Run.outcome_settle, outcome_eval reached hA]
  · rw [if_neg matched, if_neg matched]
    rfl

/-- Two rules of which the second one can be built: the outcome of the first one, and what is made of it
with a parser of the second one. -/
theorem outcome_binary (reached : s.Reached allowed) (accepted : r'.refusal? s.env = none) {op : Binary}
    {next : Parser → Result → Run Result} {g : Result → ExceptT Fault Option Result}
    (ran : ∀ p q, (op.apply p q).eval s.env c = p.eval s.env c >>= next q)
    (later : ∀ t q B, s.Grown B → r'.Makes s B q → (next q t).outcome B = g t) :
    s.outcome (.binary op r r') c = s.outcome r c >>= g := by
  rcases refused : r.refusal? s.env with _ | fault
  · have whole : (Rule.binary op r r').refusal? s.env = none := by
      simp [Rule.refusal?, refused, accepted]
    obtain ⟨t, A, -, leads, made⟩ := Rule.exists_makes (.refl s) whole
    rw [← outcome_of_makes reached leads.grown made]
    cases made with
    | binary _ left right =>
      rw [ran, ← outcome_of_makes reached leads.grown left]
      apply Run.outcome_bind
      intro log t B ends
      have hB := leads_of_eval leads.grown ends
      exact later t _ B hB.grown (right.mono hB.grows)
  · have whole : (Rule.binary op r r').refusal? s.env = some fault := by
      simp [Rule.refusal?, refused]
    rw [outcome_of_refused whole, outcome_of_refused refused]
    rfl

/-- The second rule is built even where the first one matches. -/
theorem outcome_or (reached : s.Reached allowed) (accepted : r'.refusal? s.env = none) (r : Rule)
    (c : Cursor) :
    s.outcome (r.or r') c = (do
      let t ← s.outcome r c
      if t.ok then return t else s.outcome r' c) := by
  apply outcome_binary reached accepted (fun p q => Parser.eval_or p q c)
  intro t q B hB made
  by_cases matched : t.ok = true
  · rw [if_pos matched, if_pos matched]
    rfl
  · rw [if_neg matched, if_neg matched]
    exact outcome_of_makes reached hB made

/-- A rule that can be built may as well be given by a continuation. -/
theorem outcome_before (reached : s.Reached allowed) (accepted : r.refusal? s.env = none) (m : Rule)
    (c : Cursor) : s.outcome (m.before r) c = s.outcome (m.bind fun _ => pure r) c := by
  rw [outcome_bind reached]
  apply outcome_binary reached accepted (fun p q => Parser.eval_before p q c)
  intro t q B hB made
  by_cases matched : t.ok = true
  · rw [if_pos matched, if_pos matched, Run.outcome_bind_pure, outcome_of_makes reached hB made]
    simp only [← Result.settle_eq]
    rfl
  · rw [if_neg matched, if_neg matched]
    rfl

/-- What is tried where the first try fails may begin with what the first try began with: when that is run
again it ends as it did. -/
theorem bind_or_else (o : ExceptT Fault Option Result)
    (first second : Result → ExceptT Fault Option Result) :
    (do
      let r ← o
      let t ← first r
      if t.ok then return t else second r) = (do
      let t ← o >>= first
      if t.ok then return t else o >>= second) := by
  rcases o with _ | fault | r
  · rfl
  · rfl
  · rfl

/-- It makes no difference whether two tries are settled each or both at once. -/
theorem or_else_settle (o o' : ExceptT Fault Option Result) (c : Cursor) :
    ((o >>= fun t => if t.ok then pure t else o') >>= fun t => pure (t.settle c)) =
      (o >>= fun t => pure (t.settle c)) >>= fun t =>
        if t.ok then pure t else o' >>= fun t => pure (t.settle c) := by
  rw [LawfulMonad.bind_assoc, LawfulMonad.bind_assoc]
  congr 1
  funext t
  rw [LawfulMonad.pure_bind]
  by_cases matched : t.ok = true
  · simp only [Result.settle_of_ok matched, if_pos matched, LawfulMonad.pure_bind]
  · have failed : t.ok = false := by simpa using matched
    rw [Result.settle_of_not_ok failed, if_neg matched]
    rfl

end Session

/-- For every value the continuation gives a rule that can be built. -/
def Continuation.Total (env : Env) (g : Continuation) : Prop :=
  ∀ v, ∃ q, (g v).result = .ok q ∧ q.refusal? env = none

namespace Session

theorem outcome_bind_or (reached : s.Reached allowed) (total : g.Total s.env) (m : Rule)
    (f : Continuation) (c : Cursor) :
    s.outcome (m.bind fun v => do
        let q ← f v
        let q' ← g v
        return q.or q') c =
      s.outcome ((m.bind f).or (m.bind g)) c := by
  rcases refused : m.refusal? s.env with _ | fault
  · have accepted : (m.bind g).refusal? s.env = none := refused
    rw [outcome_or reached accepted, outcome_bind reached, outcome_bind reached, outcome_bind reached,
      ← bind_or_else]
    congr 1
    funext r
    by_cases matched : r.ok = true
    · obtain ⟨q', gave, accepted'⟩ := total r.value
      simp only [if_pos matched, Logged.result_bind, gave]
      rcases (f r.value).result with fault | q
      · rfl
      · have tried : s.outcome (q.or q') r.cursor = _ := outcome_or reached accepted' q r.cursor
        exact (congrArg (· >>= fun t => Pure.pure (t.settle c)) tried).trans (or_else_settle _ _ c)
    · simp only [if_neg matched]
      rfl
  · have whole : ((m.bind f).or (m.bind g)).refusal? s.env = some fault := by
      simp [Rule.or, Rule.bind, Rule.bindPart, Rule.refusal?, refused]
    rw [outcome_of_refused whole, outcome_of_refused (r := m.bind _) refused]

theorem outcome_before_or (reached : s.Reached allowed) (m q q' : Rule) (c : Cursor) :
    s.outcome (m.before (q.or q')) c = s.outcome ((m.before q).or (m.before q')) c := by
  -- Both sides build the same rules in the same order, but for `m`, which the right one builds again.
  have refusals : ((m.before q).or (m.before q')).refusal? s.env =
      (m.before (q.or q')).refusal? s.env := by
    simp only [Rule.before, Rule.or, Rule.refusal?]
    rcases m.refusal? s.env with _ | fault
    · rfl
    · rfl
  rcases refused : (m.before (q.or q')).refusal? s.env with _ | fault
  · obtain ⟨first, second, third⟩ : m.refusal? s.env = none ∧ q.refusal? s.env = none ∧
        q'.refusal? s.env = none := by
      simpa [Rule.before, Rule.or, Rule.refusal?] using refused
    have either : (q.or q').refusal? s.env = none := by simp [Rule.or, Rule.refusal?, second, third]
    have behind : (m.before q').refusal? s.env = none := by
      simp [Rule.before, Rule.refusal?, first, third]
    have given : (m.bind fun _ => pure q').refusal? s.env = none := first
    have total : Continuation.Total s.env fun _ => pure q' := fun _ => ⟨q', rfl, third⟩
    calc s.outcome (m.before (q.or q')) c
        = s.outcome (m.bind fun _ => pure (q.or q')) c := outcome_before reached either m c
      _ = s.outcome ((m.bind fun _ => pure q).or (m.bind fun _ => pure q')) c :=
        outcome_bind_or reached total m (fun _ => pure q) c
      _ = s.outcome ((m.before q).or (m.before q')) c := by
        rw [outcome_or reached given, outcome_or reached behind, outcome_before reached second,
          outcome_before reached third]
  · rw [outcome_of_refused refused, outcome_of_refused (refusals.trans refused)]

/-- In every session, for every parser `m` and at every cursor: to go on after `m` with a choice of two
that continuations give comes to the same as the choice of two that begin with `m` and go on with one
each. The first continuation may do anything; the second one, which the choice of two parsers runs only
where the first has failed, gives a parser for every value. What the parsers that they give do is left
open: they may fail, raise or run for ever. Both sides end in the same fault or the same result, or
neither ends, although the right one may run `m` twice. So they do if there are two parsers behind `m`,
whatever they are. -/
theorem left_factoring (reached : s.Reached allowed) (m : Rule) (c : Cursor) (x : Except Fault Result) :
    (∀ f g : Continuation, g.Total s.env →
      (s.Outcome (m.bind fun v => do
          let q ← f v
          let q' ← g v
          return q.or q') c.text c.position x ↔
        s.Outcome ((m.bind f).or (m.bind g)) c.text c.position x)) ∧
    ∀ q q' : Rule, s.Outcome (m.before (q.or q')) c.text c.position x ↔
      s.Outcome ((m.before q).or (m.before q')) c.text c.position x := by
  constructor
  · intro f g total
    rw [outcome_iff_eq_some, outcome_iff_eq_some, outcome_bind_or reached total]
  · intro q q'
    rw [outcome_iff_eq_some, outcome_iff_eq_some, outcome_before_or reached]

/-- A digit that is built when it is first used. Behind it stands no second one of the same kind, but
another digit, with which it is paired; where an `x` is missing, what is tried instead raises. The second
parse of the digit finds the cell filled. -/
theorem left_factoring_twice : ∃ s : Session,
    s.Outcome (((Rule.ref "item").bind .sameChar).or ((Rule.ref "item").bind (.paired .digit)))
      #['1', '2'] 0 (.ok (.success (.tuple [.str "1", .str "2"]) ⟨#['1', '2'], 2⟩)) ∧
    s.Outcome (((Rule.ref "item").before (.char 'x')).or
        ((Rule.ref "item").before (.satisfy (CharTest.raising "no") "any")))
      #['1', '2'] 0 (.error (.raised "no")) := by
  let s := ofCommands [.bind "item" (.lazy (some "item") true .digit)]
  have reached : s.Reached fun _ => True := reached_ofCommands fun _ _ => trivial
  have total : (Continuation.paired .digit).Total s.env := fun v => ⟨_, rfl, rfl⟩
  have paired : s.Outcome ((Rule.ref "item").bind fun v => do
      let q ← Continuation.sameChar v
      let q' ← Continuation.paired .digit v
      return q.or q') #['1', '2'] 0 (.ok (.success (.tuple [.str "1", .str "2"]) ⟨#['1', '2'], 2⟩)) :=
    ⟨_, answers_of_step (show s.step 9 _ = some _ from rfl)⟩
  have raised : s.Outcome ((Rule.ref "item").before
      ((Rule.char 'x').or (.satisfy (CharTest.raising "no") "any"))) #['1', '2'] 0
      (.error (.raised "no")) := ⟨"", answers_of_step (show s.step 9 _ = some _ from rfl)⟩
  exact ⟨s, ((left_factoring reached _ (.start #['1', '2']) _).1 _ _ total).1 paired,
    ((left_factoring reached _ (.start #['1', '2']) _).2 _ _).1 raised⟩

end Session

end Rewind
