import Mathlib.Logic.Relation
import Rewind.Proofs.Discipline

namespace Rewind

/-- A parser, where it is run, and the store it finds. -/
structure Call where
  parser : Parser
  cursor : Cursor
  store : Store

namespace Run

theorem of_ofBuild {α : Type} {x : Build α} {a : α} {log : List Event} {store store' : Store}
    (h : ofBuild x store = some (⟨log, .ok a⟩, store')) : x store = (.ok a, store') := by
  unfold ofBuild at h
  rcases hx : x store with ⟨fault | b, store''⟩
  · rw [hx] at h
    cases h
  · rw [hx] at h
    cases h
    rfl

theorem of_target {cell : Nat} {name : String} {p : Parser} {log : List Event}
    {store store' : Store} (h : target cell name store = some (⟨log, .ok p⟩, store')) :
    store.target? cell = some p ∧ store = store' := by
  unfold target at h
  split at h
  · next found =>
    cases h
    exact ⟨found, rfl⟩
  · cases h

end Run

namespace Call

/-- The call ends with the result and leaves the store behind. -/
def Gives (env : Env) (a : Call) (r : Result) (store : Store) : Prop :=
  ∃ log, Parser.eval env a.parser a.cursor a.store = some (⟨log, .ok r⟩, store)

/-- From the first round of a repetition to a later one, each behind a round that matched and got
somewhere. -/
inductive Rounds (env : Env) (p : Parser) (c : Cursor) (store : Store) : Cursor → Store → Prop
  | first : Rounds env p c store c store
  | next {d : Cursor} {store' store'' : Store} {r : Result}
      (before : Rounds env p c store d store') (round : Gives env ⟨p, d, store'⟩ r store'')
      (ok : r.ok = true) (moved : idle d r.cursor = false) :
      Rounds env p c store r.cursor store''

/-- The calls that a call makes itself, as `Parser.step` makes them. -/
inductive Makes (env : Env) : Call → Call → Prop
  | andThen {p : Parser} {notes : Result → List Note} {next : Result → Rule} {c : Cursor}
      {store : Store} : Makes env ⟨.andThen p notes next, c, store⟩ ⟨p, c, store⟩
  | andThen_next {p q : Parser} {notes : Result → List Note} {next : Result → Rule} {c : Cursor}
      {store store' store'' : Store} {r : Result} (first : Gives env ⟨p, c, store⟩ r store')
      (ok : r.ok = true) (built : (next r).build env store' = (.ok q, store'')) :
      Makes env ⟨.andThen p notes next, c, store⟩ ⟨q, r.cursor, store''⟩
  | both {p q : Parser} {combine : Value → Value → Act Value} {c : Cursor} {store : Store} :
      Makes env ⟨.both p q combine, c, store⟩ ⟨p, c, store⟩
  | both_next {p q : Parser} {combine : Value → Value → Act Value} {c : Cursor}
      {store store' : Store} {r : Result} (first : Gives env ⟨p, c, store⟩ r store')
      (ok : r.ok = true) : Makes env ⟨.both p q combine, c, store⟩ ⟨q, r.cursor, store'⟩
  | map {p : Parser} {f : Value → Act Value} {c : Cursor} {store : Store} :
      Makes env ⟨.map p f, c, store⟩ ⟨p, c, store⟩
  | or {p q : Parser} {c : Cursor} {store : Store} : Makes env ⟨.or p q, c, store⟩ ⟨p, c, store⟩
  | or_next {p q : Parser} {c : Cursor} {store store' : Store} {r : Result}
      (first : Gives env ⟨p, c, store⟩ r store') (failed : r.ok = false) :
      Makes env ⟨.or p q, c, store⟩ ⟨q, c, store'⟩
  | not {p : Parser} {c : Cursor} {store : Store} : Makes env ⟨.not p, c, store⟩ ⟨p, c, store⟩
  | many {p : Parser} {c d : Cursor} {store store' : Store}
      (rounds : Rounds env p c store d store') : Makes env ⟨.many p, c, store⟩ ⟨p, d, store'⟩
  | lookAhead {p : Parser} {c : Cursor} {store : Store} :
      Makes env ⟨.lookAhead p, c, store⟩ ⟨p, c, store⟩
  | trace {p : Parser} {tag : Nat} {text : String} {c : Cursor} {store : Store} :
      Makes env ⟨.trace tag text p, c, store⟩ ⟨p, c, store⟩
  | label {p : Parser} {name : String} {c : Cursor} {store : Store} :
      Makes env ⟨.label p name, c, store⟩ ⟨p, c, store⟩
  | wrap {p : Parser} {name : String} {c : Cursor} {store : Store} :
      Makes env ⟨.wrap p name, c, store⟩ ⟨p, c, store⟩
  | forward {p : Parser} {cell : Nat} {name : String} {c : Cursor} {store : Store}
      (found : store.target? cell = some p) :
      Makes env ⟨.forward cell name, c, store⟩ ⟨p, c, store⟩
  | lazy {p : Parser} {cell : Nat} {name : Option String} {c : Cursor} {store store' : Store}
      {log : List Event} (forced : Run.force env cell store = some (⟨log, .ok p⟩, store')) :
      Makes env ⟨.lazy cell name, c, store⟩ ⟨p, c, store'⟩

/-- All calls inside a call, with itself. -/
abbrev Within (env : Env) : Call → Call → Prop := Relation.ReflTransGen (Makes env)

/-- What is known of how a parser ends holds of a call that matches. -/
theorem Gives.matched {C : Contract} {env : Env} {a : Call} {raises : Fault → Prop} {fails : Prop}
    {matched : Value → Cursor → Prop} {r : Result} {store : Store} (h : a.Gives env r store)
    (ends : a.parser.Ends C env a.cursor raises fails matched) (hstore : C.store a.store)
    (ok : r.ok = true) : matched r.value r.cursor := by
  obtain ⟨log, hlog⟩ := h
  have ended := ends a.store hstore
  rw [hlog] at ended
  have hr : Result.Ends fails matched r := ended.2
  rwa [Result.Ends, if_pos ok] at hr

variable {env : Env} {a b : Call}

theorem repeated_congr {run : Cursor → Run Result} {stop : Cursor → Event} {p : Parser}
    {c d : Cursor} {store store' : Store} (budget : Nat) (rounds : Rounds env p c store d store')
    (agree : ∀ d store', Rounds env p c store d store' → run d store' = Parser.eval env p d store')
    (values : List Value) (events : List Event) :
    Run.repeated run stop budget d values events store' =
      Run.repeated (Parser.eval env p) stop budget d values events store' := by
  induction budget generalizing d store' values events with
  | zero => rfl
  | succ budget ih =>
    simp only [Run.repeated, agree d store' rounds]
    split
    · rfl
    · rfl
    · next log r store'' round =>
      split
      · rfl
      · next matched =>
        split
        · rfl
        · next moved =>
          -- The next round is one of the loop, too.
          refine ih (.next rounds ⟨log, round⟩ ?_ (Bool.of_not_eq_true moved)) _ _
          simpa using matched

/-- A step looks at runs of the calls that are made, and at nothing else. -/
theorem step_congr {run : Parser → Cursor → Run Result} (budget : Nat)
    (agree : ∀ b, Makes env a b →
      run b.parser b.cursor b.store = Parser.eval env b.parser b.cursor b.store) :
    Parser.step run budget env a.parser a.cursor a.store =
      Parser.step (Parser.eval env) budget env a.parser a.cursor a.store := by
  obtain ⟨p, c, store⟩ := a
  cases p with
  | atom a => rfl
  | andThen p notes next =>
    refine Run.bind_congr_at (agree _ .andThen) fun log r store' first => ?_
    split
    · next ok =>
      refine Run.bind_congr_at rfl fun _ _ store'' wrote => ?_
      -- Writing leaves the store as it is.
      cases wrote
      refine Run.bind_congr_at rfl fun log' q store'' built => ?_
      exact agree _ (.andThen_next ⟨log, first⟩ ok (Run.of_ofBuild built))
    · rfl
  | both p q combine =>
    refine Run.bind_congr_at (agree _ .both) fun log r store' first => ?_
    split
    · next ok =>
      exact Run.bind_congr_at (agree _ (.both_next ⟨log, first⟩ ok)) fun _ _ _ _ => rfl
    · rfl
  | map p f => exact Run.bind_congr_at (agree _ .map) fun _ _ _ _ => rfl
  | or p q =>
    refine Run.bind_congr_at (agree _ .or) fun log r store' first => ?_
    split
    · rfl
    · next failed => exact agree _ (.or_next ⟨log, first⟩ (Bool.of_not_eq_true failed))
  | not p => exact Run.bind_congr_at (agree _ .not) fun _ _ _ _ => rfl
  | many p =>
    exact repeated_congr budget .first (fun d store' rounds => agree _ (.many rounds)) [] []
  | lookAhead p => exact Run.bind_congr_at (agree _ .lookAhead) fun _ _ _ _ => rfl
  | trace tag text p =>
    refine Run.bind_congr_at rfl fun _ _ store' wrote => ?_
    cases wrote
    exact Run.bind_congr_at (agree _ .trace) fun _ _ _ _ => rfl
  | label p name => exact agree _ .label
  | wrap p name => exact agree _ .wrap
  | forward cell name =>
    refine Run.bind_congr_at rfl fun _ p store' found => ?_
    obtain ⟨there, rfl⟩ := Run.of_target found
    exact agree _ (.forward there)
  | lazy cell name =>
    refine Run.bind_congr_at rfl fun _ p store' forced => ?_
    exact agree _ (.lazy forced)

/-- The parser and all that the store holds are plain. -/
structure Plain (a : Call) : Prop where
  parser : a.parser.Plain
  store : Store.Plain a.store

theorem Gives.reaches (henv : Env.Plain env) (ha : a.Plain) {r : Result} {store : Store}
    (h : a.Gives env r store) :
    Store.Plain store ∧ (r.ok = true → a.cursor.Reaches r.cursor) := by
  obtain ⟨log, hlog⟩ := h
  obtain ⟨budget, hrun⟩ := Parser.eval_eq_some_iff.1 hlog
  have kept := Parser.run_reaches henv budget ha.parser a.cursor a.store ha.store
  rw [hrun] at kept
  exact kept

theorem Rounds.reaches (henv : Env.Plain env) {p : Parser} {c d : Cursor} {store store' : Store}
    (h : Rounds env p c store d store') (hp : p.Plain) (hstore : Store.Plain store) :
    Store.Plain store' ∧ c.Reaches d := by
  induction h with
  | first => exact ⟨hstore, .refl c⟩
  | next _ round ok _ ih =>
    have kept := round.reaches henv ⟨hp, ih.1⟩
    exact ⟨kept.1, ih.2.trans (kept.2 ok)⟩

theorem Makes.reaches (henv : Env.Plain env) (ha : a.Plain) (h : Makes env a b) :
    b.Plain ∧ a.cursor.Reaches b.cursor := by
  obtain ⟨p, c, store⟩ := a
  have hp : p.Plain := ha.parser
  have hs : Store.Plain store := ha.store
  cases h with
  | andThen => exact ⟨⟨hp.1, hs⟩, .refl _⟩
  | @andThen_next _ _ _ _ _ _ _ _ r first ok built =>
    have kept := first.reaches henv ⟨hp.1, hs⟩
    have plain := Rule.build_plain henv (hp.2 r) _ kept.1
    rw [built] at plain
    exact ⟨⟨plain.2, plain.1⟩, kept.2 ok⟩
  | both => exact ⟨⟨hp.1, hs⟩, .refl _⟩
  | both_next first ok =>
    have kept := first.reaches henv ⟨hp.1, hs⟩
    exact ⟨⟨hp.2, kept.1⟩, kept.2 ok⟩
  | or => exact ⟨⟨hp.1, hs⟩, .refl _⟩
  | or_next first _ => exact ⟨⟨hp.2, (first.reaches henv ⟨hp.1, hs⟩).1⟩, .refl _⟩
  | many rounds =>
    have kept := rounds.reaches henv hp hs
    exact ⟨⟨hp, kept.1⟩, kept.2⟩
  | forward found => exact ⟨⟨Store.Plain.target hs found, hs⟩, .refl _⟩
  | @lazy _ cell _ _ _ _ _ forced =>
    have kept := Run.force_plain henv cell store hs
    rw [forced] at kept
    exact ⟨⟨kept.2, kept.1⟩, .refl _⟩
  | _ => exact ⟨⟨hp, hs⟩, .refl _⟩

theorem Within.reaches (henv : Env.Plain env) (ha : a.Plain) (h : Within env a b) :
    b.Plain ∧ a.cursor.Reaches b.cursor := by
  induction h with
  | refl => exact ⟨ha, .refl _⟩
  | tail _ made ih =>
    have kept := made.reaches henv ih.1
    exact ⟨kept.1, ih.2.trans kept.2⟩

end Call

/-- No part is a reference, also not in what continuations give. -/
def Rule.Eager : Rule → Prop
  | .atom _ | .raise _ => True
  | .ref _ | .lazy _ _ _ => False
  | .andThen r _ next => r.Eager ∧ ∀ x, (next x).Eager
  | .unary _ r => r.Eager
  | .binary _ l r => l.Eager ∧ r.Eager
  | .between o c b => o.Eager ∧ c.Eager ∧ b.Eager

def Parser.Eager : Parser → Prop
  | .atom _ => True
  | .andThen p _ next => p.Eager ∧ ∀ x, (next x).Eager
  | .both p q _ | .or p q => p.Eager ∧ q.Eager
  | .map p _ | .not p | .many p | .lookAhead p | .trace _ _ p | .label p _ | .wrap p _ => p.Eager
  | .forward _ _ | .lazy _ _ => False

theorem Parser.eager_inherited : Inherited Eager where
  constant _ := trivial
  blank := trivial
  both _ hp hq := ⟨hp, hq⟩
  map _ hp := hp
  or hp hq := ⟨hp, hq⟩
  not hp := hp
  many hp := hp
  lookAhead hp := hp
  trace _ _ hp := hp
  label _ hp := hp
  wrap _ hp := hp

theorem Rule.build_eager (env : Env) {r : Rule} (hr : r.Eager) :
    Build.Meets (fun _ => True) (fun _ => True) (r.build env) Parser.Eager := by
  induction r with
  | atom a => exact .checked (fun _ _ => trivial) fun _ => hr
  | ref name => exact hr.elim
  | lazy name watched thunk _ => exact hr.elim
  | raise fault => exact .throw trivial
  | andThen r notes next ih _ => exact .bind (ih hr.1) fun _ hp => .pure ⟨hp, hr.2⟩
  | unary op r ih =>
    refine .bind (ih hr) fun _ hp => .checked (fun _ _ => trivial) fun fits => ?_
    exact Parser.eager_inherited.unary fits hp
  | binary op l r ihl ihr =>
    refine .bind (ihl hr.1) fun _ hp => .bind (ihr hr.2) fun _ hq => ?_
    exact .pure (Parser.eager_inherited.binary op hp hq)
  | between o c b iho ihc ihb =>
    refine .bind (iho hr.1) fun _ hp => .bind (ihc hr.2.1) fun _ hq => ?_
    exact .bind (ihb hr.2.2) fun _ hs => .pure (Parser.eager_inherited.between hp hq hs)

namespace Call

variable {env : Env} {a b : Call} {n : Nat}

theorem Makes.eager (ha : a.parser.Eager) (h : Makes env a b) : b.parser.Eager := by
  obtain ⟨p, c, store⟩ := a
  have hp : p.Eager := ha
  cases h with
  | andThen => exact hp.1
  | @andThen_next _ _ _ _ _ _ store' _ r _ _ built =>
    have eager := Rule.build_eager env (hp.2 r) store' trivial
    rw [built] at eager
    exact eager.2
  | both => exact hp.1
  | both_next => exact hp.2
  | or => exact hp.1
  | or_next => exact hp.2
  | forward => exact hp.elim
  | lazy => exact hp.elim
  | _ => exact hp

theorem Within.eager (ha : a.parser.Eager) (h : Within env a b) : b.parser.Eager := by
  induction h with
  | refl => exact ha
  | tail _ made ih => exact made.eager ih

/-- The call enters a lazy cell. -/
def Enters (a : Call) : Prop := ∃ cell name, a.parser = .lazy cell name

/-- All lazy cells inside a call are entered behind a position. -/
def EntersBehind (env : Env) (n : Nat) (a : Call) : Prop :=
  ∀ b, Within env a b → b.Enters → n < b.cursor.position

namespace EntersBehind

theorem of_makes (h : ¬a.Enters) (each : ∀ b, Makes env a b → b.EntersBehind env n) :
    a.EntersBehind env n := by
  intro b within enters
  rcases within.cases_head with rfl | ⟨a', made, within⟩
  · exact absurd enters h
  · exact each a' made b within enters

theorem of_eager (h : a.parser.Eager) : a.EntersBehind env n := by
  intro b within enters
  obtain ⟨cell, name, lazy⟩ := enters
  have eager := within.eager h
  rw [lazy] at eager
  exact eager.elim

theorem of_behind (henv : Env.Plain env) (ha : a.Plain) (h : n < a.cursor.position) :
    a.EntersBehind env n :=
  fun _ within _ => Nat.lt_of_lt_of_le h (within.reaches henv ha).2.forward

variable {p q opening closing : Parser} {c : Cursor} {store : Store}

theorem map {f : Value → Act Value} (h : EntersBehind env n ⟨p, c, store⟩) :
    EntersBehind env n ⟨.map p f, c, store⟩ := by
  refine of_makes (by simp [Enters]) fun b made => ?_
  cases made
  exact h

theorem label {name : String} (h : EntersBehind env n ⟨p, c, store⟩) :
    EntersBehind env n ⟨.label p name, c, store⟩ := by
  refine of_makes (by simp [Enters]) fun b made => ?_
  cases made
  exact h

theorem or (h : EntersBehind env n ⟨p, c, store⟩)
    (h' : ∀ r store', Gives env ⟨p, c, store⟩ r store' → EntersBehind env n ⟨q, c, store'⟩) :
    EntersBehind env n ⟨.or p q, c, store⟩ := by
  refine of_makes (by simp [Enters]) fun b made => ?_
  cases made with
  | or => exact h
  | or_next first _ => exact h' _ _ first

theorem both {combine : Value → Value → Act Value} (h : EntersBehind env n ⟨p, c, store⟩)
    (h' : ∀ r store', Gives env ⟨p, c, store⟩ r store' → r.ok = true →
      EntersBehind env n ⟨q, r.cursor, store'⟩) :
    EntersBehind env n ⟨.both p q combine, c, store⟩ := by
  refine of_makes (by simp [Enters]) fun b made => ?_
  cases made with
  | both => exact h
  | both_next first ok => exact h' _ _ first ok

/-- What stands between brackets begins behind the opening one. -/
theorem between (henv : Env.Plain env) (opens : opening.Plain) (opens_eager : opening.Eager)
    (closes_eager : closing.Eager) (hp : p.Plain) (hstore : Store.Plain store)
    (advances : ∀ r store', Gives env ⟨opening, c, store⟩ r store' → r.ok = true →
      c.position < r.cursor.position) :
    EntersBehind env c.position ⟨.between opening closing p, c, store⟩ := by
  refine .both (.map (.label (.both (of_eager opens_eager) fun r store' first ok => ?_)))
    fun _ _ _ _ => of_eager closes_eager
  have kept := first.reaches henv ⟨opens, hstore⟩
  exact of_behind henv ⟨hp, kept.1⟩ (advances r store' first ok)

end EntersBehind

end Call

end Rewind
