import Rewind.Proofs.Discipline

namespace Rewind

/-- Values are put together as the combinators do it, and what a parser shows in its name can be
written. -/
def Parser.Stocked : Parser → Prop
  | .atom a => a.refusal? = none
  | .forward _ _ | .lazy _ _ => True
  | .both p q combine => Stock combine ∧ p.Stocked ∧ q.Stocked
  | .or p q => p.Stocked ∧ q.Stocked
  | .andThen p _ _ | .map p _ | .not p | .many p | .lookAhead p | .trace _ _ p | .label p _
  | .wrap p _ => p.Stocked

theorem Parser.stocked_inherited : Inherited Stocked where
  constant fits := Value.refusal?_eq_none.2 fits
  blank := rfl
  both stock hp hq := ⟨stock, hp, hq⟩
  map _ hp := hp
  or hp hq := ⟨hp, hq⟩
  not hp := hp
  many hp := hp
  lookAhead hp := hp
  trace _ _ hp := hp
  label _ hp := hp
  wrap _ hp := hp

/-- All rules are built into stock parsers. -/
def Trait.stocked : Trait where
  rule := Trait.any.rule
  parser := Parser.Stocked
  inherited := Parser.stocked_inherited
  forward _ _ := trivial
  lazy _ _ := trivial
  parts {p} hp := by cases p <;> simp_all [Parser.parts, Parser.Stocked]
  next _ _ := trivial
  ofAtom _ fits := fits
  ofLazy := Trait.any.ofLazy
  ofAndThen _ := ⟨trivial, fun _ hp => hp⟩
  ofUnary := Trait.any.ofUnary
  ofBinary := Trait.any.ofBinary
  ofBetween := Trait.any.ofBetween

/-- Two traits together. -/
def Trait.and (T T' : Trait) : Trait where
  rule r := T.rule r ∧ T'.rule r
  parser p := T.parser p ∧ T'.parser p
  inherited := {
    constant := fun fits => ⟨T.inherited.constant fits, T'.inherited.constant fits⟩
    blank := ⟨T.inherited.blank, T'.inherited.blank⟩
    both := fun stock hp hq =>
      ⟨T.inherited.both stock hp.1 hq.1, T'.inherited.both stock hp.2 hq.2⟩
    map := fun f hp => ⟨T.inherited.map f hp.1, T'.inherited.map f hp.2⟩
    or := fun hp hq => ⟨T.inherited.or hp.1 hq.1, T'.inherited.or hp.2 hq.2⟩
    not := fun hp => ⟨T.inherited.not hp.1, T'.inherited.not hp.2⟩
    many := fun hp => ⟨T.inherited.many hp.1, T'.inherited.many hp.2⟩
    lookAhead := fun hp => ⟨T.inherited.lookAhead hp.1, T'.inherited.lookAhead hp.2⟩
    trace := fun tag text hp => ⟨T.inherited.trace tag text hp.1, T'.inherited.trace tag text hp.2⟩
    label := fun name hp => ⟨T.inherited.label name hp.1, T'.inherited.label name hp.2⟩
    wrap := fun name hp => ⟨T.inherited.wrap name hp.1, T'.inherited.wrap name hp.2⟩ }
  forward cell name := ⟨T.forward cell name, T'.forward cell name⟩
  lazy cell name := ⟨T.lazy cell name, T'.lazy cell name⟩
  parts hp q mem := ⟨T.parts hp.1 q mem, T'.parts hp.2 q mem⟩
  next hp x := ⟨T.next hp.1 x, T'.next hp.2 x⟩
  ofAtom ha fits := ⟨T.ofAtom ha.1 fits, T'.ofAtom ha.2 fits⟩
  ofLazy h := ⟨T.ofLazy h.1, T'.ofLazy h.2⟩
  ofAndThen h := ⟨⟨(T.ofAndThen h.1).1, (T'.ofAndThen h.2).1⟩,
    fun p hp => ⟨(T.ofAndThen h.1).2 p hp.1, (T'.ofAndThen h.2).2 p hp.2⟩⟩
  ofUnary h := ⟨T.ofUnary h.1, T'.ofUnary h.2⟩
  ofBinary h := ⟨⟨(T.ofBinary h.1).1, (T'.ofBinary h.2).1⟩,
    ⟨(T.ofBinary h.1).2, (T'.ofBinary h.2).2⟩⟩
  ofBetween h := ⟨⟨(T.ofBetween h.1).1, (T'.ofBetween h.2).1⟩,
    ⟨(T.ofBetween h.1).2.1, (T'.ofBetween h.2).2.1⟩,
    ⟨(T.ofBetween h.1).2.2, (T'.ofBetween h.2).2.2⟩⟩

/-- Plain rules, built into stock parsers. -/
def Trait.library : Trait := Trait.plain.and .stocked

/-- If it is a match, then its value can be written. -/
def Result.Writes (r : Result) : Prop := r.ok = true → r.value.writable = true

theorem Result.Writes.settle {r : Result} (h : r.Writes) (start : Cursor) :
    (r.settle start).Writes := by
  obtain ⟨v, d, _ | _⟩ := r
  · exact fun ok => nomatch ok
  · exact h

/-- What the combinators make of two values that can be written can be written. -/
theorem Parser.Stock.writes {combine : Value → Value → Act Value} (stock : Stock combine)
    {x y z : Value} (hx : x.writable = true) (hy : y.writable = true)
    (h : (combine x y).result = .ok z) : z.writable = true := by
  cases stock with
  | first =>
    cases h
    exact hx
  | second =>
    cases h
    exact hy
  | pair =>
    cases h
    simp [hx, hy]
  | joint f => exact Value.writable_of_asConstant h

theorem Atom.run_writes {a : Atom} (plain : a.Plain) (fits : a.refusal? = none) (c : Cursor)
    {r : Result} (h : (a.run c).result = .ok r) : r.Writes := by
  intro ok
  cases a with
  | satisfy test name =>
    obtain ⟨x, -, rfl⟩ := run_satisfy_ok h ok
    exact Value.writable_ofChar x
  | literal chars value =>
    simp only [run] at h
    split at h
    · cases h
      exact Value.refusal?_eq_none.1 fits
    · cases h
      cases ok
  | constant value =>
    cases h
    exact Value.refusal?_eq_none.1 fits
  | fail name =>
    cases h
    cases ok
  | handmade run name own => exact plain.elim

namespace Parser

variable {env : Env}

/-- What one step keeps, if the runs of its parts do. -/
theorem step_writes (henv : Trait.library.OfEnv env) {run : Parser → Cursor → Run Result}
    (each : ∀ p c, Trait.library.parser p →
      (run p c).Meets Trait.library.contract (fun _ => True) Result.Writes)
    (budget : Nat) {p : Parser} (hp : Trait.library.parser p) (c : Cursor) :
    (step run budget env p c).Meets Trait.library.contract (fun _ => True) Result.Writes := by
  have part {q : Parser} (mem : q ∈ p.parts) (d : Cursor) := each q d (Trait.library.parts hp q mem)
  cases p with
  | atom a => exact .ofAct (fun _ _ => trivial) fun r h => Atom.run_writes hp.1 hp.2 c h
  | andThen p notes next =>
    refine .bind (part (by simp [parts]) c) fun r hr => ?_
    split
    · refine .bind (P := fun _ => True) (.writeNotes trivial) fun _ _ => ?_
      have build := Trait.meets_build henv (Trait.library.next hp r)
      exact .bind (.ofBuild build) fun q hq => each q r.cursor hq
    · exact .pure hr
  | both p q combine =>
    refine .bind (part (by simp [parts]) c) fun r hr => ?_
    split
    · next ok =>
      refine .bind (part (by simp [parts]) r.cursor) fun t ht => ?_
      split
      · next ok' =>
        refine .bind (P := fun z => z.writable = true) (.ofAct (fun _ _ => trivial) ?_) fun z hz => ?_
        · exact fun z h => hp.2.1.writes (hr ok) (ht ok') h
        · exact .pure fun _ => hz
      · exact .pure ht
    · exact .pure hr
  | map p f =>
    refine .bind (part (by simp [parts]) c) fun r hr => ?_
    split
    · refine .bind (P := fun z => z.writable = true) (.ofAct (fun _ _ => trivial) ?_) fun z hz => ?_
      · exact fun z h => Value.writable_of_bind_asConstant h
      · exact .pure fun _ => hz
    · exact .pure hr
  | or p q =>
    refine .bind (part (by simp [parts]) c) fun r hr => ?_
    split
    · exact .pure hr
    · exact part (by simp [parts]) c
  | not p =>
    refine .bind (part (by simp [parts]) c) fun r _ => .pure ?_
    split
    · exact fun ok => nomatch ok
    · exact fun _ => rfl
  | many p =>
    -- All values that the loop has gathered can be written.
    have rounds (d : Cursor) (values : List Value) (all : ∀ v ∈ values, v.writable = true) :
        (run p d).Meets Trait.library.contract (fun _ => True)
          fun r => r.ok = true → ∀ v ∈ r.value :: values, v.writable = true :=
      (part (by simp [parts]) d).weaken fun r hr ok => List.forall_mem_cons.2 ⟨hr ok, all⟩
    refine (Run.Meets.repeated trivial rounds budget (fun _ mem => absurd mem List.not_mem_nil)
      []).weaken ?_
    rintro r ⟨-, values, gathered, all⟩ -
    rw [gathered]
    exact Value.writable_list.2 fun v mem => all v (List.mem_reverse.1 mem)
  | lookAhead p =>
    refine .bind (part (by simp [parts]) c) fun r hr => .pure ?_
    split
    · next ok => exact fun _ => hr ok
    · exact hr
  | trace tag text p =>
    refine .bind (P := fun _ => True) (.write trivial) fun _ _ => ?_
    refine .bind (part (by simp [parts]) c) fun r hr => ?_
    exact .bind (P := fun _ => True) (.write trivial) fun _ _ => .pure hr
  | label p name => exact part (by simp [parts]) c
  | wrap p name => exact part (by simp [parts]) c
  | forward cell name => exact .bind (Trait.library.meets_target cell _) fun p hp => each p c hp
  | lazy cell name => exact .bind (Trait.meets_force henv cell) fun p hp => each p c hp

theorem run_writes (henv : Trait.library.OfEnv env) (budget : Nat) {p : Parser}
    (hp : Trait.library.parser p) (c : Cursor) :
    (run env budget p c).Meets Trait.library.contract (fun _ => True) Result.Writes := by
  induction budget generalizing p c with
  | zero => exact .spent trivial
  | succ budget ih =>
    refine .settle c ((step_writes henv (fun p c hp => ih hp c) budget hp c).weaken ?_)
    exact fun r hr => hr.settle c

end Parser

/-- All sessions know stock parsers only. -/
theorem Session.Reached.stocked {s : Session} {allowed : Command → Prop} (h : s.Reached allowed) :
    Trait.stocked.OfSession s :=
  (h.mono fun command _ => by cases command <;> trivial).ofTrait

/-- Plain commands lead to sessions whose parsers are all from the library. -/
theorem Session.Reached.library {s : Session} (h : s.Reached Command.Plain) :
    Trait.library.OfSession s :=
  Reached.ofTrait (h.mono fun command plain => by
    cases command with
    | declare | defineValue | seek => trivial
    | _ => exact ⟨plain, trivial⟩)

end Rewind
