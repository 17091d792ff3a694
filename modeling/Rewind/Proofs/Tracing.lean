import Rewind.Proofs.Equations
import Rewind.Proofs.Likeness
import Rewind.Proofs.Probes
import Rewind.Rule.Combinators

namespace Rewind

variable {α β α' β' : Type} {P : Probes}

theorem Probes.kept_append (log log' : List Event) :
    P.kept (log ++ log') = P.kept log ++ P.kept log' := List.filter_append log log'

theorem Probes.kept_eq {log : List Event} (h : ∀ event ∈ log, event.isKept P = true) :
    P.kept log = log := List.filter_eq_self.2 h

theorem Probes.kept_notes (notes : List Note) : P.kept (notes.map .note) = notes.map .note := by
  refine P.kept_eq fun event mem => ?_
  obtain ⟨note, -, rfl⟩ := List.mem_map.1 mem
  rfl

/-- How a run with probes and the run without them end. The first may have no budget left where the
second has if it may be `behind`, and the other way around if it may be `ahead`. -/
inductive Probes.Ends (P : Probes) (behind ahead : Prop) (Q : α → β → Prop) :
    Option (Logged Event α × Store) → Option (Logged Event β × Store) → Prop
  | spent : Ends P behind ahead Q none none
  | behind (h : behind) (y : Option (Logged Event β × Store)) : Ends P behind ahead Q none y
  | ahead (h : ahead) (x : Option (Logged Event α × Store)) : Ends P behind ahead Q x none
  | ended {log : List Event} {x : Except Fault α} {y : Except Fault β} {A : Store}
      (clear : A.Clear P) (answers : Except.Agree Q x y) :
      Ends P behind ahead Q (some (⟨log, x⟩, A)) (some (⟨P.kept log, y⟩, A.unprobed P))

/-- With records that are all kept. -/
theorem Probes.Ends.same {behind ahead : Prop} {Q : α → β → Prop} {log : List Event}
    {x : Except Fault α} {y : Except Fault β} {A : Store} (kept : P.kept log = log)
    (clear : A.Clear P) (answers : Except.Agree Q x y) :
    P.Ends behind ahead Q (some (⟨log, x⟩, A)) (some (⟨log, y⟩, A.unprobed P)) := by
  have ended : P.Ends behind ahead Q (some (⟨log, x⟩, A)) (some (⟨P.kept log, y⟩, A.unprobed P)) :=
    .ended clear answers
  rwa [kept] at ended

/-- The second run does without probes what the first does with them. -/
def Run.Mirrors (P : Probes) (behind ahead : Prop) (x : Run α) (y : Run β) (Q : α → β → Prop) :
    Prop :=
  ∀ A, Store.Clear P A → P.Ends behind ahead Q (x A) (y (A.unprobed P))

/-- A parser with probes and the same without. -/
def Probes.Parsers (P : Probes) (p q : Parser) : Prop := p.Clear P ∧ q = p.unprobed P

namespace Run.Mirrors

variable {behind ahead : Prop} {x : Run α} {y : Run β} {Q : α → β → Prop} {Q' : α' → β' → Prop}

theorem pure {a : α} {b : β} (h : Q a b) :
    Mirrors P behind ahead (Pure.pure a) (Pure.pure b) Q :=
  fun _ clear => .ended clear (.ok h)

theorem raise (fault : Fault) : Mirrors P behind ahead (Run.raise fault) (Run.raise fault) Q :=
  fun _ clear => .ended clear (.error fault)

theorem bind {f : α → Run α'} {g : β → Run β'} (first : Mirrors P behind ahead x y Q)
    (second : ∀ a b, Q a b → Mirrors P behind ahead (f a) (g b) Q') :
    Mirrors P behind ahead (x >>= f) (y >>= g) Q' := by
  intro A clear
  have h := first A clear
  generalize hx : x A = u at h
  generalize hy : y (A.unprobed P) = v at h
  cases h with
  | spent =>
    rw [bind_of_none hx, bind_of_none hy]
    exact .spent
  | behind h =>
    rw [bind_of_none hx]
    exact .behind h _
  | ahead h =>
    rw [bind_of_none hy]
    exact .ahead h _
  | ended clear answers =>
    cases answers with
    | error fault =>
      rw [bind_of_error hx, bind_of_error hy]
      exact .ended clear (.error fault)
    | @ok a b related =>
      rw [bind_of_ok hx, bind_of_ok hy]
      have rest := second a b related _ clear
      generalize f a _ = u at rest
      generalize g b _ = v at rest
      cases rest with
      | spent => exact .spent
      | behind h => exact .behind h _
      | ahead h => exact .ahead h _
      | ended clear answers =>
        simp only [Option.map_some, Logged.after, ← P.kept_append]
        exact .ended clear answers

/-- What no probe writes is written on both sides. -/
theorem write {event : Event} (kept : event.isKept P = true) :
    Mirrors P behind ahead (Run.write event) (Run.write event) fun _ _ => True :=
  fun _ clear => .same (P.kept_eq (by simp [kept])) clear (.ok trivial)

theorem writeNotes (notes : List Note) :
    Mirrors P behind ahead (Run.writeNotes notes) (Run.writeNotes notes) fun _ _ => True :=
  fun _ clear => .same (P.kept_notes notes) clear (.ok trivial)

theorem ofAct (x : Act α) : Mirrors P behind ahead (Run.ofAct x) (Run.ofAct x) Eq :=
  fun _ clear => .same (P.kept_notes x.log) clear (.refl (fun _ => rfl) x.result)

theorem settle {x y : Run Result} (h : Mirrors P behind ahead x y Eq) (c : Cursor) :
    Mirrors P behind ahead (x.settle c) (y.settle c) Eq := by
  rw [settle_eq_bind, settle_eq_bind]
  exact h.bind fun _ _ same => .pure (by rw [same])

/-- What a probe writes is not written on the other side. -/
theorem unseen {event : Event} (probe : event.isKept P = false) :
    Mirrors P behind ahead (Run.write event) (Pure.pure ()) fun _ _ => True := by
  intro A clear
  have none : P.kept [event] = [] := by simp [Probes.kept, probe]
  show P.Ends _ _ _ _ (some (⟨[], .ok ()⟩, _))
  rw [← none]
  exact .ended clear (.ok trivial)

/-- A probe does no more than write. -/
theorem probe {tag : Nat} (inserted : P.tags tag = true) (text : String) (c : Cursor)
    {x y : Run Result} (h : Mirrors P behind ahead x y Eq) :
    Mirrors P behind ahead
      (do
        Run.write (.entered tag text c)
        let r ← x
        Run.write (r.traceEnd tag text c)
        return r) y Eq := by
  have closing : ∀ r : Result, (r.traceEnd tag text c).isKept P = false := by
    intro r
    unfold Result.traceEnd
    split
    · simp [Event.isKept, inserted]
    · simp [Event.isKept, inserted]
  have alone : y = (Pure.pure () >>= fun _ => y >>= fun r => Pure.pure () >>= fun _ => Pure.pure r) := by
    simp
  rw [alone]
  refine (unseen (by simp [Event.isKept, inserted])).bind fun _ _ _ => h.bind fun r r' same => ?_
  exact (unseen (closing r)).bind fun _ _ _ => .pure same

/-- The run without probes may go further. -/
theorem below {z : Run β} (h : Mirrors P True False x y Q) (further : y.Below z) :
    Mirrors P True False x z Q := by
  intro A clear
  have h := h A clear
  generalize hx : x A = u at h ⊢
  generalize hy : y (A.unprobed P) = v at h
  cases h with
  | spent => exact .behind trivial _
  | behind => exact .behind trivial _
  | ahead impossible => exact impossible.elim
  | ended clear answers =>
    rw [further _ _ hy]
    exact .ended clear answers

/-- The run with probes may go further. -/
theorem above {z : Run α} (h : Mirrors P False True x y Q) (further : x.Below z) :
    Mirrors P False True z y Q := by
  intro A clear
  have h := h A clear
  generalize hx : x A = u at h
  generalize hy : y (A.unprobed P) = v at h ⊢
  cases h with
  | spent => exact .ahead trivial _
  | behind impossible => exact impossible.elim
  | ahead => exact .ahead trivial _
  | ended clear answers =>
    rw [further _ _ hx]
    exact .ended clear answers

end Run.Mirrors

/-- What building a rule gives with probes and without. -/
structure Rule.Builds (P : Probes) (r : Rule) (p q : Parser) : Prop where
  both : P.Parsers p q
  named : r.Named P → p.name ≠ ""
  bare : r.Bare P → p.isProbe P = false

namespace Run.Mirrors

variable {behind ahead : Prop} {env : Env}

theorem allocate {cell : Cell} (hc : cell.Clear P) :
    Mirrors P behind ahead (ofBuild (Store.allocate cell))
      (ofBuild (Store.allocate (cell.unprobed P))) Eq := by
  intro A clear
  have made : ofBuild (Store.allocate (cell.unprobed P)) (A.unprobed P) =
      some (⟨[], .ok A.size⟩, Store.unprobed P (A.push cell)) := by
    rw [Store.unprobed_push, ← Store.size_unprobed (P := P) A]
    rfl
  rw [made]
  exact .same rfl (clear.push hc) (.ok rfl)

theorem checked (refusal : Option Fault) {p q : Parser} {R : Parser → Parser → Prop}
    (h : refusal = none → R p q) :
    Mirrors P behind ahead (ofBuild (Rule.checked refusal p)) (ofBuild (Rule.checked refusal q)) R := by
  rcases refusal with _ | fault
  · exact .pure (h rfl)
  · exact .raise fault

theorem build (henv : Env.Clear P env) {r : Rule} (hr : r.Clear P) :
    Mirrors P behind ahead (ofBuild (r.build env))
      (ofBuild ((r.unprobed P).build (env.unprobed P))) (r.Builds P) := by
  induction r with
  | atom a => exact checked _ fun _ => ⟨⟨trivial, rfl⟩, fun named => named, fun _ => rfl⟩
  | ref name =>
    simp only [Rule.unprobed, Rule.build, Rule.lookup, Env.lookup_unprobed]
    rcases bound : env.lookup name with _ | p
    · exact .raise _
    · obtain ⟨clear, named, bare⟩ := henv name p bound
      exact .pure ⟨⟨clear, rfl⟩, named, bare⟩
  | lazy name watched thunk _ =>
    simp only [Rule.unprobed, Rule.build, Store.newLazy, ofBuild_bind]
    have cleared : (Cell.lazy name watched thunk none).Clear P := ⟨hr, fun _ held => by cases held⟩
    refine (allocate cleared).bind fun i j same => ?_
    rw [same]
    exact .pure ⟨⟨trivial, rfl⟩, fun _ => by simp [Parser.name], fun _ => rfl⟩
  | raise fault => exact .raise fault
  | andThen r notes next ih _ =>
    simp only [Rule.unprobed, Rule.build, ofBuild_bind]
    refine (ih hr.1).bind fun p q h => .pure ⟨⟨⟨h.both.1, hr.2⟩, ?_⟩, fun _ => ?_, fun _ => rfl⟩
    · rw [h.both.2]
      rfl
    · simp [Parser.name]
  | unary op r ih =>
    obtain ⟨labelled, around, hr⟩ := hr
    have applied : ∀ {p q}, r.Builds P p q → (op.apply p).Clear P ∧ (op.apply p).name ≠ "" :=
      fun h => ⟨op.clear labelled h.both.1 fun probe => h.named (around probe),
        op.name_apply labelled _⟩
    by_cases probe : op.isProbe P = true
    · -- Without the probe nothing is put around what is built.
      have whole := bind_pure (ofBuild ((r.unprobed P).build (env.unprobed P)))
      simp only [Rule.unprobed, probe, if_true, Rule.build, ofBuild_bind]
      rw [← whole, Unary.refusal?_probe probe]
      refine (ih hr).bind fun p q h => .pure ⟨⟨(applied h).1, ?_⟩, fun _ => (applied h).2, fun bare => ?_⟩
      · rw [h.both.2, op.unprobed_probe probe]
      · cases probe.symm.trans bare
    · have other := Bool.of_not_eq_true probe
      simp only [Rule.unprobed, other, Bool.false_eq_true, if_false, Rule.build, ofBuild_bind]
      refine (ih hr).bind fun p q h => checked _ fun _ =>
        ⟨⟨(applied h).1, ?_⟩, fun _ => (applied h).2, fun _ => ?_⟩
      · rw [h.both.2, op.unprobed_apply other h.both.1]
      · rw [op.isProbe_apply, other]
  | binary op l r ihl ihr =>
    simp only [Rule.unprobed, Rule.build, ofBuild_bind]
    refine (ihl hr.1).bind fun p p' hp => (ihr hr.2).bind fun q q' hq => .pure ?_
    refine ⟨⟨op.clear hp.both.1 hq.both.1, ?_⟩, fun _ => op.name_apply p q, fun _ => ?_⟩
    · rw [hp.both.2, hq.both.2, op.unprobed_apply hp.both.1 hq.both.1]
    · cases op <;> rfl
  | between o c b iho ihc ihb =>
    simp only [Rule.unprobed, Rule.build, ofBuild_bind]
    refine (iho hr.1).bind fun p p' hp => (ihc hr.2.1).bind fun q q' hq => ?_
    refine (ihb hr.2.2).bind fun t t' ht => .pure ?_
    refine ⟨⟨.between hp.both.1 hq.both.1 ht.both.1, ?_⟩, fun _ => ?_, fun _ => rfl⟩
    · rw [hp.both.2, hq.both.2, ht.both.2, Parser.unprobed_between hp.both.1 ht.both.1]
    · simp [Parser.between, Parser.followedBy, Parser.name]

theorem target (cell : Nat) (name : String) :
    Mirrors P behind ahead (Run.target cell name) (Run.target cell name) P.Parsers := by
  intro A clear
  simp only [Run.target, Store.target?_unprobed]
  rcases found : A.target? cell with _ | p
  · exact .same rfl clear (.error _)
  · exact .same rfl clear (.ok ⟨clear.target found, rfl⟩)

theorem force (henv : Env.Clear P env) (cell : Nat) :
    Mirrors P behind ahead (Run.force env cell) (Run.force (env.unprobed P) cell) P.Parsers := by
  intro A clear
  simp only [Run.force, Store.getElem?_unprobed]
  rcases there : A[cell]? with _ | target | ⟨name, watched, thunk, _ | p⟩
  · exact .same rfl clear (.error _)
  · exact .same rfl clear (.error _)
  · have filled : P.kept (if watched then [.filled name] else []) =
        if watched then [.filled name] else [] := by
      cases watched
      · rfl
      · rfl
    have thunks : Mirrors P behind ahead (ofBuild (thunk.build env))
        (ofBuild ((thunk.unprobed P).build (env.unprobed P))) (thunk.Builds P) :=
      build henv (clear cell _ there).1
    have built := thunks A clear
    simp only [Option.map_some, Option.map_none, Cell.unprobed]
    rcases hA : thunk.build env A with ⟨x, B⟩
    rcases hB : (thunk.unprobed P).build (env.unprobed P) (A.unprobed P) with ⟨y, B'⟩
    rw [ofBuild_eq hA, ofBuild_eq hB] at built
    cases built with
    | ended clear answers =>
      cases answers with
      | error fault => exact .same filled clear (.error fault)
      | @ok p q related =>
        simp only [related.both.2, ← Store.unprobed_fill]
        exact .same filled (clear.fill related.both.1 cell) (.ok ⟨related.both.1, rfl⟩)
  · exact .same rfl clear (.ok ⟨(clear cell _ there).2 p rfl, rfl⟩)

theorem rounds {round round' : Cursor → Run Result} {stop : Cursor → Event}
    (each : ∀ c, Mirrors P behind ahead (round c) (round' c) Eq)
    (kept : ∀ c, (stop c).isKept P = true) (n : Nat) (c : Cursor) :
    Mirrors P behind ahead (Run.rounds round stop n c) (Run.rounds round' stop n c) Eq := by
  induction n generalizing c with
  | zero => exact fun _ _ => .spent
  | succ n ih =>
    refine (each c).bind fun r r' same => ?_
    rw [same]
    split
    · split
      · exact (write (kept c)).bind fun _ _ _ => .pure rfl
      · refine (ih r'.cursor).bind fun x x' same => ?_
        rw [same]
        exact .pure rfl
    · exact .pure rfl

end Run.Mirrors

/-- Each parser is run with probes and without. -/
def Probes.Mirrored (P : Probes) (behind ahead : Prop) (run run' : Parser → Cursor → Run Result) :
    Prop :=
  ∀ p c, p.Clear P → Run.Mirrors P behind ahead (run p c) (run' (p.unprobed P) c) Eq

namespace Probes.Mirrored

variable {behind ahead : Prop} {run run' : Parser → Cursor → Run Result} {env : Env}

/-- A parser that is no probe does the same, if its parts do. -/
theorem step (each : P.Mirrored behind ahead run run') (henv : Env.Clear P env) (n : Nat)
    {p : Parser} (hp : p.Clear P) (other : p.isProbe P = false) (c : Cursor) :
    Run.Mirrors P behind ahead (Parser.step run n env p c)
      (Parser.step run' n (env.unprobed P) (p.unprobed P) c) Eq := by
  cases p with
  | atom a => exact .ofAct _
  | andThen p notes next =>
    refine (each p c hp.1).bind fun r r' same => ?_
    rw [same]
    split
    · refine (Run.Mirrors.writeNotes _).bind fun _ _ _ => ?_
      refine (Run.Mirrors.build henv (hp.2 r')).bind fun q q' built => ?_
      rw [built.both.2]
      exact each q r'.cursor built.both.1
    · exact .pure rfl
  | both p q combine =>
    refine (each p c hp.1).bind fun r r' same => ?_
    rw [same]
    split
    · refine (each q _ hp.2).bind fun t t' same => ?_
      rw [same]
      split
      · refine (Run.Mirrors.ofAct _).bind fun v v' same => ?_
        rw [same]
        exact .pure rfl
      · exact .pure rfl
    · exact .pure rfl
  | map p f =>
    refine (each p c hp).bind fun r r' same => ?_
    rw [same]
    split
    · refine (Run.Mirrors.ofAct _).bind fun v v' same => ?_
      rw [same]
      exact .pure rfl
    · exact .pure rfl
  | or p q =>
    refine (each p c hp.1).bind fun r r' same => ?_
    rw [same]
    split
    · exact .pure rfl
    · exact each q c hp.2
  | not p =>
    refine (each p c hp).bind fun r r' same => ?_
    rw [same]
    exact .pure rfl
  | many p =>
    -- What the loop records has the parser's name, which the probes inside it do not change.
    have name : (p.unprobed P).name = p.name := Parser.Clear.name hp
    simp only [Parser.unprobed, Parser.step, Run.repeated_nil, name]
    refine (Run.Mirrors.rounds (fun d => each p d hp) (fun _ => rfl) n c).bind fun x x' same => ?_
    rw [same]
    exact .pure rfl
  | lookAhead p =>
    refine (each p c hp).bind fun r r' same => ?_
    rw [same]
    exact .pure rfl
  | trace tag text p =>
    have apart : P.tags tag = false := other
    have ended : ∀ r : Result, (r.traceEnd tag text c).isKept P = true := by
      intro r
      unfold Result.traceEnd
      split
      · simp [Event.isKept, apart]
      · simp [Event.isKept, apart]
    simp only [Parser.unprobed, apart, Bool.false_eq_true, if_false]
    refine (Run.Mirrors.write (by simp [Event.isKept, apart])).bind fun _ _ _ => ?_
    refine (each p c hp.2).bind fun r r' same => ?_
    rw [same]
    exact (Run.Mirrors.write (ended r')).bind fun _ _ _ => .pure rfl
  | label p name => exact each p c hp.2
  | wrap p name => exact each p c hp
  | forward cell name =>
    refine (Run.Mirrors.target cell _).bind fun p q both => ?_
    rw [both.2]
    exact each p c both.1
  | lazy cell name =>
    refine (Run.Mirrors.force henv cell).bind fun p q both => ?_
    rw [both.2]
    exact each p c both.1

end Probes.Mirrored

namespace Parser

variable {env : Env}

theorem run_settle (env : Env) (n : Nat) (p : Parser) (c : Cursor) :
    (run env n p c).settle c = run env n p c := by
  cases n with
  | zero => rfl
  | succ n => exact Run.settle_settle c _

theorem exists_of_isProbe {p : Parser} (probe : p.isProbe P = true) :
    ∃ tag text q, p = .trace tag text q ∧ P.tags tag = true := by
  cases p with
  | trace tag text q => exact ⟨tag, text, q, rfl, probe⟩
  | _ => cases probe

theorem unprobed_probe {tag : Nat} (inserted : P.tags tag = true) (text : String) (p : Parser) :
    (trace tag text p).unprobed P = p.unprobed P := if_pos inserted

theorem isForward_unprobed {p : Parser} (other : p.isProbe P = false) :
    (p.unprobed P).isForward = p.isForward := by
  cases p with
  | trace tag text p =>
    have apart : P.tags tag = false := other
    simp [unprobed, apart, isForward]
  | _ => rfl

/-- Where a run with probes ends, the run without them does. -/
theorem run_mirrored (henv : Env.Clear P env) (n : Nat) :
    P.Mirrored True False (run env n) (eval (env.unprobed P)) := by
  induction n with
  | zero => exact fun p c _ _ _ => .behind trivial _
  | succ n ih =>
    intro p c hp
    by_cases probe : p.isProbe P = true
    · obtain ⟨tag, text, q, rfl, inserted⟩ := exists_of_isProbe probe
      have part := (Run.Mirrors.probe inserted text c (ih q c hp.2)).settle c
      rw [eval_settle] at part
      rw [unprobed_probe inserted]
      exact part
    · have stepped := ih.step henv n hp (Bool.of_not_eq_true probe) c
      exact (stepped.settle c).below (step_eval_below _ n _ c)

/-- Where a run without probes ends, the run with them does. -/
theorem eval_mirrored (henv : Env.Clear P env) (n : Nat) :
    P.Mirrored False True (eval env) (run (env.unprobed P) n) := by
  induction n with
  | zero => exact fun p c _ _ _ => .ahead trivial _
  | succ n ih =>
    intro p c hp
    have stepped : ∀ {p : Parser}, p.Clear P → p.isProbe P = false →
        Run.Mirrors P False True (eval env p c) (run (env.unprobed P) (n + 1) (p.unprobed P) c) Eq :=
      fun hp other => ((ih.step henv n hp other c).settle c).above (step_eval_below env n _ c)
    -- A probe takes budget on one side only, so the induction goes on over the probes around `p`.
    induction p with
    | trace tag text p again =>
      by_cases inserted : P.tags tag = true
      · have part := (Run.Mirrors.probe inserted text c (again hp.2)).settle c
        rw [run_settle] at part
        rw [unprobed_probe inserted, eval_eq_step env _ c (by simp)]
        exact part
      · exact stepped hp (Bool.of_not_eq_true inserted)
    | _ => exact stepped hp rfl

/-- With probes and without, a parser comes to the same. -/
theorem eval_mirrors (henv : Env.Clear P env) :
    P.Mirrored False False (eval env) (eval (env.unprobed P)) := by
  intro p c hp A clear
  rcases ended : eval env p c A with _ | last
  · rcases other : eval (env.unprobed P) (p.unprobed P) c (A.unprobed P) with _ | last'
    · exact .spent
    · obtain ⟨n, run⟩ := eval_eq_some_iff.1 other
      have same := eval_mirrored henv n p c hp A clear
      rw [ended, run] at same
      cases same with | behind impossible => exact impossible.elim
  · obtain ⟨n, run⟩ := eval_eq_some_iff.1 ended
    have same := run_mirrored henv n p c hp A clear
    rw [run] at same
    generalize eval (env.unprobed P) (p.unprobed P) c (A.unprobed P) = other at same ⊢
    cases same with
    | ended clear answers => exact .ended clear answers
    | ahead impossible => exact impossible.elim

end Parser

namespace Run.Mirrors

variable {behind ahead : Prop}

theorem lookup {env : Env} (henv : Env.Clear P env) (name : String) :
    Mirrors P behind ahead (ofBuild (Rule.lookup env name))
      (ofBuild (Rule.lookup (env.unprobed P) name)) ((Rule.ref name).Builds P) :=
  build (r := .ref name) henv trivial

theorem newForward (label : String) :
    Mirrors P behind ahead (ofBuild (Store.newForward label)) (ofBuild (Store.newForward label))
      fun p q => p = q ∧ ∃ cell, p = .forward cell label := by
  simp only [Store.newForward, ofBuild_bind]
  have cleared : (Cell.forward none).Clear P := fun _ held => by cases held
  refine (allocate cleared).bind fun i j same => ?_
  rw [same]
  exact .pure ⟨rfl, j, rfl⟩

theorem undefinedCell {p : Parser} (hp : p.Clear P) (other : p.isProbe P = false) :
    Mirrors P behind ahead p.undefinedCell (p.unprobed P).undefinedCell Eq := by
  intro A clear
  have refused : p.undefinedCell A = Run.raise (.unbound p.name) A →
      (p.unprobed P).undefinedCell (A.unprobed P) =
        Run.raise (.unbound (p.unprobed P).name) (A.unprobed P) →
      P.Ends behind ahead Eq (p.undefinedCell A) ((p.unprobed P).undefinedCell (A.unprobed P)) := by
    intro left right
    rw [left, right, hp.name]
    exact .same rfl clear (.error _)
  cases p with
  | forward cell name =>
    simp only [Parser.unprobed, Parser.undefinedCell, Store.target?_unprobed]
    rcases A.target? cell with _ | q
    · exact .same rfl clear (.ok rfl)
    · exact .same rfl clear (.error _)
  | trace tag text p =>
    have apart : P.tags tag = false := other
    refine refused rfl ?_
    simp only [Parser.unprobed, apart]
    rfl
  | _ => exact refused rfl rfl

theorem define {p target : Parser} (hp : p.Clear P) (other : p.isProbe P = false)
    (ht : target.Clear P) :
    Mirrors P behind ahead (p.define target) ((p.unprobed P).define (target.unprobed P))
      fun _ _ => True := by
  unfold Parser.define
  rw [hp.name, ht.name]
  refine (undefinedCell hp other).bind fun cell cell' same => ?_
  rw [same]
  refine (write rfl).bind fun _ _ _ A clear => ?_
  have filled : ofBuild (modify fun store => store.fill cell' (target.unprobed P)) (A.unprobed P) =
      some (⟨[], .ok ()⟩, Store.unprobed P (A.fill cell' target)) := by
    rw [Store.unprobed_fill]
    rfl
  rw [filled]
  exact .same rfl (clear.fill ht cell') (.ok trivial)

end Run.Mirrors

/-- An answer without the records of probes. -/
def Probes.answer (P : Probes) (answer : Logged Event Answer) : Logged Event Answer :=
  ⟨P.kept answer.log, answer.result⟩

/-- The same answer, name by name the same parser but for probes, and the same cursor. -/
def Probes.Answers (P : Probes) (a b : Answer × Env × Cursor) : Prop :=
  Env.Clear P a.2.1 ∧ b = (a.1, Env.unprobed P a.2.1, a.2.2)

namespace Session

variable {s s' : Session} {command : Command}

/-- A command answers the same and leaves the same names and the same cursor. -/
theorem meaningBy_mirrors (hs : s.Clear P) (hc : command.Clear P) :
    Run.Mirrors P False False (meaningBy (Parser.eval s.env) s command)
      (meaningBy (Parser.eval (s.unprobed P).env) (s.unprobed P) (command.unprobed P))
      P.Answers := by
  have built : ∀ {rule : Rule}, rule.Clear P →
      Run.Mirrors P False False (Run.ofBuild (rule.build s.env))
        (Run.ofBuild ((rule.unprobed P).build (s.env.unprobed P))) (rule.Builds P) :=
    fun hr => .build hs.env hr
  cases command with
  | bind name rule =>
    refine (built hc.1).bind fun p q made => .pure ⟨?_, ?_⟩
    · exact hs.env.cons made.both.1 (fun named => made.named (hc.2.1 named))
        fun bare => made.bare (hc.2.2 bare)
    · rw [made.both.2, made.both.1.name]
      rfl
  | declare name label =>
    refine (Run.Mirrors.newForward label).bind fun p q made => .pure ?_
    obtain ⟨rfl, cell, rfl⟩ := made
    have filled : nameOr label "_run_target" ≠ "" := nameOr_ne (by simp) label
    exact ⟨hs.env.cons trivial (fun _ => filled) fun _ => rfl, rfl⟩
  | define name rule =>
    refine (Run.Mirrors.lookup hs.env name).bind fun p p' found => ?_
    refine (built hc.2).bind fun t t' made => ?_
    rw [found.both.2, made.both.2]
    refine (Run.Mirrors.define found.both.1 (found.bare hc.1) made.both.1).bind fun _ _ _ => ?_
    exact .pure ⟨hs.env, rfl⟩
  | defineValue name value =>
    refine (Run.Mirrors.lookup hs.env name).bind fun p p' found => ?_
    rw [found.both.2]
    have refused : Run.Mirrors P False False (p.defineValue value)
        ((p.unprobed P).defineValue value) fun _ _ => True :=
      (Run.Mirrors.undefinedCell found.both.1 (found.bare hc)).bind fun _ _ _ => .raise _
    exact refused.bind fun _ _ _ => .pure ⟨hs.env, rfl⟩
  | inspect rule =>
    refine (built hc.2).bind fun p q made => .pure ⟨hs.env, ?_⟩
    rw [made.both.2, Parser.display, made.both.1.name, Parser.isForward_unprobed (made.bare hc.1)]
    rfl
  | parse rule text position =>
    refine (built hc).bind fun p q made => (Run.Mirrors.ofAct _).bind fun c c' same => ?_
    rw [made.both.2, made.both.1.name, same]
    refine (Parser.eval_mirrors hs.env p c' made.both.1).bind fun r r' same => ?_
    rw [same]
    exact .pure ⟨hs.env, rfl⟩
  | run rule text requireEnd =>
    refine (built hc).bind fun p q made => ?_
    rw [made.both.2, made.both.1.name]
    refine Run.Mirrors.bind (Q := Eq) ?_ fun outcome outcome' same => ?_
    · exact (Parser.eval_mirrors hs.env p _ made.both.1).bind fun r r' same => .pure (by rw [same])
    · rw [same]
      exact .pure ⟨hs.env, rfl⟩
  | seek text position =>
    refine (Run.Mirrors.ofAct _).bind fun c c' same => .pure ⟨hs.env, ?_⟩
    rw [same]
    rfl
  | feed rule =>
    refine (built hc).bind fun p q made => ?_
    rw [made.both.2]
    refine (Parser.eval_mirrors hs.env p _ made.both.1).bind fun r r' same => ?_
    rw [same]
    exact .pure ⟨hs.env, rfl⟩

theorem store_unprobed : (s.unprobed P).store = s.store.unprobed P := rfl

theorem conclude_unprobed {u v : Option (Logged Event (Answer × Env × Cursor) × Store)}
    (same : P.Ends False False P.Answers u v) :
    v.map (s.unprobed P).conclude =
      (u.map s.conclude).map fun last => (P.answer last.1, last.2.unprobed P) := by
  cases same with
  | spent => rfl
  | behind impossible => exact impossible.elim
  | ahead impossible => exact impossible.elim
  | ended clear answers =>
    cases answers with
    | error fault => rfl
    | ok related =>
      rw [related.2]
      rfl

theorem conclude_clear (hs : s.Clear P)
    {u v : Option (Logged Event (Answer × Env × Cursor) × Store)}
    (same : P.Ends False False P.Answers u v) {last : Logged Event Answer × Session}
    (ended : u.map s.conclude = some last) : last.2.Clear P := by
  cases same with
  | spent => cases ended
  | behind impossible => exact impossible.elim
  | ahead impossible => exact impossible.elim
  | ended clear answers =>
    cases answers with
    | error fault =>
      cases ended
      exact ⟨hs.env, clear⟩
    | ok related =>
      cases ended
      exact ⟨related.1, clear⟩

theorem Clear.step (hs : s.Clear P) (hc : command.Clear P) {budget : Nat}
    {answer : Logged Event Answer} (taken : s.step budget command = some (answer, s')) :
    s'.Clear P :=
  conclude_clear hs (meaningBy_mirrors hs hc s.store hs.store) (exists_step_iff.1 ⟨budget, taken⟩)

/-- A command ends without probes where it ends with them, answers the same but for the records of
probes, and leaves the same session but for probes. -/
theorem exists_step_unprobed_iff (hs : s.Clear P) (hc : command.Clear P)
    {answer' : Logged Event Answer} {t : Session} :
    (∃ budget, (s.unprobed P).step budget (command.unprobed P) = some (answer', t)) ↔
      ∃ budget answer s', s.step budget command = some (answer, s') ∧ P.answer answer = answer' ∧
        s'.unprobed P = t := by
  have same := conclude_unprobed (s := s) (meaningBy_mirrors hs hc s.store hs.store)
  rw [exists_step_iff, store_unprobed, same, Option.map_eq_some_iff]
  constructor
  · rintro ⟨⟨answer, s'⟩, ended, same⟩
    obtain ⟨budget, taken⟩ := exists_step_iff.2 ended
    cases same
    exact ⟨budget, answer, s', taken, rfl, rfl⟩
  · rintro ⟨budget, answer, s', taken, rfl, rfl⟩
    exact ⟨(answer, s'), exists_step_iff.1 ⟨budget, taken⟩, rfl⟩

theorem start_unprobed : start.unprobed P = start := by
  simp [unprobed, start, Env.unprobed, Store.unprobed]

theorem start_clear : Session.start.Clear P where
  env := fun _ _ bound => by cases bound
  store := fun _ _ there => by cases there

theorem performs_unprobed_from {commands : List Command} (hs : s.Clear P)
    (clear : ∀ command ∈ commands, command.Clear P) (answers' : List (Logged Event Answer))
    (t : Session) :
    Performs (commands.map (Command.unprobed P)) (s.unprobed P) answers' t ↔
      ∃ answers s', Performs commands s answers s' ∧ answers.map P.answer = answers' ∧
        s'.unprobed P = t := by
  induction commands generalizing s answers' with
  | nil =>
    constructor
    · rintro ⟨⟩
      exact ⟨[], s, .nil s, rfl, rfl⟩
    · rintro ⟨answers, s', ⟨⟩, rfl, rfl⟩
      exact .nil _
  | cons command commands ih =>
    have hc := clear command List.mem_cons_self
    have rest := fun command' mem => clear command' (List.mem_cons_of_mem command mem)
    constructor
    · rintro (_ | ⟨taken, later⟩)
      obtain ⟨budget, answer, s', taken', rfl, rfl⟩ := (exists_step_unprobed_iff hs hc).1 ⟨_, taken⟩
      obtain ⟨answers, s'', performed, rfl, rfl⟩ := (ih (hs.step hc taken') rest _).1 later
      exact ⟨answer :: answers, s'', .cons taken' performed, rfl, rfl⟩
    · rintro ⟨answers, s'', _ | ⟨taken, later⟩, rfl, rfl⟩
      obtain ⟨budget, taken'⟩ := (exists_step_unprobed_iff hs hc).2 ⟨_, _, _, taken, rfl, rfl⟩
      exact .cons taken' ((ih (hs.step hc taken) rest _).2 ⟨_, _, later, rfl, rfl⟩)

/-- Commands without probes are performed wherever the same commands with probes are. Each answers
with the same name and the same result, or ends in the same fault, and its records are what is left,
in the same order, without the records of probes. -/
theorem performs_unprobed_iff {commands : List Command}
    (clear : ∀ command ∈ commands, command.Clear P) (answers' : List (Logged Event Answer))
    (t : Session) :
    Performs (commands.map (Command.unprobed P)) start answers' t ↔
      ∃ answers s, Performs commands start answers s ∧ answers.map P.answer = answers' ∧
        s.unprobed P = t := by
  have performs := performs_unprobed_from start_clear clear answers' t
  rwa [start_unprobed] at performs

/-- Traces tagged with one are probes. The name `ones` stands for a parser with a name. -/
def watching : Probes := ⟨fun tag => tag == 1, fun name => name = "ones", fun _ => False⟩

/-- Probes in a thunk, in a continuation and around the whole, and a trace that is no probe. -/
def watched : List Command :=
  [.bind "ones" (.lazy (some "ones") true (.unary (.trace 1 "inner") (.many1 (.char '1')))),
    .parse
      (.unary (.trace 1 "whole")
        (.andThen (.unary (.trace 0 "first") (.ref "ones")) (fun _ => [])
          fun _ => .unary (.trace 1 "rest") (.char 'x')))
      #['1', '1', 'y'] 0]

/-- The parse fails. It writes nine records, six of them with probes. -/
theorem performs_unprobed_iff_watched :
    ∃ answers s, Performs watched start answers s ∧
      Performs (watched.map (Command.unprobed watching)) start (answers.map watching.answer)
        (s.unprobed watching) ∧
      answers.map (fun answer => answer.log.length) = [0, 9] ∧
      (answers.map watching.answer).map (fun answer => answer.log.length) = [0, 3] := by
  have clear : ∀ command ∈ watched, command.Clear watching := by
    simp [watched, Command.Clear, Rule.Clear, Rule.Named, Unary.Labelled, Unary.isProbe, watching,
      Rule.many1, Rule.char, Rule.ofTest, Rule.satisfy, Atom.name, Atom.givenName, nameOr]
  have first : start.step 12 watched[0] = some (_, start.after 12 [watched[0]]) := rfl
  have second : (start.after 12 [watched[0]]).step 12 watched[1] =
    some (_, start.after 12 watched) := rfl
  have performed : Performs watched start _ _ := .cons first (.cons second (.nil _))
  have same := (performs_unprobed_iff clear _ _).2 ⟨_, _, performed, rfl, rfl⟩
  exact ⟨_, _, performed, same, rfl, rfl⟩

end Session

end Rewind
