import Rewind.Proofs.Contract
import Rewind.Parser.Run

namespace Rewind

theorem Build.Meets.checked {keeps : Store → Prop} {raises : Fault → Prop} {P : Parser → Prop}
    {refusal : Option Fault} {p : Parser} (faults : ∀ fault, refusal = some fault → raises fault)
    (fits : refusal = none → P p) : Build.Meets keeps raises (Rule.checked refusal p) P := by
  cases refusal with
  | none => exact .pure (fits rfl)
  | some fault => exact .throw (faults fault rfl)

namespace Parser

/-- What combinators do with two values: they keep one of them, make a constant of both, or apply
the operators of the rounds and make a constant of what that comes to. -/
inductive Stock : (Value → Value → Act Value) → Prop
  | first : Stock fun x _ => pure x
  | second : Stock fun _ y => pure y
  | pair : Stock fun x y => pure (.tuple [x, y])
  | joint (f : Value → Value → Value) : Stock fun x y => (f x y).asConstant

/-- The parsers without parts that combinators put in have the property, and whatever is put
together from parsers that have it does. -/
structure Inherited (Q : Parser → Prop) : Prop where
  constant {v : Value} : v.writable = true → Q (constant v)
  blank : Q blank
  both {p q : Parser} {combine : Value → Value → Act Value} (stock : Stock combine) :
    Q p → Q q → Q (.both p q combine)
  map {p : Parser} (f : Value → Act Value) : Q p → Q (p.map f)
  or {p q : Parser} : Q p → Q q → Q (.or p q)
  not {p : Parser} : Q p → Q (.not p)
  many {p : Parser} : Q p → Q (.many p)
  lookAhead {p : Parser} : Q p → Q (.lookAhead p)
  trace {p : Parser} (tag : Nat) (text : String) : Q p → Q (.trace tag text p)
  label {p : Parser} (name : String) : Q p → Q (.label p name)
  wrap {p : Parser} (name : String) : Q p → Q (.wrap p name)

variable {Q : Parser → Prop} {p q o : Parser}

namespace Inherited

theorem before (h : Inherited Q) (hp : Q p) (hq : Q q) : Q (p.before q) :=
  h.label _ (h.both .second hp hq)

theorem followedBy (h : Inherited Q) (hp : Q p) (hq : Q q) : Q (p.followedBy q) :=
  h.both .first (h.map pure hp) hq

theorem token (h : Inherited Q) (hp : Q p) : Q p.token :=
  h.label _ (h.followedBy (h.before (h.many h.blank) hp) (h.many h.blank))

theorem sepBy1 (h : Inherited Q) (hp : Q p) (hq : Q q) : Q (p.sepBy1 q) :=
  h.both (.joint _) hp (h.many (h.before hq hp))

theorem between (h : Inherited Q) (ho : Q o) (hq : Q q) (hp : Q p) : Q (between o q p) :=
  h.followedBy (h.before ho hp) hq

theorem foldl_snoc (h : Inherited Q) {ps : List Parser} (hps : ∀ q ∈ ps, Q q) (hp : Q p) :
    Q (ps.foldl snoc p) := by
  induction ps generalizing p with
  | nil => exact hp
  | cons q ps ih =>
    have hq : Q q := hps q List.mem_cons_self
    exact ih (fun r hr => hps r (List.mem_cons_of_mem q hr)) (h.both (.joint _) hp hq)

theorem times (h : Inherited Q) (hp : Q p) (n : Nat) : Q (p.times n) := by
  refine h.foldl_snoc ?_ (h.constant rfl)
  intro q hq
  rw [List.eq_of_mem_replicate hq]
  exact hp

theorem unary (h : Inherited Q) {op : Unary} (fits : op.refusal? = none) (hp : Q p) :
    Q (op.apply p) := by
  cases op with
  | map f => exact h.map f hp
  | not => exact h.not hp
  | many => exact h.many hp
  | many1 => exact h.label _ (h.both (.joint _) hp (h.many hp))
  | skipMany => exact h.map _ (h.many hp)
  | token => exact h.token hp
  | lookAhead => exact h.lookAhead hp
  | option default => exact h.or hp (h.constant (Value.refusal?_eq_none.1 fits))
  | times n => exact h.times hp n
  | trace tag text => exact h.trace tag text hp
  | label name => exact h.label name hp
  | wrap name => exact h.wrap name hp

theorem binary (h : Inherited Q) (op : Binary) (hp : Q p) (hq : Q q) : Q (op.apply p q) := by
  cases op with
  | before => exact h.before hp hq
  | or => exact h.or hp hq
  | snoc => exact h.both (.joint _) hp hq
  | sepBy => exact h.or (h.sepBy1 hp hq) (h.constant rfl)
  | sepBy1 => exact h.sepBy1 hp hq
  | chainLeft apply =>
    exact h.label _ (h.map _ (h.both .pair hp (h.many (h.both (.joint _) hq hp))))

end Inherited

/-- A relation of parsers that are put together alike. It may ask for the same names. -/
structure Congruent (named : Prop) (R : Parser → Parser → Prop) : Prop where
  name {p q : Parser} : R p q → named → p.name = q.name
  constant (v : Value) : R (constant v) (constant v)
  blank : R blank blank
  both {p p' q q' : Parser} (combine : Value → Value → Act Value) :
    R p p' → R q q' → R (.both p q combine) (.both p' q' combine)
  map {p p' : Parser} (f : Value → Act Value) : R p p' → R (.map p f) (.map p' f)
  or {p p' q q' : Parser} : R p p' → R q q' → R (.or p q) (.or p' q')
  not {p p' : Parser} : R p p' → R (.not p) (.not p')
  many {p p' : Parser} : R p p' → R (.many p) (.many p')
  lookAhead {p p' : Parser} : R p p' → R (.lookAhead p) (.lookAhead p')
  trace {p p' : Parser} (tag : Nat) (text : String) :
    R p p' → R (.trace tag text p) (.trace tag text p')
  label {p p' : Parser} {name name' : String} :
    R p p' → (named → name = name') → R (.label p name) (.label p' name')
  wrap {p p' : Parser} (name : String) : R p p' → R (.wrap p name) (.wrap p' name)

namespace Congruent

variable {named : Prop} {R : Parser → Parser → Prop} {p p' q q' o o' : Parser}

theorem before (h : Congruent named R) (hp : R p p') (hq : R q q') :
    R (p.before q) (p'.before q') :=
  h.label (h.both _ hp hq) fun same => by rw [h.name hp same, h.name hq same]

theorem followedBy (h : Congruent named R) (hp : R p p') (hq : R q q') :
    R (p.followedBy q) (p'.followedBy q') :=
  h.both _ (h.map _ hp) hq

theorem token (h : Congruent named R) (hp : R p p') : R p.token p'.token :=
  h.label (h.followedBy (h.before (h.many h.blank) hp) (h.many h.blank)) fun same => by
    rw [h.name hp same]

theorem sepBy1 (h : Congruent named R) (hp : R p p') (hq : R q q') :
    R (p.sepBy1 q) (p'.sepBy1 q') :=
  h.both _ hp (h.many (h.before hq hp))

theorem between (h : Congruent named R) (ho : R o o') (hq : R q q') (hp : R p p') :
    R (between o q p) (Parser.between o' q' p') :=
  h.followedBy (h.before ho hp) hq

theorem times (h : Congruent named R) (hp : R p p') (n : Nat) : R (p.times n) (p'.times n) := by
  have folds : ∀ (n : Nat) {q q' : Parser}, R q q' →
      R ((List.replicate n p).foldl snoc q) ((List.replicate n p').foldl snoc q') := by
    intro n
    induction n with
    | zero => exact fun hq => hq
    | succ n ih => exact fun hq => ih (h.both _ hq hp)
  exact folds n (h.constant _)

theorem unary (h : Congruent named R) (op : Unary) (hp : R p p') : R (op.apply p) (op.apply p') := by
  cases op with
  | map f => exact h.map _ hp
  | not => exact h.not hp
  | many => exact h.many hp
  | many1 => exact h.label (h.both _ hp (h.many hp)) fun same => by rw [h.name hp same]
  | skipMany => exact h.map _ (h.many hp)
  | token => exact h.token hp
  | lookAhead => exact h.lookAhead hp
  | option default => exact h.or hp (h.constant default)
  | times n => exact h.times hp n
  | trace tag text => exact h.trace tag text hp
  | label name => exact h.label hp fun _ => rfl
  | wrap name => exact h.wrap name hp

theorem binary (h : Congruent named R) (op : Binary) (hp : R p p') (hq : R q q') :
    R (op.apply p q) (op.apply p' q') := by
  cases op with
  | before => exact h.before hp hq
  | or => exact h.or hp hq
  | snoc => exact h.both _ hp hq
  | sepBy => exact h.or (h.sepBy1 hp hq) (h.constant _)
  | sepBy1 => exact h.sepBy1 hp hq
  | chainLeft apply =>
    exact h.label (h.map _ (h.both _ hp (h.many (h.both _ hq hp)))) fun same => by rw [h.name hp same]

end Congruent

/-- The parsers that a parser is put together from. -/
def parts : Parser → List Parser
  | atom _ | forward _ _ | lazy _ _ => []
  | andThen p _ _ | map p _ | not p | many p | lookAhead p | trace _ _ p | label p _ | wrap p _ =>
    [p]
  | both p q _ | or p q => [p, q]

end Parser

/-- A property of rules and one of parsers, which belong together. -/
structure Trait where
  rule : Rule → Prop
  parser : Parser → Prop
  inherited : Parser.Inherited parser
  forward (cell : Nat) (name : String) : parser (.forward cell name)
  lazy (cell : Nat) (name : Option String) : parser (.lazy cell name)
  parts {p : Parser} : parser p → ∀ q ∈ p.parts, parser q
  next {p : Parser} {notes : Result → List Note} {next : Result → Rule} :
    parser (.andThen p notes next) → ∀ x, rule (next x)
  ofAtom {a : Atom} : rule (.atom a) → a.refusal? = none → parser (.atom a)
  ofLazy {name : Option String} {watched : Bool} {thunk : Rule} :
    rule (.lazy name watched thunk) → rule thunk
  ofAndThen {r : Rule} {notes : Result → List Note} {next : Result → Rule} :
    rule (.andThen r notes next) → rule r ∧ ∀ p, parser p → parser (.andThen p notes next)
  ofUnary {op : Unary} {r : Rule} : rule (.unary op r) → rule r
  ofBinary {op : Binary} {l r : Rule} : rule (.binary op l r) → rule l ∧ rule r
  ofBetween {o c b : Rule} : rule (.between o c b) → rule o ∧ rule c ∧ rule b

/-- Nothing is asked. -/
def Trait.any : Trait where
  rule _ := True
  parser _ := True
  inherited := ⟨fun _ => trivial, trivial, fun _ _ _ => trivial, fun _ _ => trivial,
    fun _ _ => trivial, fun _ => trivial, fun _ => trivial, fun _ => trivial,
    fun _ _ _ => trivial, fun _ _ => trivial, fun _ _ => trivial⟩
  forward _ _ := trivial
  lazy _ _ := trivial
  parts _ _ _ := trivial
  next _ _ := trivial
  ofAtom _ _ := trivial
  ofLazy _ := trivial
  ofAndThen _ := ⟨trivial, fun _ _ => trivial⟩
  ofUnary _ := trivial
  ofBinary _ := ⟨trivial, trivial⟩
  ofBetween _ := ⟨trivial, trivial, trivial⟩

/-- Runs of parsers with the trait may go on for ever under the contract, and it is met where they
build and where they look into a cell. -/
structure Contract.Supports (C : Contract) (T : Trait) (env : Env) : Prop where
  endless : C.endless
  builds {r : Rule} : T.rule r → Build.Meets C.store (fun _ => True) (r.build env) T.parser
  target (cell : Nat) (name : String) : (Run.target cell name).Meets C (fun _ => True) T.parser
  force (cell : Nat) : (Run.force env cell).Meets C (fun _ => True) T.parser

namespace Contract.Supports

variable {C : Contract} {T : Trait} {env : Env}

theorem step_meets (h : C.Supports T env) {run : Parser → Cursor → Run Result}
    (each : ∀ p c, T.parser p → (run p c).Meets C (fun _ => True) fun _ => True) (budget : Nat)
    {p : Parser} (hp : T.parser p) (c : Cursor) :
    (Parser.step run budget env p c).Meets C (fun _ => True) fun _ => True := by
  have part : ∀ {q : Parser}, q ∈ p.parts → ∀ d, (run q d).Meets C (fun _ => True) fun _ => True :=
    fun mem d => each _ d (T.parts hp _ mem)
  cases p with
  | atom a => exact .anyAct _
  | andThen p notes next =>
    refine .bind (part (by simp [Parser.parts]) c) fun r _ => ?_
    split
    · refine .bind (P := fun _ => True) (.writeNotes trivial) fun _ _ => ?_
      exact .bind (.ofBuild (h.builds (T.next hp r))) fun q hq => each q _ hq
    · exact .pure trivial
  | both p q combine =>
    refine .bind (part (by simp [Parser.parts]) c) fun r _ => ?_
    split
    · refine .bind (part (by simp [Parser.parts]) _) fun s _ => ?_
      split
      · exact .bind (.anyAct _) fun _ _ => .pure trivial
      · exact .pure trivial
    · exact .pure trivial
  | map p f =>
    refine .bind (part (by simp [Parser.parts]) c) fun r _ => ?_
    split
    · exact .bind (.anyAct _) fun _ _ => .pure trivial
    · exact .pure trivial
  | or p q =>
    refine .bind (part (by simp [Parser.parts]) c) fun r _ => ?_
    split
    · exact .pure trivial
    · exact part (by simp [Parser.parts]) c
  | not p => exact .bind (part (by simp [Parser.parts]) c) fun _ _ => .pure trivial
  | many p =>
    have rounds (d : Cursor) (_ : List Value) (_ : True) :
        (run p d).Meets C (fun _ => True) fun r => r.ok = true → True :=
      (part (by simp [Parser.parts]) d).weaken fun _ _ _ => trivial
    exact (Run.Meets.repeated h.endless rounds budget trivial []).weaken fun _ _ => trivial
  | lookAhead p => exact .bind (part (by simp [Parser.parts]) c) fun _ _ => .pure trivial
  | trace tag text p =>
    refine .bind (P := fun _ => True) (.write trivial) fun _ _ => ?_
    refine .bind (part (by simp [Parser.parts]) c) fun _ _ => ?_
    exact .bind (P := fun _ => True) (.write trivial) fun _ _ => .pure trivial
  | label p name => exact part (by simp [Parser.parts]) c
  | wrap p name => exact part (by simp [Parser.parts]) c
  | forward cell name => exact .bind (h.target cell _) fun p hp => each p c hp
  | lazy cell name => exact .bind (h.force cell) fun p hp => each p c hp

theorem run_meets (h : C.Supports T env) (budget : Nat) {p : Parser} (hp : T.parser p)
    (c : Cursor) : (Parser.run env budget p c).Meets C (fun _ => True) fun _ => True := by
  induction budget generalizing p c with
  | zero => exact .spent h.endless
  | succ budget ih => exact .settle c (h.step_meets (fun p c hp => ih hp c) budget hp c)

end Contract.Supports

theorem Env.mem_of_lookup {env : Env} {name : String} {p : Parser}
    (bound : env.lookup name = some p) : (name, p) ∈ env := by
  obtain ⟨front, back, rfl, -⟩ := List.lookup_eq_some_iff.1 bound
  simp

/-- A cell of a store in which one is filled: as it was, or it was that one, empty, and holds the
parser. -/
theorem Store.fill_cases {store : Store} {i cell : Nat} {p : Parser} {held : Cell}
    (there : (store.fill cell p)[i]? = some held) :
    store[i]? = some held ∨
      store[cell]? = some (.forward none) ∧ held = .forward (some p) ∨
      ∃ name watched thunk, store[cell]? = some (.lazy name watched thunk none) ∧
        held = .lazy name watched thunk (some p) := by
  have set : ∀ {filled : Cell}, (store.setIfInBounds cell filled)[i]? = some held →
      store[i]? = some held ∨ held = filled := by
    intro filled there
    rw [Array.getElem?_setIfInBounds] at there
    split at there
    · split at there
      · cases there
        exact .inr rfl
      · cases there
    · exact .inl there
  unfold Store.fill at there
  split at there
  · next empty => exact (set there).imp_right fun new => .inl ⟨empty, new⟩
  · next name watched thunk empty =>
    exact (set there).imp_right fun new => .inr ⟨name, watched, thunk, empty, new⟩
  · exact .inl there

namespace Trait

variable (T : Trait)

/-- The cell's thunk has the trait, and so does the parser that it holds, if any. -/
def OfCell : Cell → Prop
  | .forward target => ∀ p, target = some p → T.parser p
  | .lazy _ _ thunk built => T.rule thunk ∧ ∀ p, built = some p → T.parser p

def OfStore (store : Store) : Prop := ∀ (i : Nat) (cell : Cell), store[i]? = some cell → T.OfCell cell

def OfEnv (env : Env) : Prop := ∀ e ∈ env, T.parser e.2

/-- Stores with the trait, any fault, and no promise of an end. -/
def contract : Contract := ⟨T.OfStore, True⟩

namespace OfStore

variable {T} {store : Store}

theorem push (h : T.OfStore store) {cell : Cell} (hc : T.OfCell cell) :
    T.OfStore (store.push cell) := by
  intro i other hother
  rw [Array.getElem?_push] at hother
  split at hother
  · cases hother
    exact hc
  · exact h i other hother

theorem fill (h : T.OfStore store) {p : Parser} (hp : T.parser p) (k : Nat) :
    T.OfStore (store.fill k p) := by
  have filled : ∀ q, some p = some q → T.parser q := by
    intro q hq
    cases hq
    exact hp
  intro i held there
  rcases Store.fill_cases there with before | ⟨-, rfl⟩ | ⟨name, watched, thunk, empty, rfl⟩
  · exact h i held before
  · exact filled
  · exact ⟨(h k _ empty).1, filled⟩

theorem target (h : T.OfStore store) {k : Nat} {p : Parser} (hp : store.target? k = some p) :
    T.parser p := by
  unfold Store.target? at hp
  split at hp
  · next hcell => exact h k _ hcell p hp
  · cases hp

end OfStore

variable {T} {env : Env}

theorem meets_lookup (henv : T.OfEnv env) (name : String) :
    Build.Meets T.OfStore (fun _ => True) (Rule.lookup env name) T.parser := by
  unfold Rule.lookup
  split
  · next p hp => exact .pure (henv (name, p) (Env.mem_of_lookup hp))
  · exact .throw trivial

theorem meets_build (henv : T.OfEnv env) {r : Rule} (hr : T.rule r) :
    Build.Meets T.OfStore (fun _ => True) (r.build env) T.parser := by
  induction r with
  | atom a => exact .checked (fun _ _ => trivial) (T.ofAtom hr)
  | ref name => exact meets_lookup henv name
  | lazy name watched thunk _ =>
    -- The thunk is kept in the new cell and built when the cell is first used.
    refine .bind (P := fun _ => True) (.allocate fun store hstore => ⟨?_, trivial⟩)
      fun cell _ => .pure (T.lazy cell name)
    exact hstore.push ⟨T.ofLazy hr, fun _ h => nomatch h⟩
  | raise fault => exact .throw trivial
  | andThen r notes next ih _ =>
    obtain ⟨hr, whole⟩ := T.ofAndThen hr
    exact .bind (ih hr) fun p hp => .pure (whole p hp)
  | unary op r ih =>
    refine .bind (ih (T.ofUnary hr)) fun _ hp => .checked (fun _ _ => trivial) fun fits => ?_
    exact T.inherited.unary fits hp
  | binary op l r ihl ihr =>
    obtain ⟨hl, hr⟩ := T.ofBinary hr
    refine .bind (ihl hl) fun _ hp => .bind (ihr hr) fun _ hq => ?_
    exact .pure (T.inherited.binary op hp hq)
  | between o c b iho ihc ihb =>
    obtain ⟨ho, hc, hb⟩ := T.ofBetween hr
    refine .bind (iho ho) fun _ hp => .bind (ihc hc) fun _ hq => ?_
    exact .bind (ihb hb) fun _ hs => .pure (T.inherited.between hp hq hs)

theorem meets_target (T : Trait) (cell : Nat) (name : String) :
    (Run.target cell name).Meets T.contract (fun _ => True) T.parser := by
  intro store hstore
  unfold Run.target
  split
  · next p hp => exact ⟨hstore, hstore.target hp⟩
  · exact ⟨hstore, trivial⟩

theorem meets_force (henv : T.OfEnv env) (cell : Nat) :
    (Run.force env cell).Meets T.contract (fun _ => True) T.parser := by
  intro store hstore
  unfold Run.force
  split
  · next p hcell => exact ⟨hstore, (hstore cell _ hcell).2 p rfl⟩
  · next name watched thunk hcell =>
    have built := meets_build henv (hstore cell _ hcell).1 store hstore
    generalize thunk.build env store = last at built ⊢
    rcases last with ⟨fault | p, store'⟩
    · exact built
    · exact ⟨built.1.fill built.2 cell, built.2⟩
  · exact ⟨hstore, trivial⟩

theorem supports (henv : T.OfEnv env) : T.contract.Supports T env where
  endless := trivial
  builds hr := meets_build henv hr
  target := T.meets_target
  force := meets_force henv

end Trait

end Rewind
