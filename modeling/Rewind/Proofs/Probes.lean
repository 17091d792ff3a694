import Rewind.Proofs.Traits
import Rewind.Session

namespace Rewind

/-- Which traces are probes, and what is known of the names that rules refer to. -/
structure Probes where
  /-- The tags of the probes. -/
  tags : Nat → Bool
  /-- Names that stand only for parsers whose own name is not empty. -/
  named : String → Prop
  /-- Names that never stand for a probe. -/
  bare : String → Prop

theorem nameOr_of_ne {name : String} (h : name ≠ "") (fallback : String) :
    nameOr name fallback = name := by
  simp [nameOr, h]

theorem nameOr_ne {fallback : String} (h : fallback ≠ "") (name : String) :
    nameOr name fallback ≠ "" := by
  unfold nameOr
  split
  · exact h
  · next full => simpa using full

variable (P : Probes)

def Unary.isProbe : Unary → Bool
  | trace tag _ => P.tags tag
  | _ => false

def Parser.isProbe : Parser → Bool
  | trace tag _ _ => P.tags tag
  | _ => false

/-- The rule without probes, also in thunks and in what continuations give. -/
def Rule.unprobed : Rule → Rule
  | atom a => .atom a
  | ref name => .ref name
  | lazy name watched thunk => .lazy name watched thunk.unprobed
  | raise fault => .raise fault
  | andThen r notes next => .andThen r.unprobed notes fun x => (next x).unprobed
  | unary op r => if op.isProbe P then r.unprobed else .unary op r.unprobed
  | binary op l r => .binary op l.unprobed r.unprobed
  | between o c b => .between o.unprobed c.unprobed b.unprobed

def Parser.unprobed : Parser → Parser
  | atom a => .atom a
  | andThen p notes next => .andThen p.unprobed notes fun x => (next x).unprobed P
  | both p q combine => .both p.unprobed q.unprobed combine
  | map p f => .map p.unprobed f
  | or p q => .or p.unprobed q.unprobed
  | not p => .not p.unprobed
  | many p => .many p.unprobed
  | lookAhead p => .lookAhead p.unprobed
  | trace tag text p => if P.tags tag then p.unprobed else .trace tag text p.unprobed
  | label p name => .label p.unprobed name
  | wrap p name => .wrap p.unprobed name
  | forward cell name => .forward cell name
  | lazy cell name => .lazy cell name

def Cell.unprobed : Cell → Cell
  | forward target => .forward (target.map (Parser.unprobed P))
  | lazy name watched thunk built =>
    .lazy name watched (thunk.unprobed P) (built.map (Parser.unprobed P))

def Store.unprobed (store : Store) : Store := store.map (Cell.unprobed P)

def Env.unprobed (env : Env) : Env := env.map fun e => (e.1, e.2.unprobed P)

def Session.unprobed (s : Session) : Session := ⟨Env.unprobed P s.env, Store.unprobed P s.store, s.cursor⟩

def Command.unprobed : Command → Command
  | bind name rule => .bind name (rule.unprobed P)
  | declare name label => .declare name label
  | define name rule => .define name (rule.unprobed P)
  | defineValue name value => .defineValue name value
  | inspect rule => .inspect (rule.unprobed P)
  | parse rule text position => .parse (rule.unprobed P) text position
  | run rule text requireEnd => .run (rule.unprobed P) text requireEnd
  | seek text position => .seek text position
  | feed rule => .feed (rule.unprobed P)

/-- Not written by a probe. -/
def Event.isKept : Event → Bool
  | entered tag _ _ | succeeded tag _ _ _ | failed tag _ _ => !P.tags tag
  | note _ | stopped _ _ | defined _ _ | filled _ => true

/-- The records that no probe wrote. -/
def Probes.kept (log : List Event) : List Event := log.filter (Event.isKept P)

/-- The rule makes parsers whose name is not empty. -/
def Rule.Named : Rule → Prop
  | atom a => a.name ≠ ""
  | ref name => P.named name
  | _ => True

/-- The rule makes no probe. -/
def Rule.Bare : Rule → Prop
  | ref name => P.bare name
  | unary op _ => op.isProbe P = false
  | _ => True

/-- A label is not empty. -/
def Unary.Labelled : Unary → Prop
  | label name => name ≠ ""
  | _ => True

/-- No label is empty, and each probe is around a parser with a name, also in thunks and in what
continuations give. -/
def Rule.Clear : Rule → Prop
  | atom _ | ref _ | raise _ => True
  | lazy _ _ thunk => thunk.Clear
  | andThen r _ next => r.Clear ∧ ∀ x, (next x).Clear
  | unary op r => op.Labelled ∧ (op.isProbe P = true → r.Named P) ∧ r.Clear
  | binary _ l r => l.Clear ∧ r.Clear
  | between o c b => o.Clear ∧ c.Clear ∧ b.Clear

def Parser.Clear : Parser → Prop
  | atom _ | forward _ _ | lazy _ _ => True
  | andThen p _ next => p.Clear ∧ ∀ x, (next x).Clear P
  | both p q _ | or p q => p.Clear ∧ q.Clear
  | map p _ | not p | many p | lookAhead p | wrap p _ => p.Clear
  | trace tag _ p => (P.tags tag = true → p.name ≠ "") ∧ p.Clear
  | label p name => name ≠ "" ∧ p.Clear

def Cell.Clear : Cell → Prop
  | forward target => ∀ p, target = some p → p.Clear P
  | lazy _ _ thunk built => thunk.Clear P ∧ ∀ p, built = some p → p.Clear P

def Store.Clear (store : Store) : Prop :=
  ∀ (i : Nat) (cell : Cell), store[i]? = some cell → cell.Clear P

/-- Names stand for parsers of which what is said of them is true. -/
def Env.Clear (env : Env) : Prop :=
  ∀ name p, env.lookup name = some p →
    p.Clear P ∧ (P.named name → p.name ≠ "") ∧ (P.bare name → p.isProbe P = false)

structure Session.Clear (s : Session) : Prop where
  env : Env.Clear P s.env
  store : Store.Clear P s.store

/-- What is bound keeps what is said of its name, and no probe is defined or inspected. -/
def Command.Clear : Command → Prop
  | bind name rule =>
    rule.Clear P ∧ (P.named name → rule.Named P) ∧ (P.bare name → rule.Bare P)
  | define name rule => P.bare name ∧ rule.Clear P
  | defineValue name _ => P.bare name
  | inspect rule => rule.Bare P ∧ rule.Clear P
  | parse rule _ _ | run rule _ _ | feed rule => rule.Clear P
  | declare _ _ | seek _ _ => True

variable {P}

namespace Parser

variable {p q : Parser}

/-- A probe has the name of what it is around, and so does all that is put together from it. -/
theorem Clear.name (h : p.Clear P) : (p.unprobed P).name = p.name := by
  induction p with
  | atom | forward | lazy | wrap => rfl
  | trace tag text p ih =>
    simp only [unprobed]
    split
    · next probe => rw [ih h.2, Parser.name, nameOr_of_ne (h.1 probe)]
    · simp only [Parser.name, ih h.2]
  | label p name ih => simp only [unprobed, Parser.name, nameOr_of_ne h.1]
  | andThen p notes next ih => simp only [unprobed, Parser.name, ih h.1]
  | both p q combine ihp ihq => simp only [unprobed, Parser.name, ihp h.1]
  | or p q ihp ihq => simp only [unprobed, Parser.name, ihp h.1, ihq h.2]
  | map p f ih => simp only [unprobed, Parser.name, ih h]
  | not p ih => simp only [unprobed, Parser.name, ih h]
  | many p ih => simp only [unprobed, Parser.name, ih h]
  | lookAhead p ih => simp only [unprobed, Parser.name, ih h]

theorem Clear.before (hp : p.Clear P) (hq : q.Clear P) : (p.before q).Clear P :=
  ⟨by simp, hp, hq⟩

theorem unprobed_before (hp : p.Clear P) (hq : q.Clear P) :
    (p.before q).unprobed P = (p.unprobed P).before (q.unprobed P) := by
  simp [Parser.before, unprobed, hp.name, hq.name]

theorem Clear.foldl_snoc (hp : p.Clear P) (hq : q.Clear P) (n : Nat) :
    ((List.replicate n p).foldl snoc q).Clear P := by
  induction n generalizing q with
  | zero => exact hq
  | succ n ih => exact ih ⟨hq, hp⟩

theorem unprobed_foldl_snoc (p q : Parser) (n : Nat) :
    ((List.replicate n p).foldl snoc q).unprobed P =
      (List.replicate n (p.unprobed P)).foldl snoc (q.unprobed P) := by
  induction n generalizing q with
  | zero => rfl
  | succ n ih => exact ih (q.snoc p)

theorem name_foldl_snoc (hq : q.name ≠ "") (n : Nat) :
    ((List.replicate n p).foldl snoc q).name ≠ "" := by
  induction n generalizing q with
  | zero => exact hq
  | succ n ih => exact ih (by simp [snoc, Parser.name])

theorem isProbe_foldl_snoc (hq : q.isProbe P = false) (n : Nat) :
    ((List.replicate n p).foldl snoc q).isProbe P = false := by
  induction n generalizing q with
  | zero => exact hq
  | succ n ih => exact ih rfl

theorem name_constant (value : Value) : (constant value).name ≠ "" := by
  have given : (Atom.constant value).givenName ≠ "" := by simp [Atom.givenName]
  simp [constant, Parser.name, Atom.name, nameOr_of_ne given, given]

end Parser

section Operations

variable {p q o : Parser}

theorem Unary.clear {op : Unary} (labelled : op.Labelled) (hp : p.Clear P)
    (around : op.isProbe P = true → p.name ≠ "") : (op.apply p).Clear P := by
  cases op with
  | many1 => exact ⟨by simp, hp, hp⟩
  | token => exact ⟨by simp, .before trivial hp, trivial⟩
  | option default => exact ⟨hp, trivial⟩
  | times n =>
    have base : (Parser.constant (.list [])).Clear P := trivial
    exact hp.foldl_snoc base n
  | trace tag text => exact ⟨around, hp⟩
  | label name => exact ⟨labelled, hp⟩
  | _ => exact hp

theorem Unary.name_apply {op : Unary} (labelled : op.Labelled) (p : Parser) :
    (op.apply p).name ≠ "" := by
  cases op with
  | map | trace | wrap => exact nameOr_ne (by simp) _
  | skipMany => exact nameOr_ne (by simp) _
  | label name =>
    show nameOr name _ ≠ ""
    rw [nameOr_of_ne labelled]
    exact labelled
  | times n => exact Parser.name_foldl_snoc (Parser.name_constant _) n
  | token | many1 => simp [Unary.apply, Parser.token, Parser.many1, Parser.name, nameOr]
  | not | many | lookAhead | option => simp [Unary.apply, Parser.option, Parser.name]

theorem Unary.unprobed_apply {op : Unary} (other : op.isProbe P = false) (hp : p.Clear P) :
    (op.apply p).unprobed P = op.apply (p.unprobed P) := by
  cases op with
  | trace tag text =>
    have apart : P.tags tag = false := other
    simp [Unary.apply, Parser.unprobed, apart]
  | times n => exact Parser.unprobed_foldl_snoc p _ n
  | many1 => simp [Unary.apply, Parser.many1, Parser.cons, Parser.unprobed, hp.name]
  | token =>
    have blanks : (Parser.many .blank).Clear P := trivial
    have inner := Parser.unprobed_before blanks hp
    simp only [Unary.apply, Parser.token, Parser.followedBy, Parser.unprobed, inner,
      hp.name]
    rfl
  | _ => rfl

theorem Unary.unprobed_probe {op : Unary} (probe : op.isProbe P = true) (p : Parser) :
    (op.apply p).unprobed P = p.unprobed P := by
  cases op with
  | trace tag text =>
    have inserted : P.tags tag = true := probe
    simp [Unary.apply, Parser.unprobed, inserted]
  | _ => cases probe

/-- Nothing stands against a probe. -/
theorem Unary.refusal?_probe {op : Unary} (probe : op.isProbe P = true) : op.refusal? = none := by
  cases op with
  | option default => cases probe
  | _ => rfl

theorem Unary.isProbe_apply (op : Unary) (p : Parser) : (op.apply p).isProbe P = op.isProbe P := by
  cases op with
  | times n => exact Parser.isProbe_foldl_snoc rfl n
  | _ => rfl

theorem Binary.clear (op : Binary) (hp : p.Clear P) (hq : q.Clear P) : (op.apply p q).Clear P := by
  have one : (p.sepBy1 q).Clear P := ⟨hp, .before hq hp⟩
  cases op with
  | before => exact .before hp hq
  | or => exact ⟨hp, hq⟩
  | snoc => exact ⟨hp, hq⟩
  | sepBy => exact ⟨one, trivial⟩
  | sepBy1 => exact one
  | chainLeft apply => exact ⟨by simp, hp, hq, hp⟩

theorem Binary.name_apply (op : Binary) (p q : Parser) : (op.apply p q).name ≠ "" := by
  cases op with
  | before | chainLeft => simp [Binary.apply, Parser.before, Parser.chainLeft, Parser.name, nameOr]
  | or | snoc | sepBy | sepBy1 =>
    simp [Binary.apply, Parser.snoc, Parser.sepBy, Parser.sepBy1, Parser.cons, Parser.name]

theorem Binary.unprobed_apply (op : Binary) (hp : p.Clear P) (hq : q.Clear P) :
    (op.apply p q).unprobed P = op.apply (p.unprobed P) (q.unprobed P) := by
  have one : (p.sepBy1 q).unprobed P = (p.unprobed P).sepBy1 (q.unprobed P) := by
    simp [Parser.sepBy1, Parser.cons, Parser.unprobed, Parser.unprobed_before hq hp]
  cases op with
  | before => exact Parser.unprobed_before hp hq
  | or => rfl
  | snoc => rfl
  | sepBy => simp [Binary.apply, Parser.sepBy, Parser.unprobed, one, Parser.constant]
  | sepBy1 => exact one
  | chainLeft apply => simp [Binary.apply, Parser.chainLeft, Parser.unprobed, hp.name]

theorem Parser.Clear.between (ho : o.Clear P) (hq : q.Clear P) (hp : p.Clear P) :
    (Parser.between o q p).Clear P :=
  ⟨.before ho hp, hq⟩

theorem Parser.unprobed_between (ho : o.Clear P) (hp : p.Clear P) (q : Parser) :
    (Parser.between o q p).unprobed P =
      Parser.between (o.unprobed P) (q.unprobed P) (p.unprobed P) := by
  simp [Parser.between, Parser.followedBy, unprobed, unprobed_before ho hp]

end Operations

namespace Store

variable {A : Store}

theorem getElem?_unprobed (A : Store) (i : Nat) :
    (unprobed P A)[i]? = A[i]?.map (Cell.unprobed P) := Array.getElem?_map

theorem size_unprobed (A : Store) : (unprobed P A).size = A.size := Array.size_map

theorem Clear.push (h : A.Clear P) {cell : Cell} (hc : cell.Clear P) : Store.Clear P (A.push cell) := by
  intro i held there
  rw [Array.getElem?_push] at there
  split at there
  · cases there
    exact hc
  · exact h i held there

theorem unprobed_push (A : Store) (cell : Cell) :
    unprobed P (A.push cell) = (unprobed P A).push (cell.unprobed P) := Array.map_push

theorem Clear.fill (h : A.Clear P) {p : Parser} (hp : p.Clear P) (cell : Nat) :
    Store.Clear P (A.fill cell p) := by
  have filled : ∀ q, some p = some q → q.Clear P := by
    intro q same
    cases same
    exact hp
  intro i held there
  rcases Store.fill_cases there with before | ⟨-, rfl⟩ | ⟨name, watched, thunk, empty, rfl⟩
  · exact h i held before
  · exact filled
  · exact ⟨(h cell _ empty).1, filled⟩

theorem unprobed_fill (A : Store) (cell : Nat) (p : Parser) :
    unprobed P (A.fill cell p) = (unprobed P A).fill cell (p.unprobed P) := by
  unfold fill
  rw [getElem?_unprobed]
  rcases A[cell]? with _ | ⟨_ | q⟩ | ⟨name, watched, thunk, _ | q⟩
  · rfl
  · exact Array.map_setIfInBounds
  · rfl
  · exact Array.map_setIfInBounds
  · rfl

theorem Clear.target (h : A.Clear P) {cell : Nat} {p : Parser} (found : A.target? cell = some p) :
    p.Clear P := by
  unfold target? at found
  split at found
  · next there => exact h cell _ there p found
  · cases found

theorem target?_unprobed (A : Store) (cell : Nat) :
    (unprobed P A).target? cell = (A.target? cell).map (Parser.unprobed P) := by
  unfold target?
  rw [getElem?_unprobed]
  rcases A[cell]? with _ | target | ⟨name, watched, thunk, built⟩
  · rfl
  · rfl
  · rfl

end Store

namespace Env

theorem lookup_unprobed (env : Env) (name : String) :
    (unprobed P env).lookup name = (env.lookup name).map (Parser.unprobed P) := by
  induction env with
  | nil => rfl
  | cons e env ih =>
    obtain ⟨key, p⟩ := e
    simp only [unprobed, List.map_cons, List.lookup_cons] at ih ⊢
    cases name == key
    · exact ih
    · rfl

theorem Clear.cons {env : Env} (h : env.Clear P) {name : String} {p : Parser} (hp : p.Clear P)
    (named : P.named name → p.name ≠ "") (bare : P.bare name → p.isProbe P = false) :
    Env.Clear P ((name, p) :: env) := by
  intro other q bound
  rw [List.lookup_cons] at bound
  split at bound
  · next same =>
    cases bound
    rw [eq_of_beq same]
    exact ⟨hp, named, bare⟩
  · exact h other q bound

end Env

end Rewind
