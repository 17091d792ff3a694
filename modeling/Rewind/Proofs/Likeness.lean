import Rewind.Proofs.Plain
import Rewind.Proofs.Scopes

namespace Rewind

/-- What two runs that are compared may differ in. -/
structure Likeness where
  /-- Alike parsers have the same name. -/
  named : Prop
  /-- The same is recorded, but for thunks that are run. -/
  logged : Prop
  /-- A forward parser is like what it stands for. -/
  unfolds : Prop
  cursors : Cursor → Cursor → Prop
  refs : String → String → Prop
  /-- The name may stand where the other side has the rule, or one like it. -/
  shares : String → Rule → Prop := fun _ _ => False
  char {c d : Cursor} : cursors c d → c.char? = d.char?
  next {c d : Cursor} : cursors c d → cursors c.next d.next
  idle {c c' d d' : Cursor} : cursors c d → cursors c' d' → Rewind.idle c c' = Rewind.idle d d'
  same {c d : Cursor} : logged → cursors c d → c = d
  names : logged → named
  apart : named → ¬unfolds

/-- A cursor goes together with itself only. -/
def Likeness.inPlace (named logged unfolds : Prop) (refs : String → String → Prop)
    (names : logged → named) (apart : named → ¬unfolds) : Likeness where
  named := named
  logged := logged
  unfolds := unfolds
  cursors := Eq
  refs := refs
  char h := by rw [h]
  next h := by rw [h]
  idle h h' := by rw [h, h']
  same _ h := h
  names := names
  apart := apart

/-- Both end in one fault, or in answers that are related. -/
inductive Except.Agree {α β : Type} (P : α → β → Prop) : Except Fault α → Except Fault β → Prop
  | error (fault : Fault) : Agree P (.error fault) (.error fault)
  | ok {a : α} {b : β} (related : P a b) : Agree P (.ok a) (.ok b)

theorem Except.Agree.refl {α : Type} {P : α → α → Prop} (same : ∀ a, P a a) (x : Except Fault α) :
    Except.Agree P x x := by
  rcases x with fault | a
  · exact .error fault
  · exact .ok (same a)

/-- What one end is in terms of the other, if the answers tell it. -/
theorem Except.Agree.eq_map {α β : Type} {P : α → β → Prop} {x : Except Fault α}
    {y : Except Fault β} (h : Except.Agree P x y) {f : β → α} (answers : ∀ a b, P a b → a = f b) :
    x = y.map f := by
  cases h with
  | error fault => rfl
  | ok related => exact congrArg _ (answers _ _ related)

theorem Except.Agree.eq {α : Type} {P : α → α → Prop} {x y : Except Fault α}
    (h : Except.Agree P x y) (same : ∀ a b, P a b → a = b) : x = y := by
  cases h with
  | error fault => rfl
  | ok related => exact congrArg _ (same _ _ related)

theorem Except.Agree.map_fst {α β α' β' : Type} {P : α → β → Prop} {x : Except Fault (α × α')}
    {y : Except Fault (β × β')} (h : Except.Agree (fun a b => P a.1 b.1) x y) :
    Except.Agree P (x.map Prod.fst) (y.map Prod.fst) := by
  cases h with
  | error fault => exact .error fault
  | ok related => exact .ok related

namespace Likeness

variable (L : Likeness)

structure Results (r r' : Result) : Prop where
  value : r.value = r'.value
  ok : r.ok = r'.ok
  cursor : L.cursors r.cursor r'.cursor

/-- The atom does the same at cursors that go together. -/
def Respects (a : Atom) : Prop :=
  ∀ c d, L.cursors c d → Except.Agree L.Results (a.run c).result (a.run d).result

variable {L}

theorem Results.success {c d : Cursor} (value : Value) (h : L.cursors c d) :
    L.Results (.success value c) (.success value d) := ⟨rfl, rfl, h⟩

theorem Results.failure {c d : Cursor} (h : L.cursors c d) :
    L.Results (.failure c) (.failure d) := ⟨rfl, rfl, h⟩

theorem Results.eq {r r' : Result} (h : L.Results r r') (cursors : ∀ c d, L.cursors c d → c = d) :
    r = r' := by
  obtain ⟨value, cursor, ok⟩ := r
  obtain ⟨value', cursor', ok'⟩ := r'
  obtain ⟨rfl, rfl, same⟩ := h
  obtain rfl : cursor = cursor' := cursors _ _ same
  rfl

theorem Results.settle {r r' : Result} {c d : Cursor} (h : L.Results r r')
    (hc : L.cursors c d) : L.Results (r.settle c) (r'.settle d) := by
  unfold Result.settle
  rw [h.ok]
  split
  · exact h
  · exact .failure hc

theorem respects_literal {c d : Cursor} (h : L.cursors c d) (xs : List Char) :
    Atom.readLiteral xs c = none ∧ Atom.readLiteral xs d = none ∨
      ∃ c' d', Atom.readLiteral xs c = some c' ∧ Atom.readLiteral xs d = some d' ∧
        L.cursors c' d' := by
  induction xs generalizing c d with
  | nil => exact .inr ⟨c, d, rfl, rfl, h⟩
  | cons x xs ih =>
    simp only [Atom.readLiteral, L.char h]
    split
    · exact ih (L.next h)
    · exact .inl ⟨rfl, rfl⟩

/-- What is not handmade sees the characters from the cursor on and nothing else. -/
theorem respects_of_plain {a : Atom} (ha : a.Plain) : L.Respects a := by
  intro c d h
  cases a with
  | satisfy test name =>
    simp only [Atom.run, L.char h]
    split
    · exact .ok (.failure h)
    · next x _ =>
      simp only [Logged.result_bind]
      rcases (test x).result with fault | passed
      · exact .error fault
      · refine .ok ?_
        cases passed
        · exact .failure h
        · exact .success _ (L.next h)
  | literal chars value =>
    simp only [Atom.run]
    rcases respects_literal h chars with ⟨hc, hd⟩ | ⟨c', d', hc, hd, h'⟩
    · rw [hc, hd]
      exact .ok (.failure h)
    · rw [hc, hd]
      exact .ok (.success value h')
  | constant value => exact .ok (.success value h)
  | fail name => exact .ok (.failure h)
  | handmade run name own => exact ha.elim

end Likeness

/-- Rules of one shape, with names that go together, whose continuations give alike rules for
results that go together. -/
inductive Rule.Alike (L : Likeness) : Rule → Rule → Prop
  | atom {a : Atom} (respects : a.refusal? = none → L.Respects a) : Alike L (.atom a) (.atom a)
  | ref {a b : String} (refs : L.refs a b) : Alike L (.ref a) (.ref b)
  | shareLeft {name : String} {r r' : Rule} (shares : L.shares name r) (same : Alike L r r') :
      Alike L (.ref name) r'
  | shareRight {name : String} {r r' : Rule} (shares : L.shares name r') (same : Alike L r r') :
      Alike L r (.ref name)
  | lazy (name : Option String) (watched : Bool) {thunk thunk' : Rule}
      (thunks : Alike L thunk thunk') :
      Alike L (.lazy name watched thunk) (.lazy name watched thunk')
  | raise (fault : Fault) : Alike L (.raise fault) (.raise fault)
  | andThen {r r' : Rule} (notes : Result → List Note) {next next' : Result → Rule}
      (first : Alike L r r') (rest : ∀ x y, L.Results x y → Alike L (next x) (next' y)) :
      Alike L (.andThen r notes next) (.andThen r' notes next')
  | unary (op : Unary) {r r' : Rule} (part : Alike L r r') : Alike L (.unary op r) (.unary op r')
  | binary (op : Binary) {l l' r r' : Rule} (left : Alike L l l') (right : Alike L r r') :
      Alike L (.binary op l r) (.binary op l' r')
  | between {o o' c c' b b' : Rule} (opening : Alike L o o') (closing : Alike L c c')
      (body : Alike L b b') : Alike L (.between o c b) (.between o' c' b')

/-- The parser goes on with what the rule makes: a lazy parser whose thunk it is, or a forward parser
that is defined by it. -/
inductive Parser.Enters (s : Session) (A : Store) : Parser → Rule → Prop
  | lazy {cell : Nat} {thunk : Rule} (name : Option String) (fresh : s.Fresh A cell thunk) :
      Enters s A (.lazy cell name) thunk
  | forward {cell : Nat} {rule : Rule} {p : Parser} (name : String)
      (there : s.store[cell]? = some (.forward (some p))) (makes : rule.Makes s A p) :
      Enters s A (.forward cell name) rule

theorem Parser.Enters.mono {s : Session} {A B : Store} (h : A.Grows B) {p : Parser} {r : Rule}
    (enters : p.Enters s A r) : p.Enters s B r := by
  cases enters with
  | lazy name fresh => exact .lazy name (fresh.mono h)
  | forward name there makes => exact .forward name there (makes.mono h)

/-- Parsers of one shape. The first has its cells in `A`, the second in `B`. -/
inductive Parser.Alike (L : Likeness) (s : Session) (A B : Store) : Parser → Parser → Prop
  | atom {a : Atom} (respects : L.Respects a) : Alike L s A B (.atom a) (.atom a)
  | andThen {p p' : Parser} (notes : Result → List Note) {next next' : Result → Rule}
      (first : Alike L s A B p p') (rest : ∀ x y, L.Results x y → (next x).Alike L (next' y)) :
      Alike L s A B (.andThen p notes next) (.andThen p' notes next')
  | both {p p' q q' : Parser} (combine : Value → Value → Act Value) (first : Alike L s A B p p')
      (second : Alike L s A B q q') : Alike L s A B (.both p q combine) (.both p' q' combine)
  | map {p p' : Parser} (f : Value → Act Value) (part : Alike L s A B p p') :
      Alike L s A B (.map p f) (.map p' f)
  | or {p p' q q' : Parser} (first : Alike L s A B p p') (second : Alike L s A B q q') :
      Alike L s A B (.or p q) (.or p' q')
  | not {p p' : Parser} (part : Alike L s A B p p') : Alike L s A B (.not p) (.not p')
  | many {p p' : Parser} (part : Alike L s A B p p') : Alike L s A B (.many p) (.many p')
  | lookAhead {p p' : Parser} (part : Alike L s A B p p') :
      Alike L s A B (.lookAhead p) (.lookAhead p')
  | trace {p p' : Parser} (tag : Nat) (text : String) (part : Alike L s A B p p') :
      Alike L s A B (.trace tag text p) (.trace tag text p')
  | label {p p' : Parser} {name name' : String} (part : Alike L s A B p p')
      (names : L.named → name = name') : Alike L s A B (.label p name) (.label p' name')
  | wrap {p p' : Parser} (name : String) (part : Alike L s A B p p') :
      Alike L s A B (.wrap p name) (.wrap p' name)
  | forward {cell : Nat} {target : Option Parser} (name : String)
      (there : s.store[cell]? = some (.forward target)) :
      Alike L s A B (.forward cell name) (.forward cell name)
  /-- A lazy cell that was filled before. -/
  | old {cell : Nat} {called : Option String} {watched : Bool} {thunk : Rule} {p : Parser}
      (name : Option String) (there : s.store[cell]? = some (.lazy called watched thunk (some p))) :
      Alike L s A B (.lazy cell name) (.lazy cell name)
  /-- Cells through which both go on with alike rules. -/
  | entered {p q : Parser} {r r' : Rule} (left : p.Enters s A r) (right : q.Enters s B r')
      (names : L.named → p.name = q.name ∧ p.baseName = q.baseName) (rules : r.Alike L r') :
      Alike L s A B p q
  | unfoldLeft {cell : Nat} {p q : Parser} (unfolds : L.unfolds) (name : String)
      (there : s.store[cell]? = some (.forward (some p))) (body : Alike L s A B p q) :
      Alike L s A B (.forward cell name) q
  | unfoldRight {cell : Nat} {p q : Parser} (unfolds : L.unfolds) (name : String)
      (there : s.store[cell]? = some (.forward (some q))) (body : Alike L s A B p q) :
      Alike L s A B p (.forward cell name)

namespace Parser.Alike

variable {L : Likeness} {s : Session} {A A' B B' : Store} {p q : Parser}

/-- Lazy cells that are, or will be, filled in the session. -/
theorem fresh {cell cell' : Nat} {thunk thunk' : Rule} (name : Option String)
    (left : s.Fresh A cell thunk) (right : s.Fresh B cell' thunk') (thunks : thunk.Alike L thunk') :
    (Parser.lazy cell name).Alike L s A B (.lazy cell' name) :=
  .entered (.lazy name left) (.lazy name right) (fun _ => ⟨rfl, rfl⟩) thunks

theorem mono (hA : A.Grows A') (hB : B.Grows B') (h : p.Alike L s A B q) :
    p.Alike L s A' B' q := by
  induction h with
  | atom respects => exact .atom respects
  | andThen notes _ rest ih => exact .andThen notes ih rest
  | both combine _ _ ihp ihq => exact .both combine ihp ihq
  | map f _ ih => exact .map f ih
  | or _ _ ihp ihq => exact .or ihp ihq
  | not _ ih => exact .not ih
  | many _ ih => exact .many ih
  | lookAhead _ ih => exact .lookAhead ih
  | trace tag text _ ih => exact .trace tag text ih
  | label _ names ih => exact .label ih names
  | wrap name _ ih => exact .wrap name ih
  | forward name there => exact .forward name there
  | old name there => exact .old name there
  | entered left right names rules => exact .entered (left.mono hA) (right.mono hB) names rules
  | unfoldLeft unfolds name there _ ih => exact .unfoldLeft unfolds name there ih
  | unfoldRight unfolds name there _ ih => exact .unfoldRight unfolds name there ih

theorem baseName (h : p.Alike L s A B q) (named : L.named) : p.baseName = q.baseName := by
  induction h with
  | label _ _ ih => exact ih
  | entered _ _ names => exact (names named).2
  | unfoldLeft unfolds => exact absurd unfolds (L.apart named)
  | unfoldRight unfolds => exact absurd unfolds (L.apart named)
  | _ => rfl

theorem name (h : p.Alike L s A B q) (named : L.named) : p.name = q.name := by
  induction h with
  | atom | wrap | forward | old => rfl
  | entered _ _ names => exact (names named).1
  | andThen _ _ _ ih => simp only [Parser.name, ih]
  | both _ _ _ ihp _ => simp only [Parser.name, ihp]
  | or _ _ ihp ihq => simp only [Parser.name, ihp, ihq]
  | map _ _ ih => simp only [Parser.name, ih]
  | not _ ih => simp only [Parser.name, ih]
  | many _ ih => simp only [Parser.name, ih]
  | lookAhead _ ih => simp only [Parser.name, ih]
  | trace _ _ _ ih => simp only [Parser.name, ih]
  | label part names _ => simp only [Parser.name, names named, part.baseName named]
  | unfoldLeft unfolds => exact absurd unfolds (L.apart named)
  | unfoldRight unfolds => exact absurd unfolds (L.apart named)

/-- Combinators made of others put alike parsers together alike. -/
theorem congruent : Parser.Congruent L.named (Parser.Alike L s A B) where
  name h named := h.name named
  constant _ := .atom (Likeness.respects_of_plain trivial)
  blank := .atom (Likeness.respects_of_plain trivial)
  both combine hp hq := .both combine hp hq
  map f hp := .map f hp
  or hp hq := .or hp hq
  not hp := .not hp
  many hp := .many hp
  lookAhead hp := .lookAhead hp
  trace tag text hp := .trace tag text hp
  label hp names := .label hp names
  wrap name hp := .wrap name hp

end Parser.Alike

namespace Likeness

variable {L : Likeness} {s : Session} {A B : Store}

/-- Names that go together stand for alike parsers, a name that may stand for a rule stands for what
the rule makes, and what the session's cells hold is like itself. -/
structure Sound (L : Likeness) (s : Session) : Prop where
  refs {a b : String} : L.refs a b → a = b ∧ s.env.lookup a = none ∨
    ∃ p q, s.env.lookup a = some p ∧ s.env.lookup b = some q ∧ p.Alike L s s.store s.store q
  shared {name : String} {r : Rule} : L.shares name r →
    ∃ p, s.env.lookup name = some p ∧ r.Makes s s.store p
  held {i : Nat} {cell : Cell} {p : Parser} :
    s.store[i]? = some cell → cell.parser? = some p → p.Alike L s s.store s.store p

theorem Sound.refusal?_eq (sound : L.Sound s) {r r' : Rule} (h : r.Alike L r') :
    r.refusal? s.env = r'.refusal? s.env := by
  induction h with
  | atom | lazy | raise => rfl
  | ref refs =>
    rcases sound.refs refs with ⟨rfl, -⟩ | ⟨p, q, ha, hb, -⟩
    · rfl
    · simp [Rule.refusal?, ha, hb]
  | shareLeft shares _ ih =>
    obtain ⟨p, bound, makes⟩ := sound.shared shares
    rw [← ih, makes.refusal?_eq_none, (Rule.Makes.ref (A := s.store) bound).refusal?_eq_none]
  | shareRight shares _ ih =>
    obtain ⟨p, bound, makes⟩ := sound.shared shares
    rw [ih, makes.refusal?_eq_none, (Rule.Makes.ref (A := s.store) bound).refusal?_eq_none]
  | andThen _ _ _ ih => exact ih
  | unary _ _ ih => simp only [Rule.refusal?, ih]
  | binary _ _ _ ihl ihr => simp only [Rule.refusal?, ihl, ihr]
  | between _ _ _ iho ihc ihb => simp only [Rule.refusal?, iho, ihc, ihb]

/-- What alike rules make is alike. -/
theorem Sound.alike_of_makes (sound : L.Sound s) (hA : s.store.Grows A) (hB : s.store.Grows B)
    {r r' : Rule} (h : r.Alike L r') {p q : Parser} (hp : r.Makes s A p) (hq : r'.Makes s B q) :
    p.Alike L s A B q := by
  induction h generalizing p q with
  | atom respects =>
    cases hp with | atom fits =>
    cases hq
    exact .atom (respects fits)
  | ref refs =>
    cases hp with | ref bound =>
    cases hq with | ref bound' =>
    rcases sound.refs refs with ⟨-, unbound⟩ | ⟨p', q', ha, hb, h⟩
    · rw [unbound] at bound
      cases bound
    · cases ha.symm.trans bound
      cases hb.symm.trans bound'
      exact h.mono hA hB
  | shareLeft shares _ ih =>
    cases hp with | ref bound =>
    obtain ⟨p', bound', makes⟩ := sound.shared shares
    cases bound.symm.trans bound'
    exact ih (makes.mono hA) hq
  | shareRight shares _ ih =>
    cases hq with | ref bound =>
    obtain ⟨q', bound', makes⟩ := sound.shared shares
    cases bound.symm.trans bound'
    exact ih hp (makes.mono hB)
  | lazy name watched thunks =>
    cases hp with | lazy _ _ left =>
    cases hq with | lazy _ _ right =>
    exact .fresh name left right thunks
  | raise => cases hp
  | andThen notes _ rest ih =>
    cases hp with | andThen _ _ hp =>
    cases hq with | andThen _ _ hq =>
    exact .andThen notes (ih hp hq) rest
  | unary op _ ih =>
    cases hp with | unary _ hp =>
    cases hq with | unary _ hq =>
    exact Parser.Alike.congruent.unary op (ih hp hq)
  | binary op _ _ ihl ihr =>
    cases hp with | binary _ hl hr =>
    cases hq with | binary _ hl' hr' =>
    exact Parser.Alike.congruent.binary op (ihl hl hl') (ihr hr hr')
  | between _ _ _ iho ihc ihb =>
    cases hp with | between ho hc hb =>
    cases hq with | between ho' hc' hb' =>
    exact Parser.Alike.congruent.between (iho ho ho') (ihc hc hc') (ihb hb hb')

/-- Alike rules come to the same fault or to alike parsers. -/
theorem Sound.agree (sound : L.Sound s) {r r' : Rule} (h : r.Alike L r') (hA : s.Grown A)
    (hB : s.Grown B) {x y : Except Fault Parser} (hx : r.Becomes s A x) (hy : r'.Becomes s B y) :
    Except.Agree (fun p q => p.Alike L s A B q) x y := by
  have refusals := sound.refusal?_eq h
  rcases x with fault | p
  · rcases y with fault' | q
    · cases hx.symm.trans (refusals.trans hy)
      exact .error fault
    · cases hx.symm.trans (refusals.trans hy.1)
  · rcases y with fault' | q
    · cases hx.1.symm.trans (refusals.trans hy)
    · exact .ok (sound.alike_of_makes hA.grows hB.grows h hx.2 hy.2)

/-- Atoms with the trait do the same at cursors that go together, and so do continuations. -/
structure Admits (L : Likeness) (T : Trait) : Prop where
  atom {a : Atom} : T.parser (.atom a) → L.Respects a
  next {p : Parser} {notes : Result → List Note} {next : Result → Rule} :
    T.parser (.andThen p notes next) → ∀ x y, L.Results x y → next x = next y
  refs (name : String) : L.refs name name

namespace Admits

variable {T : Trait}

theorem rule (h : L.Admits T) {r : Rule} (hr : T.rule r) : r.Alike L r := by
  induction r with
  | atom a => exact .atom fun fits => h.atom (T.ofAtom hr fits)
  | ref name => exact .ref (h.refs name)
  | lazy name watched thunk ih => exact .lazy name watched (ih (T.ofLazy hr))
  | raise fault => exact .raise fault
  | andThen r notes next ih ihnext =>
    obtain ⟨first, whole⟩ := T.ofAndThen hr
    -- What the trait says of the continuation it says behind any parser.
    have whole := whole _ T.inherited.blank
    refine .andThen notes (ih first) fun x y related => ?_
    rw [h.next whole x y related]
    exact ihnext y (T.next whole y)
  | unary op r ih => exact .unary op (ih (T.ofUnary hr))
  | binary op l r ihl ihr => exact .binary op (ihl (T.ofBinary hr).1) (ihr (T.ofBinary hr).2)
  | between o c b iho ihc ihb =>
    obtain ⟨ho, hc, hb⟩ := T.ofBetween hr
    exact .between (iho ho) (ihc hc) (ihb hb)

theorem parser (h : L.Admits T) (hs : T.OfSession s) {p : Parser} (hp : T.parser p)
    (inside : p.Scoped s.store) : p.Alike L s s.store s.store p := by
  have parts : ∀ {p q : Parser}, q ∈ p.parts → T.parser p → T.parser q :=
    fun mem hp => T.parts hp _ mem
  induction p with
  | atom a => exact .atom (h.atom hp)
  | andThen p notes next ih =>
    refine .andThen notes (ih (parts (by simp [Parser.parts]) hp) inside) fun x y related => ?_
    rw [h.next hp x y related]
    exact h.rule (T.next hp y)
  | both p q combine ihp ihq =>
    have hp' := ihp (parts (by simp [Parser.parts]) hp) inside.1
    exact .both combine hp' (ihq (parts (by simp [Parser.parts]) hp) inside.2)
  | or p q ihp ihq =>
    have hp' := ihp (parts (by simp [Parser.parts]) hp) inside.1
    exact .or hp' (ihq (parts (by simp [Parser.parts]) hp) inside.2)
  | map p f ih => exact .map f (ih (parts (by simp [Parser.parts]) hp) inside)
  | not p ih => exact .not (ih (parts (by simp [Parser.parts]) hp) inside)
  | many p ih => exact .many (ih (parts (by simp [Parser.parts]) hp) inside)
  | lookAhead p ih => exact .lookAhead (ih (parts (by simp [Parser.parts]) hp) inside)
  | trace tag text p ih => exact .trace tag text (ih (parts (by simp [Parser.parts]) hp) inside)
  | label p name ih => exact .label (ih (parts (by simp [Parser.parts]) hp) inside) fun _ => rfl
  | wrap p name ih => exact .wrap name (ih (parts (by simp [Parser.parts]) hp) inside)
  | forward cell name =>
    obtain ⟨target, there⟩ := inside
    exact .forward name there
  | lazy cell name =>
    obtain ⟨called, watched, thunk, built, there⟩ := inside
    rcases s.old_or_fresh there with ⟨q, old⟩ | fresh
    · exact .old name old
    · exact .fresh name fresh fresh (h.rule (hs.store cell _ there).1)

theorem held (h : L.Admits T) (hs : T.OfSession s) (inside : s.Scoped) {i : Nat} {cell : Cell}
    {p : Parser} (there : s.store[i]? = some cell) (holds : cell.parser? = some p) :
    p.Alike L s s.store s.store p := by
  refine h.parser hs ?_ (inside.store i cell p there holds)
  rcases cell with target | ⟨name, watched, thunk, built⟩
  · exact hs.store i _ there p holds
  · exact (hs.store i _ there).2 p holds

theorem bound (h : L.Admits T) (hs : T.OfSession s) (inside : s.Scoped) {name : String}
    {p : Parser} (bound : s.env.lookup name = some p) : p.Alike L s s.store s.store p :=
  h.parser hs (hs.env _ (Env.mem_of_lookup bound)) (inside.bound bound)

/-- A name stands for a parser that is like itself, if it stands for one. -/
theorem refs_self (h : L.Admits T) (hs : T.OfSession s) (inside : s.Scoped) (a : String) :
    a = a ∧ s.env.lookup a = none ∨
      ∃ p q, s.env.lookup a = some p ∧ s.env.lookup a = some q ∧ p.Alike L s s.store s.store q := by
  rcases found : s.env.lookup a with _ | p
  · exact .inl ⟨rfl, rfl⟩
  · exact .inr ⟨p, p, rfl, rfl, h.bound hs inside found⟩

/-- If a name goes together with itself only, and stands for what the rules make that it may stand
for, nothing more is asked of the session. -/
theorem sound (h : L.Admits T) (hs : T.OfSession s) (inside : s.Scoped)
    (alone : ∀ a b, L.refs a b → a = b)
    (shared : ∀ name r, L.shares name r → ∃ p, s.env.lookup name = some p ∧ r.Makes s s.store p :=
      by exact fun _ _ => False.elim) : L.Sound s where
  shared := shared _ _
  refs {a b} refs := by
    obtain rfl := alone a b refs
    exact h.refs_self hs inside a
  held there holds := h.held hs inside there holds

/-- Where a cursor goes together with itself only, everything is like itself. -/
theorem of_eq (cursors : ∀ c d, L.cursors c d ↔ c = d) (refs : ∀ name, L.refs name name) :
    L.Admits .any where
  atom {a} _ := by
    intro c d h
    obtain rfl := (cursors c d).1 h
    exact .refl (fun _ => ⟨rfl, rfl, (cursors _ _).2 rfl⟩) _
  next _ x y related := by rw [related.eq fun c d => (cursors c d).1]
  refs := refs

end Admits

end Likeness

end Rewind
