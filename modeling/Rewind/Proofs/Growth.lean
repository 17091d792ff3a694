import Rewind.Proofs.Sessions

namespace Rewind

/-- The cell stays as it is, or it held no parser and takes one. -/
inductive Cell.Fills : Cell → Cell → Prop
  | same (cell : Cell) : Fills cell cell
  | define (p : Parser) : Fills (.forward none) (.forward (some p))
  | build (name : Option String) (watched : Bool) (thunk : Rule) (p : Parser) :
      Fills (.lazy name watched thunk none) (.lazy name watched thunk (some p))

namespace Store

def Grows (A B : Store) : Prop :=
  ∀ (i : Nat) (cell : Cell), A[i]? = some cell → ∃ cell', B[i]? = some cell' ∧ cell.Fills cell'

variable {A B D : Store}

namespace Grows

theorem refl (A : Store) : A.Grows A := fun _ cell h => ⟨cell, h, .same cell⟩

theorem trans (h : A.Grows B) (h' : B.Grows D) : A.Grows D := by
  intro i cell hcell
  obtain ⟨cell', hcell', fills⟩ := h i cell hcell
  obtain ⟨cell'', hcell'', fills'⟩ := h' i cell' hcell'
  refine ⟨cell'', hcell'', ?_⟩
  cases fills with
  | same => exact fills'
  | define p =>
    cases fills'
    exact .define p
  | build name watched thunk p =>
    cases fills'
    exact .build name watched thunk p

theorem push (A : Store) (cell : Cell) : A.Grows (A.push cell) := by
  intro i other hother
  refine ⟨other, ?_, .same other⟩
  have inside : i < A.size := (Array.getElem?_eq_some_iff.1 hother).1
  rw [Array.getElem?_push, if_neg (by omega), hother]

theorem set {i : Nat} {cell cell' : Cell} (h : A[i]? = some cell) (fills : cell.Fills cell') :
    A.Grows (A.setIfInBounds i cell') := by
  intro j other hother
  by_cases same : i = j
  · subst same
    cases h.symm.trans hother
    have inside : i < A.size := (Array.getElem?_eq_some_iff.1 h).1
    exact ⟨cell', by simp [inside], fills⟩
  · exact ⟨other, by rw [Array.getElem?_setIfInBounds_ne same, hother], .same other⟩

theorem fill (A : Store) (i : Nat) (p : Parser) : A.Grows (A.fill i p) := by
  unfold Store.fill
  split
  · next h => exact set h (.define p)
  · next h => exact set h (.build _ _ _ p)
  · exact refl A

theorem forward (h : A.Grows B) {i : Nat} {target : Option Parser}
    (there : A[i]? = some (.forward target)) :
    ∃ target', B[i]? = some (.forward target') ∧ ∀ p, target = some p → target' = some p := by
  obtain ⟨cell, hcell, fills⟩ := h i _ there
  cases fills with
  | same => exact ⟨target, hcell, fun _ h => h⟩
  | define p => exact ⟨some p, hcell, fun _ h => nomatch h⟩

theorem lazy (h : A.Grows B) {i : Nat} {name : Option String} {watched : Bool} {thunk : Rule}
    {built : Option Parser} (there : A[i]? = some (.lazy name watched thunk built)) :
    ∃ built', B[i]? = some (.lazy name watched thunk built') ∧
      ∀ p, built = some p → built' = some p := by
  obtain ⟨cell, hcell, fills⟩ := h i _ there
  cases fills with
  | same => exact ⟨built, hcell, fun _ h => h⟩
  | build _ _ _ p => exact ⟨some p, hcell, fun _ h => nomatch h⟩

theorem built (h : A.Grows B) {i : Nat} {name : Option String} {watched : Bool} {thunk : Rule}
    {p : Parser} (there : A[i]? = some (.lazy name watched thunk (some p))) :
    B[i]? = some (.lazy name watched thunk (some p)) := by
  obtain ⟨built', hcell, keeps⟩ := h.lazy there
  rw [hcell, keeps p rfl]

/-- A new cell is none of the cells before. -/
theorem getElem?_size (h : A.Grows B) : A[B.size]? = none := by
  rcases hcell : A[B.size]? with _ | cell
  · rfl
  · obtain ⟨cell', hcell', -⟩ := h _ _ hcell
    simp at hcell'

end Grows

end Store

/-- The fault in which building the rule ends, if it does. It does not depend on the store. -/
def Rule.refusal? (env : Env) : Rule → Option Fault
  | .atom a => a.refusal?
  | .lazy _ _ _ => none
  | .ref name => if (env.lookup name).isSome then none else some (.unbound name)
  | .raise fault => some fault
  | .andThen r _ _ => r.refusal? env
  | .unary op r => (r.refusal? env).or op.refusal?
  | .binary _ l r => (l.refusal? env).or (r.refusal? env)
  | .between o c b => (o.refusal? env).or ((c.refusal? env).or (b.refusal? env))

namespace Session

/-- The lazy cell holds nothing that was there in the session, so that it is filled, if at all,
with what its thunk makes in the session. -/
def Fresh (s : Session) (A : Store) (cell : Nat) (thunk : Rule) : Prop :=
  ∃ name watched built, A[cell]? = some (.lazy name watched thunk built) ∧
    ∀ p, s.store[cell]? ≠ some (.lazy name watched thunk (some p))

end Session

/-- The parser is what building the rule in the session may give, with lazy cells in the store. -/
inductive Rule.Makes (s : Session) (A : Store) : Rule → Parser → Prop
  | atom {a : Atom} (fits : a.refusal? = none) : Makes s A (.atom a) (.atom a)
  | ref {name : String} {p : Parser} (bound : s.env.lookup name = some p) : Makes s A (.ref name) p
  | lazy (name : Option String) (watched : Bool) {thunk : Rule} {cell : Nat}
      (fresh : s.Fresh A cell thunk) : Makes s A (.lazy name watched thunk) (.lazy cell name)
  | andThen {r : Rule} {p : Parser} (notes : Result → List Note) (next : Result → Rule)
      (first : Makes s A r p) : Makes s A (.andThen r notes next) (.andThen p notes next)
  | unary {op : Unary} (fits : op.refusal? = none) {r : Rule} {p : Parser} (part : Makes s A r p) :
      Makes s A (.unary op r) (op.apply p)
  | binary (op : Binary) {l r : Rule} {p q : Parser} (left : Makes s A l p)
      (right : Makes s A r q) : Makes s A (.binary op l r) (op.apply p q)
  | between {o c b : Rule} {p q t : Parser} (opening : Makes s A o p) (closing : Makes s A c q)
      (body : Makes s A b t) : Makes s A (.between o c b) (.between p q t)

variable {s : Session} {A B D : Store}

theorem Session.Fresh.mono (h : A.Grows B) {cell : Nat} {thunk : Rule}
    (fresh : s.Fresh A cell thunk) : s.Fresh B cell thunk := by
  obtain ⟨name, watched, built, there, new⟩ := fresh
  obtain ⟨built', there', -⟩ := h.lazy there
  exact ⟨name, watched, built', there', new⟩

namespace Rule.Makes

variable {r : Rule} {p : Parser}

theorem mono (h : A.Grows B) (makes : r.Makes s A p) : r.Makes s B p := by
  induction makes with
  | atom fits => exact .atom fits
  | ref bound => exact .ref bound
  | lazy name watched fresh => exact .lazy name watched (fresh.mono h)
  | andThen notes next _ ih => exact .andThen notes next ih
  | unary fits _ ih => exact .unary fits ih
  | binary op _ _ ihl ihr => exact .binary op ihl ihr
  | between _ _ _ iho ihc ihb => exact .between iho ihc ihb

/-- What makes a parser is not refused. -/
theorem refusal?_eq_none (makes : r.Makes s A p) : r.refusal? s.env = none := by
  induction makes with
  | atom fits => exact fits
  | lazy => rfl
  | ref bound => simp [Rule.refusal?, bound]
  | andThen _ _ _ ih => exact ih
  | unary fits _ ih => simp [Rule.refusal?, ih, fits]
  | binary _ _ _ ihl ihr => simp [Rule.refusal?, ihl, ihr]
  | between _ _ _ iho ihc ihb => simp [Rule.refusal?, iho, ihc, ihb]

end Rule.Makes

/-- A store that runs in the session may lead to: what it holds in lazy cells, and did not hold
before, is made by the thunks in that session. -/
structure Session.Grown (s : Session) (A : Store) : Prop where
  grows : s.store.Grows A
  forward {i : Nat} {target : Option Parser} :
    A[i]? = some (.forward target) → s.store[i]? = some (.forward target)
  made {i : Nat} {name : Option String} {watched : Bool} {thunk : Rule} {p : Parser} :
    A[i]? = some (.lazy name watched thunk (some p)) →
      s.store[i]? = some (.lazy name watched thunk (some p)) ∨ thunk.Makes s A p

/-- From one such store to a later one. -/
structure Session.Leads (s : Session) (A B : Store) : Prop where
  grows : A.Grows B
  grown : s.Grown B

namespace Session

namespace Grown

theorem refl (s : Session) : s.Grown s.store := ⟨.refl _, fun h => h, fun h => .inl h⟩

theorem forward_eq (h : s.Grown A) {i : Nat} {target : Option Parser}
    (there : s.store[i]? = some (.forward target)) : A[i]? = some (.forward target) := by
  obtain ⟨target', there', -⟩ := h.grows.forward there
  rw [there', ← there, h.forward there']

/-- What a fresh cell holds is made by its thunk. -/
theorem makes (h : s.Grown A) {cell : Nat} {name : Option String} {watched : Bool}
    {thunk thunk' : Rule} {p : Parser} (fresh : s.Fresh A cell thunk)
    (there : A[cell]? = some (.lazy name watched thunk' (some p))) : thunk.Makes s A p := by
  obtain ⟨name', watched', built, hcell, new⟩ := fresh
  cases hcell.symm.trans there
  rcases h.made there with old | made
  · exact absurd old (new p)
  · exact made

end Grown

namespace Leads

theorem refl (h : s.Grown A) : s.Leads A A := ⟨.refl A, h⟩

theorem trans (h : s.Leads A B) (h' : s.Leads B D) : s.Leads A D :=
  ⟨h.grows.trans h'.grows, h'.grown⟩

theorem push (h : s.Grown A) (name : Option String) (watched : Bool) (thunk : Rule) :
    s.Leads A (A.push (.lazy name watched thunk none)) := by
  have grows := Store.Grows.push A (.lazy name watched thunk none)
  refine ⟨grows, h.grows.trans grows, fun there => ?_, fun there => ?_⟩
  · rw [Array.getElem?_push] at there
    split at there
    · cases there
    · exact h.forward there
  · rw [Array.getElem?_push] at there
    split at there
    · cases there
    · exact (h.made there).imp_right fun makes => makes.mono grows

/-- A lazy cell takes what its thunk makes. -/
theorem fill (h : s.Grown A) {cell : Nat} {thunk : Rule} {p : Parser}
    (fresh : s.Fresh A cell thunk) (makes : thunk.Makes s A p) : s.Leads A (A.fill cell p) := by
  obtain ⟨name, watched, built, there, -⟩ := fresh
  have grows := Store.Grows.fill A cell p
  -- The cell is a lazy one with this thunk, so no forward cell changes and no other thunk is meant.
  refine ⟨grows, h.grows.trans grows, fun there' => ?_, fun there' => ?_⟩
  · rcases Store.fill_cases there' with before | ⟨empty, -⟩ | ⟨_, _, _, -, new⟩
    · exact h.forward before
    · cases there.symm.trans empty
    · cases new
  · rcases Store.fill_cases there' with before | ⟨-, new⟩ | ⟨_, _, _, empty, new⟩
    · exact (h.made before).imp_right fun makes => makes.mono grows
    · cases new
    · cases there.symm.trans empty
      cases new
      exact .inr (makes.mono grows)

end Leads

end Session

/-- Building leads from any store of the session to a later one. It ends in the fault, if there is
one, and otherwise in what is said of the store and the answer. -/
def Build.Leads {α : Type} (s : Session) (x : Build α) (fault? : Option Fault)
    (P : Store → α → Prop) : Prop :=
  ∀ A, s.Grown A → s.Leads A (x A).2 ∧
    match (x A).1 with
    | .error fault => fault? = some fault
    | .ok a => fault? = none ∧ P (x A).2 a

namespace Build.Leads

variable {α β : Type}

theorem pure {P : Store → α → Prop} {a : α} (h : ∀ A, P A a) :
    Build.Leads s (Pure.pure a : Build α) none P :=
  fun A grown => ⟨.refl grown, rfl, h A⟩

theorem throw {P : Store → α → Prop} (fault : Fault) :
    Build.Leads s (throw fault : Build α) (some fault) P :=
  fun _ grown => ⟨.refl grown, rfl⟩

/-- What holds of the first answer goes on to hold of it in the store after the second. -/
theorem bind {x : Build α} {f : α → Build β} {fault? fault?' : Option Fault}
    {P : Store → α → Prop} {Q : α → Store → β → Prop}
    (first : Build.Leads s x fault? P) (mono : ∀ A B a, A.Grows B → P A a → P B a)
    (second : ∀ a, Build.Leads s (f a) fault?' (Q a)) :
    Build.Leads s (x >>= f) (fault?.or fault?') fun B b => ∃ a, P B a ∧ Q a B b := by
  intro A grown
  have hx := first A grown
  rcases hA : x A with ⟨fault | a, B⟩
  · rw [hA] at hx
    rw [Build.bind_of_error hA, show fault? = some fault from hx.2]
    exact ⟨hx.1, rfl⟩
  · rw [hA] at hx
    rw [Build.bind_of_ok hA, show fault? = none from hx.2.1, Option.none_or]
    have hf := second a B hx.1.grown
    refine ⟨hx.1.trans hf.1, ?_⟩
    rcases hB : f a B with ⟨fault | b, D⟩
    · rw [hB] at hf
      exact hf.2
    · rw [hB] at hf
      exact ⟨hf.2.1, a, mono _ _ a hf.1.grows hx.2.2, hf.2.2⟩

theorem map {x : Build α} {fault? : Option Fault} {P : Store → α → Prop}
    (h : Build.Leads s x fault? P) (f : α → β) :
    Build.Leads s (x >>= fun a => Pure.pure (f a)) fault? fun B b => ∃ a, P B a ∧ b = f a := by
  intro A grown
  have hx := h A grown
  rcases hA : x A with ⟨fault | a, B⟩
  · rw [hA] at hx
    rw [Build.bind_of_error hA]
    exact hx
  · rw [hA] at hx
    rw [Build.bind_of_ok hA]
    exact ⟨hx.1, hx.2.1, a, hx.2.2, rfl⟩

theorem imp {x : Build α} {fault? : Option Fault} {P Q : Store → α → Prop}
    (h : Build.Leads s x fault? P) (answers : ∀ A a, P A a → Q A a) :
    Build.Leads s x fault? Q := by
  intro A grown
  have hx := h A grown
  rcases hA : x A with ⟨fault | a, B⟩
  · rw [hA] at hx
    exact hx
  · rw [hA] at hx
    exact ⟨hx.1, hx.2.1, answers _ _ hx.2.2⟩

end Build.Leads

namespace Rule

theorem checked_leads (s : Session) (refusal : Option Fault) (p : Parser) :
    Build.Leads s (checked refusal p) refusal fun _ q => refusal = none ∧ q = p := by
  cases refusal with
  | none => exact .pure fun _ => ⟨rfl, rfl⟩
  | some fault => exact .throw fault

theorem lookup_leads (s : Session) (name : String) :
    Build.Leads s (lookup s.env name) (refusal? s.env (.ref name))
      fun A p => (Rule.ref name).Makes s A p := by
  rcases bound : s.env.lookup name with _ | p
  · simp only [lookup, refusal?, bound]
    exact .throw _
  · simp only [lookup, refusal?, bound]
    exact .pure fun A => .ref bound

theorem newLazy_leads (s : Session) (name : Option String) (watched : Bool) (thunk : Rule) :
    Build.Leads s (Store.newLazy name watched thunk) none
      fun A p => (Rule.lazy name watched thunk).Makes s A p := by
  intro A grown
  refine ⟨.push grown name watched thunk, rfl, .lazy name watched ?_⟩
  refine ⟨name, watched, none, Array.getElem?_push_size, fun p old => ?_⟩
  rw [grown.grows.getElem?_size] at old
  cases old

/-- Building a rule makes a parser unless it is refused. -/
theorem build_leads (s : Session) (r : Rule) :
    Build.Leads s (r.build s.env) (r.refusal? s.env) fun A p => r.Makes s A p := by
  have mono : ∀ {r : Rule} (A B : Store) (p : Parser), A.Grows B → r.Makes s A p → r.Makes s B p :=
    fun _ _ _ h makes => makes.mono h
  induction r with
  | atom a =>
    refine (checked_leads s a.refusal? (.atom a)).imp fun A p made => ?_
    rw [made.2]
    exact .atom made.1
  | ref name => exact lookup_leads s name
  | lazy name watched thunk _ => exact newLazy_leads s name watched thunk
  | raise fault => exact .throw fault
  | andThen r notes next ih _ =>
    refine (ih.map fun p => Parser.andThen p notes next).imp fun A t ht => ?_
    obtain ⟨p, hp, rfl⟩ := ht
    exact .andThen notes next hp
  | unary op r ih =>
    refine (ih.bind mono fun p => checked_leads s op.refusal? (op.apply p)).imp fun A t ht => ?_
    obtain ⟨p, hp, fits, rfl⟩ := ht
    exact .unary fits hp
  | binary op l r ihl ihr =>
    refine (ihl.bind mono fun p => ihr.map fun q => op.apply p q).imp fun A t ht => ?_
    obtain ⟨p, hp, q, hq, rfl⟩ := ht
    exact .binary op hp hq
  | between o c b iho ihc ihb =>
    refine (iho.bind mono fun p => ihc.bind mono fun q =>
      ihb.map fun t => Parser.between p q t).imp fun A t ht => ?_
    obtain ⟨p, hp, q, hq, t, ht, rfl⟩ := ht
    exact .between hp hq ht

/-- What building the rule comes to: a parser that it makes in the store, unless it is refused. -/
def Becomes (s : Session) (A : Store) (r : Rule) : Except Fault Parser → Prop
  | .error fault => r.refusal? s.env = some fault
  | .ok p => r.refusal? s.env = none ∧ r.Makes s A p

theorem build_becomes (r : Rule) (h : s.Grown A) {x : Except Fault Parser}
    (built : r.build s.env A = (x, B)) : s.Leads A B ∧ r.Becomes s B x := by
  have leads := build_leads s r A h
  rw [built] at leads
  rcases x with fault | p
  · exact leads
  · exact leads

/-- A rule that is not refused is built in every store. -/
theorem exists_makes (h : s.Grown A) {r : Rule} (accepted : r.refusal? s.env = none) :
    ∃ p B, r.build s.env A = (.ok p, B) ∧ s.Leads A B ∧ r.Makes s B p := by
  rcases built : r.build s.env A with ⟨fault | p, B⟩
  · have refused := (r.build_becomes h built).2
    cases accepted.symm.trans refused
  · obtain ⟨leads, -, made⟩ := r.build_becomes h built
    exact ⟨p, B, rfl, leads, made⟩

end Rule

namespace Session

theorem old_or_fresh (s : Session) {cell : Nat} {name : Option String} {watched : Bool}
    {thunk : Rule} {built : Option Parser}
    (there : A[cell]? = some (.lazy name watched thunk built)) :
    (∃ p, s.store[cell]? = some (.lazy name watched thunk (some p))) ∨ s.Fresh A cell thunk := by
  by_cases old : ∃ p, s.store[cell]? = some (.lazy name watched thunk (some p))
  · exact .inl old
  · exact .inr ⟨name, watched, built, there, fun p hp => old ⟨p, hp⟩⟩

end Session

namespace Run

theorem force_old (h : s.Grown A) {cell : Nat} {name : Option String} {watched : Bool}
    {thunk : Rule} {p : Parser}
    (old : s.store[cell]? = some (.lazy name watched thunk (some p))) :
    force s.env cell A = some (.ok p, A) := by
  simp only [force, h.grows.built old]

/-- A cell that is new, or was empty, gives what its thunk makes, whether or not it was used before,
and a fault if the thunk is refused. -/
theorem force_fresh (h : s.Grown A) {cell : Nat} {thunk : Rule} (fresh : s.Fresh A cell thunk) :
    ∃ log x B, force s.env cell A = some (⟨log, x⟩, B) ∧ s.Leads A B ∧
      (∀ event ∈ log, ∃ name, event = .filled name) ∧ thunk.Becomes s B x := by
  obtain ⟨name, watched, built, there, -⟩ := id fresh
  rcases built with _ | p
  · have written : ∀ event ∈ (if watched then [Event.filled name] else []),
        ∃ name, event = .filled name := by
      intro event mem
      split at mem
      · exact ⟨name, by simpa using mem⟩
      · simp at mem
    simp only [force, there]
    rcases hB : thunk.build s.env A with ⟨fault | p, B⟩
    · obtain ⟨leads, refused⟩ := thunk.build_becomes h hB
      exact ⟨_, _, _, rfl, leads, written, refused⟩
    · obtain ⟨leads, accepted, makes⟩ := thunk.build_becomes h hB
      have filled := Session.Leads.fill leads.grown (fresh.mono leads.grows) makes
      exact ⟨_, _, _, rfl, leads.trans filled, written, accepted, makes.mono filled.grows⟩
  · have makes := h.makes fresh there
    refine ⟨[], .ok p, A, ?_, .refl h, by simp, makes.refusal?_eq_none, makes⟩
    simp only [force, there]
    rfl

theorem target_forward (h : s.Grown A) {cell : Nat} {target : Option Parser}
    (there : s.store[cell]? = some (.forward target)) (name : String) :
    Run.target cell name A =
      match target with
      | some p => some (.ok p, A)
      | none => raise (.undefinedForward name) A := by
  simp only [Run.target, Store.target?, h.forward_eq there]
  cases target <;> rfl

end Run

namespace Session

/-- Stores that runs lead to from this one, any fault, and no promise of an end. -/
def growth (s : Session) (A : Store) : Contract := ⟨s.Leads A, True⟩

theorem supports_growth (s : Session) (A : Store) : (s.growth A).Supports .any s.env where
  endless := trivial
  builds {r} _ B leads := by
    rcases built : r.build s.env B with ⟨fault | p, D⟩
    · exact ⟨leads.trans (r.build_becomes leads.grown built).1, trivial⟩
    · exact ⟨leads.trans (r.build_becomes leads.grown built).1, trivial⟩
  target cell name B leads := by
    unfold Run.target
    split
    · exact ⟨leads, trivial⟩
    · exact ⟨leads, trivial⟩
  force cell B leads := by
    rcases hcell : B[cell]? with _ | cell'
    · simp only [Run.force, hcell]
      exact ⟨leads, trivial⟩
    · rcases cell' with target | ⟨name, watched, thunk, built⟩
      · simp only [Run.force, hcell]
        exact ⟨leads, trivial⟩
      · rcases s.old_or_fresh hcell with ⟨p, old⟩ | fresh
        · rw [Run.force_old leads.grown old]
          exact ⟨leads, trivial⟩
        · obtain ⟨log, fault | p, D, forced, later, -, -⟩ := Run.force_fresh leads.grown fresh
          · rw [forced]
            exact ⟨leads.trans later, trivial⟩
          · rw [forced]
            exact ⟨leads.trans later, trivial⟩

/-- A run leads from the store that it finds to the one that it leaves. -/
theorem leads_of_run (hA : s.Grown A) {budget : Nat} {p : Parser} {c : Cursor}
    {last : Logged Event Result × Store} (h : Parser.run s.env budget p c A = some last) :
    s.Leads A last.2 := by
  have kept := (s.supports_growth A).run_meets budget (p := p) trivial c A (.refl hA)
  rw [h] at kept
  obtain ⟨⟨log, fault | r⟩, B⟩ := last
  · exact kept.1
  · exact kept.1

end Session

end Rewind
