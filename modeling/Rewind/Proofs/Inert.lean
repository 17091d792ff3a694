import Rewind.Proofs.Scopes

namespace Rewind

/-- The store has grown, and no lazy cell was filled. -/
structure Store.Extends (A B : Store) : Prop where
  grows : A.Grows B
  unforced {i : Nat} {name : Option String} {watched : Bool} {thunk : Rule} {p : Parser} :
    B[i]? = some (.lazy name watched thunk (some p)) →
      A[i]? = some (.lazy name watched thunk (some p))

namespace Store.Extends

variable {A B D : Store}

theorem refl (A : Store) : A.Extends A := ⟨.refl A, fun h => h⟩

theorem trans (h : A.Extends B) (h' : B.Extends D) : A.Extends D :=
  ⟨h.grows.trans h'.grows, fun there => h.unforced (h'.unforced there)⟩

theorem push (A : Store) {cell : Cell} (empty : cell.parser? = none) : A.Extends (A.push cell) := by
  refine ⟨.push A cell, fun there => ?_⟩
  rw [Array.getElem?_push] at there
  split at there
  · cases there
    cases empty
  · exact there

/-- Defining a forward parser fills no lazy cell. -/
theorem fill {cell : Nat} {target : Option Parser} (there : A[cell]? = some (.forward target))
    (p : Parser) : A.Extends (A.fill cell p) := by
  refine ⟨.fill A cell p, fun held => ?_⟩
  rcases Store.fill_cases held with before | ⟨-, new⟩ | ⟨_, _, _, empty, -⟩
  · exact before
  · cases new
  · cases there.symm.trans empty

end Store.Extends

/-- The command runs no parser. -/
def Command.Inert : Command → Prop
  | .bind _ _ | .declare _ _ | .define _ _ | .defineValue _ _ | .inspect _ | .seek _ _ => True
  | .parse _ _ _ | .run _ _ _ | .feed _ => False

theorem Rule.build_extends (env : Env) (A : Store) (r : Rule) :
    Build.Meets A.Extends (fun _ => True) (r.build env) fun _ => True := by
  induction r with
  | atom a => exact .checked (fun _ _ => trivial) fun _ => trivial
  | ref name =>
    simp only [build, lookup]
    split
    · exact .pure trivial
    · exact .throw trivial
  | lazy name watched thunk _ =>
    refine .bind (P := fun _ => True) (.allocate fun B hB => ⟨?_, trivial⟩) fun _ _ => .pure trivial
    exact hB.trans (.push B rfl)
  | raise fault => exact .throw trivial
  | andThen r notes next ih _ => exact .bind ih fun _ _ => .pure trivial
  | unary op r ih =>
    exact .bind ih fun _ _ => .checked (fun _ _ => trivial) fun _ => trivial
  | binary op l r ihl ihr => exact .bind ihl fun _ _ => .bind ihr fun _ _ => .pure trivial
  | between o c b iho ihc ihb =>
    exact .bind iho fun _ _ => .bind ihc fun _ _ => .bind ihb fun _ _ => .pure trivial

/-- Building leaves what lazy cells hold as it is. -/
theorem Rule.extends_of_build {env : Env} {A B : Store} {r : Rule} {x : Except Fault Parser}
    (built : r.build env A = (x, B)) : A.Extends B := by
  have kept := r.build_extends env A A (.refl A)
  rw [built] at kept
  rcases x with fault | p
  · exact kept.1
  · exact kept.1

namespace Session

variable {s s' : Session}

theorem step_inert (inside : s.Scoped) {command : Command} (inert : command.Inert) {budget : Nat}
    {answer : Logged Event Answer} (taken : s.step budget command = some (answer, s')) :
    s.store.Extends s'.store := by
  have built : ∀ rule : Rule, (Run.ofBuild (rule.build s.env)).Meets ⟨s.store.Extends, True⟩
      (fun _ => True) fun _ => True :=
    fun rule => .ofBuild (rule.build_extends s.env s.store)
  have still : (meaning budget s command).Meets ⟨s.store.Extends, True⟩ (fun _ => True)
      (fun _ => True) → s.store.Extends s'.store :=
    fun h => (step_allows h (.refl s.store) taken).1
  cases command with
  | bind name rule => exact still (.bind (built rule) fun _ _ => .pure trivial)
  | declare name label =>
    cases taken
    exact .push s.store rfl
  | define name rule =>
    obtain ⟨-, -, A, built, ⟨store, -⟩ | ⟨cell, label, p, bound, built, -, store⟩⟩ :=
      of_step_define taken
    · rw [store]
      rcases built with rfl | ⟨x, built⟩
      · exact .refl _
      · exact Rule.extends_of_build built
    · obtain ⟨target, there⟩ := inside.bound bound
      have made := Rule.extends_of_build built
      obtain ⟨target', there', -⟩ := made.grows.forward there
      rw [store]
      exact made.trans (.fill there' p)
  | defineValue name value =>
    refine still (.bind (built (.ref name)) fun p _ => ?_)
    refine .bind (P := fun _ => True) (.bind (meets_undefinedCell p) fun _ _ => ?_) ?_
    · exact .raise trivial
    · exact fun _ _ => .pure trivial
  | inspect rule => exact still (.bind (built rule) fun _ _ => .pure trivial)
  | seek text position => exact still (.bind (.anyAct _) fun _ _ => .pure trivial)
  | parse | run | feed => exact inert.elim

theorem later_inert (inside : s.Scoped) (later : Later Command.Inert s s') :
    s'.Scoped ∧ s.store.Extends s'.store := by
  induction later with
  | refl => exact ⟨inside, .refl _⟩
  | tail _ step ih =>
    obtain ⟨command, budget, answer, inert, taken⟩ := step
    exact ⟨ih.1.step taken, ih.2.trans (step_inert ih.1 inert taken)⟩

end Session

/-- What a rule makes is made in a later session, too, if no name was bound again and no parser run
in between. -/
theorem Rule.Makes.later {s s' : Session} {A : Store} {r : Rule} {p : Parser}
    (makes : r.Makes s A p) (grows : A.Grows s'.store) (kept : s.store.Extends s'.store)
    (names : ∀ name q, s.env.lookup name = some q → s'.env.lookup name = some q) :
    r.Makes s' s'.store p := by
  induction makes with
  | atom a => exact .atom a
  | ref bound => exact .ref (names _ _ bound)
  | lazy name watched fresh =>
    obtain ⟨called, watched', built, there, new⟩ := fresh
    -- A parser that the cell holds now it held before, since no cell was filled in between.
    obtain ⟨built', there', -⟩ := grows.lazy there
    exact .lazy name watched ⟨called, watched', built', there', fun q old => new q (kept.unforced old)⟩
  | andThen notes next _ ih => exact .andThen notes next ih
  | unary op _ ih => exact .unary op ih
  | binary op _ _ ihl ihr => exact .binary op ihl ihr
  | between _ _ _ iho ihc ihb => exact .between iho ihc ihb

namespace Session

variable {s : Session} {rule : Rule}

/-- What is bound is made by its rule. -/
theorem of_step_bind {s' : Session} {name : String} {budget : Nat} {log : List Event} {a : Answer}
    (taken : s.step budget (.bind name rule) = some (⟨log, .ok a⟩, s')) :
    ∃ p, s'.env = (name, p) :: s.env ∧ rule.Makes s s'.store p := by
  rw [step_bind] at taken
  rcases made : rule.build s.env s.store with ⟨fault | p, A⟩
  · rw [made] at taken
    cases taken
  · obtain ⟨-, -, makes⟩ := rule.build_becomes (.refl s) made
    rw [made] at taken
    cases taken
    exact ⟨p, rfl, makes⟩

/-- What has a name goes on to have it. -/
def Keeps (s s' : Session) : Prop :=
  ∀ name p, s.env.lookup name = some p → s'.env.lookup name = some p

theorem Keeps.of_env_eq {s s' : Session} (env : s'.env = s.env) : s.Keeps s' := by
  intro name p bound
  rw [env]
  exact bound

theorem Keeps.cons {s s' : Session} {name : String} {p : Parser} (new : s.env.lookup name = none)
    (env : s'.env = (name, p) :: s.env) : s.Keeps s' := by
  intro other q bound
  have apart : other ≠ name := by
    rintro rfl
    rw [new] at bound
    cases bound
  rw [env, List.lookup_cons, beq_eq_false_iff_ne.2 apart]
  exact bound

/-- A name that is bound, and not again, goes on to stand for what its rule makes. -/
theorem exists_makes_of_bind {s₁ s₂ : Session} (inside : s.Scoped) {c : String} {budget : Nat}
    {log : List Event} {a : Answer}
    (built : s.step budget (.bind c rule) = some (⟨log, .ok a⟩, s₁)) (before : s.Keeps s₁)
    (later : s₁.store.Extends s₂.store) (kept : s₁.Keeps s₂) :
    ∃ p, s₂.env.lookup c = some p ∧ rule.Makes s₂ s₂.store p := by
  obtain ⟨p, env, makes⟩ := of_step_bind built
  have inert := step_inert inside (show Command.Inert (.bind c rule) from trivial) built
  refine ⟨p, kept c p (by simp [env]), makes.later later.grows (inert.trans later) ?_⟩
  exact fun name q bound => kept name q (before name q bound)

/-- A forward parser that is defined stands for what its rule makes. -/
theorem exists_makes_of_define {s' : Session} (inside : s.Scoped) {f : String} {budget : Nat}
    {log : List Event} {a : Answer}
    (taken : s.step budget (.define f rule) = some (⟨log, .ok a⟩, s')) :
    s'.env = s.env ∧ ∃ cell label p, s.env.lookup f = some (.forward cell label) ∧
      s'.store[cell]? = some (.forward (some p)) ∧ rule.Makes s' s'.store p := by
  obtain ⟨env, -, A, -, ⟨-, fault, failed⟩ | ⟨cell, label, p, hf, built, empty, store⟩⟩ :=
    of_step_define taken
  · cases failed
  obtain ⟨leads, -, makes⟩ := rule.build_becomes (.refl s) built
  obtain ⟨target, before⟩ := inside.bound hf
  have there := leads.grown.forward_eq before
  have undefined : target = none := by simpa [Store.target?, there] using empty
  rw [undefined] at there
  have present : cell < A.size := (Array.getElem?_eq_some_iff.1 there).1
  have filled : s'.store[cell]? = some (.forward (some p)) := by
    rw [store]
    simp only [Store.fill, there]
    simp [present]
  have kept := step_inert inside (show Command.Inert (.define f rule) from trivial) taken
  have grows : A.Grows s'.store := store ▸ Store.Grows.fill A cell p
  refine ⟨env, cell, label, p, hf, filled, makes.later grows kept fun name q bound => ?_⟩
  rw [env]
  exact bound

/-- A command that runs no parser and takes no name away from a parser. -/
def Prepares (s s' : Session) : Prop := Follows Command.Inert s s' ∧ s.Keeps s'

abbrev Prepared : Session → Session → Prop := Relation.ReflTransGen Prepares

/-- Among commands that prepare, this one was performed, and it ended in no fault. -/
def Performed (command : Command) (s s' : Session) : Prop :=
  ∃ s₁ s₂ budget log a, Prepared s s₁ ∧ s₁.step budget command = some (⟨log, .ok a⟩, s₂) ∧
    s₁.Keeps s₂ ∧ Prepared s₂ s'

theorem Prepared.keeps {s s' : Session} (h : Prepared s s') : s.Keeps s' := by
  induction h with
  | refl => exact fun _ _ bound => bound
  | tail _ step ih => exact fun name p bound => step.2 name p (ih name p bound)

theorem Prepared.inert {s s' : Session} (inside : s.Scoped) (h : Prepared s s') :
    s'.Scoped ∧ s.store.Extends s'.store :=
  later_inert inside (Relation.ReflTransGen.mono (fun _ _ step => step.1) _ _ h)

theorem Performed.scoped {s s' : Session} {command : Command} (inside : s.Scoped)
    (h : Performed command s s') : s'.Scoped := by
  obtain ⟨s₁, s₂, budget, log, a, first, taken, -, rest⟩ := h
  exact (rest.inert ((first.inert inside).1.step taken)).1

/-- A name that was bound stands for what its rule makes in the end. -/
theorem Performed.exists_makes {s s' : Session} {c : String} (inside : s.Scoped)
    (h : Performed (.bind c rule) s s') :
    ∃ p, s'.env.lookup c = some p ∧ rule.Makes s' s'.store p := by
  obtain ⟨s₁, s₂, budget, log, a, first, taken, kept, rest⟩ := h
  have inside₁ := (first.inert inside).1
  exact exists_makes_of_bind inside₁ taken kept (rest.inert (inside₁.step taken)).2 rest.keeps

/-- A forward parser that was defined stands for what its rule makes in the end. -/
theorem Performed.exists_target {s s' : Session} {f : String} (inside : s.Scoped)
    (h : Performed (.define f rule) s s') :
    ∃ cell label p, s'.env.lookup f = some (.forward cell label) ∧
      s'.store[cell]? = some (.forward (some p)) ∧ rule.Makes s' s'.store p := by
  obtain ⟨s₁, s₂, budget, log, a, first, taken, kept, rest⟩ := h
  have inside₁ := (first.inert inside).1
  have extended := (rest.inert (inside₁.step taken)).2
  obtain ⟨env, cell, label, p, hf, there, makes⟩ := exists_makes_of_define inside₁ taken
  obtain ⟨target, there', keeps⟩ := extended.grows.forward there
  rw [keeps p rfl] at there'
  refine ⟨cell, label, p, rest.keeps f _ (kept f _ hf), there', ?_⟩
  exact makes.later extended.grows extended rest.keeps

end Session

end Rewind
