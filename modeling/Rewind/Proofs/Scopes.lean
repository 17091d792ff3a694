import Rewind.Proofs.Growth

namespace Rewind

/-- The parser that a cell holds. -/
def Cell.parser? : Cell → Option Parser
  | .forward target => target
  | .lazy _ _ _ built => built

/-- Forward and lazy parsers in it point to cells of their kind. -/
def Parser.Scoped (A : Store) : Parser → Prop
  | .atom _ => True
  | .both p q _ | .or p q => Scoped A p ∧ Scoped A q
  | .andThen p _ _ | .map p _ | .not p | .many p | .lookAhead p | .trace _ _ p | .label p _
  | .wrap p _ => Scoped A p
  | .forward cell _ => ∃ target, A[cell]? = some (.forward target)
  | .lazy cell _ => ∃ name watched thunk built, A[cell]? = some (.lazy name watched thunk built)

namespace Parser

theorem scoped_inherited (A : Store) : Inherited (Scoped A) where
  constant _ := trivial
  blank := trivial
  both _ hp hq := ⟨hp, hq⟩
  map _ hp := hp
  or hp hq := ⟨hp, hq⟩
  not hp := hp
  many hp := hp
  lookAhead hp := hp
  trace _ _ hp := hp
  label _ hp := hp
  wrap _ hp := hp

theorem Scoped.mono {A B : Store} (h : A.Grows B) {p : Parser} (hp : p.Scoped A) : p.Scoped B := by
  induction p with
  | atom a => trivial
  | both p q combine ihp ihq => exact ⟨ihp hp.1, ihq hp.2⟩
  | or p q ihp ihq => exact ⟨ihp hp.1, ihq hp.2⟩
  | forward cell name =>
    obtain ⟨target, there⟩ := hp
    obtain ⟨target', there', -⟩ := h.forward there
    exact ⟨target', there'⟩
  | lazy cell name =>
    obtain ⟨name, watched, thunk, built, there⟩ := hp
    obtain ⟨built', there', -⟩ := h.lazy there
    exact ⟨name, watched, thunk, built', there'⟩
  | andThen p notes next ih => exact ih hp
  | map p f ih => exact ih hp
  | not p ih => exact ih hp
  | many p ih => exact ih hp
  | lookAhead p ih => exact ih hp
  | trace tag text p ih => exact ih hp
  | label p name ih => exact ih hp
  | wrap p name ih => exact ih hp

end Parser

variable {s s' : Session} {A B : Store}

/-- A cell that is filled holds the new parser, and any other holds what it held. -/
theorem Store.of_fill {i cell : Nat} {p q : Parser} {held : Cell}
    (there : (A.fill cell p)[i]? = some held) (holds : held.parser? = some q) :
    q = p ∨ ∃ held', A[i]? = some held' ∧ held'.parser? = some q := by
  rcases Store.fill_cases there with before | ⟨-, rfl⟩ | ⟨name, watched, thunk, -, rfl⟩
  · exact .inr ⟨held, before, holds⟩
  · exact .inl (Option.some.inj holds).symm
  · exact .inl (Option.some.inj holds).symm

/-- Whatever the session knows by name or in a cell points into its store. -/
structure Session.Scoped (s : Session) : Prop where
  env : ∀ e ∈ s.env, e.2.Scoped s.store
  store : ∀ (i : Nat) (cell : Cell) (p : Parser),
    s.store[i]? = some cell → cell.parser? = some p → p.Scoped s.store

theorem Rule.Makes.scoped (env : ∀ e ∈ s.env, e.2.Scoped A) {r : Rule} {p : Parser}
    (makes : r.Makes s A p) : p.Scoped A := by
  have inherited := Parser.scoped_inherited A
  induction makes with
  | atom a => trivial
  | ref bound => exact env _ (Env.mem_of_lookup bound)
  | lazy name watched fresh =>
    obtain ⟨name, watched, built, there, -⟩ := fresh
    exact ⟨name, watched, _, built, there⟩
  | andThen notes next _ ih => exact ih
  | unary op _ ih => exact inherited.unary op ih
  | binary op _ _ ihl ihr => exact inherited.binary op ihl ihr
  | between _ _ _ iho ihc ihb => exact inherited.between iho ihc ihb

namespace Session

namespace Scoped

theorem bound (hs : s.Scoped) {name : String} {p : Parser} (bound : s.env.lookup name = some p) :
    p.Scoped s.store :=
  hs.env (name, p) (Env.mem_of_lookup bound)

theorem env_mono (hs : s.Scoped) (h : s.store.Grows A) : ∀ e ∈ s.env, e.2.Scoped A :=
  fun e mem => (hs.env e mem).mono h

/-- Runs keep it. -/
theorem grown (hs : s.Scoped) (h : s.Grown A) (cursor : Cursor) :
    Session.Scoped ⟨s.env, A, cursor⟩ := by
  refine ⟨hs.env_mono h.grows, fun i cell p there holds => ?_⟩
  rcases cell with target | ⟨name, watched, thunk, built⟩
  · exact (hs.store i _ p (h.forward there) holds).mono h.grows
  · cases (show built = some p from holds)
    rcases h.made there with old | makes
    · exact (hs.store i _ p old rfl).mono h.grows
    · exact makes.scoped (hs.env_mono h.grows)

/-- What a lazy cell gives points into the store that it leaves. -/
theorem of_force (hs : s.Scoped) (h : s.Grown A) {cell : Nat} {name : Option String}
    (points : (Parser.lazy cell name).Scoped A) {log : List Event} {p : Parser}
    (forced : Run.force s.env cell A = some (⟨log, .ok p⟩, B)) : s.Leads A B ∧ p.Scoped B := by
  obtain ⟨called, watched, thunk, built, there⟩ := points
  rcases s.old_or_fresh there with ⟨q, old⟩ | fresh
  · rw [Run.force_old h old] at forced
    cases forced
    exact ⟨.refl h, (hs.store cell _ _ old rfl).mono h.grows⟩
  · obtain ⟨log', x, D, forced', leads, -, becomes⟩ := Run.force_fresh h fresh
    cases forced.symm.trans forced'
    exact ⟨leads, becomes.2.scoped (hs.env_mono leads.grown.grows)⟩

theorem bind (hs : s.Scoped) (h : s.Grown A) {p : Parser} (hp : p.Scoped A) (name : String) :
    Session.Scoped ⟨(name, p) :: s.env, A, s.cursor⟩ := by
  refine ⟨fun e mem => ?_, (hs.grown h s.cursor).store⟩
  rcases List.mem_cons.1 mem with rfl | mem
  · exact hp
  · exact hs.env_mono h.grows e mem

theorem declare (hs : s.Scoped) (name label : String) :
    Session.Scoped ⟨(name, .forward s.store.size label) :: s.env,
      s.store.push (.forward none), s.cursor⟩ := by
  have grows := Store.Grows.push s.store (.forward none)
  refine ⟨fun e mem => ?_, fun i cell p there holds => ?_⟩
  · rcases List.mem_cons.1 mem with rfl | mem
    · exact ⟨none, Array.getElem?_push_size⟩
    · exact hs.env_mono grows e mem
  · rw [Array.getElem?_push] at there
    split at there
    · cases there
      cases holds
    · exact (hs.store i cell p there holds).mono grows

theorem fill (hs : s.Scoped) (h : s.Grown A) {p : Parser} (hp : p.Scoped A) (cell : Nat) :
    Session.Scoped ⟨s.env, A.fill cell p, s.cursor⟩ := by
  have grows := Store.Grows.fill A cell p
  refine ⟨hs.env_mono (h.grows.trans grows), fun i held q there holds => ?_⟩
  rcases Store.of_fill there holds with rfl | ⟨held', there', holds'⟩
  · exact hp.mono grows
  · exact ((hs.grown h s.cursor).store i held' q there' holds').mono grows

end Scoped

end Session

/-- The command looks at parsers and runs them, and binds or defines none. -/
def Command.Still : Command → Prop
  | .bind _ _ | .declare _ _ | .define _ _ => False
  | .defineValue _ _ | .inspect _ | .parse _ _ _ | .run _ _ _ | .seek _ _ | .feed _ => True

namespace Session

variable {command : Command} {budget : Nat}

/-- Such a command only lets the store grow, whatever was done before. -/
theorem meets_still (still : command.Still) (env : s'.env = s.env) (budget : Nat) :
    (meaning budget s' command).Meets (s.growth s.store) (fun _ => True) fun a =>
      a.2.1 = s.env := by
  have supports := s.supports_growth s.store
  have built : ∀ rule : Rule,
      (Run.ofBuild (rule.build s'.env)).Meets (s.growth s.store) (fun _ => True) fun _ => True := by
    intro rule
    rw [env]
    exact .ofBuild (supports.builds trivial)
  have ran : ∀ (p : Parser) (c : Cursor),
      (p.run s'.env budget c).Meets (s.growth s.store) (fun _ => True) fun _ => True := by
    intro p c
    rw [env]
    exact supports.run_meets budget trivial c
  cases command with
  | defineValue name value =>
    refine .bind (built (.ref name)) fun p _ => ?_
    refine .bind (P := fun _ => True) (.bind (meets_undefinedCell p) fun _ _ => ?_) fun _ _ => .pure env
    exact .raise trivial
  | inspect rule => exact .bind (built rule) fun _ _ => .pure env
  | parse rule text position =>
    refine .bind (built rule) fun p _ => .bind (.anyAct _) fun c _ => ?_
    exact .bind (ran p c) fun _ _ => .pure env
  | run rule text requireEnd =>
    refine .bind (built rule) fun p _ => .bind (P := fun _ => True) ?_ fun _ _ => .pure env
    exact .bind (ran p _) fun _ _ => .pure trivial
  | seek text position => exact .bind (.anyAct _) fun _ _ => .pure env
  | feed rule =>
    exact .bind (built rule) fun p _ => .bind (ran p _) fun _ _ => .pure env
  | bind | declare | define => exact still.elim

theorem step_bind (s : Session) (budget : Nat) (name : String) (rule : Rule) :
    s.step budget (.bind name rule) =
      some (match rule.build s.env s.store with
        | (.error fault, A) => (⟨[], .error fault⟩, ⟨s.env, A, s.cursor⟩)
        | (.ok p, A) => (.ok (.bound p.name), ⟨(name, p) :: s.env, A, s.cursor⟩)) := by
  rcases h : rule.build s.env s.store with ⟨fault | p, A⟩
  · simp [step, meaning, Bind.bind, Run.bind, Run.ofBuild, Logged.ofExcept, h]
  · simp [step, meaning, Bind.bind, Run.bind, Run.ofBuild, Logged.ofExcept, h, Pure.pure, Run.pure,
      Logged.ok, Logged.after]

/-- Only a forward parser with an empty cell can be defined. -/
theorem define_cases (f p : Parser) (A : Store) :
    (∃ cell label, f = .forward cell label ∧ A.target? cell = none ∧
      f.define p A = some (⟨[.defined f.name p.name], .ok ()⟩, A.fill cell p)) ∨
    ∃ fault, f.define p A = some (⟨[], .error fault⟩, A) := by
  have refused : ∀ fault, f.undefinedCell A = some (.raise fault, A) →
      ∃ fault, f.define p A = some (⟨[], .error fault⟩, A) :=
    fun fault h => ⟨fault, Run.bind_of_error h⟩
  cases f with
  | forward cell label =>
    rcases empty : A.target? cell with _ | q
    · have free : (Parser.forward cell label).undefinedCell A = some (⟨[], .ok cell⟩, A) := by
        simp only [Parser.undefinedCell, empty]
        rfl
      exact .inl ⟨cell, label, rfl, empty, (Run.bind_of_ok free).trans rfl⟩
    · refine .inr (refused (.alreadyDefined (Parser.forward cell label).name) ?_)
      simp only [Parser.undefinedCell, empty]
      rfl
  | _ => exact .inr (refused _ rfl)

/-- A definition builds its rule, unless the name is unbound, and fills the cell if that is there and
empty. -/
theorem of_step_define {name : String} {rule : Rule} {answer : Logged Event Answer}
    (taken : s.step budget (.define name rule) = some (answer, s')) :
    s'.env = s.env ∧ s'.cursor = s.cursor ∧
      ∃ A, (A = s.store ∨ ∃ x, rule.build s.env s.store = (x, A)) ∧
        (s'.store = A ∧ (∃ fault, answer.result = .error fault) ∨
          ∃ cell label p, s.env.lookup name = some (.forward cell label) ∧
            rule.build s.env s.store = (.ok p, A) ∧ A.target? cell = none ∧
            s'.store = A.fill cell p) := by
  rcases bound : s.env.lookup name with _ | f
  · have found : Rule.lookup s.env name s.store = (.error (.unbound name), s.store) := by
      simp only [Rule.lookup, bound]
      rfl
    simp only [step, meaning, Run.bind_of_error (Run.ofBuild_eq found)] at taken
    cases taken
    exact ⟨rfl, rfl, s.store, .inl rfl, .inl ⟨rfl, _, rfl⟩⟩
  have found : Rule.lookup s.env name s.store = (.ok f, s.store) := by
    simp only [Rule.lookup, bound]
    rfl
  rcases built : rule.build s.env s.store with ⟨fault | p, A⟩
  · simp only [step, meaning, Run.bind_of_ok (Run.ofBuild_eq found),
      Run.bind_of_error (Run.ofBuild_eq built)] at taken
    cases taken
    exact ⟨rfl, rfl, A, .inr ⟨_, rfl⟩, .inl ⟨rfl, _, rfl⟩⟩
  · rcases define_cases f p A with ⟨cell, label, rfl, empty, defined⟩ | ⟨fault, refused⟩
    · simp only [step, meaning, Run.bind_of_ok (Run.ofBuild_eq found),
        Run.bind_of_ok (Run.ofBuild_eq built), Run.bind_of_ok defined] at taken
      cases taken
      exact ⟨rfl, rfl, A, .inr ⟨_, rfl⟩, .inr ⟨cell, label, p, rfl, rfl, empty, rfl⟩⟩
    · simp only [step, meaning, Run.bind_of_ok (Run.ofBuild_eq found),
        Run.bind_of_ok (Run.ofBuild_eq built), Run.bind_of_error refused] at taken
      cases taken
      exact ⟨rfl, rfl, A, .inr ⟨_, rfl⟩, .inl ⟨rfl, _, rfl⟩⟩

theorem of_step_still {answer : Logged Event Answer} (still : command.Still)
    (env : s'.env = s.env) (grown : s.Grown s'.store) {s'' : Session}
    (taken : s'.step budget command = some (answer, s'')) :
    s''.env = s.env ∧ s.Grown s''.store := by
  have kept := step_allows (meets_still still env budget) ⟨grown.grows, grown⟩ taken
  refine ⟨?_, kept.1.grown⟩
  have h := kept.2
  split at h
  · rw [h.2.1, env]
  · exact h

/-- Any number of such commands. -/
theorem Later.grown (h : Later Command.Still s s') : s'.env = s.env ∧ s.Grown s'.store := by
  induction h with
  | refl => exact ⟨rfl, .refl s⟩
  | tail _ step ih =>
    obtain ⟨command, budget, answer, still, taken⟩ := step
    exact of_step_still still ih.1 ih.2 taken

/-- Commands of any kind keep all parsers pointing into the store. -/
theorem Scoped.step (hs : s.Scoped) {answer : Logged Event Answer}
    (taken : s.step budget command = some (answer, s')) : s'.Scoped := by
  by_cases still : command.Still
  · obtain ⟨env, grown⟩ := of_step_still still rfl (.refl s) taken
    have kept := hs.grown grown s'.cursor
    rwa [← env] at kept
  cases command with
  | bind name rule =>
    rw [step_bind] at taken
    rcases built : rule.build s.env s.store with ⟨fault | p, A⟩
    · rw [built] at taken
      cases taken
      exact hs.grown (rule.build_becomes (.refl s) built).1.grown s.cursor
    · obtain ⟨leads, -, makes⟩ := rule.build_becomes (.refl s) built
      rw [built] at taken
      cases taken
      exact hs.bind leads.grown (makes.scoped (hs.env_mono leads.grows)) name
  | declare name label =>
    cases taken
    exact hs.declare name label
  | define name rule =>
    obtain ⟨env, cursor, A, built, ⟨store, -⟩ | ⟨cell, label, p, -, built, -, store⟩⟩ :=
      of_step_define taken
    · have grown : s.Grown A := by
        rcases built with rfl | ⟨x, built⟩
        · exact .refl s
        · exact (rule.build_becomes (.refl s) built).1.grown
      have kept := hs.grown grown s'.cursor
      rwa [← env, ← store] at kept
    · obtain ⟨leads, -, makes⟩ := rule.build_becomes (.refl s) built
      have kept := hs.fill leads.grown (makes.scoped (hs.env_mono leads.grows)) cell
      rwa [← env, ← store, ← cursor] at kept
  | defineValue | inspect | parse | run | seek | feed => exact absurd trivial still

theorem Reached.scoped {allowed : Command → Prop} (h : s.Reached allowed) : s.Scoped := by
  induction h with
  | start => exact ⟨fun _ h => (nomatch h), fun _ _ _ h => (nomatch h)⟩
  | step _ _ taken ih => exact ih.step taken

end Session

end Rewind
