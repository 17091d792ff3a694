import Rewind.Proofs.Equations
import Rewind.Proofs.Inert

namespace Rewind

/-- One look into a lazy cell. -/
inductive Use where
  /-- The cell held the parser. -/
  | found (cell : Nat) (p : Parser)
  /-- The cell was empty. Its thunk was run and made the parser, which the cell takes. -/
  | built (cell : Nat) (p : Parser)
  /-- The cell was empty. Its thunk was run and raised. -/
  | raised (cell : Nat) (fault : Fault)

/-- What is recorded when a thunk is run. -/
def Event.ofThunk (name : Option String) (watched : Bool) : List Event :=
  if watched then [.filled name] else []

/-- The thunk whose run the record tells of. -/
def Event.thunk? : Event → Option (Option String)
  | .filled thunk => some thunk
  | _ => none

def Use.cell : Use → Nat
  | found cell _ | built cell _ | raised cell _ => cell

/-- A run that lists uses. -/
def Using (α : Type) := Store → Option ((Logged Event α × Store) × List Use)

namespace Using

variable {α β : Type}

def pure (a : α) : Using α := fun store => some ((.ok a, store), [])

def bind (x : Using α) (f : α → Using β) : Using β := fun store =>
  match x store with
  | none => none
  | some ((⟨log, .error fault⟩, store), uses) => some ((⟨log, .error fault⟩, store), uses)
  | some ((⟨log, .ok a⟩, store), uses) =>
    (f a store).map fun last => ((last.1.1.after log, last.1.2), uses ++ last.2)

instance : Monad Using where
  pure := pure
  bind := bind

def spent : Using α := fun _ => none

/-- A run that looks into no lazy cell. -/
def lift (x : Run α) : Using α := fun store => (x store).map fun last => (last, [])

def settle (start : Cursor) (x : Using Result) : Using Result := do
  let r ← x
  return r.settle start

/-- What is used when a lazy cell of the store comes to `x`. -/
def looked (store : Store) (cell : Nat) (x : Except Fault Parser) : List Use :=
  match store[cell]?, x with
  | some (.lazy _ _ _ (some p)), _ => [.found cell p]
  | some (.lazy _ _ _ none), .ok p => [.built cell p]
  | some (.lazy _ _ _ none), .error fault => [.raised cell fault]
  | _, _ => []

def force (env : Env) (cell : Nat) : Using Parser := fun store =>
  (Run.force env cell store).map fun last => (last, looked store cell last.1.result)

def rounds (round : Cursor → Using Result) (stop : Cursor → Event) :
    Nat → Cursor → Using (List Value × Cursor)
  | 0, _ => spent
  | budget + 1, c => do
    let r ← round c
    if r.ok then
      if idle c r.cursor then
        lift (.write (stop c))
        return ([], c)
      else
        let (values, d) ← rounds round stop budget r.cursor
        return (r.value :: values, d)
    else return ([], c)

/-- The ways in which a look into a lazy cell may end: in an answer or a fault, with a use, and in a
store. -/
inductive Looks (env : Env) (cell : Nat) (A : Store) :
    Logged Event Parser → List Use → Store → Prop
  | found {name : Option String} {watched : Bool} {thunk : Rule} {p : Parser}
      (there : A[cell]? = some (.lazy name watched thunk (some p))) :
      Looks env cell A (.ok p) [.found cell p] A
  | built {name : Option String} {watched : Bool} {thunk : Rule} {p : Parser} {B : Store}
      (empty : A[cell]? = some (.lazy name watched thunk none))
      (built : thunk.build env A = (.ok p, B)) :
      Looks env cell A ⟨Event.ofThunk name watched, .ok p⟩ [.built cell p] (B.fill cell p)
  | raised {name : Option String} {watched : Bool} {thunk : Rule} {fault : Fault} {B : Store}
      (empty : A[cell]? = some (.lazy name watched thunk none))
      (raised : thunk.build env A = (.error fault, B)) :
      Looks env cell A ⟨Event.ofThunk name watched, .error fault⟩ [.raised cell fault] B
  | missing : Looks env cell A (.raise (.unbound "")) [] A

theorem looks_of_force {env : Env} {cell : Nat} {A : Store}
    {last : (Logged Event Parser × Store) × List Use} (forced : force env cell A = some last) :
    Looks env cell A last.1.1 last.2 last.1.2 := by
  obtain ⟨⟨x, B⟩, ran, rfl⟩ := Option.map_eq_some_iff.1 forced
  unfold Run.force at ran
  split at ran
  · next there =>
    cases ran
    simp only [looked, there]
    exact .found there
  · next thunk empty =>
    rcases built : thunk.build env A with ⟨fault | p, D⟩
    · rw [built] at ran
      cases ran
      simp only [looked, empty]
      exact .raised empty built
    · rw [built] at ran
      cases ran
      simp only [looked, empty]
      exact .built empty built
  · next full empty =>
    cases ran
    have unused : looked A cell (.error (.unbound "")) = [] := by
      unfold looked
      split
      · next p there => exact absurd there (full _ _ _ _)
      · next failed => cases failed
      · next there _ => exact absurd there (empty _ _ _)
      · rfl
    simp only [Logged.raise, unused]
    exact .missing

/-- The run without its list. -/
def forget (x : Using α) : Run α := fun store => (x store).map Prod.fst

theorem forget_bind (x : Using α) (f : α → Using β) :
    (x >>= f).forget = x.forget >>= fun a => (f a).forget := by
  funext store
  show (x.bind f store).map Prod.fst = _
  unfold bind
  rcases hx : x store with _ | ⟨⟨⟨log, fault | a⟩, store'⟩, uses⟩
  · rw [Run.bind_of_none (show x.forget store = none by simp [forget, hx])]
    rfl
  · rw [Run.bind_of_error (show x.forget store = some (⟨log, .error fault⟩, store') by
      simp [forget, hx])]
    rfl
  · rw [Run.bind_of_ok (show x.forget store = some (⟨log, .ok a⟩, store') by simp [forget, hx])]
    simp only [forget, Option.map_map]
    rfl

theorem forget_pure (a : α) : (Pure.pure a : Using α).forget = Pure.pure a := rfl

theorem forget_lift (x : Run α) : (lift x).forget = x := by
  funext store
  show ((x store).map _).map _ = x store
  rcases x store with _ | last
  · rfl
  · rfl

theorem forget_force (env : Env) (cell : Nat) : (force env cell).forget = Run.force env cell := by
  funext store
  show ((Run.force env cell store).map _).map _ = Run.force env cell store
  rcases Run.force env cell store with _ | last
  · rfl
  · rfl

theorem forget_settle (start : Cursor) (x : Using Result) :
    (settle start x).forget = x.forget.settle start := by
  rw [Run.settle_eq_bind]
  exact forget_bind x _

theorem forget_ite (c : Prop) [Decidable c] (x y : Using α) :
    (if c then x else y).forget = if c then x.forget else y.forget := by
  split
  · rfl
  · rfl

theorem forget_rounds (round : Cursor → Using Result) (stop : Cursor → Event) (budget : Nat)
    (c : Cursor) :
    (rounds round stop budget c).forget = Run.rounds (fun d => (round d).forget) stop budget c := by
  induction budget generalizing c with
  | zero => rfl
  | succ budget ih =>
    simp only [rounds, Run.rounds, forget_bind, forget_ite, forget_lift, forget_pure, ih]

end Using

namespace Parser

open Using in
/-- One step of a run, as `step` takes it. -/
def stepUsing (run : Parser → Cursor → Using Result) (budget : Nat) (env : Env) :
    Parser → Cursor → Using Result
  | atom a, c => lift (.ofAct (a.run c))
  | andThen p notes next, c => do
    let r ← run p c
    if r.ok then
      lift (.writeNotes (notes r))
      let q ← lift (.ofBuild ((next r).build env))
      run q r.cursor
    else return r
  | both p q combine, c => do
    let r ← run p c
    if r.ok then
      let s ← run q r.cursor
      if s.ok then
        let value ← lift (.ofAct (combine r.value s.value))
        return .success value s.cursor
      else return s
    else return r
  | map p f, c => do
    let r ← run p c
    if r.ok then
      let value ← lift (.ofAct (f r.value >>= Value.asConstant))
      return .success value r.cursor
    else return r
  | or p q, c => do
    let r ← run p c
    if r.ok then return r else run q c
  | not p, c => do
    let r ← run p c
    return if r.ok then .failure c else .success .none c
  | many p, c => do
    let x ← Using.rounds (run p) (fun d => .stopped p.name d.position) budget c
    return .success (.list x.1) x.2
  | lookAhead p, c => do
    let r ← run p c
    return if r.ok then .success r.value c else r
  | trace tag text p, c => do
    lift (.write (.entered tag text c))
    let r ← run p c
    lift (.write (r.traceEnd tag text c))
    return r
  | label p _, c => run p c
  | wrap p _, c => run p c
  | forward cell given, c => do
    let p ← lift (.target cell (forward cell given).name)
    run p c
  | lazy cell _, c => do
    let p ← force env cell
    run p c

def runUsing (env : Env) : Nat → Parser → Cursor → Using Result
  | 0, _, _ => .spent
  | budget + 1, p, c => .settle c (stepUsing (runUsing env budget) budget env p c)

theorem forget_stepUsing (run : Parser → Cursor → Using Result) (budget : Nat) (env : Env)
    (p : Parser) (c : Cursor) :
    (stepUsing run budget env p c).forget =
      step (fun p c => (run p c).forget) budget env p c := by
  cases p with
  | many p =>
    -- The loop of a step gathers what it has found so far; the rounds that list uses do not.
    simp only [stepUsing, step, Run.repeated_nil, Using.forget_bind, Using.forget_rounds,
      Using.forget_pure]
  | _ =>
    simp only [stepUsing, step, Using.forget_bind, Using.forget_ite, Using.forget_lift,
      Using.forget_pure, Using.forget_force]

/-- The runs that list uses are the runs of the parser. -/
theorem forget_runUsing (env : Env) (budget : Nat) (p : Parser) (c : Cursor) :
    (runUsing env budget p c).forget = run env budget p c := by
  induction budget generalizing p c with
  | zero => rfl
  | succ budget ih =>
    simp only [runUsing, run, Using.forget_settle, forget_stepUsing, ih]

end Parser

namespace Session

open Using in
/-- What a command answers, as `meaning` has it. -/
def meaningUsing (budget : Nat) (s : Session) : Command → Using (Answer × Env × Cursor)
  | .parse rule text position => do
    let p ← lift (.ofBuild (rule.build s.env))
    let c ← lift (.ofAct (Logged.ofExcept (Cursor.at? text position)))
    let r ← p.runUsing s.env budget c
    return (.parsed p.name r, s.env, s.cursor)
  | .run rule text requireEnd => do
    let p ← lift (.ofBuild (rule.build s.env))
    let r ← p.runUsing s.env budget (.start text)
    return (.ran p.name (Report.ofResult requireEnd r), s.env, s.cursor)
  | .feed rule => do
    let p ← lift (.ofBuild (rule.build s.env))
    let r ← p.runUsing s.env budget s.cursor
    return (.fed r, s.env, r.cursor)
  | command => lift (meaning 0 s command)

theorem forget_meaningUsing (budget : Nat) (s : Session) (command : Command) :
    (meaningUsing budget s command).forget = meaning budget s command := by
  cases command with
  | parse | feed =>
    simp only [meaningUsing, meaning, Using.forget_bind, Using.forget_lift, Using.forget_pure,
      Parser.forget_runUsing]
  | run =>
    simp only [meaningUsing, meaning, Parser.runText, Using.forget_bind, Using.forget_lift,
      Using.forget_pure, Parser.forget_runUsing, LawfulMonad.bind_assoc, LawfulMonad.pure_bind]
  | _ => exact Using.forget_lift _

/-- The uses of lazy cells in the course of a command that ends. -/
def uses (budget : Nat) (s : Session) (command : Command) : List Use :=
  ((meaningUsing budget s command s.store).map Prod.snd).getD []

/-- Commands of any kind, each ended in any way, lead from one session to another, with these uses of
lazy cells in order. -/
inductive Used : Session → List Use → Session → Prop
  | refl (s : Session) : Used s [] s
  | tail {s s' s'' : Session} {uses : List Use} {command : Command} {budget : Nat}
      {answer : Logged Event Answer} (before : Used s uses s')
      (taken : s'.step budget command = some (answer, s'')) :
      Used s (uses ++ s'.uses budget command) s''

variable {s s' : Session} {command : Command} {budget : Nat} {answer : Logged Event Answer}

/-- A command that runs no parser uses no lazy cell. -/
theorem uses_of_inert (inert : command.Inert) : s.uses budget command = [] := by
  have lifted : ∀ x : Run (Answer × Env × Cursor),
      ((Using.lift x s.store).map Prod.snd).getD [] = [] := by
    intro x
    unfold Using.lift
    rcases x s.store with _ | last
    · rfl
    · rfl
  cases command with
  | parse | run | feed => exact inert.elim
  | _ => exact lifted _

/-- Behind a command that ends there is a run with its list. -/
theorem exists_meaningUsing (taken : s.step budget command = some (answer, s')) :
    ∃ x : Logged Event (Answer × Env × Cursor),
      meaningUsing budget s command s.store = some ((x, s'.store), s.uses budget command) ∧
        x.log = answer.log := by
  rw [step_eq_conclude, Option.map_eq_some_iff] at taken
  obtain ⟨⟨x, store⟩, meant, concluded⟩ := taken
  rw [← forget_meaningUsing, Using.forget, Option.map_eq_some_iff] at meant
  obtain ⟨⟨last, listed⟩, ran, rfl⟩ := meant
  have left : s'.store = store ∧ answer.log = x.log := by
    obtain ⟨log, fault | ⟨a, env, cursor⟩⟩ := x
    · cases concluded
      exact ⟨rfl, rfl⟩
    · cases concluded
      exact ⟨rfl, rfl⟩
  rw [left.1]
  exact ⟨x, by rw [ran, uses, ran]; rfl, left.2.symm⟩

end Session

/-- What is told of a run by the store it begins with, its records, its uses of lazy cells and the store
that it leaves. It is put together from what is told of the parts of the run. -/
structure Account where
  holds : Store → List Event → List Use → Store → Prop
  nil (A : Store) : holds A [] [] A
  append {A B D : Store} {log log' : List Event} {uses uses' : List Use} (first : holds A log uses B)
    (second : holds B log' uses' D) : holds A (log ++ log') (uses ++ uses') D
  write {event : Event} (A : Store) (other : event.thunk? = none) : holds A [event] [] A
  build (env : Env) (A : Store) (r : Rule) : holds A [] [] (r.build env A).2
  force {env : Env} {cell : Nat} {A B : Store} {x : Logged Event Parser} {uses : List Use}
    (looks : Using.Looks env cell A x uses B) : holds A x.log uses B

namespace Using

variable {α β : Type} {K : Account}

/-- The account is true of the run, from whatever store it begins. -/
def Meets (K : Account) (x : Using α) : Prop :=
  ∀ A last uses, x A = some (last, uses) → K.holds A last.1.log uses last.2

namespace Meets

theorem pure (a : α) : Meets K (Pure.pure a) := by
  intro A last uses h
  cases h
  exact K.nil A

theorem spent : Meets K (spent : Using α) := by
  intro A last uses h
  cases h

theorem bind {x : Using α} {f : α → Using β} (first : Meets K x) (second : ∀ a, Meets K (f a)) :
    Meets K (x >>= f) := by
  intro A last uses h
  replace h : x.bind f A = some (last, uses) := h
  unfold Using.bind at h
  rcases hx : x A with _ | ⟨⟨⟨log, fault | a⟩, B⟩, listed⟩
  · rw [hx] at h
    cases h
  · rw [hx] at h
    cases h
    exact first _ _ _ hx
  · rw [hx] at h
    obtain ⟨⟨last', listed'⟩, hf, joined⟩ := Option.map_eq_some_iff.1 h
    cases joined
    exact K.append (first _ _ _ hx) (second _ _ _ _ hf)

theorem settle {x : Using Result} (h : Meets K x) (start : Cursor) : Meets K (settle start x) :=
  .bind h fun _ => .pure _

theorem lift {x : Run α} (h : ∀ A last, x A = some last → K.holds A last.1.log [] last.2) :
    Meets K (lift x) := by
  intro A last uses ran
  obtain ⟨last', hx, joined⟩ := Option.map_eq_some_iff.1 ran
  cases joined
  exact h A _ hx

theorem write {event : Event} (other : event.thunk? = none) : Meets K (.lift (.write event)) :=
  .lift fun A _ h => by
    cases h
    exact K.write A other

theorem notes (A : Store) (notes : List Note) : K.holds A (notes.map .note) [] A := by
  induction notes with
  | nil => exact K.nil A
  | cons note notes ih => exact K.append (K.write A rfl) ih

theorem writeNotes (notes : List Note) : Meets K (.lift (.writeNotes notes)) :=
  .lift fun A _ h => by
    cases h
    exact Meets.notes A notes

theorem ofAct (x : Act α) : Meets K (.lift (.ofAct x)) :=
  .lift fun A _ h => by
    cases h
    exact Meets.notes A x.log

theorem ofBuild (env : Env) (r : Rule) : Meets K (.lift (.ofBuild (r.build env))) :=
  .lift fun A _ h => by
    cases h
    exact K.build env A r

theorem target (cell : Nat) (name : String) : Meets K (.lift (.target cell name)) := by
  refine .lift fun A last h => ?_
  unfold Run.target at h
  split at h
  · cases h
    exact K.nil A
  · cases h
    exact K.nil A

theorem force (env : Env) (cell : Nat) : Meets K (force env cell) := by
  intro A last uses h
  exact K.force (looks_of_force h)

theorem rounds {round : Cursor → Using Result} {stop : Cursor → Event}
    (each : ∀ c, Meets K (round c)) (other : ∀ c, (stop c).thunk? = none) (budget : Nat) (c : Cursor) :
    Meets K (rounds round stop budget c) := by
  induction budget generalizing c with
  | zero => exact .spent
  | succ budget ih =>
    refine .bind (each c) fun r => ?_
    split
    · split
      · exact .bind (.write (other c)) fun _ => .pure _
      · exact .bind (ih r.cursor) fun _ => .pure _
    · exact .pure _

end Meets

end Using

namespace Parser

variable {K : Account}

/-- A step of which each part has a true account has one, too. -/
theorem stepUsing_meets {run : Parser → Cursor → Using Result} (each : ∀ p c, (run p c).Meets K)
    (budget : Nat) (env : Env) (p : Parser) (c : Cursor) :
    (stepUsing run budget env p c).Meets K := by
  cases p with
  | atom a => exact .ofAct _
  | andThen p notes next =>
    refine .bind (each p c) fun r => ?_
    split
    · refine .bind (.writeNotes _) fun _ => .bind (.ofBuild env _) fun q => ?_
      exact each q r.cursor
    · exact .pure r
  | both p q combine =>
    refine .bind (each p c) fun r => ?_
    split
    · refine .bind (each q r.cursor) fun s => ?_
      split
      · exact .bind (.ofAct _) fun _ => .pure _
      · exact .pure s
    · exact .pure r
  | map p f =>
    refine .bind (each p c) fun r => ?_
    split
    · exact .bind (.ofAct _) fun _ => .pure _
    · exact .pure r
  | or p q =>
    refine .bind (each p c) fun r => ?_
    split
    · exact .pure r
    · exact each q c
  | not p => exact .bind (each p c) fun _ => .pure _
  | many p => exact .bind (.rounds (each p) (fun _ => rfl) budget c) fun _ => .pure _
  | lookAhead p => exact .bind (each p c) fun _ => .pure _
  | trace tag text p =>
    have ended : ∀ r : Result, (r.traceEnd tag text c).thunk? = none := by
      intro r
      unfold Result.traceEnd
      split
      · rfl
      · rfl
    exact .bind (.write rfl) fun _ => .bind (each p c) fun r => .bind (.write (ended r)) fun _ => .pure r
  | label p name => exact each p c
  | wrap p name => exact each p c
  | forward cell name => exact .bind (.target cell _) fun p => each p c
  | lazy cell name => exact .bind (.force env cell) fun p => each p c

theorem runUsing_meets (env : Env) (budget : Nat) (p : Parser) (c : Cursor) :
    (runUsing env budget p c).Meets K := by
  induction budget generalizing p c with
  | zero => exact .spent
  | succ budget ih => exact .settle (stepUsing_meets ih budget env p c) c

end Parser

/-- An account is true of every command that runs a parser. -/
theorem Session.account_of_step (K : Account) {s s' : Session} {command : Command}
    (running : ¬command.Inert) {budget : Nat} {answer : Logged Event Answer}
    (taken : s.step budget command = some (answer, s')) :
    K.holds s.store answer.log (s.uses budget command) s'.store := by
  have met : (meaningUsing budget s command).Meets K := by
    have ran := Parser.runUsing_meets (K := K) s.env budget
    cases command with
    | parse rule text position =>
      refine .bind (.ofBuild s.env rule) fun p => .bind (.ofAct _) fun c => ?_
      exact .bind (ran p c) fun _ => .pure _
    | run rule text requireEnd =>
      exact .bind (.ofBuild s.env rule) fun p => .bind (ran p _) fun _ => .pure _
    | feed rule => exact .bind (.ofBuild s.env rule) fun p => .bind (ran p _) fun _ => .pure _
    | _ => exact absurd trivial running
  obtain ⟨x, meant, log⟩ := exists_meaningUsing taken
  rw [← log]
  exact met _ _ _ meant

end Rewind
