import Rewind.Proofs.Uses
import Rewind.Rule.Characters
import Rewind.Rule.Combinators

namespace Rewind

namespace Store

/-- The parser that a lazy cell holds. -/
def held (A : Store) (cell : Nat) : Option Parser :=
  match A[cell]? with
  | some (.lazy _ _ _ built) => built
  | _ => none

variable {A B : Store} {cell : Nat}

theorem held_of_lazy {name : Option String} {watched : Bool} {thunk : Rule} {built : Option Parser}
    (there : A[cell]? = some (.lazy name watched thunk built)) : A.held cell = built := by
  simp only [held, there]

theorem held_eq_some_iff {p : Parser} :
    A.held cell = some p ↔
      ∃ name watched thunk, A[cell]? = some (.lazy name watched thunk (some p)) := by
  unfold held
  split
  · next name watched thunk built there =>
    rw [there]
    constructor
    · rintro rfl
      exact ⟨name, watched, thunk, rfl⟩
    · rintro ⟨_, _, _, same⟩
      cases same
      rfl
  · next other =>
    constructor
    · intro h
      cases h
    · rintro ⟨name, watched, thunk, there⟩
      exact absurd there (other name watched thunk (some p))

/-- A store that has grown, while no lazy cell was filled, holds the same. -/
theorem Extends.held_eq (h : A.Extends B) (cell : Nat) : B.held cell = A.held cell := by
  ext p
  rw [held_eq_some_iff, held_eq_some_iff]
  constructor
  · rintro ⟨name, watched, thunk, there⟩
    exact ⟨name, watched, thunk, h.unforced there⟩
  · rintro ⟨name, watched, thunk, there⟩
    exact ⟨name, watched, thunk, h.grows.built there⟩

theorem held_fill_of_ne {other : Nat} (apart : other ≠ cell) (p : Parser) :
    (A.fill other p).held cell = A.held cell := by
  have same : (A.fill other p)[cell]? = A[cell]? := by
    unfold fill
    split
    · exact Array.getElem?_setIfInBounds_ne apart
    · exact Array.getElem?_setIfInBounds_ne apart
    · rfl
  simp only [held, same]

theorem getElem?_fill {name : Option String} {watched : Bool} {thunk : Rule}
    (empty : A[cell]? = some (.lazy name watched thunk none)) (p : Parser) :
    (A.fill cell p)[cell]? = some (.lazy name watched thunk (some p)) := by
  have inside : cell < A.size := (Array.getElem?_eq_some_iff.1 empty).1
  simp only [fill, empty, Array.getElem?_setIfInBounds_self, inside, if_true]

end Store

/-- Building fills no cell. -/
theorem Rule.empty_of_build {env : Env} {A B : Store} {r thunk : Rule} {x : Except Fault Parser}
    {cell : Nat} {name : Option String} {watched : Bool}
    (built : r.build env A = (x, B)) (empty : A[cell]? = some (.lazy name watched thunk none)) :
    B[cell]? = some (.lazy name watched thunk none) := by
  have kept := extends_of_build built
  obtain ⟨built', there, -⟩ := kept.grows.lazy empty
  have held : built' = none := by
    rw [← Store.held_of_lazy there, kept.held_eq, Store.held_of_lazy empty]
  rw [there, held]

/-- What a look into some lazy cell means for this one. -/
inductive Use.Turns (cell : Nat) : Option Parser → Use → Option Parser → Prop
  | elsewhere {held : Option Parser} {use : Use} (apart : use.cell ≠ cell) : Turns cell held use held
  | raised (fault : Fault) : Turns cell none (.raised cell fault) none
  | built (p : Parser) : Turns cell none (.built cell p) (some p)
  | found (p : Parser) : Turns cell (some p) (.found cell p) (some p)

/-- What the cell holds before the uses and after them. -/
inductive Use.History (cell : Nat) : Option Parser → List Use → Option Parser → Prop
  | nil (held : Option Parser) : History cell held [] held
  | cons {held held' held'' : Option Parser} {use : Use} {uses : List Use}
      (first : use.Turns cell held held') (rest : History cell held' uses held'') :
      History cell held (use :: uses) held''

namespace Use

variable {cell : Nat} {held held' : Option Parser} {uses : List Use}

/-- The uses of one cell. -/
def among (cell : Nat) (uses : List Use) : List Use := uses.filter (·.cell == cell)

theorem among_here {use : Use} (here : use.cell = cell) :
    among cell (use :: uses) = use :: among cell uses :=
  List.filter_cons_of_pos (by simpa using here)

theorem among_elsewhere {use : Use} (apart : use.cell ≠ cell) :
    among cell (use :: uses) = among cell uses :=
  List.filter_cons_of_neg (by simpa using apart)

namespace History

theorem append {held'' : Option Parser} {uses' : List Use} (h : History cell held uses held')
    (h' : History cell held' uses' held'') : History cell held (uses ++ uses') held'' := by
  induction h with
  | nil => exact h'
  | cons first _ ih => exact .cons first (ih h')

/-- What the cell holds it goes on to hold, and each use finds it. -/
theorem of_filled (h : History cell held uses held') {p : Parser} (filled : held = some p) :
    held' = some p ∧ ∃ n, among cell uses = List.replicate n (.found cell p) := by
  induction h with
  | nil => exact ⟨filled, 0, rfl⟩
  | cons first _ ih =>
    cases first with
    | elsewhere apart =>
      rw [among_elsewhere apart]
      exact ih filled
    | raised | built => cases filled
    | found p =>
      cases filled
      obtain ⟨kept, n, found⟩ := ih rfl
      refine ⟨kept, n + 1, ?_⟩
      rw [among_here (show (Use.found cell p).cell = cell from rfl), found, List.replicate_succ]

end History

/-- The uses of a cell that was empty before them: those whose thunk raised and, if there is one, that
whose thunk did not, with those behind it, which found what it made. -/
def Once (cell : Nat) (uses : List Use) : Option Parser → Prop
  | none => ∃ faults : List Fault, among cell uses = faults.map (.raised cell)
  | some p => ∃ (faults : List Fault) (n : Nat),
      among cell uses = faults.map (.raised cell) ++ .built cell p :: List.replicate n (.found cell p)

theorem History.once (h : History cell held uses held') (empty : held = none) :
    Once cell uses held' := by
  induction h with
  | nil =>
    subst empty
    exact ⟨[], rfl⟩
  | @cons _ _ held'' _ _ first rest ih =>
    cases first with
    | elsewhere apart =>
      have later := ih empty
      unfold Once at later ⊢
      rwa [among_elsewhere apart]
    | raised fault =>
      have here : ∀ uses, among cell (raised cell fault :: uses) = raised cell fault :: among cell uses :=
        fun _ => among_here rfl
      have later := ih rfl
      rcases held'' with _ | p
      · obtain ⟨faults, raised⟩ := later
        exact ⟨fault :: faults, by rw [here, raised, List.map_cons]⟩
      · obtain ⟨faults, n, raised⟩ := later
        exact ⟨fault :: faults, n, by rw [here, raised, List.map_cons, List.cons_append]⟩
    | built p =>
      -- From here on the cell is filled, and the induction is of no more use.
      obtain ⟨rfl, n, found⟩ := rest.of_filled rfl
      refine ⟨[], n, ?_⟩
      rw [among_here (show (built cell p).cell = cell from rfl), found, List.map_nil, List.nil_append]
    | found => cases empty

end Use

/-- One use is a turn of its own cell and of no other. -/
theorem Use.History.of_turn {cell : Nat} {A B : Store} {use : Use} (other : Nat) (here : use.cell = other)
    (turn : use.Turns other (A.held other) (B.held other))
    (elsewhere : other ≠ cell → B.held cell = A.held cell) :
    Use.History cell (A.held cell) [use] (B.held cell) := by
  refine .cons ?_ (.nil _)
  by_cases same : other = cell
  · subst same
    exact turn
  · rw [elsewhere same]
    exact .elsewhere (by rwa [here])

theorem Use.history_of_looks {env : Env} {other : Nat} {A B : Store} {x : Logged Event Parser}
    {uses : List Use} (looks : Using.Looks env other A x uses B) (cell : Nat) :
    Use.History cell (A.held cell) uses (B.held cell) := by
  cases looks with
  | @found _ _ _ p there =>
    refine .of_turn other rfl ?_ fun _ => rfl
    rw [Store.held_of_lazy there]
    exact .found p
  | @built _ _ _ p D empty built =>
    refine .of_turn other rfl ?_ fun apart => ?_
    · rw [Store.held_of_lazy empty,
        Store.held_of_lazy (Store.getElem?_fill (Rule.empty_of_build built empty) p)]
      exact .built p
    · rw [Store.held_fill_of_ne apart, (Rule.extends_of_build built).held_eq]
  | @raised _ _ _ fault _ empty raised =>
    have same := (Rule.extends_of_build raised).held_eq
    refine .of_turn other rfl ?_ fun _ => same cell
    rw [same, Store.held_of_lazy empty]
    exact .raised fault
  | missing => exact .nil _

/-- The history of a cell, as an account of runs. -/
def Use.history (cell : Nat) : Account where
  holds A _ uses B := Use.History cell (A.held cell) uses (B.held cell)
  nil _ := .nil _
  append first second := first.append second
  write _ _ := .nil _
  build env A r := by
    rw [(Rule.extends_of_build (rfl : r.build env A = (_, _))).held_eq]
    exact .nil _
  force looks := Use.history_of_looks looks cell

/-- The thunk of a cell, if a record is made when it is run. -/
def Store.watched? (A : Store) (cell : Nat) : Option (Option String) :=
  match A[cell]? with
  | some (.lazy name true _ _) => some name
  | _ => none

/-- The thunk that was run, if a record was made of it. -/
def Use.thunk? (A : Store) : Use → Option (Option String)
  | .found _ _ => none
  | .built cell _ | .raised cell _ => A.watched? cell

theorem Event.thunks_ofThunk {A : Store} {cell : Nat} {name : Option String} {watched : Bool}
    {thunk : Rule} {built : Option Parser} (there : A[cell]? = some (.lazy name watched thunk built)) :
    (Event.ofThunk name watched).filterMap Event.thunk? = [cell].filterMap A.watched? := by
  simp only [List.filterMap, Store.watched?, there]
  rcases watched with _ | _
  · rfl
  · rfl

/-- The records of thunks, as an account of runs. A cell keeps its thunk, so that it may be looked up in
whatever store comes later. -/
def Use.thunks : Account where
  holds A log uses B := A.Grows B ∧
    ∀ D, B.Grows D → log.filterMap Event.thunk? = uses.filterMap (Use.thunk? D)
  nil A := ⟨.refl A, fun _ _ => rfl⟩
  append first second := by
    refine ⟨first.1.trans second.1, fun D later => ?_⟩
    rw [List.filterMap_append, List.filterMap_append, first.2 D (second.1.trans later),
      second.2 D later]
  write A other := ⟨.refl A, fun _ _ => by simp only [List.filterMap, other]⟩
  build _ _ _ := ⟨(Rule.extends_of_build rfl).grows, fun _ _ => rfl⟩
  force {_ cell A B _ _} looks := by
    have made : ∀ {D : Store} {name : Option String} {watched : Bool} {thunk : Rule}, A.Grows D →
        A[cell]? = some (.lazy name watched thunk none) →
        (Event.ofThunk name watched).filterMap Event.thunk? = [cell].filterMap D.watched? := by
      intro D name watched thunk later empty
      obtain ⟨built, there, -⟩ := later.lazy empty
      exact Event.thunks_ofThunk there
    cases looks with
    | found | missing => exact ⟨.refl A, fun _ _ => rfl⟩
    | @built _ _ _ p _ empty built =>
      -- The thunk may have added cells before the cell was filled.
      have grows := (Rule.extends_of_build built).grows.trans (.fill _ cell p)
      exact ⟨grows, fun D later => made (grows.trans later) empty⟩
    | raised empty raised =>
      have grows := (Rule.extends_of_build raised).grows
      exact ⟨grows, fun D later => made (grows.trans later) empty⟩

/-- No thunk is recorded in the run. -/
def Run.Silent {α : Type} (x : Run α) : Prop :=
  ∀ A last, x A = some last → last.1.log.filterMap Event.thunk? = []

namespace Run.Silent

variable {α β : Type}

theorem pure (a : α) : (Pure.pure a : Run α).Silent := by
  intro A last h
  cases h
  rfl

theorem raise (fault : Fault) : (Run.raise fault : Run α).Silent := by
  intro A last h
  cases h
  rfl

theorem write {event : Event} (other : event.thunk? = none) : (Run.write event).Silent := by
  intro A last h
  cases h
  simp only [Logged.write, List.filterMap, other]

theorem ofAct (x : Act α) : (Run.ofAct x).Silent := by
  intro A last h
  cases h
  simp only [Logged.mapLog, List.filterMap_map, List.filterMap_eq_nil_iff]
  exact fun _ _ => rfl

theorem ofBuild (x : Build α) : (Run.ofBuild x).Silent := by
  intro A last h
  cases h
  rfl

theorem bind {x : Run α} {f : α → Run β} (first : x.Silent) (second : ∀ a, (f a).Silent) :
    (x >>= f).Silent := by
  intro A last h
  rcases hx : x A with _ | ⟨⟨log, fault | a⟩, B⟩
  · rw [bind_of_none hx] at h
    cases h
  · rw [bind_of_error hx] at h
    cases h
    exact first _ _ hx
  · rw [bind_of_ok hx, Option.map_eq_some_iff] at h
    obtain ⟨last', rest, rfl⟩ := h
    have before := first _ _ hx
    simp only [Logged.after, List.filterMap_append, before, second a _ _ rest, List.append_nil]

theorem undefinedCell (p : Parser) : p.undefinedCell.Silent := by
  intro A last h
  unfold Parser.undefinedCell at h
  split at h
  · split at h
    · exact pure _ _ _ h
    · exact raise _ _ _ h
  · exact raise _ _ _ h

end Run.Silent

namespace Session

variable {s s' : Session} {command : Command} {budget : Nat} {answer : Logged Event Answer}
  {uses uses' : List Use}

theorem silent_of_inert (inert : command.Inert) : (meaning budget s command).Silent := by
  cases command with
  | bind name rule => exact .bind (.ofBuild _) fun _ => .pure _
  | declare name label => exact .bind (.ofBuild _) fun _ => .pure _
  | define name rule =>
    refine .bind (.ofBuild _) fun p => .bind (.ofBuild _) fun target => .bind ?_ fun _ => .pure _
    exact .bind (.undefinedCell p) fun _ => .bind (.write rfl) fun _ => .ofBuild _
  | defineValue name value =>
    refine .bind (.ofBuild _) fun p => .bind ?_ fun _ => .pure _
    exact .bind (.undefinedCell p) fun _ => .raise _
  | inspect rule => exact .bind (.ofBuild _) fun _ => .pure _
  | seek text position => exact .bind (.ofAct _) fun _ => .pure _
  | parse | run | feed => exact inert.elim

/-- The thunks that a command records are those that were run by its uses, in the same order. -/
theorem thunks_of_step (taken : s.step budget command = some (answer, s')) :
    answer.log.filterMap Event.thunk? = (s.uses budget command).filterMap (Use.thunk? s'.store) := by
  by_cases inert : command.Inert
  · obtain ⟨x, meant, log⟩ := exists_meaningUsing taken
    have ended : meaning budget s command s.store = some (x, s'.store) := by
      rw [← forget_meaningUsing, Using.forget, meant, Option.map_some]
    rw [uses_of_inert inert, ← log, silent_of_inert inert _ _ ended]
    rfl
  · exact (account_of_step Use.thunks inert taken).2 _ (.refl _)

theorem history_of_step (inside : s.Scoped) (taken : s.step budget command = some (answer, s'))
    (cell : Nat) :
    Use.History cell (s.store.held cell) (s.uses budget command) (s'.store.held cell) := by
  by_cases inert : command.Inert
  · -- Such a command may define a forward parser, and in this session none points to a lazy cell.
    rw [uses_of_inert inert, (step_inert inside inert taken).held_eq]
    exact .nil _
  · exact account_of_step (Use.history cell) inert taken

theorem Used.history (inside : s.Scoped) (path : Used s uses s') :
    s'.Scoped ∧ ∀ cell, Use.History cell (s.store.held cell) uses (s'.store.held cell) := by
  induction path with
  | refl => exact ⟨inside, fun _ => .nil _⟩
  | tail _ taken ih =>
    obtain ⟨inside', before⟩ := ih
    exact ⟨inside'.step taken, fun cell => (before cell).append (history_of_step inside' taken cell)⟩

end Session

namespace Parser

variable {env : Env} {cell : Nat} {A B : Store}

theorem eval_lazy_of_held {p : Parser} (filled : A.held cell = some p) (name : Option String)
    (c : Cursor) : eval env (.lazy cell name) c A = eval env p c A := by
  obtain ⟨_, _, _, there⟩ := Store.held_eq_some_iff.1 filled
  have forced : Run.force env cell A = some (⟨[], .ok p⟩, A) := by
    simp only [Run.force, there]
    rfl
  rw [eval_lazy, Run.bind_of_ok forced]
  rcases eval env p c A with _ | last
  · rfl
  · rfl

variable {called : Option String} {watched : Bool} {thunk : Rule}

theorem eval_lazy_of_built {p : Parser} (empty : A[cell]? = some (.lazy called watched thunk none))
    (built : thunk.build env A = (.ok p, B)) (name : Option String) (c : Cursor) :
    eval env (.lazy cell name) c A =
      (eval env p c (B.fill cell p)).map fun last =>
        (last.1.after (Event.ofThunk called watched), last.2) := by
  have forced : Run.force env cell A = some (⟨Event.ofThunk called watched, .ok p⟩, B.fill cell p) := by
    simp only [Run.force, empty, built]
    rfl
  rw [eval_lazy, Run.bind_of_ok forced]

theorem eval_lazy_of_raised {fault : Fault}
    (empty : A[cell]? = some (.lazy called watched thunk none))
    (raised : thunk.build env A = (.error fault, B)) (name : Option String) (c : Cursor) :
    eval env (.lazy cell name) c A = some (⟨Event.ofThunk called watched, .error fault⟩, B) := by
  have forced : Run.force env cell A = some (⟨Event.ofThunk called watched, .error fault⟩, B) := by
    simp only [Run.force, empty, raised]
    rfl
  rw [eval_lazy, Run.bind_of_error forced]

end Parser

namespace Session

variable {s : Session} {uses : List Use}

/-- In a session that commands of any kind lead to, each ended in any way, a lazy cell is empty as long
as it was not used, or its thunk raised whenever it was. It was filled at most once, and holds what the
thunk made then. What it holds it goes on to hold, and its thunk is not run again. The thunks that a
command records are those that its uses ran, and no others. To parse with a lazy parser is to parse with
what its cell holds or, if it is empty, with what its thunk makes; if the thunk raises, the parse ends in
its fault and the cell stays empty. -/
theorem lazy_filled_once (path : start.Used uses s) (cell : Nat) :
    Use.Once cell uses (s.store.held cell) ∧
      (∀ p, s.store.held cell = some p → ∀ uses' s', s.Used uses' s' →
        s'.store.held cell = some p ∧ ∃ n, Use.among cell uses' = .replicate n (.found cell p)) ∧
      (∀ budget command answer s', s.step budget command = some (answer, s') →
        answer.log.filterMap Event.thunk? =
          (s.uses budget command).filterMap (Use.thunk? s'.store)) ∧
      (∀ (env : Env) (A : Store) (p : Parser) (name : Option String) (c : Cursor),
        A.held cell = some p → Parser.eval env (.lazy cell name) c A = Parser.eval env p c A) ∧
      ∀ (env : Env) (A B : Store) (called : Option String) (watched : Bool) (thunk : Rule)
        (name : Option String) (c : Cursor), A[cell]? = some (.lazy called watched thunk none) →
        (∀ p, thunk.build env A = (.ok p, B) →
          Parser.eval env (.lazy cell name) c A =
            (Parser.eval env p c (B.fill cell p)).map fun last =>
              (last.1.after (Event.ofThunk called watched), last.2)) ∧
        ∀ fault, thunk.build env A = (.error fault, B) →
          Parser.eval env (.lazy cell name) c A =
            some (⟨Event.ofThunk called watched, .error fault⟩, B) ∧ B.held cell = none := by
  have started : start.Reached fun _ => True := .start
  obtain ⟨inside, history⟩ := Used.history started.scoped path
  refine ⟨(history cell).once rfl, ?_, fun _ _ _ _ => thunks_of_step, ?_, ?_⟩
  · intro p filled uses' s' later
    exact ((Used.history inside later).2 cell).of_filled filled
  · intro env A p name c filled
    exact Parser.eval_lazy_of_held filled name c
  · intro env A B called watched thunk name c empty
    refine ⟨fun p built => Parser.eval_lazy_of_built empty built name c, fun fault raised => ?_⟩
    refine ⟨Parser.eval_lazy_of_raised empty raised name c, ?_⟩
    rw [(Rule.extends_of_build raised).held_eq, Store.held_of_lazy empty]

/-- The thunk names a parser that is bound only after its first run. The parse that fills the cell ends
in a fault. -/
def retried : List Command :=
  [.bind "x" (.lazy (some "later") true (.ref "y")),
    .parse (.ref "x") #['a'] 0,
    .bind "y" (.char 'a'),
    .parse (.before (.ref "x") (.satisfy (CharTest.raising "no") "any")) #['a', 'a'] 0,
    .parse (.many (.ref "x")) #['a', 'a'] 0]

/-- The session after the first commands of the list. -/
def retrying (n : Nat) : Session := start.after 8 (retried.take n)

theorem lazy_filled_once_retried :
    ∃ p uses, start.Used uses (retrying 5) ∧
      uses = [.raised 0 (.unbound "y"), .built 0 p, .found 0 p, .found 0 p, .found 0 p] ∧
      (retrying 2).store.held 0 = none ∧ (retrying 4).store.held 0 = some p ∧
      Use.Once 0 uses ((retrying 5).store.held 0) ∧
      ((retrying 3).step 8 retried[3]).map (fun last => last.1.result) = some (.error (.raised "no")) := by
  have first : start.step 8 retried[0] = some (_, retrying 1) := rfl
  have second : (retrying 1).step 8 retried[1] = some (_, retrying 2) := rfl
  have third : (retrying 2).step 8 retried[2] = some (_, retrying 3) := rfl
  have fourth : (retrying 3).step 8 retried[3] = some (_, retrying 4) := rfl
  have fifth : (retrying 4).step 8 retried[4] = some (_, retrying 5) := rfl
  have path : start.Used _ (retrying 5) :=
    .tail (.tail (.tail (.tail (.tail (.refl start) first) second) third) fourth) fifth
  exact ⟨_, _, path, rfl, rfl, rfl, (lazy_filled_once path 0).1, rfl⟩

end Session

end Rewind
