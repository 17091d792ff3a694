import Rewind.Proofs.Equations
import Rewind.Proofs.Likeness

namespace Rewind

/-- Anything but that a thunk was run. -/
def Event.isObserved : Event → Bool
  | .filled _ => false
  | _ => true

/-- The records that do not tell whether a lazy cell was used before. -/
def observed (log : List Event) : List Event := log.filter Event.isObserved

theorem observed_append (log log' : List Event) :
    observed (log ++ log') = observed log ++ observed log' :=
  List.filter_append log log'

theorem observed_filled {log : List Event} (h : ∀ event ∈ log, ∃ name, event = .filled name) :
    observed log = [] := by
  refine List.filter_eq_nil_iff.2 fun event mem => ?_
  obtain ⟨name, rfl⟩ := h event mem
  simp [Event.isObserved]

variable {α β α' β' : Type}

/-- How two runs that began in `A` and `B` may end together. The second may still go on only if the
first has no budget left, or the other way around if the likeness unfolds. -/
inductive Likeness.Ends (L : Likeness) (s : Session) (A B : Store)
    (P : Store → Store → α → β → Prop) :
    Option (Logged Event α × Store) → Option (Logged Event β × Store) → Prop
  | spent : Ends L s A B P none none
  | behind (unfolds : L.unfolds) (y : Option (Logged Event β × Store)) : Ends L s A B P none y
  | ended {log log' : List Event} {x : Except Fault α} {y : Except Fault β} {A' B' : Store}
      (left : s.Leads A A') (right : s.Leads B B')
      (logs : L.logged → observed log = observed log') (answers : Except.Agree (P A' B') x y) :
      Ends L s A B P (some (⟨log, x⟩, A')) (some (⟨log', y⟩, B'))

/-- The first run from `A` and the second from `B` end together, in answers of which `P` holds. -/
def Run.Coupled (L : Likeness) (s : Session) (A B : Store) (x : Run α) (y : Run β)
    (P : Store → Store → α → β → Prop) : Prop :=
  L.Ends s A B P (x A) (y B)

variable {L : Likeness} {s : Session} {A A' B B' : Store}

/-- Looking into a cell comes to what building the rule comes to, and no more is recorded than that
thunks were run. -/
def Run.Finds (s : Session) (A : Store) (look : Run Parser) (r : Rule) : Prop :=
  ∃ log x B, look A = some (⟨log, x⟩, B) ∧ s.Leads A B ∧
    (∀ event ∈ log, ∃ name, event = .filled name) ∧ r.Becomes s B x

/-- What is run first when the parser goes on with what its cell gives. -/
def Parser.look (env : Env) : Parser → Run Parser
  | .forward cell given => Run.target cell (Parser.forward cell given).name
  | .lazy cell _ => Run.force env cell
  | p => Pure.pure p

namespace Parser.Enters

variable {p : Parser} {r : Rule}

theorem finds (enters : p.Enters s A r) (hA : s.Grown A) : (p.look s.env).Finds s A r := by
  cases enters with
  | lazy name fresh => exact Run.force_fresh hA fresh
  | forward name there makes =>
    refine ⟨[], .ok _, A, Run.target_forward hA there _, .refl hA, by simp, ?_⟩
    exact ⟨makes.refusal?_eq_none, makes⟩

theorem step_eq (enters : p.Enters s A r) (run : Parser → Cursor → Run Result) (n : Nat)
    (c : Cursor) : Parser.step run n s.env p c = p.look s.env >>= fun q => run q c := by
  cases enters with
  | lazy => rfl
  | forward => rfl

end Parser.Enters

namespace Run.Coupled

variable {x : Run α} {y : Run β} {P : Store → Store → α → β → Prop}

theorem pure (hA : s.Grown A) (hB : s.Grown B) {a : α} {b : β} (h : P A B a b) :
    Coupled L s A B (Pure.pure a) (Pure.pure b) P :=
  .ended (.refl hA) (.refl hB) (fun _ => rfl) (.ok h)

theorem bind {f : α → Run α'} {g : β → Run β'} {Q : Store → Store → α' → β' → Prop}
    (first : Coupled L s A B x y P)
    (second : ∀ A' B' a b, s.Leads A A' → s.Leads B B' → P A' B' a b →
      Coupled L s A' B' (f a) (g b) Q) :
    Coupled L s A B (x >>= f) (y >>= g) Q := by
  unfold Coupled at first ⊢
  generalize hx : x A = u at first
  generalize hy : y B = v at first
  cases first with
  | spent =>
    rw [bind_of_none hx, bind_of_none hy]
    exact .spent
  | behind unfolds =>
    rw [bind_of_none hx]
    exact .behind unfolds _
  | ended left right logs h =>
    cases h with
    | error fault =>
      rw [bind_of_error hx, bind_of_error hy]
      exact .ended left right logs (.error fault)
    | @ok a b related =>
      rw [bind_of_ok hx, bind_of_ok hy]
      have rest := second _ _ a b left right related
      unfold Coupled at rest
      generalize f a _ = u at rest
      generalize g b _ = v at rest
      cases rest with
      | spent => exact .spent
      | behind unfolds => exact .behind unfolds _
      | ended left' right' logs' h =>
        refine .ended (left.trans left') (right.trans right') (fun logged => ?_) h
        rw [observed_append, observed_append, logs logged, logs' logged]

theorem write (hA : s.Grown A) (hB : s.Grown B) {event event' : Event}
    (same : L.logged → event = event') :
    Coupled L s A B (Run.write event) (Run.write event') fun _ _ _ _ => True :=
  .ended (.refl hA) (.refl hB) (fun logged => by rw [same logged]) (.ok trivial)

theorem writeNotes (hA : s.Grown A) (hB : s.Grown B) {notes notes' : List Note}
    (same : L.logged → notes = notes') :
    Coupled L s A B (Run.writeNotes notes) (Run.writeNotes notes') fun _ _ _ _ => True :=
  .ended (.refl hA) (.refl hB) (fun logged => by rw [same logged]) (.ok trivial)

theorem ofAct (hA : s.Grown A) (hB : s.Grown B) {x : Act α} {y : Act β} {Q : α → β → Prop}
    (logs : L.logged → x.log = y.log) (results : Except.Agree Q x.result y.result) :
    Coupled L s A B (Run.ofAct x) (Run.ofAct y) fun _ _ => Q :=
  .ended (.refl hA) (.refl hB) (fun logged => by rw [logs logged]) results

/-- The same computation on both sides. -/
theorem act (hA : s.Grown A) (hB : s.Grown B) (x : Act α) :
    Coupled L s A B (Run.ofAct x) (Run.ofAct x) fun _ _ a b => a = b :=
  ofAct hA hB (fun _ => rfl) (.refl (fun _ => rfl) x.result)

theorem settle {x y : Run Result} {c d : Cursor} (hc : L.cursors c d)
    (h : Coupled L s A B x y fun _ _ => L.Results) :
    Coupled L s A B (x.settle c) (y.settle d) fun _ _ => L.Results := by
  rw [settle_eq_bind, settle_eq_bind]
  exact h.bind fun _ _ _ _ left right related => .pure left.grown right.grown (related.settle hc)

/-- The second run may go further if the likeness unfolds. -/
theorem below {z : Run β} (h : Coupled L s A B x y P) (further : y.Below z)
    (otherwise : L.unfolds ∨ y = z) : Coupled L s A B x z P := by
  unfold Coupled at h ⊢
  rcases otherwise with unfolds | rfl
  · generalize hx : x A = u at h ⊢
    generalize hy : y B = v at h
    cases h with
    | spent => exact .behind unfolds _
    | behind => exact .behind unfolds _
    | ended left right logs h =>
      rw [further _ _ hy]
      exact .ended left right logs h
  · exact h

/-- What comes of alike rules is alike, however it was found. -/
theorem ofBecomes (sound : L.Sound s) {x y : Build Parser} {u v : Except Fault Parser}
    (hx : x A = (u, A')) (hy : y B = (v, B')) (left : s.Leads A A') (right : s.Leads B B')
    {r r' : Rule} (h : r.Alike L r') (hu : r.Becomes s A' u) (hv : r'.Becomes s B' v) :
    Coupled L s A B (Run.ofBuild x) (Run.ofBuild y) fun A' B' p q => p.Alike L s A' B' q := by
  unfold Coupled
  rw [Run.ofBuild_eq hx, Run.ofBuild_eq hy]
  exact .ended left right (fun _ => rfl) (sound.agree h left.grown right.grown hu hv)

theorem ofBuild (sound : L.Sound s) (hA : s.Grown A) (hB : s.Grown B) {r r' : Rule}
    (h : r.Alike L r') :
    Coupled L s A B (Run.ofBuild (r.build s.env)) (Run.ofBuild (r'.build s.env))
      fun A' B' p q => p.Alike L s A' B' q := by
  rcases hx : r.build s.env A with ⟨x, A'⟩
  rcases hy : r'.build s.env B with ⟨y, B'⟩
  obtain ⟨left, becomes⟩ := r.build_becomes hA hx
  obtain ⟨right, becomes'⟩ := r'.build_becomes hB hy
  exact ofBecomes sound hx hy left right h becomes becomes'

/-- Cells with alike rules give alike parsers, whichever of them were used before. -/
theorem ofEntered (sound : L.Sound s) {look look' : Run Parser} {r r' : Rule}
    (left : look.Finds s A r) (right : look'.Finds s B r') (h : r.Alike L r') :
    Coupled L s A B look look' fun A' B' p q => p.Alike L s A' B' q := by
  obtain ⟨log, x, A', hx, leads, filled, becomes⟩ := left
  obtain ⟨log', y, B', hy, leads', filled', becomes'⟩ := right
  unfold Coupled
  rw [hx, hy]
  refine .ended leads leads' (fun _ => ?_) (sound.agree h leads.grown leads'.grown becomes becomes')
  rw [observed_filled filled, observed_filled filled']

theorem force_old (sound : L.Sound s) (hA : s.Grown A) (hB : s.Grown B) {cell : Nat}
    {name : Option String} {watched : Bool} {thunk : Rule} {p : Parser}
    (there : s.store[cell]? = some (.lazy name watched thunk (some p))) :
    Coupled L s A B (Run.force s.env cell) (Run.force s.env cell)
      fun A' B' p q => p.Alike L s A' B' q := by
  unfold Coupled
  rw [Run.force_old hA there, Run.force_old hB there]
  have held := (sound.held there rfl).mono hA.grows hB.grows
  exact .ended (.refl hA) (.refl hB) (fun _ => rfl) (.ok held)

theorem target (sound : L.Sound s) (hA : s.Grown A) (hB : s.Grown B) {cell : Nat}
    {target : Option Parser} (there : s.store[cell]? = some (.forward target)) (name : String) :
    Coupled L s A B (Run.target cell name) (Run.target cell name)
      fun A' B' p q => p.Alike L s A' B' q := by
  unfold Coupled
  rw [Run.target_forward hA there, Run.target_forward hB there]
  rcases target with _ | p
  · exact .ended (.refl hA) (.refl hB) (fun _ => rfl) (.error _)
  · have held := (sound.held there rfl).mono hA.grows hB.grows
    exact .ended (.refl hA) (.refl hB) (fun _ => rfl) (.ok held)

theorem rounds {round round' : Cursor → Run Result} {stop stop' : Cursor → Event}
    (each : ∀ A' B' c d, s.Leads A A' → s.Leads B B' → L.cursors c d →
      Coupled L s A' B' (round c) (round' d) fun _ _ => L.Results)
    (stops : L.logged → stop = stop') (n : Nat) {c d : Cursor} (hc : L.cursors c d)
    (left : s.Leads A A') (right : s.Leads B B') :
    Coupled L s A' B' (Run.rounds round stop n c) (Run.rounds round' stop' n d)
      fun _ _ x y => x.1 = y.1 ∧ L.cursors x.2 y.2 := by
  induction n generalizing c d A' B' with
  | zero => exact .spent
  | succ n ih =>
    refine (each A' B' c d left right hc).bind fun A'' B'' r r' left' right' related => ?_
    rw [related.ok, L.idle hc related.cursor]
    split
    · split
      · have written : L.logged → stop c = stop' d :=
          fun logged => by rw [stops logged, L.same logged hc]
        refine (write left'.grown right'.grown written).bind fun _ _ _ _ left'' right'' _ => ?_
        exact .pure left''.grown right''.grown ⟨rfl, hc⟩
      · refine (ih related.cursor (left.trans left') (right.trans right')).bind ?_
        intro _ _ x y left'' right'' later
        exact .pure left''.grown right''.grown ⟨by rw [related.value, later.1], later.2⟩
    · exact .pure left'.grown right'.grown ⟨rfl, hc⟩

end Run.Coupled

/-- Alike parsers, run at cursors that go together, end together. -/
def Likeness.Couples (L : Likeness) (s : Session) (run run' : Parser → Cursor → Run Result) : Prop :=
  ∀ {A B : Store} {p q : Parser} {c d : Cursor}, s.Grown A → s.Grown B → p.Alike L s A B q →
    L.cursors c d → Run.Coupled L s A B (run p c) (run' q d) fun _ _ => L.Results

namespace Likeness.Couples

open Run.Coupled

variable {run run' : Parser → Cursor → Run Result} {p p' q q' : Parser} {c d : Cursor}

theorem atom (n : Nat) {a : Atom} (respects : L.Respects a) (hA : s.Grown A) (hB : s.Grown B)
    (hc : L.cursors c d) :
    Run.Coupled L s A B (Parser.step run n s.env (.atom a) c) (Parser.step run' n s.env (.atom a) d)
      fun _ _ => L.Results :=
  ofAct hA hB (fun logged => by rw [L.same logged hc]) (respects c d hc)

variable (each : L.Couples s run run')

include each

theorem andThen (n : Nat) (notes : Result → List Note) {next next' : Result → Rule}
    (sound : L.Sound s) (hA : s.Grown A) (hB : s.Grown B) (first : p.Alike L s A B p')
    (rest : ∀ x y, L.Results x y → (next x).Alike L (next' y)) (hc : L.cursors c d) :
    Run.Coupled L s A B (Parser.step run n s.env (.andThen p notes next) c)
      (Parser.step run' n s.env (.andThen p' notes next') d) fun _ _ => L.Results := by
  refine (each hA hB first hc).bind fun A' B' r r' left right related => ?_
  rw [related.ok]
  split
  · have noted : L.logged → notes r = notes r' :=
      fun logged => by rw [related.eq fun _ _ => L.same logged]
    refine (writeNotes left.grown right.grown noted).bind fun A' B' _ _ left right _ => ?_
    refine (ofBuild sound left.grown right.grown (rest r r' related)).bind ?_
    intro A' B' q q' left right alike
    exact each left.grown right.grown alike related.cursor
  · exact .pure left.grown right.grown related

theorem both (n : Nat) (combine : Value → Value → Act Value) (hA : s.Grown A) (hB : s.Grown B)
    (first : p.Alike L s A B p') (second : q.Alike L s A B q') (hc : L.cursors c d) :
    Run.Coupled L s A B (Parser.step run n s.env (.both p q combine) c)
      (Parser.step run' n s.env (.both p' q' combine) d) fun _ _ => L.Results := by
  refine (each hA hB first hc).bind fun A' B' r r' left right related => ?_
  rw [related.ok]
  split
  · refine (each left.grown right.grown (second.mono left.grows right.grows) related.cursor).bind ?_
    intro A' B' t t' left right later
    rw [later.ok, related.value, later.value]
    split
    · refine (act left.grown right.grown _).bind fun _ _ v v' left right same => ?_
      rw [same]
      exact .pure left.grown right.grown (.success v' later.cursor)
    · exact .pure left.grown right.grown later
  · exact .pure left.grown right.grown related

theorem map (n : Nat) (f : Value → Act Value) (hA : s.Grown A) (hB : s.Grown B)
    (part : p.Alike L s A B p') (hc : L.cursors c d) :
    Run.Coupled L s A B (Parser.step run n s.env (.map p f) c)
      (Parser.step run' n s.env (.map p' f) d) fun _ _ => L.Results := by
  refine (each hA hB part hc).bind fun A' B' r r' left right related => ?_
  rw [related.ok, related.value]
  split
  · refine (act left.grown right.grown _).bind fun _ _ v v' left right same => ?_
    rw [same]
    exact .pure left.grown right.grown (.success v' related.cursor)
  · exact .pure left.grown right.grown related

theorem or (n : Nat) (hA : s.Grown A) (hB : s.Grown B) (first : p.Alike L s A B p')
    (second : q.Alike L s A B q') (hc : L.cursors c d) :
    Run.Coupled L s A B (Parser.step run n s.env (.or p q) c)
      (Parser.step run' n s.env (.or p' q') d) fun _ _ => L.Results := by
  refine (each hA hB first hc).bind fun A' B' r r' left right related => ?_
  rw [related.ok]
  split
  · exact .pure left.grown right.grown related
  · exact each left.grown right.grown (second.mono left.grows right.grows) hc

theorem not (n : Nat) (hA : s.Grown A) (hB : s.Grown B) (part : p.Alike L s A B p')
    (hc : L.cursors c d) :
    Run.Coupled L s A B (Parser.step run n s.env (.not p) c) (Parser.step run' n s.env (.not p') d)
      fun _ _ => L.Results := by
  refine (each hA hB part hc).bind fun A' B' r r' left right related => ?_
  refine .pure left.grown right.grown ?_
  rw [related.ok]
  split
  · exact .failure hc
  · exact .success .none hc

theorem many (n : Nat) (hA : s.Grown A) (hB : s.Grown B) (part : p.Alike L s A B p')
    (hc : L.cursors c d) :
    Run.Coupled L s A B (Parser.step run n s.env (.many p) c)
      (Parser.step run' n s.env (.many p') d) fun _ _ => L.Results := by
  simp only [Parser.step, Run.repeated_nil]
  refine (rounds (fun A' B' c d left right hc => ?_) (fun logged => ?_) n hc (.refl hA)
    (.refl hB)).bind fun _ _ x y left right related => ?_
  · exact each left.grown right.grown (part.mono left.grows right.grows) hc
  · rw [part.name (L.names logged)]
  · rw [related.1]
    exact .pure left.grown right.grown (.success _ related.2)

theorem lookAhead (n : Nat) (hA : s.Grown A) (hB : s.Grown B) (part : p.Alike L s A B p')
    (hc : L.cursors c d) :
    Run.Coupled L s A B (Parser.step run n s.env (.lookAhead p) c)
      (Parser.step run' n s.env (.lookAhead p') d) fun _ _ => L.Results := by
  refine (each hA hB part hc).bind fun A' B' r r' left right related => ?_
  refine .pure left.grown right.grown ?_
  rw [related.ok]
  split
  · rw [related.value]
    exact .success _ hc
  · exact related

theorem trace (n : Nat) (tag : Nat) (text : String) (hA : s.Grown A) (hB : s.Grown B)
    (part : p.Alike L s A B p') (hc : L.cursors c d) :
    Run.Coupled L s A B (Parser.step run n s.env (.trace tag text p) c)
      (Parser.step run' n s.env (.trace tag text p') d) fun _ _ => L.Results := by
  have entered : L.logged → Event.entered tag text c = .entered tag text d :=
    fun logged => by rw [L.same logged hc]
  refine (write hA hB entered).bind fun A' B' _ _ left right _ => ?_
  refine (each left.grown right.grown (part.mono left.grows right.grows) hc).bind ?_
  intro A' B' r r' left right related
  have ended : L.logged → r.traceEnd tag text c = r'.traceEnd tag text d :=
    fun logged => by rw [related.eq fun _ _ => L.same logged, L.same logged hc]
  refine (write left.grown right.grown ended).bind fun _ _ _ _ left right _ => ?_
  exact .pure left.grown right.grown related

theorem forward (n : Nat) (sound : L.Sound s) {cell : Nat} {target : Option Parser} (name : String)
    (there : s.store[cell]? = some (.forward target)) (hA : s.Grown A) (hB : s.Grown B)
    (hc : L.cursors c d) :
    Run.Coupled L s A B (Parser.step run n s.env (.forward cell name) c)
      (Parser.step run' n s.env (.forward cell name) d) fun _ _ => L.Results :=
  (Run.Coupled.target sound hA hB there _).bind fun _ _ _ _ left right alike =>
    each left.grown right.grown alike hc

theorem old (n : Nat) (sound : L.Sound s) {cell : Nat} {name called : Option String} {watched : Bool}
    {thunk : Rule} {p : Parser} (there : s.store[cell]? = some (.lazy called watched thunk (some p)))
    (hA : s.Grown A) (hB : s.Grown B) (hc : L.cursors c d) :
    Run.Coupled L s A B (Parser.step run n s.env (.lazy cell name) c)
      (Parser.step run' n s.env (.lazy cell name) d) fun _ _ => L.Results :=
  (Run.Coupled.force_old sound hA hB there).bind fun _ _ _ _ left right alike =>
    each left.grown right.grown alike hc

/-- What two cells give alike is run alike. -/
theorem entered (n : Nat) (sound : L.Sound s) {r r' : Rule} (left : p.Enters s A r)
    (right : q.Enters s B r') (rules : r.Alike L r') (hA : s.Grown A) (hB : s.Grown B)
    (hc : L.cursors c d) :
    Run.Coupled L s A B (Parser.step run n s.env p c) (Parser.step run' n s.env q d)
      fun _ _ => L.Results := by
  rw [left.step_eq, right.step_eq]
  refine (ofEntered sound (left.finds hA) (right.finds hB) rules).bind ?_
  exact fun _ _ _ _ left right alike => each left.grown right.grown alike hc

end Likeness.Couples

theorem Run.bind_target (h : s.Grown A) {cell : Nat} {p : Parser}
    (there : s.store[cell]? = some (.forward (some p))) (name : String) (f : Parser → Run α) :
    (Run.target cell name >>= f) A = f p A := by
  rw [Run.bind_of_ok (Run.target_forward h there name)]
  exact Option.map_id'

open Classical in
/-- What a run with some budget is compared with: a run with the same budget, or, if the likeness
unfolds, with one whose budget is not bounded. -/
noncomputable def Likeness.follow (L : Likeness) (env : Env) (n : Nat) : Parser → Cursor → Run Result :=
  if L.unfolds then Parser.eval env else Parser.run env n

namespace Likeness

theorem follow_of_unfolds (unfolds : L.unfolds) (env : Env) (n : Nat) :
    L.follow env n = Parser.eval env := if_pos unfolds

theorem follow_of_not (unfolds : ¬L.unfolds) (env : Env) (n : Nat) :
    L.follow env n = Parser.run env n := if_neg unfolds

/-- It is enough to compare with a step. -/
theorem coupled_follow {x : Run Result} {n : Nat} {q : Parser} {d : Cursor}
    {P : Store → Store → Result → Result → Prop}
    (h : Run.Coupled L s A B x ((Parser.step (L.follow s.env n) n s.env q d).settle d) P) :
    Run.Coupled L s A B x (L.follow s.env (n + 1) q d) P := by
  by_cases unfolds : L.unfolds
  · rw [follow_of_unfolds unfolds] at h ⊢
    exact h.below (Parser.step_eval_below s.env n q d) (.inl unfolds)
  · rw [follow_of_not unfolds] at h ⊢
    exact h

/-- Alike parsers end together with every budget. -/
theorem couples_run (sound : L.Sound s) (n : Nat) :
    L.Couples s (Parser.run s.env n) (L.follow s.env n) := by
  induction n with
  | zero =>
    intro A B p q c d _ _ _ _
    by_cases unfolds : L.unfolds
    · exact .behind unfolds _
    · rw [follow_of_not unfolds]
      exact .spent
  | succ n ih =>
    intro A B p q c d hA hB alike hc
    -- Unfolding on the right takes no budget away from the left, so the budget alone does not carry
    -- the induction: it goes on over how the two are alike.
    induction alike generalizing c d with
    | atom respects => exact coupled_follow (.settle hc (Couples.atom n respects hA hB hc))
    | andThen notes first rest =>
      exact coupled_follow (.settle hc (ih.andThen n notes sound hA hB first rest hc))
    | both combine first second =>
      exact coupled_follow (.settle hc (ih.both n combine hA hB first second hc))
    | map f part => exact coupled_follow (.settle hc (ih.map n f hA hB part hc))
    | or first second => exact coupled_follow (.settle hc (ih.or n hA hB first second hc))
    | not part => exact coupled_follow (.settle hc (ih.not n hA hB part hc))
    | many part => exact coupled_follow (.settle hc (ih.many n hA hB part hc))
    | lookAhead part => exact coupled_follow (.settle hc (ih.lookAhead n hA hB part hc))
    | trace tag text part =>
      exact coupled_follow (.settle hc (ih.trace n tag text hA hB part hc))
    | label part => exact coupled_follow (.settle hc (ih hA hB part hc))
    | wrap _ part => exact coupled_follow (.settle hc (ih hA hB part hc))
    | forward name there =>
      exact coupled_follow (.settle hc (ih.forward n sound name there hA hB hc))
    | old name there =>
      exact coupled_follow (.settle hc (ih.old n sound there hA hB hc))
    | entered left right _ rules =>
      exact coupled_follow (.settle hc (ih.entered n sound left right rules hA hB hc))
    | unfoldLeft unfolds name there body _ =>
      -- The definition is run with one unit less, and the other run has no bound.
      have h := Run.Coupled.settle hc (ih hA hB body hc)
      rw [follow_of_unfolds unfolds] at h ⊢
      rw [Parser.eval_settle] at h
      unfold Run.Coupled at h ⊢
      simp only [Parser.run, Parser.step, Run.settle_bind]
      rwa [Run.bind_target hA there]
    | unfoldRight unfolds name there _ again =>
      have h := again hc
      rw [follow_of_unfolds unfolds] at h ⊢
      unfold Run.Coupled at h ⊢
      rwa [Parser.eval_forward, Run.bind_target hB there]

end Likeness

/-- The answers have one name, unless names may differ, and results that go together. -/
def Likeness.Answers (L : Likeness) (a b : Answer) : Prop :=
  ∃ name name' r r', a = .parsed name r ∧ b = .parsed name' r' ∧ (L.named → name = name') ∧
    L.Results r r'

theorem Likeness.Answers.eq (named : L.named) (cursors : ∀ c d, L.cursors c d → c = d) (a b : Answer)
    (h : L.Answers a b) : a = b := by
  obtain ⟨name, name', r, r', rfl, rfl, names, results⟩ := h
  rw [names named, results.eq cursors]

/-- Answers that go together tell the same results, if a cursor goes together with itself only. -/
theorem Likeness.parsed_iff (cursors : ∀ c d, L.cursors c d → c = d) {y y' : Except Fault Answer}
    (h : Except.Agree L.Answers y y') (x : Except Fault Result) :
    (∃ name, y = x.map (Answer.parsed name)) ↔ ∃ name, y' = x.map (Answer.parsed name) := by
  cases h with
  | error fault => rfl
  | ok related =>
    obtain ⟨name, name', r, r', rfl, rfl, -, same⟩ := related
    obtain rfl := same.eq cursors
    rcases x with fault | r'
    · simp [Except.map]
    · simp [Except.map]

namespace Session

variable {s₁ s₂ : Session}

/-- A parse has this fault or result, under any name, with every budget that is large enough. -/
def Outcome (s : Session) (rule : Rule) (text : Array Char) (position : Int)
    (x : Except Fault Result) : Prop :=
  ∃ name, s.Answers (.parse rule text position) (x.map (Answer.parsed name))

/-- What a parse answers if `run` runs its parser. -/
def parsing (run : Parser → Cursor → Run Result) (s : Session) (rule : Rule) (text : Array Char)
    (position : Int) : Run (Answer × Env × Cursor) := do
  let p ← Run.ofBuild (rule.build s.env)
  let c ← Run.ofAct (Logged.ofExcept (Cursor.at? text position))
  let r ← run p c
  return (.parsed p.name r, s.env, s.cursor)

theorem meaning_parse (budget : Nat) (s : Session) (rule : Rule) (text : Array Char)
    (position : Int) : meaning budget s (.parse rule text position) =
      parsing (Parser.run s.env budget) s rule text position := rfl

/-- What is built alike is parsed alike from sessions that have grown from one. -/
theorem parsing_coupled (sound : L.Sound s) (env₁ : s₁.env = s.env) (env₂ : s₂.env = s.env)
    {rule rule' : Rule} {text text' : Array Char} {position position' : Int}
    (built : Run.Coupled L s s₁.store s₂.store (Run.ofBuild (rule.build s.env))
      (Run.ofBuild (rule'.build s.env)) fun A B p q => p.Alike L s A B q)
    (placed : Except.Agree L.cursors (Cursor.at? text position) (Cursor.at? text' position'))
    (n : Nat) :
    Run.Coupled L s s₁.store s₂.store (parsing (Parser.run s.env n) s₁ rule text position)
      (parsing (L.follow s.env n) s₂ rule' text' position') fun _ _ x y => L.Answers x.1 y.1 := by
  simp only [parsing, env₁, env₂]
  refine built.bind fun A B p q left right alike => ?_
  have cursors : Run.Coupled L s A B (Run.ofAct (.ofExcept (Cursor.at? text position)))
      (Run.ofAct (.ofExcept (Cursor.at? text' position'))) fun _ _ => L.cursors :=
    .ofAct left.grown right.grown (fun _ => rfl) placed
  refine cursors.bind fun A B c d left right hc => ?_
  have alike := alike.mono left.grows right.grows
  refine (Likeness.couples_run sound n left.grown right.grown alike hc).bind ?_
  intro A B r r' left right related
  exact .pure left.grown right.grown ⟨_, _, r, r', rfl, rfl, alike.name, related⟩

/-- Without unfolding, alike rules are parsed alike with every budget. -/
theorem parse_agree (exactly : ¬L.unfolds) (sound : L.Sound s) (env₁ : s₁.env = s.env)
    (env₂ : s₂.env = s.env) (hA : s.Grown s₁.store) (hB : s.Grown s₂.store) {rule rule' : Rule}
    (h : rule.Alike L rule') {text text' : Array Char} {position position' : Int}
    (placed : Except.Agree L.cursors (Cursor.at? text position) (Cursor.at? text' position'))
    (budget : Nat) :
    Option.Rel
      (fun last last' => (L.logged → observed last.1.log = observed last'.1.log) ∧
        Except.Agree L.Answers last.1.result last'.1.result)
      (s₁.step budget (.parse rule text position))
      (s₂.step budget (.parse rule' text' position')) := by
  have coupled := parsing_coupled sound env₁ env₂ (.ofBuild sound hA hB h) placed budget
  unfold Run.Coupled at coupled
  rw [Likeness.follow_of_not exactly] at coupled
  simp only [step, meaning_parse, env₁, env₂]
  generalize parsing _ s₁ rule text position s₁.store = u at coupled
  generalize parsing _ s₂ rule' text' position' s₂.store = v at coupled
  cases coupled with
  | spent => exact .none
  | behind unfolds => exact absurd unfolds exactly
  | ended left right logs h =>
    cases h with
    | error fault => exact .some ⟨logs, .error fault⟩
    | ok related => exact .some ⟨logs, .ok related⟩

/-- If only records of thunks may differ, alike rules are parsed to the same answers, with the same
records but for those. -/
theorem parse_eq (logged : L.logged) (cursors : ∀ c d, L.cursors c d ↔ c = d) (sound : L.Sound s)
    (env₁ : s₁.env = s.env) (env₂ : s₂.env = s.env) (hA : s.Grown s₁.store) (hB : s.Grown s₂.store)
    {rule rule' : Rule} (h : rule.Alike L rule') (text : Array Char) (position : Int) (budget : Nat) :
    ((s₁.step budget (.parse rule text position)).map fun last =>
        (observed last.1.log, last.1.result)) =
      (s₂.step budget (.parse rule' text position)).map fun last =>
        (observed last.1.log, last.1.result) := by
  have named := L.names logged
  have placed : Except.Agree L.cursors (Cursor.at? text position) (Cursor.at? text position) :=
    .refl (fun c => (cursors c c).2 rfl) _
  have agree := parse_agree (L.apart named) sound env₁ env₂ hA hB h placed budget
  generalize s₁.step budget (.parse rule text position) = u at agree
  generalize s₂.step budget (.parse rule' text position) = v at agree
  cases agree with
  | none => rfl
  | @some x y related =>
    obtain ⟨⟨log, result⟩, _⟩ := x
    obtain ⟨⟨log', result'⟩, _⟩ := y
    obtain ⟨logs, answers⟩ := related
    have logs : observed log = observed log' := logs logged
    have results : result = result' :=
      answers.eq (Likeness.Answers.eq named fun c d => (cursors c d).1)
    rw [Option.map_some, Option.map_some, logs, results]

theorem outcome_iff_step {s : Session} {rule : Rule} {text : Array Char} {position : Int}
    {x : Except Fault Result} :
    s.Outcome rule text position x ↔ ∃ budget last,
      s.step budget (.parse rule text position) = some last ∧
        ∃ name, last.1.result = x.map (Answer.parsed name) := by
  constructor
  · rintro ⟨name, n, log, s', ended⟩
    exact ⟨n, _, ended n (Nat.le_refl n), name, rfl⟩
  · rintro ⟨budget, ⟨⟨log, y⟩, s'⟩, taken, name, rfl⟩
    exact ⟨name, answers_of_step taken⟩

/-- Rules that are parsed alike with every budget have the same outcomes, if a cursor goes together
with itself only. -/
theorem outcome_iff {rule rule' : Rule} {text : Array Char} {position : Int}
    (cursors : ∀ c d, L.cursors c d → c = d)
    (agree : ∀ budget, Option.Rel
      (fun last last' => (L.logged → observed last.1.log = observed last'.1.log) ∧
        Except.Agree L.Answers last.1.result last'.1.result)
      (s₁.step budget (.parse rule text position)) (s₂.step budget (.parse rule' text position)))
    (x : Except Fault Result) :
    s₁.Outcome rule text position x ↔ s₂.Outcome rule' text position x := by
  rw [outcome_iff_step, outcome_iff_step]
  refine exists_congr fun budget => ?_
  have same := agree budget
  generalize s₁.step budget (.parse rule text position) = u at same
  generalize s₂.step budget (.parse rule' text position) = v at same
  cases same with
  | none => simp
  | some agree => simp [Likeness.parsed_iff cursors agree.2]

end Session

end Rewind
