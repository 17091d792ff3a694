import Rewind.Proofs.Equations
import Rewind.Proofs.Names
import Rewind.Proofs.Sessions
import Rewind.Rule.Combinators

namespace Rewind

variable {α β α' β' : Type} {defining : Prop}

inductive Event.Renamed : Event → Event → Prop
  | note (note : Note) : Renamed (.note note) (.note note)
  | stopped (parser parser' : String) (position : Nat) :
      Renamed (.stopped parser position) (.stopped parser' position)
  | defined (forward forward' target target' : String) :
      Renamed (.defined forward target) (.defined forward' target')
  | filled (thunk thunk' : Option String) : Renamed (.filled thunk) (.filled thunk')
  | entered (tag : Nat) (label label' : String) (cursor : Cursor) :
      Renamed (.entered tag label cursor) (.entered tag label' cursor)
  | succeeded (tag : Nat) (label label' : String) (value : Value) (position : Nat) :
      Renamed (.succeeded tag label value position) (.succeeded tag label' value position)
  | failed (tag : Nat) (label label' : String) (position : Nat) :
      Renamed (.failed tag label position) (.failed tag label' position)

/-- The same fault, or one that names another forward parser which is not defined. In a definition it may
also name another parser that cannot be defined. -/
inductive Fault.Renamed (defining : Prop) : Fault → Fault → Prop
  | refl (fault : Fault) : Renamed defining fault fault
  | undefinedForward (name name' : String) :
      Renamed defining (.undefinedForward name) (.undefinedForward name')
  | alreadyDefined (h : defining) (name name' : String) :
      Renamed defining (.alreadyDefined name) (.alreadyDefined name')
  | unbound (h : defining) (name name' : String) :
      Renamed defining (.unbound name) (.unbound name')

/-- No handler can tell such faults apart. -/
theorem Fault.Renamed.kind_eq {fault fault' : Fault} (h : fault.Renamed defining fault') :
    fault.kind = fault'.kind := by
  cases h with
  | _ => rfl

theorem Fault.Renamed.imp {defining' : Prop} (more : defining → defining') {fault fault' : Fault}
    (h : fault.Renamed defining fault') : fault.Renamed defining' fault' := by
  cases h with
  | refl => exact .refl fault
  | undefinedForward name name' => exact .undefinedForward name name'
  | alreadyDefined h name name' => exact .alreadyDefined (more h) name name'
  | unbound h name name' => exact .unbound (more h) name name'

/-- Outside of definitions only the message of an undefined forward parser differs. -/
theorem Fault.renamed_false_iff {fault fault' : Fault} :
    fault.Renamed False fault' ↔
      fault = fault' ∨ ∃ name name', fault = .undefinedForward name ∧ fault' = .undefinedForward name' := by
  constructor
  · intro h
    cases h with
    | refl => exact .inl rfl
    | undefinedForward name name' => exact .inr ⟨name, name', rfl, rfl⟩
    | alreadyDefined h => exact h.elim
    | unbound h => exact h.elim
  · rintro (rfl | ⟨name, name', rfl, rfl⟩)
    · exact .refl fault
    · exact .undefinedForward name name'

/-- Both end in a fault, or in answers that are related. -/
inductive Except.Renamed (defining : Prop) (Q : α → β → Prop) : Except Fault α → Except Fault β → Prop
  | error {fault fault' : Fault} (faults : fault.Renamed defining fault') :
      Renamed defining Q (.error fault) (.error fault')
  | ok {a : α} {b : β} (related : Q a b) : Renamed defining Q (.ok a) (.ok b)

/-- Record by record, and then a fault or answers that are related. -/
structure Logged.Renamed (defining : Prop) (Q : α → β → Prop) (x : Logged Event α)
    (y : Logged Event β) : Prop where
  log : List.Forall₂ Event.Renamed x.log y.log
  result : Except.Renamed defining Q x.result y.result

theorem Logged.Renamed.imp {defining' : Prop} (more : defining → defining') {Q : α → β → Prop}
    {x : Logged Event α} {y : Logged Event β} (h : x.Renamed defining Q y) : x.Renamed defining' Q y := by
  obtain ⟨log, x⟩ := x
  obtain ⟨log', y⟩ := y
  obtain ⟨logs, results⟩ := h
  cases results with
  | error faults => exact ⟨logs, .error (faults.imp more)⟩
  | ok related => exact ⟨logs, .ok related⟩

/-- The display of a parser shows its name, and everything else is the same. -/
inductive Answer.Renamed : Answer → Answer → Prop
  | bound (name name' : String) : Renamed (.bound name) (.bound name')
  | defined : Renamed .defined .defined
  | inspected (name name' display display' : String) (isForward : Bool) :
      Renamed (.inspected name display isForward) (.inspected name' display' isForward)
  | parsed (name name' : String) (result : Result) :
      Renamed (.parsed name result) (.parsed name' result)
  | ran (name name' : String) (outcome : Except Report Value) :
      Renamed (.ran name outcome) (.ran name' outcome)
  | moved (cursor : Cursor) : Renamed (.moved cursor) (.moved cursor)
  | fed (result : Result) : Renamed (.fed result) (.fed result)

theorem renamed_notes (notes : List Note) :
    List.Forall₂ Event.Renamed (notes.map .note) (notes.map .note) := by
  refine List.forall₂_same.2 fun event mem => ?_
  obtain ⟨note, -, rfl⟩ := List.mem_map.1 mem
  exact .note note

/-- The record at the end of a trace is made of its label and the result. -/
theorem Result.renamed_traceEnd (tag : Nat) (text text' : String) (c : Cursor) (r : Result) :
    (r.traceEnd tag text c).Renamed (r.traceEnd tag text' c) := by
  unfold Result.traceEnd
  split
  · exact .succeeded tag text text' r.value r.cursor.position
  · exact .failed tag text text' c.position

/-- From stores that differ in names only both runs end, or neither does, with records and a fault or
answers that are related, and again with such stores. -/
def Run.Renames (defining : Prop) (x : Run α) (y : Run β) (Q : α → β → Prop) : Prop :=
  ∀ A B, Store.Renamed A B →
    Option.Rel (fun last last' => Logged.Renamed defining Q last.1 last'.1 ∧
      Store.Renamed last.2 last'.2) (x A) (y B)

namespace Run.Renames

variable {x : Run α} {y : Run β} {Q : α → β → Prop} {Q' : α' → β' → Prop} {env env' : Env}

theorem pure {a : α} {b : β} (h : Q a b) : Renames defining (Pure.pure a) (Pure.pure b) Q :=
  fun _ _ stores => .some ⟨⟨.nil, .ok h⟩, stores⟩

theorem raise {fault fault' : Fault} (faults : fault.Renamed defining fault') :
    Renames defining (Run.raise fault) (Run.raise fault') Q :=
  fun _ _ stores => .some ⟨⟨.nil, .error faults⟩, stores⟩

theorem spent : Renames defining (Run.spent : Run α) (Run.spent : Run β) Q :=
  fun _ _ _ => .none

theorem bind {f : α → Run α'} {g : β → Run β'} (first : Renames defining x y Q)
    (second : ∀ a b, Q a b → Renames defining (f a) (g b) Q') :
    Renames defining (x >>= f) (y >>= g) Q' := by
  intro A B stores
  have h := first A B stores
  generalize hx : x A = u at h
  generalize hy : y B = v at h
  cases h with
  | none =>
    rw [bind_of_none hx, bind_of_none hy]
    exact .none
  | @some last last' h =>
    obtain ⟨⟨log, x'⟩, A'⟩ := last
    obtain ⟨⟨log', y'⟩, B'⟩ := last'
    obtain ⟨⟨logs, results⟩, stores⟩ := h
    cases results with
    | error faults =>
      rw [bind_of_error hx, bind_of_error hy]
      exact .some ⟨⟨logs, .error faults⟩, stores⟩
    | @ok a b related =>
      rw [bind_of_ok hx, bind_of_ok hy]
      have rest := second a b related A' B' stores
      generalize f a A' = u at rest
      generalize g b B' = v at rest
      cases rest with
      | none => exact .none
      | some h => exact .some ⟨⟨List.rel_append logs h.1.log, h.1.result⟩, h.2⟩

theorem write {event event' : Event} (h : event.Renamed event') :
    Renames defining (Run.write event) (Run.write event') fun _ _ => True :=
  fun _ _ stores => .some ⟨⟨.cons h .nil, .ok trivial⟩, stores⟩

theorem writeNotes (notes : List Note) :
    Renames defining (Run.writeNotes notes) (Run.writeNotes notes) fun _ _ => True :=
  fun _ _ stores => .some ⟨⟨renamed_notes notes, .ok trivial⟩, stores⟩

theorem ofAct (x : Act α) : Renames defining (Run.ofAct x) (Run.ofAct x) Eq := by
  intro A B stores
  obtain ⟨log, fault | a⟩ := x
  · exact .some ⟨⟨renamed_notes log, .error (.refl fault)⟩, stores⟩
  · exact .some ⟨⟨renamed_notes log, .ok rfl⟩, stores⟩

theorem settle {x y : Run Result} (h : Renames defining x y Eq) (c : Cursor) :
    Renames defining (x.settle c) (y.settle c) Eq := by
  rw [settle_eq_bind, settle_eq_bind]
  exact h.bind fun _ _ same => .pure (by rw [same])

theorem allocate {cell cell' : Cell} (cells : cell.Renamed cell') :
    Renames defining (ofBuild (Store.allocate cell)) (ofBuild (Store.allocate cell')) Eq :=
  fun _ _ stores => .some ⟨⟨.nil, .ok stores.size⟩, stores.push cells⟩

theorem fill {p q : Parser} (parsers : p.Renamed q) (cell : Nat) :
    Renames defining (ofBuild (modify fun store => store.fill cell p))
      (ofBuild (modify fun store => store.fill cell q)) fun _ _ => True :=
  fun _ _ stores => .some ⟨⟨.nil, .ok trivial⟩, stores.fill parsers cell⟩

theorem lookup (envs : Env.Renamed env env') (name : String) :
    Renames defining (ofBuild (Rule.lookup env name)) (ofBuild (Rule.lookup env' name))
      Parser.Renamed := by
  have parsers := envs.lookup name
  unfold Rule.lookup
  generalize env.lookup name = found at parsers
  generalize env'.lookup name = found' at parsers
  cases parsers with
  | none => exact .raise (.refl _)
  | some h => exact .pure h

theorem checked {refusal refusal' : Option Fault} (same : refusal = refusal') {p q : Parser}
    (h : p.Renamed q) : Renames defining (ofBuild (Rule.checked refusal p))
      (ofBuild (Rule.checked refusal' q)) Parser.Renamed := by
  subst same
  cases refusal with
  | none => exact .pure h
  | some fault => exact .raise (.refl fault)

theorem build (envs : Env.Renamed env env') {r r' : Rule} (h : r.Renamed r') :
    Renames defining (ofBuild (r.build env)) (ofBuild (r'.build env')) Parser.Renamed := by
  induction h with
  | atom same => exact .checked same.refusal?_eq (.atom same)
  | ref name => exact lookup envs name
  | lazy name name' watched thunks _ =>
    simp only [Rule.build, Store.newLazy, ofBuild_bind]
    refine (allocate (.lazy name name' watched thunks .none)).bind fun cell cell' same => ?_
    rw [same]
    exact .pure (.lazy cell' name name')
  | raise fault => exact .raise (.refl fault)
  | andThen notes _ rest ih =>
    simp only [Rule.build, ofBuild_bind]
    exact ih.bind fun p q h => .pure (.andThen notes h rest)
  | unary same _ ih =>
    simp only [Rule.build, ofBuild_bind]
    exact ih.bind fun p q h => .checked same.refusal?_eq (h.unary same)
  | binary op _ _ ihl ihr =>
    simp only [Rule.build, ofBuild_bind]
    exact ihl.bind fun p p' hp => ihr.bind fun q q' hq => .pure (Parser.Renamed.congruent.binary op hp hq)
  | between _ _ _ iho ihc ihb =>
    simp only [Rule.build, ofBuild_bind]
    refine iho.bind fun p p' hp => ihc.bind fun q q' hq => ihb.bind fun t t' ht => .pure ?_
    exact Parser.Renamed.congruent.between hp hq ht

theorem target (cell : Nat) (name name' : String) :
    Renames defining (Run.target cell name) (Run.target cell name') Parser.Renamed := by
  intro A B stores
  have parsers := stores.target? cell
  unfold Run.target
  generalize A.target? cell = found at parsers
  generalize B.target? cell = found' at parsers
  cases parsers with
  | none => exact raise (.undefinedForward name name') A B stores
  | some h => exact .some ⟨⟨.nil, .ok h⟩, stores⟩

theorem force (envs : Env.Renamed env env') (cell : Nat) :
    Renames defining (Run.force env cell) (Run.force env' cell) Parser.Renamed := by
  intro A B stores
  have cells := stores.cells cell
  unfold Run.force
  generalize A[cell]? = held at cells
  generalize B[cell]? = held' at cells
  cases cells with
  | none => exact raise (.refl _) A B stores
  | some held =>
    cases held with
    | forward => exact raise (.refl _) A B stores
    | @lazy name name' watched thunk thunk' built built' thunks parsers =>
      cases parsers with
      | some h => exact .some ⟨⟨.nil, .ok h⟩, stores⟩
      | none =>
        have logs : List.Forall₂ Event.Renamed (if watched then [.filled name] else [])
            (if watched then [.filled name'] else []) := by
          cases watched
          · exact .nil
          · exact .cons (.filled name name') .nil
        have made : Renames defining (ofBuild (thunk.build env)) (ofBuild (thunk'.build env'))
            Parser.Renamed := build envs thunks
        have ended := made A B stores
        dsimp only
        rcases hA : thunk.build env A with ⟨x, A'⟩
        rcases hB : thunk'.build env' B with ⟨y, B'⟩
        rw [ofBuild_eq hA, ofBuild_eq hB] at ended
        cases ended with
        | some h =>
          obtain ⟨⟨-, results⟩, stores⟩ := h
          cases results with
          | error faults => exact .some ⟨⟨logs, .error faults⟩, stores⟩
          | ok parsers => exact .some ⟨⟨logs, .ok parsers⟩, stores.fill parsers cell⟩

theorem rounds {round round' : Cursor → Run Result} {stop stop' : Cursor → Event}
    (each : ∀ c, Renames defining (round c) (round' c) Eq)
    (stops : ∀ c, (stop c).Renamed (stop' c)) (n : Nat) (c : Cursor) :
    Renames defining (Run.rounds round stop n c) (Run.rounds round' stop' n c) Eq := by
  induction n generalizing c with
  | zero => exact .spent
  | succ n ih =>
    refine (each c).bind fun r r' same => ?_
    rw [same]
    split
    · split
      · exact (write (stops c)).bind fun _ _ _ => .pure rfl
      · refine (ih r'.cursor).bind fun x x' same => ?_
        rw [same]
        exact .pure rfl
    · exact .pure rfl

end Run.Renames

namespace Parser

variable {env env' : Env}

theorem step_renames (envs : Env.Renamed env env') {run run' : Parser → Cursor → Run Result}
    (each : ∀ p q c, p.Renamed q → (run p c).Renames defining (run' q c) Eq) (n : Nat) {p q : Parser}
    (h : p.Renamed q) (c : Cursor) :
    (step run n env p c).Renames defining (step run' n env' q c) Eq := by
  cases h with
  | atom same =>
    simp only [step, same.run_eq]
    exact .ofAct _
  | andThen notes first rest =>
    refine (each _ _ c first).bind fun r r' same => ?_
    rw [same]
    split
    · refine (Run.Renames.writeNotes _).bind fun _ _ _ => ?_
      exact (Run.Renames.build envs (rest r')).bind fun q q' parsers => each q q' r'.cursor parsers
    · exact .pure rfl
  | both combine first second =>
    refine (each _ _ c first).bind fun r r' same => ?_
    rw [same]
    split
    · refine (each _ _ r'.cursor second).bind fun t t' same => ?_
      rw [same]
      split
      · refine (Run.Renames.ofAct _).bind fun v v' same => ?_
        rw [same]
        exact .pure rfl
      · exact .pure rfl
    · exact .pure rfl
  | map f part =>
    refine (each _ _ c part).bind fun r r' same => ?_
    rw [same]
    split
    · refine (Run.Renames.ofAct _).bind fun v v' same => ?_
      rw [same]
      exact .pure rfl
    · exact .pure rfl
  | or first second =>
    refine (each _ _ c first).bind fun r r' same => ?_
    rw [same]
    split
    · exact .pure rfl
    · exact each _ _ c second
  | not part => exact (each _ _ c part).bind fun r r' same => .pure (by rw [same])
  | many part =>
    simp only [step, Run.repeated_nil]
    refine (Run.Renames.rounds (fun d => each _ _ d part) (fun d => .stopped _ _ d.position) n c).bind
      fun x x' same => ?_
    rw [same]
    exact .pure rfl
  | lookAhead part => exact (each _ _ c part).bind fun r r' same => .pure (by rw [same])
  | trace tag text text' part =>
    refine (Run.Renames.write (.entered tag text text' c)).bind fun _ _ _ => ?_
    refine (each _ _ c part).bind fun r r' same => ?_
    rw [same]
    exact (Run.Renames.write (r'.renamed_traceEnd tag text text' c)).bind fun _ _ _ => .pure rfl
  | label name name' part => exact each _ _ c part
  | wrap name name' part => exact each _ _ c part
  | forward cell name name' =>
    exact (Run.Renames.target cell _ _).bind fun p q parsers => each p q c parsers
  | lazy cell name name' =>
    exact (Run.Renames.force envs cell).bind fun p q parsers => each p q c parsers

theorem run_renames (envs : Env.Renamed env env') (n : Nat) {p q : Parser} (h : p.Renamed q)
    (c : Cursor) : (run env n p c).Renames defining (run env' n q c) Eq := by
  -- No step depends on a name, so one budget does for both runs.
  induction n generalizing p q c with
  | zero => exact .spent
  | succ n ih => exact .settle (step_renames envs (fun p q c h => ih h c) n h c) c

theorem undefinedCell_renames (h : defining) {p q : Parser} (parsers : p.Renamed q) :
    p.undefinedCell.Renames defining q.undefinedCell Eq := by
  intro A B stores
  cases parsers with
  | forward cell name name' =>
    have targets := stores.target? cell
    simp only [undefinedCell]
    generalize A.target? cell = found at targets
    generalize B.target? cell = found' at targets
    cases targets with
    | none => exact Run.Renames.pure rfl A B stores
    | some => exact Run.Renames.raise (.alreadyDefined h _ _) A B stores
  | _ =>
    -- What is no forward parser is named in the fault.
    exact Run.Renames.raise (.unbound h _ _) A B stores

theorem define_renames (h : defining) {p q target target' : Parser} (parsers : p.Renamed q)
    (targets : target.Renamed target') :
    (p.define target).Renames defining (q.define target') fun _ _ => True := by
  refine (undefinedCell_renames h parsers).bind fun cell cell' same => ?_
  rw [same]
  exact (Run.Renames.write (.defined _ _ _ _)).bind fun _ _ _ => .fill targets cell'

theorem defineValue_renames (h : defining) {p q : Parser} (parsers : p.Renamed q) (value : Value) :
    (p.defineValue value).Renames defining (q.defineValue value) fun _ _ => True :=
  (undefinedCell_renames h parsers).bind fun _ _ _ => .raise (.refl _)

end Parser

/-- The command defines a forward parser. -/
def Command.Defines : Command → Prop
  | .define _ _ | .defineValue _ _ => True
  | _ => False

namespace Session

variable {s s' : Session} {command command' : Command}

theorem meaning_renames (sessions : s.Renamed s') (commands : command.Renamed command') (n : Nat) :
    (meaning n s command).Renames command.Defines (meaning n s' command')
      fun a b => a.1.Renamed b.1 ∧ Env.Renamed a.2.1 b.2.1 ∧ a.2.2 = b.2.2 := by
  have built : ∀ {rule rule' : Rule}, rule.Renamed rule' →
      (Run.ofBuild (rule.build s.env)).Renames command.Defines (Run.ofBuild (rule'.build s'.env))
        Parser.Renamed :=
    fun rules => .build sessions.env rules
  have ran : ∀ {p q : Parser} (c : Cursor), p.Renamed q →
      (p.run s.env n c).Renames command.Defines (q.run s'.env n c) Eq :=
    fun c parsers => Parser.run_renames sessions.env n parsers c
  have extended : ∀ (name : String) {p q : Parser}, p.Renamed q →
      Env.Renamed ((name, p) :: s.env) ((name, q) :: s'.env) :=
    fun name _ _ parsers => .cons ⟨rfl, parsers⟩ sessions.env
  cases commands with
  | bind name rules =>
    refine (built rules).bind fun p q parsers => .pure ?_
    exact ⟨.bound _ _, extended name parsers, sessions.cursor⟩
  | declare name label label' =>
    simp only [meaning, Store.newForward, Run.ofBuild_bind, LawfulMonad.bind_assoc]
    refine (Run.Renames.allocate (.forward .none)).bind fun cell cell' same => ?_
    rw [same]
    exact .pure ⟨.bound _ _, extended name (.forward cell' label label'), sessions.cursor⟩
  | define name rules =>
    refine (Run.Renames.lookup sessions.env name).bind fun p q parsers => ?_
    refine (built rules).bind fun target target' targets => ?_
    refine (Parser.define_renames trivial parsers targets).bind fun _ _ _ => .pure ?_
    exact ⟨.defined, sessions.env, sessions.cursor⟩
  | defineValue name value =>
    refine (Run.Renames.lookup sessions.env name).bind fun p q parsers => ?_
    refine (Parser.defineValue_renames trivial parsers value).bind fun _ _ _ => .pure ?_
    exact ⟨.defined, sessions.env, sessions.cursor⟩
  | inspect rules =>
    refine (built rules).bind fun p q parsers => .pure ?_
    rw [parsers.isForward_eq]
    exact ⟨.inspected _ _ _ _ _, sessions.env, sessions.cursor⟩
  | parse rules text position =>
    refine (built rules).bind fun p q parsers => (Run.Renames.ofAct _).bind fun c c' same => ?_
    rw [same]
    refine (ran c' parsers).bind fun r r' same => .pure ?_
    rw [same]
    exact ⟨.parsed _ _ _, sessions.env, sessions.cursor⟩
  | run rules text requireEnd =>
    refine (built rules).bind fun p q parsers => ?_
    have whole : (p.runText s.env n text requireEnd).Renames False (q.runText s'.env n text requireEnd)
        Eq := by
      refine (ran (.start text) parsers).bind fun r r' same => .pure ?_
      rw [same]
    refine whole.bind fun outcome outcome' same => .pure ?_
    rw [same]
    exact ⟨.ran _ _ _, sessions.env, sessions.cursor⟩
  | seek text position =>
    refine (Run.Renames.ofAct _).bind fun c c' same => .pure ?_
    rw [same]
    exact ⟨.moved _, sessions.env, rfl⟩
  | feed rules =>
    refine (built rules).bind fun p q parsers => ?_
    rw [sessions.cursor]
    refine (ran s'.cursor parsers).bind fun r r' same => .pure ?_
    rw [same]
    exact ⟨.fed _, sessions.env, rfl⟩

/-- One command, in sessions that differ in names only. -/
theorem step_renames (sessions : s.Renamed s') (commands : command.Renamed command') (n : Nat) :
    Option.Rel (fun last last' => Logged.Renamed command.Defines Answer.Renamed last.1 last'.1 ∧
      last.2.Renamed last'.2) (s.step n command) (s'.step n command') := by
  have meant := meaning_renames sessions commands n s.store s'.store sessions.store
  rw [step_eq_conclude, step_eq_conclude]
  generalize meaning n s command s.store = u at meant
  generalize meaning n s' command' s'.store = v at meant
  cases meant with
  | none => exact .none
  | @some last last' h =>
    obtain ⟨⟨log, x⟩, A⟩ := last
    obtain ⟨⟨log', y⟩, B⟩ := last'
    obtain ⟨⟨logs, results⟩, stores⟩ := h
    cases results with
    | error faults =>
      exact .some ⟨⟨logs, .error faults⟩, sessions.env, stores, sessions.cursor⟩
    | ok related =>
      obtain ⟨answers, envs, cursors⟩ := related
      exact .some ⟨⟨logs, .ok answers⟩, envs, stores, cursors⟩

/-- Many commands, in sessions that differ in names only. -/
theorem Performs.renames {commands commands' : List Command} {answers : List (Logged Event Answer)}
    {t : Session} (performed : Performs commands s answers t) (sessions : s.Renamed s')
    (renamed : List.Forall₂ Command.Renamed commands commands') :
    ∃ answers' t', Performs commands' s' answers' t' ∧
      List.Forall₂ (Logged.Renamed True Answer.Renamed) answers answers' ∧ t.Renamed t' := by
  induction performed generalizing s' commands' with
  | nil s =>
    cases renamed
    exact ⟨[], s', .nil s', .nil, sessions⟩
  | @cons _ _ _ _ _ budget _ _ taken _ ih =>
    cases renamed with | @cons _ command' _ _ first later =>
    have h := step_renames sessions first budget
    rw [taken] at h
    generalize taken' : step budget s' command' = v at h
    cases h with | @some _ last' h =>
    obtain ⟨answers', t', performed', related, sessions'⟩ := ih h.2 later
    exact ⟨_, t', .cons taken' performed', .cons (h.1.imp fun _ => trivial) related, sessions'⟩

/-- Names carry no meaning. In sessions that differ in names only, commands that differ in names only are
performed alike, with answers that do. After that, two rules that differ in names only, wherever they are
parsed, come to the same success, value and cursor, or raise the same fault, except that the message for
a forward parser that is not defined gives its name; neither ends where the other does not. What they
record differs in names only, and so do the sessions that they leave. -/
theorem parse_renamed {commands commands' : List Command} {answers : List (Logged Event Answer)}
    {t : Session} {rule rule' : Rule} (sessions : s.Renamed s')
    (renamed : List.Forall₂ Command.Renamed commands commands') (rules : rule.Renamed rule')
    (performed : Performs commands s answers t) :
    ∃ answers' t', Performs commands' s' answers' t' ∧
      List.Forall₂ (Logged.Renamed True Answer.Renamed) answers answers' ∧
      ∀ (text : Array Char) (position : Int) (budget : Nat),
        Option.Rel (fun last last' => Logged.Renamed False Answer.Renamed last.1 last'.1 ∧
          last.2.Renamed last'.2) (t.step budget (.parse rule text position))
          (t'.step budget (.parse rule' text position)) := by
  obtain ⟨answers', t', performed', related, sessions'⟩ := performed.renames sessions renamed
  refine ⟨answers', t', performed', related, fun text position budget => ?_⟩
  exact step_renames sessions' (.parse rules text position) budget

/-- Letters that are traced, under names that `f` gives. -/
def letterCommands (f : String → String) : List Command :=
  [.declare "letter" (f "letter"), .declare "later" (f "later"),
    .define "letter" (.lazy (some (f "thunk")) true
      (.unary (.trace 0 (f "letter")) (.ofTest (· != '1') (f "letter"))))]

/-- Letters, or else a forward parser that is never defined. -/
def letters (f : String → String) : Rule :=
  .or (.unary (.label (f "letters")) (.many1 (.ref "letter"))) (.ref "later")

theorem letterCommands_renamed (f g : String → String) :
    List.Forall₂ Command.Renamed (letterCommands f) (letterCommands g) := by
  refine .cons (.declare _ _ _) (.cons (.declare _ _ _) (.cons (.define _ ?_) .nil))
  exact .lazy _ _ _ (.unary (.trace _ _ _) (.atom (.satisfy _ _ _)))

theorem letters_renamed (f g : String → String) : (letters f).Renamed (letters g) :=
  .binary _ (.unary (.label _ _) (.unary (.refl _) (.ref _))) (.ref _)

/-- Without names the letters are the same, and what is not defined is still not defined. -/
theorem parse_renamed_nameless :
    let named := start.after 0 (letterCommands id)
    ∃ answers answers' nameless, Performs (letterCommands id) start answers named ∧
      Performs (letterCommands fun _ => "") start answers' nameless ∧
      (∃ r log log' name u u', r = ⟨.list [.ofChar 'a', .ofChar 'b'], ⟨#['a', 'b', '1'], 2⟩, true⟩ ∧
        named.step 9 (.parse (letters id) #['a', 'b', '1'] 0) =
          some (⟨log, .ok (.parsed "letters | later" r)⟩, u) ∧
        nameless.step 9 (.parse (letters fun _ => "") #['a', 'b', '1'] 0) =
          some (⟨log', .ok (.parsed name r)⟩, u')) ∧
      ∃ log log' name u u', named.step 9 (.parse (letters id) #['1'] 0) =
          some (⟨log, .error (.undefinedForward "later")⟩, u) ∧
        nameless.step 9 (.parse (letters fun _ => "") #['1'] 0) =
          some (⟨log', .error (.undefinedForward name)⟩, u') := by
  intro named
  have declared : start.step 0 (letterCommands id)[0] =
    some (_, start.after 0 ((letterCommands id).take 1)) := rfl
  have declared' : (start.after 0 ((letterCommands id).take 1)).step 0 (letterCommands id)[1] =
    some (_, start.after 0 ((letterCommands id).take 2)) := rfl
  have defined : (start.after 0 ((letterCommands id).take 2)).step 0 (letterCommands id)[2] =
    some (_, named) := rfl
  have performed : Performs (letterCommands id) start _ named :=
    .cons declared (.cons declared' (.cons defined (.nil named)))
  obtain ⟨answers', nameless, performed', -, agree⟩ := parse_renamed (.refl start)
    (letterCommands_renamed id fun _ => "") (letters_renamed id fun _ => "") performed
  refine ⟨_, answers', nameless, performed, performed', ?_, ?_⟩
  · have matched : named.step 9 (.parse (letters id) #['a', 'b', '1'] 0) =
        some (⟨_, .ok (.parsed "letters | later"
          ⟨.list [.ofChar 'a', .ofChar 'b'], ⟨#['a', 'b', '1'], 2⟩, true⟩)⟩, _) := rfl
    have same := agree #['a', 'b', '1'] 0 9
    rw [matched] at same
    generalize nameless.step 9 _ = v at same ⊢
    cases same with | @some _ last h =>
    obtain ⟨⟨log', y⟩, u'⟩ := last
    obtain ⟨⟨-, results⟩, -⟩ := h
    cases results with | ok related =>
    cases related with | parsed _ name r =>
    exact ⟨_, _, log', name, _, u', rfl, matched, rfl⟩
  · have raised : named.step 9 (.parse (letters id) #['1'] 0) =
        some (⟨_, .error (.undefinedForward "later")⟩, _) := rfl
    have same := agree #['1'] 0 9
    rw [raised] at same
    generalize nameless.step 9 _ = v at same ⊢
    cases same with | @some _ last h =>
    obtain ⟨⟨log', y⟩, u'⟩ := last
    obtain ⟨⟨-, results⟩, -⟩ := h
    cases results with | error faults =>
    rcases Fault.renamed_false_iff.1 faults with rfl | ⟨_, name, -, rfl⟩
    · exact ⟨_, log', _, _, u', raised, rfl⟩
    · exact ⟨_, log', name, _, u', raised, rfl⟩

end Session

end Rewind
