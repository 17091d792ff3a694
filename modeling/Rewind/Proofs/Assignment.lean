import Rewind.Proofs.Inert
import Rewind.Proofs.Origins
import Rewind.Proofs.Parses

namespace Rewind

def Event.isDefinition : Event → Bool
  | .defined _ _ => true
  | .note _ | .stopped _ _ | .filled _ | .entered _ _ _ | .succeeded _ _ _ _ | .failed _ _ _ => false

/-- The records of definitions, in order. -/
def definitions (log : List Event) : List Event := log.filter Event.isDefinition

theorem definitions_append (log log' : List Event) :
    definitions (log ++ log') = definitions log ++ definitions log' :=
  List.filter_append log log'

theorem definitions_notes (notes : List Note) : definitions (notes.map .note) = [] := by
  refine List.filter_eq_nil_iff.2 fun event mem => ?_
  obtain ⟨note, -, rfl⟩ := List.mem_map.1 mem
  simp [Event.isDefinition]

/-- Wherever it begins, the run writes no record of a definition. -/
def Run.DefinesNothing {α : Type} (x : Run α) : Prop :=
  ∀ A last, x A = some last → definitions last.1.log = []

namespace Run.DefinesNothing

variable {α β : Type}

theorem pure (a : α) : (Pure.pure a : Run α).DefinesNothing := fun _ _ ended => by
  cases ended
  rfl

theorem raise (fault : Fault) : (Run.raise fault : Run α).DefinesNothing := fun _ _ ended => by
  cases ended
  rfl

theorem bind {x : Run α} {f : α → Run β} (first : x.DefinesNothing)
    (second : ∀ a, (f a).DefinesNothing) : (x >>= f).DefinesNothing := by
  intro A last ended
  rcases bind_eq_some_iff.1 ended with
    ⟨log, fault, store, hx, rfl⟩ | ⟨log, a, store, last', hx, hf, rfl⟩
  · exact first _ _ hx
  · show definitions (log ++ last'.1.log) = []
    rw [definitions_append, second a _ _ hf, List.append_nil]
    exact first _ _ hx

theorem settle {x : Run Result} (h : x.DefinesNothing) (start : Cursor) :
    (x.settle start).DefinesNothing := by
  rw [settle_eq_bind]
  exact h.bind fun _ => .pure _

theorem write {event : Event} (other : event.isDefinition = false) :
    (Run.write event).DefinesNothing := fun _ _ ended => by
  cases ended
  simp [Logged.write, definitions, other]

theorem writeNotes (notes : List Note) : (Run.writeNotes notes).DefinesNothing :=
  fun _ _ ended => by
    cases ended
    exact definitions_notes notes

theorem ofAct (x : Act α) : (Run.ofAct x).DefinesNothing := fun _ _ ended => by
  cases ended
  exact definitions_notes x.log

theorem ofBuild (x : Build α) : (Run.ofBuild x).DefinesNothing := fun _ _ ended => by
  cases ended
  rfl

theorem target (cell : Nat) (name : String) : (Run.target cell name).DefinesNothing := by
  intro A last ended
  unfold Run.target at ended
  split at ended
  · cases ended
    rfl
  · cases ended
    rfl

theorem force (env : Env) (cell : Nat) : (Run.force env cell).DefinesNothing := by
  have filled : ∀ (watched : Bool) (name : Option String),
      definitions (if watched then [.filled name] else []) = [] := by
    intro watched name
    cases watched
    · rfl
    · rfl
  intro A last ended
  unfold Run.force at ended
  split at ended
  · cases ended
    rfl
  · next name watched thunk _ =>
    dsimp only at ended
    split at ended
    · cases ended
      exact filled watched name
    · cases ended
      exact filled watched name
  · cases ended
    rfl

theorem undefinedCell (p : Parser) : p.undefinedCell.DefinesNothing := by
  intro A last ended
  unfold Parser.undefinedCell at ended
  split at ended
  · split at ended
    · cases ended
      rfl
    · cases ended
      rfl
  · cases ended
    rfl

theorem rounds {round : Cursor → Run Result} {stop : Cursor → Event}
    (each : ∀ c, (round c).DefinesNothing) (other : ∀ c, (stop c).isDefinition = false) (n : Nat)
    (c : Cursor) : (Run.rounds round stop n c).DefinesNothing := by
  induction n generalizing c with
  | zero => exact fun _ _ ended => nomatch ended
  | succ n ih =>
    refine (each c).bind fun r => ?_
    split
    · split
      · exact (write (other c)).bind fun _ => .pure _
      · exact (ih r.cursor).bind fun _ => .pure _
    · exact .pure _

end Run.DefinesNothing

namespace Parser

variable {env : Env}

theorem step_definesNothing {run : Parser → Cursor → Run Result}
    (each : ∀ p c, (run p c).DefinesNothing) (budget : Nat) (p : Parser) (c : Cursor) :
    (step run budget env p c).DefinesNothing := by
  cases p with
  | atom a => exact .ofAct _
  | andThen p notes next =>
    refine (each p c).bind fun r => ?_
    split
    · refine (Run.DefinesNothing.writeNotes _).bind fun _ => ?_
      exact (Run.DefinesNothing.ofBuild _).bind fun q => each q r.cursor
    · exact .pure r
  | both p q combine =>
    refine (each p c).bind fun r => ?_
    split
    · refine (each q r.cursor).bind fun t => ?_
      split
      · exact (Run.DefinesNothing.ofAct _).bind fun _ => .pure _
      · exact .pure t
    · exact .pure r
  | map p f =>
    refine (each p c).bind fun r => ?_
    split
    · exact (Run.DefinesNothing.ofAct _).bind fun _ => .pure _
    · exact .pure r
  | or p q =>
    refine (each p c).bind fun r => ?_
    split
    · exact .pure r
    · exact each q c
  | not p => exact (each p c).bind fun _ => .pure _
  | many p =>
    simp only [step, Run.repeated_nil]
    exact (Run.DefinesNothing.rounds (each p) (fun _ => rfl) budget c).bind fun _ => .pure _
  | lookAhead p => exact (each p c).bind fun _ => .pure _
  | trace tag text p =>
    have ended : ∀ r : Result, (r.traceEnd tag text c).isDefinition = false := by
      intro r
      unfold Result.traceEnd
      split
      · rfl
      · rfl
    refine (Run.DefinesNothing.write rfl).bind fun _ => (each p c).bind fun r => ?_
    exact (Run.DefinesNothing.write (ended r)).bind fun _ => .pure r
  | label p name => exact each p c
  | wrap p name => exact each p c
  | forward cell name => exact (Run.DefinesNothing.target cell _).bind fun p => each p c
  | lazy cell name => exact (Run.DefinesNothing.force env cell).bind fun p => each p c

theorem run_definesNothing (budget : Nat) (p : Parser) (c : Cursor) :
    (run env budget p c).DefinesNothing := by
  induction budget generalizing p c with
  | zero => exact fun _ _ ended => nomatch ended
  | succ budget ih => exact (step_definesNothing ih budget p c).settle c

end Parser

/-- The run ends in the fault. -/
def Run.Faults {α : Type} (x : Run α) (A : Store) (fault : Fault) : Prop :=
  ∃ log B, x A = some (⟨log, .error fault⟩, B)

namespace Run.Faults

variable {α β : Type} {x : Run α} {f : α → Run β} {A B : Store} {fault : Fault}

theorem first (h : x.Faults A fault) : (x >>= f).Faults A fault := by
  obtain ⟨log, B, hx⟩ := h
  exact ⟨log, B, bind_of_error hx⟩

theorem next {log : List Event} {a : α} (before : x A = some (⟨log, .ok a⟩, B))
    (h : (f a).Faults B fault) : (x >>= f).Faults A fault := by
  obtain ⟨log', D, hf⟩ := h
  exact ⟨log ++ log', D, by rw [bind_of_ok before, hf]; rfl⟩

theorem settle {x : Run Result} (h : x.Faults A fault) (start : Cursor) :
    (x.settle start).Faults A fault := by
  rw [settle_eq_bind]
  exact h.first

end Run.Faults

namespace Call

variable {env : Env} {a b : Call} {fault : Fault}

def Faults (env : Env) (a : Call) (fault : Fault) : Prop :=
  (a.parser.eval env a.cursor).Faults a.store fault

/-- A fault in a later round is one of the loop. -/
theorem Rounds.faults {p : Parser} {c d : Cursor} {store store' : Store}
    (rounds : Rounds env p c store d store') (h : (p.rounds env d).Faults store' fault) :
    (p.rounds env c).Faults store fault := by
  induction rounds with
  | first => exact h
  | next _ round ok moved ih =>
    -- A fault of the last round is one of the loop from the round before on.
    refine ih ?_
    obtain ⟨log, round⟩ := round
    rw [Parser.rounds_eq]
    refine .next round ?_
    rw [if_pos ok, if_neg (by simp [moved])]
    exact .first h

/-- No call keeps a fault of one that it makes to itself. -/
theorem Makes.faults (made : Makes env a b) (h : b.Faults env fault) : a.Faults env fault := by
  unfold Faults at h ⊢
  cases made with
  | andThen =>
    rw [Parser.eval_andThen]
    exact .first h
  | andThen_next first ok built =>
    obtain ⟨log, first⟩ := first
    rw [Parser.eval_andThen]
    refine .next first ?_
    rw [if_pos ok]
    refine .next (show Run.writeNotes _ _ = some (⟨_, .ok ()⟩, _) from rfl) ?_
    exact .next (Run.ofBuild_eq built) (h.settle _)
  | both =>
    rw [Parser.eval_both]
    exact .first h
  | both_next first ok =>
    obtain ⟨log, first⟩ := first
    rw [Parser.eval_both]
    refine .next first ?_
    rw [if_pos ok]
    exact .first h
  | map =>
    rw [Parser.eval_map]
    exact .first h
  | or =>
    rw [Parser.eval_or]
    exact .first h
  | or_next first failed =>
    obtain ⟨log, first⟩ := first
    rw [Parser.eval_or]
    refine .next first ?_
    rw [if_neg (by simp [failed])]
    exact h
  | not =>
    rw [Parser.eval_not]
    exact .first h
  | many rounds =>
    rw [Parser.eval_many]
    refine .first (rounds.faults ?_)
    rw [Parser.rounds_eq]
    exact .first h
  | lookAhead =>
    rw [Parser.eval_lookAhead]
    exact .first h
  | trace =>
    rw [Parser.eval_eq_step env _ _ (by simp), Parser.step, Run.settle_bind]
    refine .next (show Run.write _ _ = some (⟨_, .ok ()⟩, _) from rfl) ?_
    rw [Run.settle_bind]
    exact .first h
  | label =>
    rw [Parser.eval_label]
    exact h
  | wrap =>
    rw [Parser.eval_eq_step env _ _ (by simp), Parser.step, Parser.eval_settle]
    exact h
  | forward found =>
    rw [Parser.eval_forward]
    exact .next (Run.target_of_eq_some found _) h
  | lazy forced =>
    rw [Parser.eval_lazy]
    exact .next forced h

theorem Within.faults (within : Within env a b) (h : b.Faults env fault) : a.Faults env fault := by
  induction within with
  | refl => exact h
  | tail _ made ih => exact ih (made.faults h)

/-- Wherever a run in the session gets to, forward parsers stand for what they stand for in the
session. -/
theorem Sound.target {s : Session} (sound : a.Sound s) {cell : Nat} {target : Option Parser}
    (there : s.store[cell]? = some (.forward target)) : a.store.target? cell = target := by
  rw [Store.target?, sound.grown.forward_eq there]

theorem Sound.within {s : Session} (inside : s.Scoped) (henv : Trait.stocked.OfEnv s.env)
    (sound : a.Sound s) (within : Within s.env a b) : b.Sound s := by
  induction within with
  | refl => exact sound
  | tail _ made ih => exact ih.makes inside henv made

end Call

/-- A parser that a forward parser was to stand for, and the label of that. -/
structure Offer where
  label : String
  target : Parser

/-- The record that the forward parser with the cell took what it was offered. -/
def Offer.record (cell : Nat) (offer : Offer) : Event :=
  .defined (Parser.forward cell offer.label).name offer.target.name

theorem Store.getElem?_fill_of_ne {A : Store} {i cell : Nat} (apart : cell ≠ i) (p : Parser) :
    (A.fill cell p)[i]? = A[i]? := by
  unfold Store.fill
  split
  · exact Array.getElem?_setIfInBounds_ne apart
  · exact Array.getElem?_setIfInBounds_ne apart
  · rfl

theorem Store.getElem?_fill_of_forward {A : Store} {cell : Nat}
    (there : A[cell]? = some (.forward none)) (p : Parser) :
    (A.fill cell p)[cell]? = some (.forward (some p)) := by
  have present : cell < A.size := (Array.getElem?_eq_some_iff.1 there).1
  simp only [Store.fill, there]
  simp [present]

namespace Session

/-- The label of the forward parser with the cell, if that is what the name stands for. -/
def label? (s : Session) (cell : Nat) (name : String) : Option String :=
  match s.env.lookup name with
  | some (.forward other label) => if other = cell then some label else none
  | _ => none

/-- What the command offers to the forward parser with the cell. A rule that cannot be built, or a value
that is no parser, is no offer. -/
def offer? (s : Session) (cell : Nat) : Command → Option Offer
  | .define name rule => do
    let label ← s.label? cell name
    let target ← (rule.build s.env s.store).1.toOption
    return ⟨label, target⟩
  | _ => none

/-- The records of definitions that a command wrote, unless it defines something else than the cell. -/
def defining (s : Session) (cell : Nat) (command : Command) (log : List Event) : List Event :=
  match command with
  | .define name _ => if (s.label? cell name).isSome then definitions log else []
  | _ => definitions log

/-- Commands of any kind, each ended in any way, lead from one session to another. On the way these
parsers were offered to the forward parser with the cell, and these records of its definition were
written. -/
inductive Tried (cell : Nat) (s : Session) : List Offer → List Event → Session → Prop
  | refl : Tried cell s [] [] s
  | tail {s' s'' : Session} {offers : List Offer} {records : List Event} {command : Command}
      {budget : Nat} {answer : Logged Event Answer} (before : Tried cell s offers records s')
      (taken : s'.step budget command = some (answer, s'')) :
      Tried cell s (offers ++ (s'.offer? cell command).toList)
        (records ++ s'.defining cell command answer.log) s''

variable {s s' : Session} {cell : Nat} {name label : String} {rule : Rule} {A : Store} {p : Parser}
  {command : Command} {budget : Nat} {answer : Logged Event Answer}

theorem label?_eq_some_iff :
    s.label? cell name = some label ↔ s.env.lookup name = some (.forward cell label) := by
  unfold label?
  split
  · next other label' bound =>
    rw [bound]
    split
    · next same => simp [same]
    · next apart => simp [apart]
  · next other =>
    constructor
    · intro h
      cases h
    · intro bound
      exact absurd bound (other cell label)

theorem ofBuild_lookup (bound : s.env.lookup name = some p) :
    Run.ofBuild (Rule.lookup s.env name) s.store = some (⟨[], .ok p⟩, s.store) := by
  apply Run.ofBuild_eq
  simp only [Rule.lookup, bound]
  rfl

theorem undefinedCell_forward (cell : Nat) (label : String) (A : Store) :
    (Parser.forward cell label).undefinedCell A = some (⟨[], match A.target? cell with
      | none => .ok cell
      | some _ => .error (.alreadyDefined (Parser.forward cell label).name)⟩, A) := by
  rcases held : A.target? cell with _ | q
  · simp only [Parser.undefinedCell, held]
    rfl
  · simp only [Parser.undefinedCell, held]
    rfl

theorem step_define (bound : s.env.lookup name = some (.forward cell label)) (rule : Rule)
    (budget : Nat) :
    s.step budget (.define name rule) =
      some (match rule.build s.env s.store with
        | (.error fault, A) => (⟨[], .error fault⟩, ⟨s.env, A, s.cursor⟩)
        | (.ok p, A) => match A.target? cell with
          | none => (⟨[Offer.record cell ⟨label, p⟩], .ok .defined⟩, ⟨s.env, A.fill cell p, s.cursor⟩)
          | some _ => (⟨[], .error (.alreadyDefined (Parser.forward cell label).name)⟩,
            ⟨s.env, A, s.cursor⟩)) := by
  have found := ofBuild_lookup bound
  rcases built : rule.build s.env s.store with ⟨fault | p, A⟩
  · simp only [step, meaning, Run.bind_of_ok found, Run.bind_of_error (Run.ofBuild_eq built)]
    rfl
  simp only [step, meaning, Run.bind_of_ok found, Run.bind_of_ok (Run.ofBuild_eq built)]
  have asked := undefinedCell_forward cell label A
  rcases held : A.target? cell with _ | q
  · rw [held] at asked
    have defined : (Parser.forward cell label).define p A =
        some (⟨[Offer.record cell ⟨label, p⟩], .ok ()⟩, A.fill cell p) :=
      (Run.bind_of_ok asked).trans rfl
    rw [Run.bind_of_ok defined]
    rfl
  · rw [held] at asked
    have refused : (Parser.forward cell label).define p A =
        some (⟨[], .error (.alreadyDefined (Parser.forward cell label).name)⟩, A) :=
      Run.bind_of_error asked
    rw [Run.bind_of_error refused]
    rfl

/-- Whether there is a definition is asked before the value is looked at. -/
theorem step_defineValue (bound : s.env.lookup name = some (.forward cell label)) (value : Value)
    (budget : Nat) :
    s.step budget (.defineValue name value) = some (⟨[], .error (match s.store.target? cell with
      | none => .notParser value.kind
      | some _ => .alreadyDefined (Parser.forward cell label).name)⟩, s) := by
  simp only [step, meaning, Run.bind_of_ok (ofBuild_lookup bound)]
  have asked := undefinedCell_forward cell label s.store
  rcases held : s.store.target? cell with _ | q
  · rw [held] at asked
    have refused : (Parser.forward cell label).defineValue value s.store =
        some (⟨[], .error (.notParser value.kind)⟩, s.store) := (Run.bind_of_ok asked).trans rfl
    rw [Run.bind_of_error refused]
    rfl
  · rw [held] at asked
    have refused : (Parser.forward cell label).defineValue value s.store =
        some (⟨[], .error (.alreadyDefined (Parser.forward cell label).name)⟩, s.store) :=
      Run.bind_of_error asked
    rw [Run.bind_of_error refused]
    rfl

theorem meaning_definesNothing (other : ∀ name rule, command ≠ .define name rule) (s : Session)
    (budget : Nat) : (meaning budget s command).DefinesNothing := by
  have ran : ∀ (p : Parser) (c : Cursor), (p.run s.env budget c).DefinesNothing :=
    Parser.run_definesNothing budget
  cases command with
  | bind name rule => exact (Run.DefinesNothing.ofBuild _).bind fun _ => .pure _
  | declare name label => exact (Run.DefinesNothing.ofBuild _).bind fun _ => .pure _
  | define name rule => exact absurd rfl (other name rule)
  | defineValue name value =>
    refine (Run.DefinesNothing.ofBuild _).bind fun p => .bind (.bind ?_ fun _ => .raise _) fun _ => .pure _
    exact .undefinedCell p
  | inspect rule => exact (Run.DefinesNothing.ofBuild _).bind fun _ => .pure _
  | parse rule text position =>
    refine (Run.DefinesNothing.ofBuild _).bind fun p => ?_
    refine (Run.DefinesNothing.ofAct _).bind fun c => ?_
    exact (ran p c).bind fun _ => .pure _
  | run rule text requireEnd =>
    refine (Run.DefinesNothing.ofBuild _).bind fun p => .bind ?_ fun _ => .pure _
    exact (ran p _).bind fun _ => .pure _
  | seek text position => exact (Run.DefinesNothing.ofAct _).bind fun _ => .pure _
  | feed rule =>
    exact (Run.DefinesNothing.ofBuild _).bind fun p => (ran p _).bind fun _ => .pure _

theorem definitions_of_step (other : ∀ name rule, command ≠ .define name rule)
    (taken : s.step budget command = some (answer, s')) : definitions answer.log = [] := by
  rw [step_eq_conclude, Option.map_eq_some_iff] at taken
  obtain ⟨last, meant, concluded⟩ := taken
  have silent := meaning_definesNothing other s budget _ _ meant
  obtain ⟨⟨log, fault | ⟨a, env, cursor⟩⟩, store⟩ := last
  · cases concluded
    exact silent
  · cases concluded
    exact silent

/-- A forward parser that the command does not define stands for what it stood for. -/
theorem getElem?_of_step {target : Option Parser}
    (there : s.store[cell]? = some (.forward target))
    (other : ∀ name rule, command = .define name rule → s.label? cell name = none)
    (taken : s.step budget command = some (answer, s')) :
    s'.store[cell]? = some (.forward target) := by
  by_cases still : command.Still
  · exact (of_step_still still rfl (.refl s) taken).2.forward_eq there
  cases command with
  | bind name rule =>
    rw [step_bind] at taken
    rcases built : rule.build s.env s.store with ⟨fault | p, A⟩
    · rw [built] at taken
      cases taken
      exact (rule.build_becomes (.refl s) built).1.grown.forward_eq there
    · rw [built] at taken
      cases taken
      exact (rule.build_becomes (.refl s) built).1.grown.forward_eq there
  | declare name label =>
    -- The new cell is behind all that there are.
    cases taken
    have present : cell < s.store.size := (Array.getElem?_eq_some_iff.1 there).1
    show (s.store.push (.forward none))[cell]? = _
    rw [Array.getElem?_push, if_neg (Nat.ne_of_lt present), there]
  | define name rule =>
    obtain ⟨-, -, A, built, ⟨store, -⟩ | ⟨cell', label, p, bound, built, -, store⟩⟩ :=
      of_step_define taken
    · rw [store]
      rcases built with rfl | ⟨x, built⟩
      · exact there
      · exact (rule.build_becomes (.refl s) built).1.grown.forward_eq there
    · have there' := (rule.build_becomes (.refl s) built).1.grown.forward_eq there
      have apart : cell' ≠ cell := by
        rintro rfl
        have named := other name rule rfl
        simp [label?, bound] at named
      rw [store, Store.getElem?_fill_of_ne apart, there']
  | defineValue | inspect | parse | run | seek | feed => exact absurd trivial still

/-- What one command does to the forward parser: it takes the first offer. -/
theorem offered_of_step {first : Option Offer}
    (there : s.store[cell]? = some (.forward (first.map Offer.target)))
    (taken : s.step budget command = some (answer, s')) :
    s'.store[cell]? = some (.forward ((first.or (s.offer? cell command)).map Offer.target)) ∧
      first.toList.map (Offer.record cell) ++ s.defining cell command answer.log =
        (first.or (s.offer? cell command)).toList.map (Offer.record cell) := by
  -- Only a definition by a name of this very forward parser can offer it something.
  by_cases named : ∃ name rule label, command = .define name rule ∧ s.label? cell name = some label
  · obtain ⟨name, rule, label, rfl, addressed⟩ := named
    rw [step_define (label?_eq_some_iff.1 addressed)] at taken
    rcases built : rule.build s.env s.store with ⟨fault | p, A⟩
    · have none : s.offer? cell (.define name rule) = none := by
        simp [offer?, addressed, built, Except.toOption]
      rw [built] at taken
      cases taken
      rw [none, Option.or_none]
      refine ⟨(rule.build_becomes (.refl s) built).1.grown.forward_eq there, ?_⟩
      simp [defining, addressed, definitions]
    · have some : s.offer? cell (.define name rule) = some ⟨label, p⟩ := by
        simp [offer?, addressed, built, Except.toOption]
      have there' := (rule.build_becomes (.refl s) built).1.grown.forward_eq there
      have held : A.target? cell = first.map Offer.target := by rw [Store.target?, there']
      rw [built] at taken
      rcases first with _ | offer
      · simp only [held] at taken
        cases taken
        rw [some]
        refine ⟨Store.getElem?_fill_of_forward there' p, ?_⟩
        simp [defining, addressed, definitions, Offer.record, Event.isDefinition]
      · simp only [held] at taken
        cases taken
        rw [some]
        refine ⟨there', ?_⟩
        simp [defining, addressed, definitions]
  · have other : ∀ name rule, command = .define name rule → s.label? cell name = none := by
      intro name rule same
      rw [Option.eq_none_iff_forall_ne_some]
      exact fun label addressed => named ⟨name, rule, label, same, addressed⟩
    have none : s.offer? cell command = none := by
      cases command with
      | define name rule => simp [offer?, other name rule rfl]
      | _ => rfl
    have silent : s.defining cell command answer.log = [] := by
      cases command with
      | define name rule => simp [defining, other name rule rfl]
      | _ => exact definitions_of_step (by simp) taken
    rw [none, silent, Option.or_none, List.append_nil]
    exact ⟨getElem?_of_step there other taken, rfl⟩

/-- Any number of commands: of all offers the first is taken. -/
theorem Tried.first {offers : List Offer} {records : List Event}
    (h : Tried cell s offers records s') (declared : s.store[cell]? = some (.forward none)) :
    s'.store[cell]? = some (.forward (offers.head?.map Offer.target)) ∧
      records = offers.head?.toList.map (Offer.record cell) := by
  induction h with
  | refl => exact ⟨declared, rfl⟩
  | tail _ taken ih =>
    rw [List.head?_append, Option.head?_toList, ih.2]
    exact offered_of_step ih.1 taken

theorem Tried.reached {offers : List Offer} {records : List Event}
    (h : Tried cell s offers records s') {allowed : Command → Prop} (reached : s.Reached allowed) :
    s'.Reached fun _ => True := by
  induction h with
  | refl => exact reached.mono fun _ _ => trivial
  | tail _ taken ih => exact .step ih trivial taken

/-- What a forward parser does that stands for nothing. It takes the first parser that it is given, and one
record tells of that; it refuses another value as no parser, and nothing changes; and a parse that gets to
it, in whatever way, raises. -/
structure Undefined (s : Session) (cell : Nat) : Prop where
  takes {name label : String} {rule : Rule} {p : Parser} {A : Store} (budget : Nat)
    (bound : s.env.lookup name = some (.forward cell label))
    (built : rule.build s.env s.store = (.ok p, A)) :
    s.step budget (.define name rule) =
      some (⟨[Offer.record cell ⟨label, p⟩], .ok .defined⟩, ⟨s.env, A.fill cell p, s.cursor⟩)
  refuses {name label : String} (value : Value) (budget : Nat)
    (bound : s.env.lookup name = some (.forward cell label)) :
    s.step budget (.defineValue name value) = some (⟨[], .error (.notParser value.kind)⟩, s)
  raises {rule : Rule} {p : Parser} {A : Store} {c : Cursor} {b : Call} {label : String}
    (built : rule.build s.env s.store = (.ok p, A)) (within : Call.Within s.env ⟨p, c, A⟩ b)
    (here : b.parser = .forward cell label) :
    ∃ log B, s.Parses rule c
      (⟨log, .error (.undefinedForward (Parser.forward cell label).name)⟩, B)

/-- What one does that stands for a parser. It refuses every definition as a second one, by a parser or by
another value, without a record, and goes on to stand for what it stood for; no call of it raises, and where
a parse raises, another call did. -/
structure Defined (s : Session) (cell : Nat) : Prop where
  keeps {name label : String} {rule : Rule} {p : Parser} {A : Store} (budget : Nat)
    (bound : s.env.lookup name = some (.forward cell label))
    (built : rule.build s.env s.store = (.ok p, A)) :
    s.step budget (.define name rule) =
      some (⟨[], .error (.alreadyDefined (Parser.forward cell label).name)⟩,
        ⟨s.env, A, s.cursor⟩) ∧ A.target? cell = s.store.target? cell
  refuses {name label : String} (value : Value) (budget : Nat)
    (bound : s.env.lookup name = some (.forward cell label)) :
    s.step budget (.defineValue name value) =
      some (⟨[], .error (.alreadyDefined (Parser.forward cell label).name)⟩, s)
  quiet {rule : Rule} {p : Parser} {A : Store} {c : Cursor} {b : Call} {label : String}
    (built : rule.build s.env s.store = (.ok p, A)) (within : Call.Within s.env ⟨p, c, A⟩ b)
    (here : b.parser = .forward cell label) (fault : Fault) : ¬b.Raises s.env fault
  origin {rule : Rule} {p : Parser} {A B : Store} {c : Cursor} {log : List Event} {fault : Fault}
    (built : rule.build s.env s.store = (.ok p, A))
    (parsed : s.Parses rule c (⟨log, .error fault⟩, B)) :
    ∃ b, Call.Within s.env ⟨p, c, A⟩ b ∧ b.Raises s.env fault ∧
      ∀ label, b.parser ≠ .forward cell label

variable {allowed : Command → Prop}

theorem Reached.sound (reached : s.Reached allowed) (built : rule.build s.env s.store = (.ok p, A))
    (c : Cursor) : Call.Sound s ⟨p, c, A⟩ := by
  obtain ⟨leads, -, makes⟩ := rule.build_becomes (.refl s) built
  have kept := Trait.meets_build reached.stocked.env (r := rule) trivial s.store reached.stocked.store
  rw [built] at kept
  exact ⟨makes.scoped (reached.scoped.env_mono leads.grows), kept.2, leads.grown, kept.1⟩

theorem Reached.target_within (reached : s.Reached allowed)
    (built : rule.build s.env s.store = (.ok p, A)) {c : Cursor} {b : Call}
    (within : Call.Within s.env ⟨p, c, A⟩ b) {target : Option Parser}
    (there : s.store[cell]? = some (.forward target)) : b.store.target? cell = target :=
  ((reached.sound built c).within reached.scoped reached.stocked.env within).target there

theorem Reached.undefined (reached : s.Reached allowed)
    (there : s.store[cell]? = some (.forward none)) : s.Undefined cell where
  takes {name label rule p A} budget bound built := by
    have there' := (rule.build_becomes (.refl s) built).1.grown.forward_eq there
    have held : A.target? cell = none := by rw [Store.target?, there']
    rw [step_define bound, built]
    simp only [held]
  refuses value budget bound := by
    have held : s.store.target? cell = none := by rw [Store.target?, there]
    rw [step_defineValue bound, held]
  raises {rule p A c b label} built within here := by
    obtain ⟨q, d, store⟩ := b
    cases here
    have held : store.target? cell = none := reached.target_within built within there
    have refused : Run.target cell (Parser.forward cell label).name store =
        some (⟨[], .error (.undefinedForward (Parser.forward cell label).name)⟩, store) := by
      rw [Run.target, held]
      rfl
    have faults : Call.Faults s.env ⟨.forward cell label, d, store⟩
        (.undefinedForward (Parser.forward cell label).name) := by
      rw [Call.Faults, Parser.eval_forward]
      exact .first ⟨_, _, refused⟩
    obtain ⟨log, B, ended⟩ := within.faults faults
    exact ⟨log, B, parses_iff.2 ((Rule.eval_of_built built c).trans ended)⟩

theorem Reached.defined (reached : s.Reached allowed) {target : Parser}
    (there : s.store[cell]? = some (.forward (some target))) : s.Defined cell := by
  have quiet : ∀ {rule : Rule} {p : Parser} {A : Store} {c : Cursor} {b : Call} {label : String},
      rule.build s.env s.store = (.ok p, A) → Call.Within s.env ⟨p, c, A⟩ b →
        b.parser = .forward cell label → ∀ fault, ¬b.Raises s.env fault := by
    intro rule p A c b label built within here fault raises
    have held := reached.target_within built within there
    obtain ⟨q, d, store⟩ := b
    cases here
    rcases raises with throws | ⟨unwritten, -⟩
    · cases throws with | forward undefined =>
      cases held.symm.trans undefined
    · cases unwritten
  have held : s.store.target? cell = some target := by rw [Store.target?, there]
  refine ⟨fun {name label rule p A} budget bound built => ?_, fun value budget bound => ?_, quiet, ?_⟩
  · have there' := (rule.build_becomes (.refl s) built).1.grown.forward_eq there
    have held' : A.target? cell = some target := by rw [Store.target?, there']
    rw [step_define bound, built, held]
    simp only [held', and_self]
  · rw [step_defineValue bound, held]
  · -- Every fault of a parse comes from a call that raises itself, and this one is quiet.
    intro rule p A B c log fault built parsed
    have ended := parses_iff.1 parsed
    rw [Rule.eval_of_built built] at ended
    obtain ⟨budget, ran⟩ := Parser.eval_eq_some_iff.1 ended
    obtain ⟨b, within, raises⟩ :=
      (reached.sound built c).origin reached.scoped reached.stocked.env budget ran
    exact ⟨b, within, raises, fun label here => quiet built within here fault raises⟩

/-- From a session on in which a forward parser stands for nothing, commands of any kind follow in any order
and with any outcome, parses that raise and definitions of other parsers among them. After each of them it
stands for the first parser that it was offered, one record tells of that, and it answers as one that is
defined; as long as it was offered none, there is no record and it answers as one that is not. -/
theorem defined_once (reached : s.Reached allowed) (declared : s.store[cell]? = some (.forward none))
    {offers : List Offer} {records : List Event} (tried : Tried cell s offers records s') :
    s'.store.target? cell = offers.head?.map Offer.target ∧
      records = offers.head?.toList.map (Offer.record cell) ∧
      match offers.head? with
      | none => s'.Undefined cell
      | some _ => s'.Defined cell := by
  obtain ⟨there, records⟩ := tried.first declared
  have reached' := tried.reached reached
  refine ⟨by rw [Store.target?, there], records, ?_⟩
  rcases first : offers.head? with _ | offer
  · rw [first] at there
    exact reached'.undefined there
  · rw [first] at there
    exact reached'.defined there

/-- A repetition is built around a forward parser and raises; a number is refused; the parser is defined as
one character; another character and a number again are refused. The repetition, which is older than the
definition, now reads that character as often as it is there. -/
theorem defined_once_retried :
    ∃ s' : Session, Tried 0 (ofCommands [.declare "f" "item", .bind "g" (.many (.ref "f"))])
        [⟨"item", .satisfy (· == 'a') "char('a')"⟩, ⟨"item", .satisfy (· == 'b') "char('b')"⟩]
        [.defined "item" "char('a')"] s' ∧
      s'.store.target? 0 = some (.satisfy (· == 'a') "char('a')") ∧ s'.Defined 0 ∧
      s'.Answers (.parse (.ref "g") #['a', 'a', 'b'] 0)
        (.ok (.parsed "many(item)"
          (.success (.list [.str "a", .str "a"]) ⟨#['a', 'a', 'b'], 2⟩))) := by
  let s := ofCommands [.declare "f" "item", .bind "g" (.many (.ref "f"))]
  have reached : s.Reached fun _ => True := reached_ofCommands fun _ _ => trivial
  have parsed : Tried 0 s [] [] s :=
    .tail .refl (show s.step 9 (.parse (.ref "g") #['a'] 0) = some (_, s) from rfl)
  have refused : Tried 0 s [] [] s :=
    .tail parsed (show s.step 0 (.defineValue "f" (.int 7)) = some (_, s) from rfl)
  let s' := s.after 0 [.define "f" (.char 'a')]
  have taken : Tried 0 s [⟨"item", .satisfy (· == 'a') "char('a')"⟩]
      [.defined "item" "char('a')"] s' :=
    .tail refused (show s.step 0 (.define "f" (.char 'a')) = some (_, s') from rfl)
  have again : Tried 0 s
      [⟨"item", .satisfy (· == 'a') "char('a')"⟩, ⟨"item", .satisfy (· == 'b') "char('b')"⟩]
      [.defined "item" "char('a')"] s' :=
    .tail taken (show s'.step 0 (.define "f" (.char 'b')) = some (_, s') from rfl)
  have tried : Tried 0 s
      [⟨"item", .satisfy (· == 'a') "char('a')"⟩, ⟨"item", .satisfy (· == 'b') "char('b')"⟩]
      [.defined "item" "char('a')"] s' :=
    .tail again (show s'.step 0 (.defineValue "f" (.int 7)) = some (_, s') from rfl)
  obtain ⟨target, -, defined⟩ := defined_once reached rfl tried
  exact ⟨s', tried, target, defined, answers_of_step (show s'.step 9 _ = some _ from rfl)⟩

end Session

end Rewind
