import Rewind.Proofs.Discipline
import Rewind.Proofs.Equations
import Rewind.Rule.Combinators

namespace Rewind

def Event.isTrace : Event → Bool
  | .entered _ _ _ | .succeeded _ _ _ _ | .failed _ _ _ => true
  | .note _ | .stopped _ _ | .defined _ _ | .filled _ => false

/-- The records of traces, in order. -/
def traced (log : List Event) : List Event := log.filter Event.isTrace

theorem traced_append (log log' : List Event) : traced (log ++ log') = traced log ++ traced log' :=
  List.filter_append log log'

theorem traced_notes (notes : List Note) : traced (notes.map .note) = [] := by
  refine List.filter_eq_nil_iff.2 fun event mem => ?_
  obtain ⟨note, -, rfl⟩ := List.mem_map.1 mem
  simp [Event.isTrace]

/-- The record closes the trace with this tag and label that was entered at `start`: a failure shows
`start`, and a success shows no smaller position if matches only go forward. -/
def Event.Closes (forward : Prop) (tag : Nat) (label : String) (start : Nat) : Event → Prop
  | .succeeded tag' label' _ position => tag' = tag ∧ label' = label ∧ (forward → start ≤ position)
  | .failed tag' label' position => tag' = tag ∧ label' = label ∧ position = start
  | _ => False

/-- Sequences in which every trace that is entered is closed, after what was traced inside it. -/
inductive Bracketed (forward : Prop) : List Event → Prop
  | nil : Bracketed forward []
  | cons {tag : Nat} {label : String} {c : Cursor} {event : Event} {inner rest : List Event}
      (closes : event.Closes forward tag label c.position) (inside : Bracketed forward inner)
      (later : Bracketed forward rest) :
      Bracketed forward (.entered tag label c :: (inner ++ event :: rest))

theorem Bracketed.append {forward : Prop} {records records' : List Event}
    (h : Bracketed forward records) (h' : Bracketed forward records') :
    Bracketed forward (records ++ records') := by
  induction h with
  | nil => exact h'
  | cons closes inside _ _ ih =>
    rw [List.cons_append, List.append_assoc, List.cons_append]
    exact .cons closes inside ih

/-- What the traces recorded: a balanced sequence before a result, the beginning of one before a
fault. -/
def Traced {α : Type} (forward : Prop) (log : List Event) : Except Fault α → Prop
  | .ok _ => Bracketed forward (traced log)
  | .error _ => ∃ whole, Bracketed forward whole ∧ traced log <+: whole

namespace Traced

variable {α β : Type} {forward : Prop} {log log' : List Event}

theorem untraced (none : traced log = []) (x : Except Fault α) : Traced forward log x := by
  rcases x with fault | a
  · exact ⟨[], .nil, none ▸ List.prefix_rfl⟩
  · exact (show Bracketed forward (traced log) from none ▸ .nil)

theorem append {a : α} {y : Except Fault β} (first : Traced forward log (.ok a))
    (second : Traced forward log' y) : Traced forward (log ++ log') y := by
  have balanced : Bracketed forward (traced log) := first
  rcases y with fault | b
  · obtain ⟨whole, closed, begins⟩ := second
    refine ⟨traced log ++ whole, balanced.append closed, ?_⟩
    rw [traced_append]
    exact (List.prefix_append_right_inj _).2 begins
  · show Bracketed forward (traced (log ++ log'))
    rw [traced_append]
    exact balanced.append second

theorem map {x : Except Fault α} (f : α → β) (h : Traced forward log x) :
    Traced forward log (x.map f) := by
  cases x with
  | error fault => exact h
  | ok a => exact h

/-- A fault inside a trace leaves it open, and a failure would close it. -/
theorem opened {tag : Nat} {label : String} {c : Cursor} {fault : Fault}
    (h : Traced forward log (.error fault : Except Fault α)) :
    Traced forward (.entered tag label c :: log) (.error fault : Except Fault β) := by
  obtain ⟨whole, balanced, rest, begins⟩ := h
  have closes : (Event.failed tag label c.position).Closes forward tag label c.position :=
    ⟨rfl, rfl, rfl⟩
  -- The traces left open inside are closed first, then this one.
  refine ⟨_, .cons closes balanced .nil, rest ++ [.failed tag label c.position], ?_⟩
  show Event.entered tag label c :: (traced log ++ (rest ++ [_])) = _
  rw [← List.append_assoc, begins]

theorem closed {tag : Nat} {label : String} {c : Cursor} {r : Result}
    (onward : r.ok = true → forward → c.position ≤ r.cursor.position)
    (h : Traced forward log (.ok r)) :
    Traced forward (.entered tag label c :: (log ++ [r.traceEnd tag label c])) (.ok r) := by
  have balanced : Bracketed forward (traced log) := h
  have closes : (r.traceEnd tag label c).Closes forward tag label c.position ∧
      traced [r.traceEnd tag label c] = [r.traceEnd tag label c] := by
    unfold Result.traceEnd
    split
    · next ok => exact ⟨⟨rfl, rfl, onward ok⟩, rfl⟩
    · exact ⟨⟨rfl, rfl, rfl⟩, rfl⟩
  show Bracketed forward (.entered tag label c :: traced (log ++ [_]))
  rw [traced_append, closes.2]
  exact .cons closes.1 balanced .nil

end Traced

/-- The run meets the contract, and its traces are well bracketed. -/
structure Run.Brackets {α : Type} (C : Contract) (forward : Prop) (x : Run α) (P : α → Prop) :
    Prop where
  meets : x.Meets C (fun _ => True) P
  records {A B : Store} {log : List Event} {y : Except Fault α} (hA : C.store A)
    (ended : x A = some (⟨log, y⟩, B)) : Traced forward log y

namespace Run.Brackets

variable {α β : Type} {C : Contract} {forward : Prop}

theorem of_untraced {x : Run α} {P : α → Prop} (meets : x.Meets C (fun _ => True) P)
    (none : ∀ A last, x A = some last → traced last.1.log = []) : x.Brackets C forward P :=
  ⟨meets, fun _ ended => .untraced (none _ _ ended) _⟩

theorem pure {P : α → Prop} {a : α} (h : P a) : (Pure.pure a : Run α).Brackets C forward P :=
  of_untraced (.pure h) fun _ _ ended => by cases ended; rfl

theorem spent {P : α → Prop} (endless : C.endless) : (Run.spent : Run α).Brackets C forward P :=
  of_untraced (.spent endless) fun _ _ ended => by cases ended

theorem bind {x : Run α} {f : α → Run β} {P : α → Prop} {Q : β → Prop}
    (first : x.Brackets C forward P) (second : ∀ a, P a → (f a).Brackets C forward Q) :
    (x >>= f).Brackets C forward Q := by
  refine ⟨first.meets.bind fun a ha => (second a ha).meets, fun {A} B log y hA ended => ?_⟩
  rcases bind_eq_some_iff.1 ended with
    ⟨log', fault, store, hx, same⟩ | ⟨log', a, store, last, hx, hf, same⟩
  · cases same
    exact first.records hA hx
  · cases same
    have kept := first.meets A hA
    rw [hx] at kept
    exact (first.records hA hx).append ((second a kept.2).records kept.1 hf)

theorem settle {x : Run Result} {P : Result → Prop} (h : x.Brackets C forward P) (start : Cursor) :
    (x.settle start).Brackets C forward fun _ => True := by
  rw [settle_eq_bind]
  exact h.bind fun _ _ => .pure trivial

/-- What more is known of the answers. -/
theorem strengthen {x : Run α} {P Q : α → Prop} (h : x.Brackets C forward P)
    (more : x.Meets C (fun _ => True) Q) : x.Brackets C forward Q :=
  ⟨more, h.records⟩

theorem weaken {x : Run α} {P Q : α → Prop} (h : x.Brackets C forward P)
    (answers : ∀ a, P a → Q a) : x.Brackets C forward Q :=
  ⟨h.meets.weaken answers, h.records⟩

theorem ofAct (x : Act α) : (Run.ofAct x).Brackets C forward fun _ => True :=
  of_untraced (.anyAct x) fun _ _ ended => by cases ended; exact traced_notes x.log

theorem ofBuild {x : Build α} {P : α → Prop} (h : Build.Meets C.store (fun _ => True) x P) :
    (Run.ofBuild x).Brackets C forward P :=
  of_untraced (.ofBuild h) fun _ _ ended => by cases ended; rfl

theorem writeNotes (notes : List Note) :
    (Run.writeNotes notes).Brackets C forward fun _ => True :=
  of_untraced (.writeNotes trivial) fun _ _ ended => by cases ended; exact traced_notes notes

theorem write {event : Event} (other : event.isTrace = false) :
    (Run.write event).Brackets C forward fun _ => True :=
  of_untraced (.write trivial) fun _ _ ended => by cases ended; simp [Logged.write, traced, other]

theorem rounds {round : Cursor → Run Result} {stop : Cursor → Event} (endless : C.endless)
    (each : ∀ c, (round c).Brackets C forward fun _ => True)
    (other : ∀ c, (stop c).isTrace = false) (n : Nat) (c : Cursor) :
    (Run.rounds round stop n c).Brackets C forward fun _ => True := by
  induction n generalizing c with
  | zero => exact .spent endless
  | succ n ih =>
    refine (each c).bind fun r _ => ?_
    split
    · split
      · exact (write (other c)).bind fun _ _ => .pure trivial
      · exact (ih r.cursor).bind fun _ _ => .pure trivial
    · exact .pure trivial

/-- A trace puts one record before and one behind those of its parser. -/
theorem trace {x : Run Result} {tag : Nat} {label : String} {c : Cursor}
    (h : x.Brackets C forward fun r => r.ok = true → forward → c.position ≤ r.cursor.position) :
    Run.Brackets C forward
      (do
        Run.write (.entered tag label c)
        let r ← x
        Run.write (r.traceEnd tag label c)
        return r) fun _ => True := by
  refine ⟨?_, fun {A} B log y hA ended => ?_⟩
  · refine .bind (P := fun _ => True) (.write trivial) fun _ _ => ?_
    refine h.meets.bind fun r _ => ?_
    exact .bind (P := fun _ => True) (.write trivial) fun _ _ => .pure trivial
  · have entered : Run.write (.entered tag label c) A =
        some (⟨[.entered tag label c], .ok ()⟩, A) := rfl
    rw [bind_of_ok entered, Option.map_eq_some_iff] at ended
    obtain ⟨last, inside, same⟩ := ended
    rcases bind_eq_some_iff.1 inside with
      ⟨log', fault, store, hx, rfl⟩ | ⟨log', r, store, last', hx, hf, rfl⟩
    · cases same
      exact (h.records hA hx).opened
    · cases hf
      cases same
      have kept := h.meets A hA
      rw [hx] at kept
      exact (h.records hA hx).closed kept.2

theorem target {T : Trait} (cell : Nat) (name : String) :
    (Run.target cell name).Brackets T.contract forward T.parser :=
  of_untraced (T.meets_target cell name) fun A last ended => by
    unfold Run.target at ended
    split at ended
    · cases ended
      rfl
    · cases ended
      rfl

theorem force {T : Trait} {env : Env} (henv : T.OfEnv env) (cell : Nat) :
    (Run.force env cell).Brackets T.contract forward T.parser :=
  of_untraced (Trait.meets_force henv cell) fun A last ended => by
    have filled : ∀ (watched : Bool) (name : Option String),
        traced (if watched then [.filled name] else []) = [] := by
      intro watched name
      cases watched
      · rfl
      · rfl
    unfold Run.force at ended
    split at ended
    · cases ended
      rfl
    · next name watched thunk _ =>
      dsimp only at ended
      split at ended
      · cases ended
        exact filled watched name
      · cases ended
        exact filled watched name
    · cases ended
      rfl

end Run.Brackets

namespace Parser

variable {T : Trait} {forward : Prop} {env : Env}

/-- What one step records, if the runs of its parts are well bracketed and do not go backward. -/
theorem step_brackets (henv : T.OfEnv env) {run : Parser → Cursor → Run Result}
    (each : ∀ p c, T.parser p → (run p c).Brackets T.contract forward
      fun r => r.ok = true → forward → c.position ≤ r.cursor.position)
    (budget : Nat) {p : Parser} (hp : T.parser p) (c : Cursor) :
    (step run budget env p c).Brackets T.contract forward fun _ => True := by
  have whole : ∀ {q : Parser}, T.parser q → ∀ d,
      (run q d).Brackets T.contract forward fun _ => True :=
    fun hq d => (each _ d hq).weaken fun _ _ => trivial
  have part : ∀ {q : Parser}, q ∈ p.parts → ∀ d,
      (run q d).Brackets T.contract forward fun _ => True :=
    fun mem d => whole (T.parts hp _ mem) d
  cases p with
  | atom a => exact .ofAct _
  | andThen p notes next =>
    refine (part (by simp [parts]) c).bind fun r _ => ?_
    split
    · refine (Run.Brackets.writeNotes _).bind fun _ _ => ?_
      exact (Run.Brackets.ofBuild (Trait.meets_build henv (T.next hp r))).bind fun q hq => whole hq _
    · exact .pure trivial
  | both p q combine =>
    refine (part (by simp [parts]) c).bind fun r _ => ?_
    split
    · refine (part (by simp [parts]) _).bind fun t _ => ?_
      split
      · exact (Run.Brackets.ofAct _).bind fun _ _ => .pure trivial
      · exact .pure trivial
    · exact .pure trivial
  | map p f =>
    refine (part (by simp [parts]) c).bind fun r _ => ?_
    split
    · exact (Run.Brackets.ofAct _).bind fun _ _ => .pure trivial
    · exact .pure trivial
  | or p q =>
    refine (part (by simp [parts]) c).bind fun r _ => ?_
    split
    · exact .pure trivial
    · exact part (by simp [parts]) c
  | not p => exact (part (by simp [parts]) c).bind fun _ _ => .pure trivial
  | many p =>
    -- The record that the loop stopped is none of a trace.
    simp only [step, Run.repeated_nil]
    have rounds : (Run.rounds (run p) (fun d => .stopped p.name d.position) budget c).Brackets
        T.contract forward fun _ => True :=
      .rounds trivial (part (by simp [parts])) (fun _ => rfl) budget c
    exact rounds.bind fun _ _ => .pure trivial
  | lookAhead p => exact (part (by simp [parts]) c).bind fun _ _ => .pure trivial
  | trace tag text p =>
    -- Only here is it needed that the part does not go backward.
    exact .trace (each p c (T.parts hp p (by simp [parts])))
  | label p name => exact part (by simp [parts]) c
  | wrap p name => exact part (by simp [parts]) c
  | forward cell name => exact (Run.Brackets.target cell _).bind fun p hp => whole hp c
  | lazy cell name => exact (Run.Brackets.force henv cell).bind fun p hp => whole hp c

theorem run_brackets (henv : T.OfEnv env)
    (onward : ∀ n p c, T.parser p → (run env n p c).Meets T.contract (fun _ => True)
      fun r => r.ok = true → forward → c.position ≤ r.cursor.position)
    (budget : Nat) {p : Parser} (hp : T.parser p) (c : Cursor) :
    (run env budget p c).Brackets T.contract forward fun _ => True := by
  induction budget generalizing p c with
  | zero => exact .spent trivial
  | succ budget ih =>
    refine .settle (step_brackets henv (fun q d hq => ?_) budget hp c) c
    exact (ih hq d).strengthen (onward budget q d hq)

end Parser

namespace Session

variable {s s' : Session} {rule : Rule} {text : Array Char} {position : Int} {budget : Nat}
  {log : List Event} {x : Except Fault Answer}

theorem traced_of_step {T : Trait} {forward : Prop} (hs : T.OfSession s) (hr : T.rule rule)
    (onward : ∀ n p c, T.parser p → (p.run s.env n c).Meets T.contract (fun _ => True)
      fun r => r.ok = true → forward → c.position ≤ r.cursor.position)
    (parsed : s.step budget (.parse rule text position) = some (⟨log, x⟩, s')) :
    Traced forward log x := by
  have meant : (meaning budget s (.parse rule text position)).Brackets T.contract forward
      fun _ => True := by
    refine (Run.Brackets.ofBuild (Trait.meets_build hs.env hr)).bind fun p hp => ?_
    refine (Run.Brackets.ofAct _).bind fun c _ => ?_
    exact (Parser.run_brackets hs.env onward budget hp c).bind fun _ _ => .pure trivial
  rw [step_eq_conclude, Option.map_eq_some_iff] at parsed
  obtain ⟨⟨⟨log', y⟩, B⟩, ended, same⟩ := parsed
  have results := s.conclude_result (⟨log', y⟩, B)
  rw [same] at results
  obtain rfl : log' = log := by
    rcases y with fault | ⟨answer, env, cursor⟩
    · cases same
      rfl
    · cases same
      rfl
  have records := (meant.records hs.store ended).map Prod.fst
  rwa [← results] at records

/-- The traces of a parse in any session, with any rule, at any place, leave a balanced sequence if the
parse comes to a result: each record that a trace was entered is followed by one of the same trace that
closes it, all that is traced in between is balanced itself, and a failure shows where its trace was
entered. In a session that plain commands lead to, and with a plain rule, a success shows a position no
smaller than that. If the parse ends in a fault, the records begin such a sequence. -/
theorem parse_bracketed
    (parsed : s.step budget (.parse rule text position) = some (⟨log, x⟩, s')) :
    Traced (s.Reached Command.Plain ∧ rule.Plain) log x := by
  by_cases plain : s.Reached Command.Plain ∧ rule.Plain
  · have hs := plain.1.plain
    refine traced_of_step (T := .plain) ⟨hs.env, hs.store⟩ plain.2 (fun n p c hp => ?_) parsed
    exact (Parser.run_reaches hs.env n hp c).weaken fun r reaches ok _ => (reaches ok).forward
  · -- Nothing is said of positions, so nothing is asked of the session.
    refine traced_of_step (T := .any) (Trait.any_ofSession s) trivial (fun n p c hp => ?_) parsed
    exact ((Trait.supports (Trait.any_ofSession s).env).run_meets n hp c).weaken
      fun _ _ _ forward => absurd forward plain

/-- Pairs and other items, all of them traced. -/
def items (other : Rule) : Rule :=
  .many (.unary (.trace 0 "item") (.or (.unary (.trace 1 "pair") (.before (.char 'a') (.char 'b')))
    (.unary (.trace 2 "other") other)))

theorem items_plain {other : Rule} (h : other.Plain) : (items other).Plain := by
  simp [items, Rule.many, Rule.or, Rule.before, Rule.char, Rule.ofTest, Rule.satisfy, Rule.Plain,
    Atom.Plain, h]

/-- What is recorded when a pair is followed by no item. -/
def pairRecords : List Event :=
  [.entered 0 "item" ⟨#['a', 'b', 'c'], 0⟩, .entered 1 "pair" ⟨#['a', 'b', 'c'], 0⟩,
    .succeeded 1 "pair" (.ofChar 'b') 2, .succeeded 0 "item" (.ofChar 'b') 2,
    .entered 0 "item" ⟨#['a', 'b', 'c'], 2⟩, .entered 1 "pair" ⟨#['a', 'b', 'c'], 2⟩,
    .failed 1 "pair" 2, .entered 2 "other" ⟨#['a', 'b', 'c'], 2⟩, .failed 2 "other" 2,
    .failed 0 "item" 2]

/-- If the other item refuses its character, its trace and the one around it stay open. -/
theorem parse_bracketed_items :
    (∃ answer, start.step 9 (.parse (items (.char 'a')) #['a', 'b', 'c'] 0) =
        some (⟨pairRecords, .ok answer⟩, start) ∧
      start.Reached Command.Plain ∧ (items (.char 'a')).Plain ∧
      Traced (start.Reached Command.Plain ∧ (items (.char 'a')).Plain) pairRecords (.ok answer)) ∧
    ∃ refused fault, start.step 9 (.parse (items refused) #['a', 'b', 'c'] 0) =
        some (⟨pairRecords.take 8, .error fault⟩, start) ∧
      start.Reached Command.Plain ∧ (items refused).Plain ∧
      Traced (start.Reached Command.Plain ∧ (items refused).Plain) (pairRecords.take 8)
        (.error fault : Except Fault Answer) := by
  have parsed : ∃ name, start.step 9 (.parse (items (.char 'a')) #['a', 'b', 'c'] 0) =
      some (⟨pairRecords, .ok (.parsed name ⟨.list [.ofChar 'b'], ⟨#['a', 'b', 'c'], 2⟩, true⟩)⟩,
        start) := ⟨_, rfl⟩
  have raised : start.step 9 (.parse (items (.satisfy (CharTest.raising "no") "refused"))
      #['a', 'b', 'c'] 0) = some (⟨pairRecords.take 8, .error (.raised "no")⟩, start) := rfl
  obtain ⟨name, parsed⟩ := parsed
  exact ⟨⟨_, parsed, .start, items_plain trivial, parse_bracketed parsed⟩,
    _, _, raised, .start, items_plain trivial, parse_bracketed raised⟩

end Session

end Rewind
