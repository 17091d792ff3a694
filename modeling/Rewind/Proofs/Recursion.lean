import Rewind.Proofs.Discipline

namespace Rewind

/-- A match takes a character. -/
def Atom.Consuming : Atom → Prop
  | .satisfy _ _ | .fail _ => True
  | .literal chars _ => chars ≠ []
  | .constant _ | .handmade _ _ _ => False

namespace Parser

/-- By its form, a match takes a character. -/
def Consuming : Parser → Prop
  | .atom a => a.Consuming
  | .both p q _ => p.Consuming ∨ q.Consuming
  | .or p q => p.Consuming ∧ q.Consuming
  | .map p _ | .label p _ => p.Consuming
  | _ => False

/-- Every reference is to one of the cells and stands behind a consuming part, of the parser itself
or, if `behind` holds, of what is around it. Nothing is handmade or built in the course of a run. -/
def Guarded (cells : List Nat) : Prop → Parser → Prop
  | _, .atom a => a.Plain
  | behind, .both p q _ => Guarded cells behind p ∧ Guarded cells (behind ∨ p.Consuming) q
  | behind, .or p q => Guarded cells behind p ∧ Guarded cells behind q
  | behind, .map p _ | behind, .not p | behind, .many p | behind, .label p _ =>
    Guarded cells behind p
  | behind, .forward cell _ => behind ∧ cell ∈ cells
  | _, _ => False

variable {env : Env} {store : Store} {cells : List Nat} {behind : Prop} {p q : Parser} {c : Cursor}
  {n : Nat}

theorem consuming_token : p.token.Consuming ↔ p.Consuming := by
  simp [token, before, followedBy, blank, satisfy, Consuming]

theorem guarded_before : Guarded cells behind (p.before q) ↔
    Guarded cells behind p ∧ Guarded cells (behind ∨ p.Consuming) q := Iff.rfl

/-- Skipping blanks consumes nothing for sure and holds no reference. -/
theorem guarded_token : Guarded cells behind p.token ↔ Guarded cells behind p := by
  simp [token, before, followedBy, blank, satisfy, Consuming, Guarded, Atom.Plain]

/-- A parser of a guarded grammar comes to an end. It may fail or raise, and a match of a consuming
one leaves less text. -/
def Settles (env : Env) (store : Store) (p : Parser) (c : Cursor) : Prop :=
  Ends ⟨(· = store), False⟩ env p c (fun _ => True) True fun _ d =>
    c.Reaches d ∧ (p.Consuming → d.rest.length < c.rest.length)

end Parser

theorem Cursor.length_rest_next {c : Cursor} {x : Char} (h : c.char? = some x) :
    c.next.rest.length < c.rest.length := by
  have inside : c.position < c.text.size := (Array.getElem?_eq_some_iff.1 h).1
  rw [Cursor.length_rest, Cursor.length_rest]
  exact Nat.sub_lt_sub_left inside (Nat.lt_succ_self _)

theorem Atom.run_consuming {a : Atom} (ha : a.Consuming) {c : Cursor} {r : Result}
    (h : (a.run c).result = .ok r) (ok : r.ok = true) : r.cursor.rest.length < c.rest.length := by
  cases a with
  | satisfy test name =>
    obtain ⟨x, hx, rfl⟩ := run_satisfy_ok h ok
    exact Cursor.length_rest_next hx
  | literal chars value =>
    rcases chars with _ | ⟨x, xs⟩
    · exact absurd rfl ha
    · have read := run_literal_ok h ok
      unfold readLiteral at read
      split at read
      · next hx =>
        exact Nat.lt_of_le_of_lt (readLiteral_reaches read).length_rest_le
          (Cursor.length_rest_next hx)
      · cases read
  | constant value => exact ha.elim
  | fail name =>
    cases h
    cases ok
  | handmade run name own => exact ha.elim

namespace Parser

variable {env : Env} {store : Store} {cells : List Nat} {behind : Prop} {p q : Parser} {c : Cursor}
  {n : Nat} {C : Contract} {raises : Fault → Prop}

/-- Rounds that never move back come to an end, since a round that goes on leaves less text. -/
theorem RoundsEnd.of_reaches (each : ∀ d, c.Reaches d →
      Ends C env p d raises True fun _ e => d.Reaches e) :
    RoundsEnd C env p c raises fun _ d => c.Reaches d := by
  induction h : c.rest.length using Nat.strongRecOn generalizing c with
  | ind n ih =>
    refine .next ((each c (.refl c)).imp (fun _ hf => hf) (fun _ => .refl c) fun v d hd => ?_)
    split
    · exact .refl c
    · next moved =>
      have shorter := hd.length_rest_lt (Bool.of_not_eq_true moved)
      have later := ih _ (h ▸ shorter) (fun e he => each e (hd.trans he)) rfl
      exact Run.Meets.imp later (fun _ hf => hf) fun _ hx => hd.trans hx

namespace Settles

theorem atom {a : Atom} (plain : a.Plain) : Settles env store (.atom a) c := by
  refine Ends.atom (fun _ _ => trivial) fun r hr => ?_
  unfold Result.Ends
  split
  · next ok => exact ⟨a.run_reaches plain c hr ok, fun consuming => a.run_consuming consuming hr ok⟩
  · trivial

theorem both {combine : Value → Value → Act Value} (h : Settles env store p c)
    (h' : ∀ d, c.Reaches d → (p.Consuming → d.rest.length < c.rest.length) →
      Settles env store q d) :
    Settles env store (.both p q combine) c := by
  refine Ends.both (h.weaken fun x d hd => (h' d hd.1 hd.2).weaken fun y e he => ?_)
  refine Logged.ends_of_result (fun _ _ => trivial) fun _ _ => ⟨hd.1.trans he.1, ?_⟩
  rintro (consuming | consuming)
  · exact Nat.lt_of_le_of_lt he.1.length_rest_le (hd.2 consuming)
  · exact Nat.lt_of_lt_of_le (he.2 consuming) hd.1.length_rest_le

theorem map {f : Value → Act Value} (h : Settles env store p c) :
    Settles env store (.map p f) c :=
  Ends.map (h.weaken fun _ _ hd => Logged.ends_of_result (fun _ _ => trivial) fun _ _ => hd)

theorem or (h : Settles env store p c) (h' : Settles env store q c) :
    Settles env store (.or p q) c := by
  refine Ends.or (h.weaken fun _ _ hd => ?_) fun _ => h'.weaken fun _ _ hd => ?_
  · exact ⟨hd.1, fun consuming => hd.2 consuming.1⟩
  · exact ⟨hd.1, fun consuming => hd.2 consuming.2⟩

/-- Where the part fails, the match takes nothing. -/
theorem not (h : Settles env store p c) : Settles env store (.not p) c :=
  Ends.not (h.imp (fun _ hf => hf) (fun _ => ⟨.refl c, False.elim⟩) fun _ _ _ => trivial)

theorem many (h : ∀ d, c.Reaches d → Settles env store p d) : Settles env store (.many p) c := by
  have rounds := RoundsEnd.of_reaches fun d hd => (h d hd).weaken fun _ _ he => he.1
  exact Ends.many (Run.Meets.imp rounds (fun _ hf => hf) fun _ hx => ⟨hx, False.elim⟩)

theorem label {name : String} (h : Settles env store p c) : Settles env store (.label p name) c :=
  Ends.label h

theorem forward {cell : Nat} {name : String} (found : store.target? cell = some p)
    (h : Settles env store p c) : Settles env store (.forward cell name) c := by
  refine Ends.forward (p := p) (fun store' same => ?_) (h.weaken fun _ _ hd => ⟨hd.1, False.elim⟩)
  rw [show store' = store from same]
  exact found

end Settles

/-- If the references settle where less than so much text is left, a guarded parser settles where at
most that much is left. Those that rely on what is around the parser need less text there. -/
theorem Guarded.settles (inner : ∀ d : Cursor, d.rest.length < n → ∀ cell ∈ cells, ∀ name,
      Settles env store (.forward cell name) d) (h : Guarded cells behind p)
    (le : c.rest.length ≤ n) (less : behind → c.rest.length < n) : Settles env store p c := by
  induction p generalizing behind c with
  | atom a => exact .atom h
  | both p q combine ihp ihq =>
    refine .both (ihp h.1 le less) fun d reached shorter => ?_
    have le' := reached.length_rest_le
    refine ihq h.2 (Nat.le_trans le' le) ?_
    -- Less text is left if the first part has consumed, or something before it.
    rintro (before | consuming)
    · exact Nat.lt_of_le_of_lt le' (less before)
    · exact Nat.lt_of_lt_of_le (shorter consuming) le
  | map p f ih => exact .map (ih h le less)
  | or p q ihp ihq => exact .or (ihp h.1 le less) (ihq h.2 le less)
  | not p ih => exact .not (ih h le less)
  | many p ih =>
    refine .many fun d reached => ?_
    have le' := reached.length_rest_le
    exact ih h (Nat.le_trans le' le) fun before => Nat.lt_of_le_of_lt le' (less before)
  | label p name ih => exact .label (ih h le less)
  | forward cell name => exact inner c (less h.1) cell h.2 name
  | andThen p notes next => exact h.elim
  | lookAhead p => exact h.elim
  | trace tag label p => exact h.elim
  | wrap p name => exact h.elim
  | lazy cell name => exact h.elim

/-- All bodies of the cells are guarded, so the cells settle everywhere: a body reaches its references
with less text left. -/
theorem forward_settles (defined : ∀ cell ∈ cells, ∃ p, store.target? cell = some p ∧
      Guarded cells False p) (c : Cursor) {cell : Nat} (mem : cell ∈ cells) (name : String) :
    Settles env store (.forward cell name) c := by
  induction h : c.rest.length using Nat.strongRecOn generalizing c cell name with
  | ind n ih =>
    obtain ⟨p, found, guarded⟩ := defined cell mem
    have inner : ∀ d : Cursor, d.rest.length < n → ∀ cell ∈ cells, ∀ name,
        Settles env store (.forward cell name) d :=
      fun d hd cell mem name => ih d.rest.length hd d mem name rfl
    exact .forward found (guarded.settles inner (Nat.le_of_eq h) False.elim)

end Parser

namespace Session

variable {s : Session} {rule : Rule} {store : Store}

/-- A forward parser of a guarded grammar ends on every text and from every position. -/
theorem forward_total {cells : List Nat} {cell : Nat} {name : String}
    (built : rule.build s.env s.store = (.ok (.forward cell name), store))
    (defined : ∀ k ∈ cells, ∃ p, store.target? k = some p ∧ p.Guarded cells False)
    (mem : cell ∈ cells) (text : Array Char) (position : Nat) :
    ∃ x, s.Answers (.parse rule text position) x :=
  exists_answers_parse built rfl id (Parser.forward_settles defined ⟨text, position⟩ mem name)

/-- Groups of items, where an item may be a group behind a mark: the two names refer to each other,
and here the first bracket is never closed. -/
theorem forward_total_mutual :
    ∃ group item : Rule, ∃ s : Session,
      s = ofCommands (grammarCommands [("group", group), ("item", item)]) ∧
      (∀ k ∈ [0, 1], ∃ p, s.store.target? k = some p ∧ p.Guarded [0, 1] False) ∧
      ∃ x, s.Answers (.parse (.ref "group") #['(', '1', '!', '(', ')'] (0 : Nat)) x := by
  let char (x : Char) : Parser :=
    .satisfy (· == x) ("char(" ++ Text.quoted (String.singleton x) ++ ")")
  let group : Parser :=
    (char '(').token.before ((Parser.many (.forward 1 "item")).before (char ')'))
  let item : Parser :=
    .or (Parser.satisfy Text.isDigit "digit").token ((char '!').before (.forward 0 "group"))
  have made : ofCommands (grammarCommands
      [("group", (Rule.char '(').token.before ((Rule.ref "item").many.before (Rule.char ')'))),
        ("item", Rule.digit.token.or ((Rule.char '!').before (.ref "group")))]) =
      ⟨[("item", .forward 1 "item"), ("group", .forward 0 "group")],
        #[.forward (some group), .forward (some item)], .start #[]⟩ := rfl
  have group_guarded : group.Guarded [0, 1] False := by
    refine Parser.guarded_before.2 ⟨Parser.guarded_token.2 trivial, ?_⟩
    exact Parser.guarded_before.2 ⟨⟨.inr (Parser.consuming_token.2 trivial), by decide⟩, trivial⟩
  have item_guarded : item.Guarded [0, 1] False :=
    ⟨Parser.guarded_token.2 trivial, Parser.guarded_before.2 ⟨trivial, .inr trivial, by decide⟩⟩
  have defined : ∀ k ∈ [0, 1], ∃ p,
      Store.target? #[.forward (some group), .forward (some item)] k = some p ∧
        p.Guarded [0, 1] False := by
    simp only [List.forall_mem_cons]
    exact ⟨⟨group, rfl, group_guarded⟩, ⟨item, rfl, item_guarded⟩, by simp⟩
  exact ⟨_, _, _, made.symm, defined, forward_total rfl defined List.mem_cons_self _ 0⟩

end Session

end Rewind
