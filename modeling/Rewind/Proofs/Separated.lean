import Rewind.Proofs.Greedy

namespace Rewind

namespace Session

/-- Separators and elements in turn, with their records, the pairs of their values, and the cursor at
which they leave off. Each round gets on. -/
inductive Rounds (s : Session) (separator element : Rule) :
    Cursor → List Event → List (Value × Value) → Cursor → Prop
  | nil (c : Cursor) : Rounds s separator element c [] [] c
  | cons {c d e e' : Cursor} {log log' log'' : List Event} {x y : Value}
      {rounds : List (Value × Value)} (first : s.Shows separator c ⟨log, .ok (.success x d)⟩)
      (second : s.Shows element d ⟨log', .ok (.success y e)⟩) (further : c.position < e.position)
      (later : Rounds s separator element e log'' rounds e') :
      Rounds s separator element c (log ++ log' ++ log'') ((x, y) :: rounds) e'

/-- No round can be read here: the separator fails, or the element behind it, or both match and do not
get on. This is told by the records and by whether both match. -/
inductive Stops (s : Session) (separator element : Rule) (c : Cursor) : List Event → Bool → Prop
  | separator {log : List Event} (first : s.Shows separator c ⟨log, .ok (.failure c)⟩) :
      Stops s separator element c log false
  | element {d : Cursor} {log log' : List Event} {x : Value}
      (first : s.Shows separator c ⟨log, .ok (.success x d)⟩)
      (second : s.Shows element d ⟨log', .ok (.failure d)⟩) :
      Stops s separator element c (log ++ log') false
  | still {d e : Cursor} {log log' : List Event} {x y : Value}
      (first : s.Shows separator c ⟨log, .ok (.success x d)⟩)
      (second : s.Shows element d ⟨log', .ok (.success y e)⟩) (still : ¬c.position < e.position) :
      Stops s separator element c (log ++ log') true

variable {s : Session} {separator element : Rule} {A B : Store} {p q w : Parser} {c d e : Cursor}
  {log log' log'' : List Event} {x y : Value} {rounds : List (Value × Value)} {matched : Bool}
  {f : Value → Value → Value} {z : Act Value}

/-- Rounds are read until there is none, and each leaves less text for those behind it. -/
theorem exists_rounds (reached : s.Reached Command.Plain) (plain : separator.Plain)
    (plain' : element.Plain) (returns : s.Returns separator) (returns' : s.Returns element)
    (c : Cursor) : ∃ log rounds d log' matched,
      s.Rounds separator element c log rounds d ∧ s.Stops separator element d log' matched := by
  induction h : c.text.size - c.position using Nat.strongRecOn generalizing c with
  | ind n ih =>
    rcases returns.cases c with ⟨log, first⟩ | ⟨log, x, d, first⟩
    · exact ⟨[], [], c, log, false, .nil c, .separator first⟩
    rcases returns'.cases d with ⟨log', second⟩ | ⟨log', y, e, second⟩
    · exact ⟨[], [], c, _, false, .nil c, .element first second⟩
    by_cases further : c.position < e.position
    · have reaches := (first.reaches reached plain).trans (second.reaches reached plain')
      have bounded := reaches.bounded
      have less : e.text.size - e.position < n := by
        rw [reaches.text]
        omega
      obtain ⟨log'', rounds, e', last, matched, later, stops⟩ := ih _ less e rfl
      exact ⟨_, _, e', last, matched, .cons first second further later, stops⟩
    · exact ⟨[], [], c, _, true, .nil c, .still first second further⟩

/-- All values of rounds of plain rules can be written. -/
theorem Rounds.writes (read : s.Rounds separator element c log rounds d)
    (reached : s.Reached Command.Plain) (plain : separator.Plain) (plain' : element.Plain) :
    ∀ round ∈ rounds, round.1.writable = true ∧ round.2.writable = true := by
  induction read with
  | nil c => exact fun _ mem => absurd mem List.not_mem_nil
  | cons first second _ _ ih =>
    exact List.forall_mem_cons.2
      ⟨⟨first.writes reached plain rfl, second.writes reached plain' rfl⟩, ih⟩

/-- The parser runs what the two rules make, one after the other, and puts their values together if
they can be written. -/
def RunsBoth (s : Session) (A : Store) (separator element : Rule) (f : Value → Value → Value)
    (w : Parser) : Prop :=
  ∃ p q combine, separator.Makes s A p ∧ element.Makes s A q ∧
    (∀ c, w.eval s.env c = (Parser.both p q combine).eval s.env c) ∧
    ∀ x y, x.writable = true → y.writable = true → combine x y = pure (f x y)

namespace RunsBoth

theorem mono (h : A.Grows B) (runs : s.RunsBoth A separator element f w) :
    s.RunsBoth B separator element f w := by
  obtain ⟨p, q, combine, first, second, same⟩ := runs
  exact ⟨p, q, combine, first.mono h, second.mono h, same⟩

theorem eval_matched (runs : s.RunsBoth A separator element f w) (reached : s.Reached Command.Plain)
    (plain : separator.Plain) (plain' : element.Plain) (hA : s.Grown A)
    (first : s.Shows separator c ⟨log, .ok (.success x d)⟩)
    (second : s.Shows element d ⟨log', .ok (.success y e)⟩) :
    ∃ full B, w.eval s.env c A = some (⟨full, .ok (.success (f x y) e)⟩, B) ∧
      observed full = log ++ log' := by
  obtain ⟨p, q, combine, made, made', same, combined⟩ := runs
  obtain ⟨full, B, full', D, ends, ends', logged, logged'⟩ :=
    first.in_turn second reached hA made made'
  refine ⟨full ++ full', D, ?_, ?_⟩
  · rw [same]
    exact Parser.eval_both_of_ok ends rfl ends' rfl
      (combined x y (first.writes reached plain rfl) (second.writes reached plain' rfl))
  · rw [observed_append, logged, logged']

/-- Where there is no round, it fails or does not get on. -/
theorem eval_stops (runs : s.RunsBoth A separator element f w) (reached : s.Reached Command.Plain)
    (plain : separator.Plain) (plain' : element.Plain) (hA : s.Grown A)
    (stops : s.Stops separator element c log matched) :
    ∃ full r B, w.eval s.env c A = some (⟨full, .ok r⟩, B) ∧ r.ok = matched ∧
      (r.ok = true → idle c r.cursor = true) ∧ observed full = log := by
  cases stops with
  | separator first =>
    obtain ⟨p, q, combine, made, made', same, -⟩ := runs
    obtain ⟨full, B, ends, logged⟩ := (shows_iff reached hA made).1 first
    refine ⟨full, .failure c, B, ?_, rfl, (fun ok => by cases ok), logged⟩
    rw [same]
    exact Parser.eval_both_of_failed ends rfl
  | element first second =>
    obtain ⟨p, q, combine, made, made', same, -⟩ := runs
    obtain ⟨full, B, full', D, ends, ends', logged, logged'⟩ :=
      first.in_turn second reached hA made made'
    refine ⟨full ++ full', .failure c, D, ?_, rfl, (fun ok => by cases ok), ?_⟩
    · rw [same]
      exact Parser.eval_both_of_dangling ends rfl ends' rfl
    · rw [observed_append, logged, logged']
  | still first second still =>
    obtain ⟨full, B, ends, logged⟩ := runs.eval_matched reached plain plain' hA first second
    have reaches := (first.reaches reached plain).trans (second.reaches reached plain')
    exact ⟨full, _, B, ends, rfl, fun _ => reaches.idle_iff.2 still, logged⟩

theorem exists_chain (runs : s.RunsBoth A separator element f w) (reached : s.Reached Command.Plain)
    (plain : separator.Plain) (plain' : element.Plain) (hA : s.Grown A)
    (read : s.Rounds separator element c log rounds d) :
    ∃ full B, Chain s.env w c A full (rounds.map fun round => f round.1 round.2) d B ∧
      observed full = log ∧ s.Leads A B := by
  induction read generalizing A with
  | nil c => exact ⟨[], A, .nil c A, rfl, .refl hA⟩
  | cons first second further _ ih =>
    obtain ⟨full, B, ends, logged⟩ := runs.eval_matched reached plain plain' hA first second
    have hB := leads_of_eval hA ends
    obtain ⟨full', D, chain, logged', hD⟩ := ih (runs.mono hB.grows) hB.grown
    have reaches := (first.reaches reached plain).trans (second.reaches reached plain')
    have bounded := reaches.bounded
    refine ⟨full ++ full', D, .cons ends rfl reaches.text ?_ further chain, ?_, hB.trans hD⟩
    · simp only [Result.success] at *
      omega
    · rw [observed_append, logged, logged']

/-- Its repetition lists the values of the rounds. -/
theorem eval_many (runs : s.RunsBoth A separator element f w) (reached : s.Reached Command.Plain)
    (plain : separator.Plain) (plain' : element.Plain) (hA : s.Grown A)
    (read : s.Rounds separator element c log rounds d)
    (stops : s.Stops separator element d log' matched) :
    ∃ full B, (Parser.many w).eval s.env c A = some (⟨full, .ok (.success
        (.list (rounds.map fun round => f round.1 round.2)) d)⟩, B) ∧
      observed full = log ++ log' ++ (if matched then [.stopped w.name d.position] else []) := by
  obtain ⟨full, B, chain, logged, hB⟩ := runs.exists_chain reached plain plain' hA read
  obtain ⟨full', r, D, last, rfl, idles, logged'⟩ :=
    (runs.mono hB.grows).eval_stops reached plain plain' hB.grown stops
  refine ⟨_, D, chain.eval_many last idles, ?_⟩
  rw [observed_append, observed_append, logged, logged']
  rcases r.ok with _ | _ <;> rfl

/-- An element and the rounds behind it, and what is made of their values in the end. -/
theorem eval_both_many (runs : s.RunsBoth A separator element f w) (made : element.Makes s A p)
    (reached : s.Reached Command.Plain) (plain : separator.Plain) (plain' : element.Plain)
    (hA : s.Grown A) (first : s.Shows element c ⟨log, .ok (.success x d)⟩)
    (read : s.Rounds separator element d log' rounds e)
    (stops : s.Stops separator element e log'' matched) (combine : Value → Value → Act Value)
    (combined : combine x (.list (rounds.map fun round => f round.1 round.2)) = z) :
    ∃ full B, (Parser.both p (.many w) combine).eval s.env c A =
        some (⟨full, z.result.map fun v => .success v e⟩, B) ∧
      observed full = log ++ log' ++ log'' ++
        (if matched then [.stopped w.name e.position] else []) ++ z.log.map .note := by
  obtain ⟨full, B, ends, logged⟩ := (shows_iff reached hA made).1 first
  have hB := leads_of_eval hA ends
  obtain ⟨full', D, ends', logged'⟩ :=
    (runs.mono hB.grows).eval_many reached plain plain' hB.grown read stops
  have both : (Parser.both p (.many w) combine).eval s.env c A = _ :=
    Parser.eval_both_of_matched ends rfl ends' rfl
  simp only [Result.success, combined] at both
  refine ⟨_, D, both, ?_⟩
  simp only [observed_append, observed_notes, logged, logged', List.append_assoc]

end RunsBoth

theorem exists_made (returns : s.Returns element) (returns' : s.Returns separator) :
    ∃ A p q, s.Grown A ∧ element.Makes s A p ∧ separator.Makes s A q := by
  obtain ⟨p, A, -, leads, made⟩ := returns.exists_built (.refl s)
  obtain ⟨q, B, -, leads', made'⟩ := returns'.exists_built leads.grown
  exact ⟨B, p, q, leads'.grown, made.mono leads'.grows, made'⟩

/-- A rule that fails where its first part does, and does not where that matches, fails nowhere else. -/
theorem Returns.failure_iff {rule : Rule} (returns : s.Returns element)
    (failed : ∀ log, s.Shows element c ⟨log, .ok (.failure c)⟩ →
      s.Shows rule c ⟨log, .ok (.failure c)⟩)
    (matched : ∀ log x d, s.Shows element c ⟨log, .ok (.success x d)⟩ →
      ∃ log' z e, s.Shows rule c ⟨log', Except.map (fun v => .success v e) z⟩) (log : List Event) :
    s.Shows rule c ⟨log, .ok (.failure c)⟩ ↔ s.Shows element c ⟨log, .ok (.failure c)⟩ := by
  refine ⟨fun shows => ?_, failed log⟩
  rcases returns.cases c with ⟨log', first⟩ | ⟨log', x, d, first⟩
  · cases shows.unique (failed log' first)
    exact first
  · obtain ⟨log'', fault | v, e, shows'⟩ := matched log' x d first
    · cases shows.unique shows'
    · cases shows.unique shows'

theorem Shows.sepBy_failure (first : s.Shows element c ⟨log, .ok (.failure c)⟩)
    (reached : s.Reached Command.Plain) (hA : s.Grown A) (made : element.Makes s A p)
    (made' : separator.Makes s A q) :
    s.Shows (.binary .sepBy1 element separator) c ⟨log, .ok (.failure c)⟩ ∧
      s.Shows (element.sepBy separator) c ⟨log, .ok (.success (.list []) c)⟩ := by
  obtain ⟨full, B, ends, logged⟩ := (shows_iff reached hA made).1 first
  have failed : (p.sepBy1 q).eval s.env c A = _ := Parser.eval_both_of_failed ends rfl
  have none : (p.sepBy q).eval s.env c A = _ := Parser.eval_option_of_failed failed rfl
  exact ⟨(shows_iff reached hA (.binary .sepBy1 made made')).2 ⟨full, B, failed, logged⟩,
    (shows_iff reached hA (.binary .sepBy made made')).2 ⟨full, B, none, logged⟩⟩

/-- One element or more is just what any number of them is, if there is a first one. -/
theorem Rounds.shows_sepBy (read : s.Rounds separator element d log' rounds e)
    (stops : s.Stops separator element e log'' matched) (reached : s.Reached Command.Plain)
    (plain : separator.Plain) (plain' : element.Plain) (hA : s.Grown A)
    (made : element.Makes s A p) (made' : separator.Makes s A q)
    (first : s.Shows element c ⟨log, .ok (.success x d)⟩) :
    ∃ name,
      s.Shows (.binary .sepBy1 element separator) c
        ⟨log ++ log' ++ log'' ++ (if matched then [.stopped name e.position] else []),
          .ok (.success (.list (x :: rounds.map Prod.snd)) e)⟩ ∧
      s.Shows (element.sepBy separator) c
        ⟨log ++ log' ++ log'' ++ (if matched then [.stopped name e.position] else []),
          .ok (.success (.list (x :: rounds.map Prod.snd)) e)⟩ := by
  have runs : s.RunsBoth A separator element (fun _ y => y) (q.before p) :=
    ⟨q, p, _, made', made, fun c => Parser.eval_label _ _ c, fun _ _ _ _ => rfl⟩
  have fits : (Value.list (x :: rounds.map Prod.snd)).writable = true := by
    refine Value.writable_list.2 (List.forall_mem_cons.2 ⟨first.writes reached plain' rfl, ?_⟩)
    exact List.forall_mem_map.2 fun round mem => (read.writes reached plain plain' round mem).2
  obtain ⟨full, B, ends, logged⟩ := runs.eval_both_many made reached plain plain' hA first read stops
    (fun x xs => (x.cons xs).asConstant) (Value.asConstant_of_writable fits)
  have logged := logged.trans (List.append_nil _)
  have some : (p.sepBy q).eval s.env c A = _ := Parser.eval_option_of_matched ends rfl
  exact ⟨(q.before p).name,
    (shows_iff reached hA (.binary .sepBy1 made made')).2 ⟨full, B, ends, logged⟩,
    (shows_iff reached hA (.binary .sepBy made made')).2 ⟨full, B, some, logged⟩⟩

/-- Let every parse of two plain rules end with a result, that of an element and that of a separator.
One element or more with separators between them fails just where an element does; any number of them
lists none there. Where an element matches, both list its value and then the values of the elements in
the rounds behind it, a separator and an element each, and leave off where these do. The rounds are as
many as can be read: at that place the separator fails, or the element behind it, or both match and do
not get on. A separator without an element is thus left alone. -/
theorem sepBy_longest (reached : s.Reached Command.Plain) (plain : element.Plain)
    (plain' : separator.Plain) (returns : s.Returns element) (returns' : s.Returns separator)
    (c : Cursor) :
    (∀ log, s.Shows (.binary .sepBy1 element separator) c ⟨log, .ok (.failure c)⟩ ↔
      s.Shows element c ⟨log, .ok (.failure c)⟩) ∧
    (∀ log, s.Shows element c ⟨log, .ok (.failure c)⟩ →
      s.Shows (element.sepBy separator) c ⟨log, .ok (.success (.list []) c)⟩) ∧
    ∀ log x d, s.Shows element c ⟨log, .ok (.success x d)⟩ →
      ∃ log' rounds e log'' matched name, s.Rounds separator element d log' rounds e ∧
        s.Stops separator element e log'' matched ∧
        s.Shows (.binary .sepBy1 element separator) c
          ⟨log ++ log' ++ log'' ++ (if matched then [.stopped name e.position] else []),
            .ok (.success (.list (x :: rounds.map Prod.snd)) e)⟩ ∧
        s.Shows (element.sepBy separator) c
          ⟨log ++ log' ++ log'' ++ (if matched then [.stopped name e.position] else []),
            .ok (.success (.list (x :: rounds.map Prod.snd)) e)⟩ := by
  obtain ⟨A, p, q, hA, made, made'⟩ := exists_made returns returns'
  have rounds := exists_rounds reached plain' plain returns' returns
  refine ⟨returns.failure_iff ?_ ?_, ?_, ?_⟩
  · exact fun log first => (first.sepBy_failure reached hA made made').1
  · intro log x d first
    obtain ⟨log', rounds, e, log'', matched, read, stops⟩ := rounds d
    obtain ⟨name, shows, -⟩ := read.shows_sepBy stops reached plain' plain hA made made' first
    exact ⟨_, .ok _, e, shows⟩
  · exact fun log first => (first.sepBy_failure reached hA made made').2
  · intro log x d first
    obtain ⟨log', rounds, e, log'', matched, read, stops⟩ := rounds d
    obtain ⟨name, shows, shows'⟩ := read.shows_sepBy stops reached plain' plain hA made made' first
    exact ⟨log', rounds, e, log'', matched, name, read, stops, shows, shows'⟩

/-- The second comma has no digit behind it, so both lists leave off before it. -/
theorem sepBy_longest_dangling :
    start.Returns .digit ∧ start.Returns (.char ',') ∧
      start.Shows .digit ⟨#['1', ',', '2', ',', 'x'], 0⟩
        ⟨[], .ok (.success (.str "1") ⟨#['1', ',', '2', ',', 'x'], 1⟩)⟩ ∧
      ∃ log' rounds e log'' matched name,
        start.Rounds (.char ',') .digit ⟨#['1', ',', '2', ',', 'x'], 1⟩ log' rounds e ∧
        start.Stops (.char ',') .digit e log'' matched ∧
        start.Shows (.binary .sepBy1 .digit (.char ',')) ⟨#['1', ',', '2', ',', 'x'], 0⟩
          ⟨log' ++ log'' ++ (if matched then [.stopped name e.position] else []),
            .ok (.success (.list [.str "1", .str "2"]) e)⟩ ∧
        start.Shows (.sepBy .digit (.char ',')) ⟨#['1', ',', '2', ',', 'x'], 0⟩
          ⟨log' ++ log'' ++ (if matched then [.stopped name e.position] else []),
            .ok (.success (.list [.str "1", .str "2"]) e)⟩ ∧
        rounds.map Prod.snd = [.str "2"] ∧ e.position = 3 := by
  have plain : Rule.digit.Plain := trivial
  have plain' : (Rule.char ',').Plain := trivial
  have digit : start.Returns .digit := returns_ofTest
  have comma : start.Returns (.char ',') := returns_ofTest
  have first : start.Shows .digit ⟨#['1', ',', '2', ',', 'x'], 0⟩
      ⟨[], .ok (.success (.str "1") ⟨#['1', ',', '2', ',', 'x'], 1⟩)⟩ := shows_ofTest_iff.2 rfl
  obtain ⟨log', rounds, e, log'', matched, name, read, stops, shows, shows'⟩ :=
    (sepBy_longest .start plain plain' digit comma _).2.2 _ _ _ first
  have computed : start.Shows (.binary .sepBy1 .digit (.char ',')) ⟨#['1', ',', '2', ',', 'x'], 0⟩
      ⟨[], .ok (.success (.list [.str "1", .str "2"]) ⟨#['1', ',', '2', ',', 'x'], 3⟩)⟩ :=
    ⟨[], #[], ⟨9, _, fun budget more => step_below more rfl⟩, rfl⟩
  have same := shows.unique computed
  simp only [Logged.mk.injEq, Except.ok.injEq, Result.success, Result.mk.injEq, Value.list.injEq,
    List.cons.injEq, true_and, and_true] at same
  obtain ⟨-, second, rfl⟩ := same
  rw [second] at shows shows'
  exact ⟨digit, comma, first, log', rounds, _, log'', matched, name, read, stops, shows, shows', second,
    rfl⟩

end Session

end Rewind
