import Rewind.Proofs.Reading
import Rewind.Proofs.Shown
import Rewind.Rule.Handmade

namespace Rewind

namespace Rule

variable {env : Env} {r : Rule}

theorem eval_not (r : Rule) (c : Cursor) :
    (unary .not r).eval env c = (do
      let t ← r.eval env c
      return ⟨.none, c, !t.ok⟩) := by
  rw [eval_unary rfl, eval, LawfulMonad.bind_assoc]
  congr 1
  funext p
  rw [Unary.apply, Parser.eval_not]
  congr 1
  funext t
  cases t.ok
  · rfl
  · rfl

theorem eval_lookAhead (r : Rule) (c : Cursor) :
    (unary .lookAhead r).eval env c = (do
      let t ← r.eval env c
      return if t.ok then .success t.value c else .failure c) := by
  rw [eval_unary rfl, eval, LawfulMonad.bind_assoc]
  congr 1
  funext p
  rw [Unary.apply, Parser.eval_lookAhead]

theorem not_not (r : Rule) (c : Cursor) :
    (unary .not (.unary .not r)).eval env c =
      ((unary .lookAhead r).map fun _ => .none).eval env c := by
  rw [eval_not, eval_not, map, eval_map, eval_lookAhead, LawfulMonad.bind_assoc, LawfulMonad.bind_assoc]
  congr 1
  funext t
  rw [LawfulMonad.pure_bind, LawfulMonad.pure_bind]
  cases t.ok
  · rfl
  · rfl

theorem lookAhead_lookAhead (r : Rule) (c : Cursor) :
    (unary .lookAhead (.unary .lookAhead r)).eval env c = (unary .lookAhead r).eval env c := by
  rw [eval_lookAhead, eval_lookAhead, LawfulMonad.bind_assoc]
  congr 1
  funext t
  rw [LawfulMonad.pure_bind]
  cases t.ok
  · rfl
  · rfl

theorem eval_endOfInput (c : Cursor) :
    endOfInput.eval env c = Pure.pure ⟨.none, c, c.atEnd⟩ := by
  have built : endOfInput.build env =
      pure (.label (.not (.satisfy (fun _ => true) "any_char")) "end of input") := rfl
  rw [eval_of_pure built, Parser.eval_label, Parser.eval_not]
  rcases h : c.rest with _ | ⟨x, xs⟩
  · have none : ∀ x, c.rest.head? = some x → true = false := by simp [h]
    rw [Parser.eval_satisfy_of_neg none, LawfulMonad.pure_bind, (Cursor.atEnd_iff_rest_eq_nil c).2 h]
    rfl
  · have inside : c.atEnd = false := by
      rw [← Bool.not_eq_true, Cursor.atEnd_iff_rest_eq_nil, h]
      exact List.cons_ne_nil x xs
    rw [Parser.eval_satisfy_of_pos h rfl, LawfulMonad.pure_bind, inside]
    rfl

end Rule

variable {s : Session} {allowed : Command → Prop} {m m' : Rule} {c : Cursor} {log log' : List Event}
  {r t : Result} {A : Store}

namespace Session

/-- One rule behind the other. The second one is not run if the first one fails. -/
theorem Shows.before (reached : s.Reached allowed) (first : s.Shows m c ⟨log, .ok r⟩)
    (second : s.Shows m' r.cursor ⟨log', .ok t⟩) :
    s.Shows (m.before m') c
      (if r.ok then ⟨log ++ log', .ok (t.settle c)⟩ else ⟨log, .ok (.failure c)⟩) := by
  have accepted : (m.before m').refusal? s.env = none := by
    simp [Rule.before, Rule.refusal?, first.accepted, second.accepted]
  obtain ⟨p, B, built, leads, made⟩ := Rule.exists_makes (.refl s) accepted
  rw [shows_iff_of_built built]
  cases made with
  | binary _ left right =>
    obtain ⟨full, D, full', D', ends, ends', logged, logged'⟩ :=
      first.in_turn second reached leads.grown left right
    rw [Binary.apply, Parser.eval_before, Run.bind_of_ok ends]
    by_cases matched : r.ok = true
    · refine ⟨full ++ full', D', ?_, ?_⟩
      · rw [if_pos matched, if_pos matched, Run.bind_pure_at, ends', Result.settle_eq]
        rfl
      · rw [if_pos matched, observed_append, logged, logged']
    · refine ⟨full, D, ?_, ?_⟩
      · rw [if_neg matched, if_neg matched]
        simp [Pure.pure, Run.pure, Logged.ok, Logged.after]
      · rw [if_neg matched, logged]

theorem parses_not (ends : s.Parses m c (⟨log, .ok r⟩, A)) :
    s.Parses (.unary .not m) c (⟨log, .ok ⟨.none, c, !r.ok⟩⟩, A) := by
  rw [parses_iff, Rule.eval_not, Run.bind_pure_eq_some_iff]
  exact ⟨_, parses_iff.1 ends, rfl⟩

/-- A lookahead keeps the value and moves nowhere. -/
theorem parses_lookAhead (ends : s.Parses m c (⟨log, .ok r⟩, A)) :
    s.Parses (.unary .lookAhead m) c (⟨log, .ok ⟨r.value, c, r.ok⟩⟩, A) := by
  have shows : s.Shows m c ⟨_, .ok r⟩ := ⟨log, A, ends, rfl⟩
  rw [parses_iff, Rule.eval_lookAhead, Run.bind_pure_eq_some_iff]
  refine ⟨_, parses_iff.1 ends, ?_⟩
  rcases ok : r.ok with _ | _
  · rw [shows.eq_failure ok]
    rfl
  · simp [Except.map, ok, Result.success]

/-- A parser behind its own lookahead finds what that has found. -/
theorem shows_lookAhead_before (reached : s.Reached allowed) (ends : s.Parses m c (⟨log, .ok r⟩, A)) :
    s.Shows ((Rule.unary .lookAhead m).before m) c
      ⟨observed (if r.ok then log ++ log else log), .ok r⟩ := by
  have shows : s.Shows m c ⟨observed log, .ok r⟩ := ⟨log, A, ends, rfl⟩
  have ahead : s.Shows (.unary .lookAhead m) c ⟨observed log, .ok ⟨r.value, c, r.ok⟩⟩ :=
    ⟨log, A, parses_lookAhead ends, rfl⟩
  have behind := ahead.before reached shows
  rcases ok : r.ok with _ | _
  · simp only [ok] at behind
    rw [← shows.eq_failure ok] at behind
    exact behind
  · simp only [ok] at behind
    rw [Result.settle_of_ok ok, ← observed_append] at behind
    exact behind

/-- A parser is run behind its own negation only where it fails. -/
theorem shows_not_before (reached : s.Reached allowed) (ends : s.Parses m c (⟨log, .ok r⟩, A)) :
    s.Shows ((Rule.unary .not m).before m) c
      ⟨observed (if r.ok then log else log ++ log), .ok (.failure c)⟩ := by
  have shows : s.Shows m c ⟨observed log, .ok r⟩ := ⟨log, A, ends, rfl⟩
  have absent : s.Shows (.unary .not m) c ⟨observed log, .ok ⟨.none, c, !r.ok⟩⟩ :=
    ⟨log, A, parses_not ends, rfl⟩
  have behind := absent.before reached shows
  rcases ok : r.ok with _ | _
  · simp only [ok] at behind
    rw [Result.settle_of_not_ok ok, ← observed_append] at behind
    exact behind
  · simp only [ok] at behind
    exact behind

/-- In every session, for every parser `m`, and at every cursor `c` at which a parse of `m` ends with a
result: the negation of `m` and the lookahead of `m` end, too, both at `c`, with the records of `m`; the
negation matches where `m` does not, and the lookahead where it does, with the value of `m`. To look ahead
with `m` before `m` comes to what `m` does, and `m` behind its own negation always fails and gives back
`c`; `m` is run a second time there if the first part matches. The negation of the negation of any parser
ends as its lookahead with the value dropped does, and the lookahead of the lookahead as the lookahead: in
the same fault or result, with the same records and the same cells, or neither ends. The end of the input
matches just where the position is at or beyond the end of the text. -/
theorem lookahead_laws (reached : s.Reached allowed) :
    (∀ m c log r A, s.Parses m c (⟨log, .ok r⟩, A) →
      s.Parses (.unary .not m) c (⟨log, .ok ⟨.none, c, !r.ok⟩⟩, A) ∧
      s.Parses (.unary .lookAhead m) c (⟨log, .ok ⟨r.value, c, r.ok⟩⟩, A) ∧
      s.Shows ((Rule.unary .lookAhead m).before m) c
        ⟨observed (if r.ok then log ++ log else log), .ok r⟩ ∧
      s.Shows ((Rule.unary .not m).before m) c
        ⟨observed (if r.ok then log else log ++ log), .ok (.failure c)⟩) ∧
    (∀ m c last, s.Parses (.unary .not (.unary .not m)) c last ↔
      s.Parses ((Rule.unary .lookAhead m).map fun _ => .none) c last) ∧
    (∀ m c last, s.Parses (.unary .lookAhead (.unary .lookAhead m)) c last ↔
      s.Parses (.unary .lookAhead m) c last) ∧
    ∀ c last, s.Parses .endOfInput c last ↔
      last = (⟨[], .ok ⟨.none, c, decide (c.text.size ≤ c.position)⟩⟩, s.store) := by
  refine ⟨fun m c log r A ends => ⟨parses_not ends, parses_lookAhead ends, ?_, ?_⟩,
    fun m c last => ?_, fun m c last => ?_, fun c last => ?_⟩
  · exact shows_lookAhead_before reached ends
  · exact shows_not_before reached ends
  · rw [parses_iff, parses_iff, Rule.not_not]
  · rw [parses_iff, parses_iff, Rule.lookAhead_lookAhead]
  · rw [parses_iff, Rule.eval_endOfInput]
    exact Option.some_inj.trans eq_comm

/-- A digit that is built when it is first used is there, and is still taken when it was looked for. One
that fails with a value and further on is not there, and is not found behind that either. -/
theorem lookahead_laws_item : ∃ s : Session, ∃ A,
    s.Parses (.unary .not (.ref "item")) (.start #['1'])
      (⟨[.filled (some "item")], .ok (.failure (.start #['1']))⟩, A) ∧
    s.Shows ((Rule.unary .lookAhead (.ref "item")).before (.ref "item")) (.start #['1'])
      ⟨[], .ok (.success (.str "1") ⟨#['1'], 1⟩)⟩ ∧
    s.Shows ((Rule.unary .not (.ref "stumble")).before (.ref "stumble")) (.start #['1', '2'])
      ⟨[], .ok (.failure (.start #['1', '2']))⟩ := by
  let s := ofCommands [.bind "item" (.lazy (some "item") true .digit),
    .bind "stumble" (.scripted ⟨false, .int 7, 2, none⟩ "stumble" none)]
  have reached : s.Reached fun _ => True := reached_ofCommands fun _ _ => trivial
  have item : s.Parses (.ref "item") (.start #['1'])
      (⟨[.filled (some "item")], .ok (.success (.str "1") ⟨#['1'], 1⟩)⟩, _) :=
    ⟨9, _, fun budget more => step_below more rfl⟩
  have stumble : s.Parses (.ref "stumble") (.start #['1', '2'])
      (⟨[], .ok (.failure (.start #['1', '2']))⟩, _) :=
    ⟨9, _, fun budget more => step_below more rfl⟩
  obtain ⟨negated, -, behind, -⟩ := (lookahead_laws reached).1 _ _ _ _ _ item
  obtain ⟨-, -, -, never⟩ := (lookahead_laws reached).1 _ _ _ _ _ stumble
  exact ⟨s, _, negated, behind, never⟩

end Session

end Rewind
