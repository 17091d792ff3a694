import Rewind.Proofs.Plain
import Rewind.Proofs.Sessions
import Rewind.Rule.Combinators

namespace Rewind

/-- Where a parser that begins at `c` may leave off. -/
structure Cursor.Reaches (c d : Cursor) : Prop where
  text : d.text = c.text
  forward : c.position ≤ d.position
  bounded : d.position ≤ max c.position c.text.size

namespace Cursor.Reaches

theorem refl (c : Cursor) : c.Reaches c := ⟨rfl, Nat.le_refl _, Nat.le_max_left _ _⟩

theorem trans {c d e : Cursor} (hd : c.Reaches d) (he : d.Reaches e) : c.Reaches e := by
  have h := he.bounded
  rw [hd.text] at h
  have h' := hd.bounded
  exact ⟨he.text.trans hd.text, Nat.le_trans hd.forward he.forward, by omega⟩

theorem next {c : Cursor} {x : Char} (h : c.char? = some x) : c.Reaches c.next := by
  have inside : c.position < c.text.size := (Array.getElem?_eq_some_iff.1 h).1
  exact ⟨rfl, Nat.le_succ _, by show c.position + 1 ≤ _; omega⟩

theorem length_rest_le {c d : Cursor} (h : c.Reaches d) : d.rest.length ≤ c.rest.length := by
  rw [Cursor.length_rest, Cursor.length_rest, h.text]
  exact Nat.sub_le_sub_left h.forward _

theorem position_lt {c d : Cursor} (h : c.Reaches d) (shorter : d.rest.length < c.rest.length) :
    c.position < d.position := by
  rw [Cursor.length_rest, Cursor.length_rest, h.text] at shorter
  omega

/-- A round that got somewhere left less text. -/
theorem length_rest_lt {c d : Cursor} (h : c.Reaches d) (moved : idle c d = false) :
    d.rest.length < c.rest.length := by
  obtain ⟨inside, further⟩ := position_lt_of_not_idle moved h.text h.forward
  rw [Cursor.length_rest, Cursor.length_rest, h.text]
  exact Nat.sub_lt_sub_left inside further

end Cursor.Reaches

namespace Atom

theorem readLiteral_reaches {xs : List Char} {c d : Cursor} (h : readLiteral xs c = some d) :
    c.Reaches d := by
  induction xs generalizing c with
  | nil =>
    obtain rfl : c = d := Option.some.inj h
    exact .refl c
  | cons x xs ih =>
    unfold readLiteral at h
    split at h
    · next hx => exact (Cursor.Reaches.next hx).trans (ih h)
    · cases h

theorem run_satisfy_ok {test : CharTest} {name : String} {c : Cursor} {r : Result}
    (h : ((satisfy test name).run c).result = .ok r) (ok : r.ok = true) :
    ∃ x, c.char? = some x ∧ r = .success (.ofChar x) c.next := by
  simp only [run] at h
  rcases hx : c.char? with _ | x
  · rw [hx] at h
    cases h
    cases ok
  · simp only [hx, Logged.result_bind] at h
    generalize (test x).result = outcome at h
    rcases outcome with fault | passed
    · cases h
    · cases h
      cases passed
      · cases ok
      · exact ⟨x, rfl, rfl⟩

theorem run_literal_ok {chars : List Char} {value : Value} {c : Cursor} {r : Result}
    (h : ((literal chars value).run c).result = .ok r) (ok : r.ok = true) :
    readLiteral chars c = some r.cursor := by
  simp only [run] at h
  rcases hd : readLiteral chars c with _ | d
  · rw [hd] at h
    cases h
    cases ok
  · rw [hd] at h
    cases h
    rfl

theorem run_reaches {a : Atom} (ha : a.Plain) (c : Cursor) {r : Result}
    (h : (a.run c).result = .ok r) (ok : r.ok = true) : c.Reaches r.cursor := by
  cases a with
  | satisfy test name =>
    obtain ⟨x, hx, rfl⟩ := run_satisfy_ok h ok
    exact .next hx
  | literal chars value => exact readLiteral_reaches (run_literal_ok h ok)
  | constant value =>
    cases h
    exact .refl c
  | fail name =>
    cases h
    cases ok
  | handmade run name own => exact ha.elim

end Atom

namespace Parser

variable {env : Env}

/-- What one step keeps, if the runs of its parts do. -/
theorem step_reaches (henv : Env.Plain env) {run : Parser → Cursor → Run Result}
    (each : ∀ p c, p.Plain → (run p c).Meets .plain (fun _ => True)
      fun r => r.ok = true → c.Reaches r.cursor)
    (budget : Nat) {p : Parser} (hp : p.Plain) (c : Cursor) :
    (step run budget env p c).Meets .plain (fun _ => True)
      fun r => r.ok = true → c.Reaches r.cursor := by
  cases p with
  | atom a => exact .ofAct (fun _ _ => trivial) fun r h ok => Atom.run_reaches hp c h ok
  | andThen p notes next =>
    refine .bind (each p c hp.1) fun r hr => ?_
    split
    · next ok =>
      refine .bind (P := fun _ => True) (.writeNotes trivial) fun _ _ => ?_
      refine .bind (.ofBuild (Rule.build_plain henv (hp.2 r))) fun q hq => ?_
      exact (each q r.cursor hq).weaken fun s hs ok' => (hr ok).trans (hs ok')
    · exact .pure hr
  | both p q combine =>
    refine .bind (each p c hp.1) fun r hr => ?_
    split
    · next ok =>
      refine .bind (each q r.cursor hp.2) fun s hs => ?_
      split
      · next ok' =>
        exact .bind (.anyAct _) fun _ _ => .pure fun _ => (hr ok).trans (hs ok')
      · next failed => exact .pure fun ok' => absurd ok' failed
    · exact .pure hr
  | map p f =>
    refine .bind (each p c hp) fun r hr => ?_
    split
    · next ok =>
      exact .bind (.anyAct _) fun _ _ => .pure fun _ => hr ok
    · exact .pure hr
  | or p q =>
    refine .bind (each p c hp.1) fun r hr => ?_
    split
    · exact .pure hr
    · exact each q c hp.2
  | not p =>
    refine .bind (each p c hp) fun r _ => .pure fun ok => ?_
    by_cases matched : r.ok = true
    · rw [if_pos matched] at ok
      cases ok
    · rw [if_neg matched]
      exact .refl c
  | many p =>
    -- All rounds start where `c` reaches, so the loop keeps that.
    have rounds (d : Cursor) (_ : List Value) (hd : c.Reaches d) :
        (run p d).Meets .plain (fun _ => True) fun r => r.ok = true → c.Reaches r.cursor :=
      (each p d hp).weaken fun r hr ok => hd.trans (hr ok)
    refine (Run.Meets.repeated trivial rounds budget (.refl c) []).weaken ?_
    rintro r ⟨-, -, -, reaches⟩ -
    exact reaches
  | lookAhead p =>
    refine .bind (each p c hp) fun r hr => .pure ?_
    split
    · exact fun _ => .refl c
    · exact hr
  | trace tag text p =>
    refine .bind (P := fun _ => True) (.write trivial) fun _ _ => ?_
    refine .bind (each p c hp) fun r hr => ?_
    exact .bind (P := fun _ => True) (.write trivial) fun _ _ => .pure hr
  | label p name => exact each p c hp
  | wrap p name => exact each p c hp
  | forward cell name => exact .bind (Run.target_plain cell _) fun p hp => each p c hp
  | lazy cell name => exact .bind (Run.force_plain henv cell) fun p hp => each p c hp

theorem run_reaches (henv : Env.Plain env) (budget : Nat) {p : Parser} (hp : p.Plain) (c : Cursor) :
    (run env budget p c).Meets .plain (fun _ => True)
      fun r => r.ok = true → c.Reaches r.cursor := by
  induction budget generalizing p c with
  | zero => exact .spent trivial
  | succ budget ih =>
    refine .settle c ((step_reaches henv (fun p c hp => ih hp c) budget hp c).weaken ?_)
    intro r hr ok
    cases h : r.ok
    · rw [Result.settle_of_not_ok h] at ok
      cases ok
    · rw [Result.settle_of_ok h]
      exact hr h

/-- Failing is settled in one place, so this half asks nothing of the parser. -/
theorem run_failure (env : Env) (budget : Nat) (p : Parser) (c : Cursor) :
    (run env budget p c).Meets ⟨fun _ => True, True⟩ (fun _ => True)
      fun r => r.ok = false → r = .failure c := by
  cases budget with
  | zero => exact .spent trivial
  | succ budget =>
    refine .settle c ?_
    intro store _
    rcases step (run env budget) budget env p c store with _ | ⟨⟨log, fault | r⟩, store'⟩
    · trivial
    · exact ⟨trivial, trivial⟩
    · refine ⟨trivial, fun failed => ?_⟩
      cases h : r.ok
      · exact Result.settle_of_not_ok h
      · rw [Result.settle_of_ok h, h] at failed
        cases failed

end Parser

/-- The rule of the command is plain. -/
def Command.Plain : Command → Prop
  | .bind _ rule | .define _ rule | .inspect rule | .feed rule => rule.Plain
  | .parse rule _ _ | .run rule _ _ => rule.Plain
  | .declare _ _ | .defineValue _ _ | .seek _ _ => True

namespace Session

/-- All parsers that the session knows by name or in a cell are plain. -/
structure Plain (s : Session) : Prop where
  env : Env.Plain s.env
  store : Store.Plain s.store

theorem Reached.plain {s : Session} (h : s.Reached Command.Plain) : s.Plain :=
  have kept := Reached.ofTrait (T := .plain) h
  ⟨kept.env, kept.store⟩

/-- A parse in any session, with any rule, fails with exactly the cursor it was given and no value.
In a session that plain commands lead to, and with a plain rule, it matches within the text from
that cursor on, and never moves back. -/
theorem parse_discipline {s s' : Session} {rule : Rule} {text : Array Char} {position budget : Nat}
    {log : List Event} {name : String} {r : Result}
    (parsed : s.step budget (.parse rule text position) = some (⟨log, .ok (.parsed name r)⟩, s')) :
    (r.ok = false → r = ⟨.none, ⟨text, position⟩, false⟩) ∧
      (r.ok = true → s.Reached Command.Plain → rule.Plain →
        r.cursor.text = text ∧ position ≤ r.cursor.position ∧
          r.cursor.position ≤ max position text.size) := by
  constructor
  · -- Nothing is asked of the rule or the store here.
    have built : Build.Meets (fun _ => True) (fun _ => True) (rule.build s.env) fun _ => True := by
      intro store _
      rcases rule.build s.env store with ⟨fault | p, store'⟩
      · exact ⟨trivial, trivial⟩
      · exact ⟨trivial, trivial⟩
    have h := step_allows (meets_parse built fun p _ => Parser.run_failure s.env budget p _)
      trivial parsed
    obtain ⟨_, _, same, failed⟩ := h.2
    cases same
    exact failed
  · intro ok reached plain
    have hs := reached.plain
    have h := step_allows (meets_parse (Rule.build_plain hs.env plain) fun p hp =>
      Parser.run_reaches hs.env budget hp _) hs.store parsed
    obtain ⟨_, _, same, matched⟩ := h.2
    cases same
    have reaches := matched ok
    exact ⟨reaches.text, reaches.forward, reaches.bounded⟩

/-- Beyond the end, a repetition matches nothing and stays there. -/
theorem parse_discipline_beyond_end :
    ∃ r : Result, r.ok = true ∧ (Rule.many .digit).Plain ∧
      Session.start.step 9 (.parse (.many .digit) #['1', '2'] (5 : Nat)) =
        some (⟨[], .ok (.parsed "many(digit)" r)⟩, .start) ∧
      r.cursor.text = #['1', '2'] ∧ 5 ≤ r.cursor.position ∧ r.cursor.position ≤ max 5 2 := by
  have parsed : Session.start.step 9 (.parse (.many .digit) #['1', '2'] (5 : Nat)) =
      some (⟨[], .ok (.parsed "many(digit)" ⟨.list [], ⟨#['1', '2'], 5⟩, true⟩)⟩, .start) := rfl
  exact ⟨_, rfl, trivial, parsed, (parse_discipline parsed).2 rfl .start trivial⟩

end Session

end Rewind
