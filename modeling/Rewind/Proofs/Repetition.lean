import Rewind.Proofs.Calls
import Rewind.Rule.Handmade

namespace Rewind

namespace Call

/-- The calls of a loop in order, their records, the values that it gathers, and the cursor and the store
that it leaves. The last call fails or gets nowhere and gives no value; if it got nowhere, it is recorded
that the loop stopped there. -/
inductive Repeats (env : Env) (p : Parser) :
    Cursor → Store → List Call → List Event → List Value → Cursor → Store → Prop
  | last {c : Cursor} {store store' : Store} {log : List Event} {r : Result}
      (round : p.eval env c store = some (⟨log, .ok r⟩, store'))
      (stops : r.ok = true → idle c r.cursor = true) :
      Repeats env p c store [⟨p, c, store⟩]
        (log ++ if r.ok then [.stopped p.name c.position] else []) [] c store'
  | next {c d : Cursor} {store store' store'' : Store} {log log' : List Event} {r : Result}
      {calls : List Call} {values : List Value}
      (round : p.eval env c store = some (⟨log, .ok r⟩, store')) (ok : r.ok = true)
      (moved : idle c r.cursor = false)
      (later : Repeats env p r.cursor store' calls log' values d store'') :
      Repeats env p c store (⟨p, c, store⟩ :: calls) (log ++ log') (r.value :: values) d store''

variable {env : Env} {p : Parser} {a : Call} {c d : Cursor} {store store' store'' : Store}
  {r r' : Result} {calls : List Call} {log : List Event} {values : List Value}

theorem Gives.unique (h : a.Gives env r store) (h' : a.Gives env r' store') :
    r = r' ∧ store = store' := by
  obtain ⟨log, hlog⟩ := h
  obtain ⟨log', hlog'⟩ := h'
  have same := hlog.symm.trans hlog'
  cases same
  exact ⟨rfl, rfl⟩

theorem Rounds.prepend (round : Gives env ⟨p, c, store⟩ r store') (ok : r.ok = true)
    (moved : idle c r.cursor = false) (later : Rounds env p r.cursor store' d store'') :
    Rounds env p c store d store'' := by
  induction later with
  | first => exact .next .first round ok moved
  | next _ round' ok' moved' ih => exact .next ih round' ok' moved'

namespace Repeats

theorem length_calls (h : Repeats env p c store calls log values d store') :
    calls.length = values.length + 1 := by
  induction h with
  | last => rfl
  | next _ _ _ _ ih => rw [List.length_cons, List.length_cons, ih]

theorem first_mem (h : Repeats env p c store calls log values d store') :
    ⟨p, c, store⟩ ∈ calls := by
  cases h with
  | last => exact List.mem_cons_self
  | next => exact List.mem_cons_self

theorem next_mem (h : Repeats env p c store calls log values d store') {c' : Cursor} {s s' : Store}
    (mem : ⟨p, c', s⟩ ∈ calls) (round : Gives env ⟨p, c', s⟩ r s') (ok : r.ok = true)
    (moved : idle c' r.cursor = false) : ⟨p, r.cursor, s'⟩ ∈ calls := by
  induction h with
  | last round' stops =>
    cases List.mem_singleton.1 mem
    obtain ⟨rfl, rfl⟩ := round.unique ⟨_, round'⟩
    rw [stops ok] at moved
    cases moved
  | next round' _ _ later ih =>
    rcases List.mem_cons.1 mem with same | mem
    · cases same
      obtain ⟨rfl, rfl⟩ := round.unique ⟨_, round'⟩
      exact List.mem_cons_of_mem _ later.first_mem
    · exact List.mem_cons_of_mem _ (ih mem)

/-- These are all calls that the repetition makes. -/
theorem makes_iff_mem (h : Repeats env p c store calls log values d store') :
    Makes env ⟨.many p, c, store⟩ a ↔ a ∈ calls := by
  constructor
  · intro made
    cases made with
    | many rounds =>
      induction rounds with
      | first => exact h.first_mem
      | next _ round ok moved ih => exact h.next_mem ih round ok moved
  · intro mem
    induction h with
    | last =>
      cases List.mem_singleton.1 mem
      exact .many .first
    | next round ok moved _ ih =>
      rcases List.mem_cons.1 mem with rfl | mem
      · exact .many .first
      · cases ih mem with
        | many rounds => exact .many (rounds.prepend ⟨_, round⟩ ok moved)

theorem rounds_eq (h : Repeats env p c store calls log values d store') :
    Parser.rounds env p c store = some (⟨log, .ok (values, d)⟩, store') := by
  induction h with
  | @last c _ store' _ r round stops =>
    rw [Parser.rounds_eq, Run.bind_of_ok round]
    by_cases ok : r.ok = true
    · have wrote : Run.write (.stopped p.name c.position) store' =
          some (⟨[.stopped p.name c.position], .ok ()⟩, store') := rfl
      rw [if_pos ok, if_pos (stops ok), if_pos ok, Run.bind_of_ok wrote]
      rfl
    · rw [if_neg ok, if_neg ok]
      rfl
  | next round ok moved _ ih =>
    rw [Parser.rounds_eq, Run.bind_of_ok round, if_pos ok, moved, if_neg Bool.false_ne_true,
      Run.bind_of_ok ih]
    simp [Pure.pure, Run.pure, Logged.ok, Logged.after]

/-- A repetition matches with the values of its loop, and writes its records. -/
theorem eval_many (h : Repeats env p c store calls log values d store') :
    (Parser.many p).eval env c store = some (⟨log, .ok (.success (.list values) d)⟩, store') := by
  rw [Parser.eval_many, Run.bind_of_ok h.rounds_eq]
  simp [Pure.pure, Run.pure, Logged.ok, Logged.after]

end Repeats

end Call

/-- Whatever store it finds, of those that are kept, the parser ends without a fault, and a match
stays in the text and does not move back. It may move beyond the end or not at all. -/
def Parser.Steady (env : Env) (keeps : Store → Prop) (p : Parser) : Prop :=
  ∀ (c : Cursor) (store : Store), keeps store → ∃ r store', Call.Gives env ⟨p, c, store⟩ r store' ∧
    keeps store' ∧ (r.ok = true → r.cursor.text = c.text ∧ c.position ≤ r.cursor.position)

variable {env : Env} {keeps : Store → Prop} {p : Parser}

theorem Parser.Steady.exists_repeats (steady : p.Steady env keeps) (c : Cursor) {store : Store}
    (hstore : keeps store) : ∃ calls log values d store',
      Call.Repeats env p c store calls log values d store' ∧
        values.length ≤ c.text.size - c.position := by
  induction h : c.text.size - c.position using Nat.strongRecOn generalizing c store with
  | ind n ih =>
    obtain ⟨r, store', ⟨log, round⟩, hstore', forward⟩ := steady c store hstore
    by_cases goes : r.ok = true ∧ idle c r.cursor = false
    · obtain ⟨ok, moved⟩ := goes
      obtain ⟨text, le⟩ := forward ok
      obtain ⟨inside, further⟩ := position_lt_of_not_idle moved text le
      -- Also a jump beyond the end leaves less to go.
      have less : r.cursor.text.size - r.cursor.position < n := by rw [text]; omega
      obtain ⟨calls, log', values, d, store'', later, few⟩ := ih _ less r.cursor hstore' rfl
      refine ⟨_, _, _, d, store'', .next round ok moved later, ?_⟩
      rw [List.length_cons]
      omega
    · have stops : r.ok = true → idle c r.cursor = true :=
        fun ok => Bool.of_not_eq_false fun moved => goes ⟨ok, moved⟩
      exact ⟨_, _, _, c, store', .last round stops, Nat.zero_le n⟩

namespace Session

variable {s : Session} {rule : Rule} {store : Store}

/-- A repetition of a part that never moves back ends with a match, however often the part matches
without getting on. The calls of the loop are all that it makes: it calls the part at most once for each
character that is left and once more, gathers at most one value for each, and writes the records of
these calls in order. -/
theorem many_total (built : rule.build s.env s.store = (.ok p, store))
    (steady : p.Steady s.env keeps) (hstore : keeps store) (text : Array Char) (position : Nat) :
    ∃ calls log values d store',
      Call.Repeats s.env p ⟨text, position⟩ store calls log values d store' ∧
      (∀ a, Call.Makes s.env ⟨.many p, ⟨text, position⟩, store⟩ a ↔ a ∈ calls) ∧
      calls.length ≤ text.size - position + 1 ∧ values.length ≤ text.size - position ∧
      ∃ n, ∀ budget, n ≤ budget → s.step budget (.parse rule.many text position) =
        some (⟨log, .ok (.parsed ("many(" ++ p.name ++ ")") (.success (.list values) d))⟩,
          { s with store := store' }) := by
  obtain ⟨calls, log, values, d, store', repeats, few⟩ :=
    steady.exists_repeats ⟨text, position⟩ hstore
  have built_many : rule.many.build s.env s.store = (.ok (.many p), store) := Build.bind_of_ok built
  obtain ⟨n, ran⟩ := Parser.eval_eq_some_iff.1 repeats.eval_many
  refine ⟨calls, log, values, d, store', repeats, fun a => repeats.makes_iff_mem, ?_, few, n,
    fun budget more => step_below more (step_parse_of_run built_many ran)⟩
  rw [repeats.length_calls]
  exact Nat.succ_le_succ few

/-- Jumps of three characters leave a text of four with the second one. The third one begins beyond
the end and is the last. -/
theorem many_total_jump :
    ∃ (jump : Rule) (p : Parser), p.Steady start.env (fun _ => True) ∧
      ∃ calls log values d store',
        Call.Repeats start.env p ⟨#['a', 'b', 'c', 'd'], 0⟩ start.store calls log values d store' ∧
        (∀ a, Call.Makes start.env ⟨.many p, ⟨#['a', 'b', 'c', 'd'], 0⟩, start.store⟩ a ↔ a ∈ calls) ∧
        calls.length ≤ 4 - 0 + 1 ∧ values.length ≤ 4 - 0 ∧
        (∃ n, ∀ budget, n ≤ budget →
          start.step budget (.parse jump.many #['a', 'b', 'c', 'd'] (0 : Nat)) =
            some (⟨log, .ok (.parsed "many(jump)" (.success (.list values) d))⟩,
              { start with store := store' })) ∧
        log = [.stopped "jump" 6] ∧ values.length = 2 ∧ d.position = 6 := by
  let script : Script := ⟨true, .none, 3, none⟩
  let jump : Rule := .scripted script "jump" none
  let p : Parser := .atom (.handmade script.run "jump" none)
  have steady : p.Steady start.env (fun _ => True) := by
    intro c store _
    have landed : Cursor.at? c.text (c.position + 3) = .ok ⟨c.text, c.position + 3⟩ :=
      Cursor.at?_eq_ok_iff.2 ⟨by omega, rfl⟩
    have jumped : script.run c = Logged.ok (.success .none ⟨c.text, c.position + 3⟩) := by
      simp [script, Script.run, landed, Logged.ofExcept, Bind.bind, Logged.bind, Logged.ok,
        Logged.after, Pure.pure, Result.success]
    have gives : Call.Gives start.env ⟨p, c, store⟩ (.success .none ⟨c.text, c.position + 3⟩)
        store := by
      refine ⟨[], ?_⟩
      rw [Parser.eval_atom, Atom.run, jumped]
      rfl
    exact ⟨_, store, gives, trivial, fun _ => ⟨rfl, Nat.le_add_right c.position 3⟩⟩
  have built : jump.build start.env start.store = (.ok p, start.store) := rfl
  obtain ⟨calls, log, values, d, store', repeats, made, fewCalls, few, n, ended⟩ :=
    many_total built steady trivial #['a', 'b', 'c', 'd'] 0
  have computed : start.step 9 (.parse jump.many #['a', 'b', 'c', 'd'] (0 : Nat)) =
      some (⟨[.stopped "jump" 6], .ok (.parsed "many(jump)"
        ⟨.list [.none, .none], ⟨#['a', 'b', 'c', 'd'], 6⟩, true⟩)⟩, start) := rfl
  have same := (ended (max n 9) (Nat.le_max_left n 9)).symm.trans
    (step_below (Nat.le_max_right n 9) computed)
  cases same
  exact ⟨jump, p, steady, calls, _, _, _, _, repeats, made, fewCalls, few, ⟨n, ended⟩, rfl, rfl, rfl⟩

end Session

end Rewind
