import Rewind.Proofs.Sessions

namespace Rewind

namespace Rule

variable {env : Env}

/-- What a rule comes to at a cursor when the budget is not bounded: it is built and then run. -/
noncomputable def eval (env : Env) (r : Rule) (c : Cursor) : Run Result := do
  let p ← Run.ofBuild (r.build env)
  p.eval env c

/-- A rule is run as the parser that is built from it. -/
theorem eval_of_built {r : Rule} {p : Parser} {A B : Store} (built : r.build env A = (.ok p, B))
    (c : Cursor) : r.eval env c A = p.eval env c B := by
  rw [eval, Run.bind_of_ok (Run.ofBuild_eq built)]
  exact Option.map_id'

theorem eval_of_pure {r : Rule} {p : Parser} (built : r.build env = pure p) (c : Cursor) :
    r.eval env c = p.eval env c := by
  rw [eval, built, Run.ofBuild_pure, LawfulMonad.pure_bind]

theorem eval_of_raised {r : Rule} {fault : Fault} {A B : Store}
    (raised : r.build env A = (.error fault, B)) (c : Cursor) :
    r.eval env c A = some (⟨[], .error fault⟩, B) := by
  rw [eval, Run.bind_of_error (Run.ofBuild_eq raised)]

theorem eval_unary {op : Unary} (fits : op.refusal? = none) (r : Rule) (c : Cursor) :
    (unary op r).eval env c = (do
      let p ← Run.ofBuild (r.build env)
      (op.apply p).eval env c) := by
  simp only [eval, build, fits, checked, Run.ofBuild_bind, LawfulMonad.bind_assoc, Run.ofBuild_pure,
    LawfulMonad.pure_bind]

/-- Rules that are put together from the left are built in order. -/
theorem build_foldl_binary (op : Binary) (rs : List Rule) (r : Rule) :
    (rs.foldl (.binary op) r).build env = (do
      let p ← r.build env
      let ps ← rs.mapM (build env)
      return ps.foldl op.apply p) := by
  induction rs generalizing r with
  | nil => simp
  | cons r' rs ih => simp only [List.foldl_cons, ih, build, List.mapM_cons, bind_assoc, pure_bind]

end Rule

/-- Takes a character and gives an integer that cannot be written. -/
def Atom.bulky : Atom := .handmade (fun c => pure (.success .long c.next)) "fn" (some "fn")

theorem Rule.eval_bulky {env : Env} (c : Cursor) :
    (Rule.atom .bulky).eval env c = pure (.success .long c.next) := by
  have built : (Rule.atom .bulky).build env = pure (.atom .bulky) := rfl
  rw [eval_of_pure built, Parser.eval_atom]
  rfl

namespace Session

variable {s : Session} {rule : Rule} {c : Cursor}

/-- A parse ends so, under any name, with every budget that is large enough: with these records, this
fault or result, and these cells. -/
def Parses (s : Session) (rule : Rule) (c : Cursor) (last : Logged Event Result × Store) : Prop :=
  ∃ n name, ∀ budget, n ≤ budget → s.step budget (.parse rule c.text c.position) =
    some (⟨last.1.log, last.1.result.map (Answer.parsed name)⟩, { s with store := last.2 })

theorem map_parsed_inj {name name' : String} {x y : Except Fault Result}
    (h : x.map (Answer.parsed name) = y.map (Answer.parsed name')) : x = y := by
  rcases x with fault | r
  · rcases y with fault' | r'
    · cases h
      rfl
    · cases h
  · rcases y with fault' | r'
    · cases h
    · cases h
      rfl

/-- A step with any budget shows what the rule comes to. -/
theorem eval_of_step {budget : Nat} {name : String} {log : List Event} {x : Except Fault Result}
    {s' : Session} (taken : s.step budget (.parse rule c.text c.position) =
      some (⟨log, x.map (Answer.parsed name)⟩, s')) :
    rule.eval s.env c s.store = some (⟨log, x⟩, s'.store) := by
  rcases built : rule.build s.env s.store with ⟨fault | p, A⟩
  · simp only [step, meaning, Run.bind_of_error (Run.ofBuild_eq built)] at taken
    rw [Rule.eval_of_raised built]
    rcases x with fault' | r
    · cases taken
      rfl
    · cases taken
  · rw [Rule.eval_of_built built, Parser.eval_eq_some_iff]
    rcases hn : p.run s.env budget c A with _ | ⟨⟨log', y⟩, B⟩
    · rw [step_parse_of_none built hn] at taken
      cases taken
    · rw [step_parse_of_run built hn] at taken
      simp only [Option.some.injEq, Prod.mk.injEq, Logged.mk.injEq] at taken
      obtain ⟨⟨rfl, results⟩, rfl⟩ := taken
      exact ⟨budget, by rw [hn, map_parsed_inj results]⟩

theorem parses_iff {last : Logged Event Result × Store} :
    s.Parses rule c last ↔ rule.eval s.env c s.store = some last := by
  constructor
  · rintro ⟨n, name, ended⟩
    exact eval_of_step (ended n (Nat.le_refl n))
  · intro ends
    rcases built : rule.build s.env s.store with ⟨fault | p, A⟩
    · rw [Rule.eval_of_raised built] at ends
      cases ends
      refine ⟨0, "", fun budget _ => ?_⟩
      simp only [step, meaning, Run.bind_of_error (Run.ofBuild_eq built)]
      rfl
    · rw [Rule.eval_of_built built, Parser.eval_eq_some_iff] at ends
      obtain ⟨n, hn⟩ := ends
      refine ⟨n, p.name, fun budget more => ?_⟩
      exact step_parse_of_run built (Parser.run_below s.env more p c _ _ hn)

/-- A rule that writes nothing and leaves all cells. -/
theorem parses_iff_of_pure {r : Result} (h : rule.eval s.env c = pure r)
    {last : Logged Event Result × Store} :
    s.Parses rule c last ↔ last = (⟨[], .ok r⟩, s.store) := by
  rw [parses_iff, h]
  exact Option.some_inj.trans eq_comm

theorem Parses.unique {last last' : Logged Event Result × Store} (h : s.Parses rule c last)
    (h' : s.Parses rule c last') : last = last' :=
  Option.some.inj ((parses_iff.1 h).symm.trans (parses_iff.1 h'))

end Session

end Rewind
