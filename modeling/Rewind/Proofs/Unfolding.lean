import Rewind.Proofs.Coupling
import Rewind.Proofs.Inert
import Rewind.Rule.Combinators

namespace Rewind

/-- Each of two names may stand for the other, one of them a forward parser and the other what it is
defined as. -/
def Likeness.interchange (f p : String) : Likeness :=
  .inPlace False False True (fun a b => a = b ∨ a = f ∧ b = p ∨ a = p ∧ b = f) id False.elim

/-- Where a likeness may be turned around, so may what is alike. -/
theorem Rule.Alike.symm {L : Likeness} (cursors : ∀ c d, L.cursors c d → L.cursors d c)
    (refs : ∀ a b, L.refs a b → L.refs b a) {r r' : Rule} (h : r.Alike L r') : r'.Alike L r := by
  induction h with
  | atom respects => exact .atom respects
  | ref names => exact .ref (refs _ _ names)
  | shareLeft shares _ ih => exact .shareRight shares ih
  | shareRight shares _ ih => exact .shareLeft shares ih
  | lazy name watched _ ih => exact .lazy name watched ih
  | raise fault => exact .raise fault
  | andThen notes _ _ ih ihrest =>
    refine .andThen notes ih fun x y related => ?_
    exact ihrest y x ⟨related.value.symm, related.ok.symm, cursors _ _ related.cursor⟩
  | unary op _ ih => exact .unary op ih
  | binary op _ _ ihl ihr => exact .binary op ihl ihr
  | between _ _ _ iho ihc ihb => exact .between iho ihc ihb

namespace Likeness

variable {f p : String}

theorem interchange_symm {r r' : Rule} (h : r.Alike (interchange f p) r') :
    r'.Alike (interchange f p) r := by
  refine h.symm (fun _ _ => Eq.symm) fun a b h => ?_
  rcases h with rfl | ⟨rfl, rfl⟩ | ⟨rfl, rfl⟩
  · exact .inl rfl
  · exact .inr (.inr ⟨rfl, rfl⟩)
  · exact .inr (.inl ⟨rfl, rfl⟩)

theorem interchange_admits (f p : String) : (interchange f p).Admits .any :=
  .of_eq (fun _ _ => .rfl) fun _ => .inl rfl

/-- In a session where one name is a forward parser and the other its definition. -/
theorem interchange_sound {s : Session} (inside : s.Scoped) {cell : Nat} {label : String}
    {P : Parser} (hf : s.env.lookup f = some (.forward cell label))
    (hp : s.env.lookup p = some P) (there : s.store[cell]? = some (.forward (some P))) :
    (interchange f p).Sound s where
  refs {a b} refs := by
    have admits := interchange_admits f p
    have any := Trait.any_ofSession s
    rcases refs with rfl | ⟨rfl, rfl⟩ | ⟨rfl, rfl⟩
    · exact admits.refs_self any inside a
    · exact .inr ⟨_, P, hf, hp, .unfoldLeft trivial label there (admits.bound any inside hp)⟩
    · exact .inr ⟨P, _, hp, hf, .unfoldRight trivial label there (admits.bound any inside hp)⟩
  shared shares := shares.elim
  held there holds :=
    (interchange_admits f p).held (Trait.any_ofSession s) inside there holds

end Likeness

namespace Session

variable {s : Session} {rule rule' : Rule} {text : Array Char} {position : Int}

/-- What is built alike, up to unfolding, has every outcome that the first has. -/
theorem Outcome.of_alike {L : Likeness} (sound : L.Sound s) (unfolds : L.unfolds)
    (cursors : ∀ c d, L.cursors c d ↔ c = d)
    (built : Run.Coupled L s s.store s.store (Run.ofBuild (rule.build s.env))
      (Run.ofBuild (rule'.build s.env)) fun A B p q => p.Alike L s A B q)
    {x : Except Fault Result} (h : s.Outcome rule text position x) :
    s.Outcome rule' text position x := by
  obtain ⟨n, last, taken, name, hx⟩ := outcome_iff_step.1 h
  rw [step_eq_conclude, Option.map_eq_some_iff] at taken
  obtain ⟨⟨⟨log, z⟩, A⟩, parsed, rfl⟩ := taken
  rw [conclude_result] at hx
  have placed : Except.Agree L.cursors (Cursor.at? text position) (Cursor.at? text position) :=
    .refl (fun c => (cursors c c).2 rfl) _
  have coupled := parsing_coupled sound rfl rfl built placed n
  unfold Run.Coupled at coupled
  rw [Likeness.follow_of_unfolds unfolds] at coupled
  rw [meaning_parse] at parsed
  rw [parsed] at coupled
  generalize other : parsing (Parser.eval s.env) s rule' text position s.store = last at coupled
  -- The other parse was run without a bound. It ended, so it ends with some budget.
  cases coupled with
  | @ended _ log' _ z' _ B left right logs answers =>
    have meant : meaningBy (Parser.eval s.env) s (.parse rule' text position) s.store =
      some (⟨log', z'⟩, B) := other
    obtain ⟨m, taken⟩ := exists_step_iff.2 (congrArg (Option.map s.conclude) meant)
    have told := Likeness.parsed_iff (fun c d => (cursors c d).1) answers.map_fst x
    refine outcome_iff_step.2 ⟨m, _, taken, ?_⟩
    rw [conclude_result]
    exact told.1 ⟨name, hx⟩

/-- A forward parser that is defined stands for its definition. -/
theorem of_step_define_ref {s' : Session} (inside : s.Scoped) {f p : String} {budget : Nat}
    {log : List Event} {a : Answer}
    (taken : s.step budget (.define f (.ref p)) = some (⟨log, .ok a⟩, s')) :
    s'.env = s.env ∧ ∃ cell label P, s.env.lookup f = some (.forward cell label) ∧
      s.env.lookup p = some P ∧ s'.store[cell]? = some (.forward (some P)) := by
  obtain ⟨env, cell, label, P, hf, there, makes⟩ := exists_makes_of_define inside taken
  cases makes with | ref hp =>
  rw [env] at hp
  exact ⟨env, cell, label, P, hf, hp, there⟩

/-- A rule `r` is built around a forward parser `f` and bound to `c`, and `f` is then defined as `p`.
Whatever was bound, declared or defined in between, if no name was bound again, `c` has on every
text the outcomes of each rule `r'` that is like `r` but for places where one has `f` and the other
`p`, in continuations and thunks, too; and `f` has the outcomes of `p`. -/
theorem forward_transparent {allowed : Command → Prop} {s s₁ s₂ s₃ : Session} {c f p : String}
    {r r' : Rule} {n₁ n₃ : Nat} {log₁ log₃ : List Event} {a₁ a₃ : Answer}
    (reached : s.Reached allowed) (new : s.env.lookup c = none)
    (built : s.step n₁ (.bind c r) = some (⟨log₁, .ok a₁⟩, s₁))
    (later : Later Command.Inert s₁ s₂)
    (kept : ∀ name q, s₁.env.lookup name = some q → s₂.env.lookup name = some q)
    (defined : s₂.step n₃ (.define f (.ref p)) = some (⟨log₃, .ok a₃⟩, s₃))
    (alike : r.Alike (.interchange f p) r') (text : Array Char) (position : Int)
    (x : Except Fault Result) :
    (s₃.Outcome (.ref c) text position x ↔ s₃.Outcome r' text position x) ∧
      (s₃.Outcome (.ref f) text position x ↔ s₃.Outcome (.ref p) text position x) := by
  have inside₁ := reached.scoped.step built
  obtain ⟨inside₂, extends₂⟩ := later_inert inside₁ later
  have extends₃ := step_inert inside₂ (show Command.Inert (.define f (.ref p)) from trivial) defined
  obtain ⟨env₃, cell, label, P, hf, hp, there⟩ := of_step_define_ref inside₂ defined
  rw [← env₃] at hf hp kept
  have sound := Likeness.interchange_sound (inside₂.step defined) hf hp there
  have bound : s.Keeps s₁ := by
    obtain ⟨C, env₁, -⟩ := of_step_bind built
    exact .cons new env₁
  -- In the last session, `c` stands for what `r` makes there, as if it were built only now.
  obtain ⟨C, hc, makes⟩ :=
    exists_makes_of_bind reached.scoped built bound (extends₂.trans extends₃) kept
  have found : (Rule.ref c).build s₃.env s₃.store = (.ok C, s₃.store) := by
    simp only [Rule.build, Rule.lookup, hc]
    rfl
  have becomes : r.Becomes s₃ s₃.store (.ok C) := ⟨makes.refusal?_eq_none, makes⟩
  rcases made : r'.build s₃.env s₃.store with ⟨y, B⟩
  obtain ⟨leads, becomes'⟩ := r'.build_becomes (.refl s₃) made
  have outcome : ∀ {rule rule' : Rule}, _ → s₃.Outcome rule text position x →
      s₃.Outcome rule' text position x :=
    fun built => Outcome.of_alike sound trivial (fun _ _ => .rfl) built
  have forward : (Rule.ref f).Alike (.interchange f p) (.ref p) := .ref (.inr (.inl ⟨rfl, rfl⟩))
  refine ⟨⟨outcome ?_, outcome ?_⟩, outcome ?_, outcome ?_⟩
  · exact .ofBecomes sound found made (.refl (.refl s₃)) leads alike becomes becomes'
  · exact .ofBecomes sound made found leads (.refl (.refl s₃)) (Likeness.interchange_symm alike)
      becomes' becomes
  · exact .ofBuild sound (.refl s₃) (.refl s₃) forward
  · exact .ofBuild sound (.refl s₃) (.refl s₃) (Likeness.interchange_symm forward)

/-- Bracketed digits: what was built around the forward parser, and the same with one place
unfolded. -/
theorem forward_transparent_brackets :
    ∃ s : Session, s = ofCommands [.declare "f" "nested",
        .bind "c" (.before (.ref "f") (.many (.ref "f"))),
        .bind "p" (.or .digit (.between (.char '(') (.char ')') (.ref "f"))),
        .define "f" (.ref "p")] ∧
      ∃ x : Result, x.cursor.position = 4 ∧
        s.Outcome (.ref "c") #['1', '(', '2', ')', ')'] 0 (.ok x) ∧
        s.Outcome (.before (.ref "p") (.many (.ref "f"))) #['1', '(', '2', ')', ')'] 0 (.ok x) := by
  let r : Rule := .before (.ref "f") (.many (.ref "f"))
  let r' : Rule := .before (.ref "p") (.many (.ref "f"))
  let digits : Rule := .or .digit (.between (.char '(') (.char ')') (.ref "f"))
  let s := ofCommands [.declare "f" "nested"]
  let s₁ := s.after 0 [.bind "c" r]
  let s₂ := s₁.after 0 [.bind "p" digits]
  let s₃ := s₂.after 0 [.define "f" (.ref "p")]
  have reached : s.Reached fun _ => True := reached_ofCommands fun _ _ => trivial
  have later : Later Command.Inert s₁ s₂ := later_after fun command mem => by
    cases List.mem_singleton.1 mem
    trivial
  have kept : s₁.Keeps s₂ := .cons (show s₁.env.lookup "p" = none from rfl) rfl
  have alike : r.Alike (.interchange "f" "p") r' :=
    .binary .before (.ref (.inr (.inl ⟨rfl, rfl⟩))) (.unary .many (.ref (.inl rfl)))
  let x : Result := ⟨.list [.str "2"], ⟨#['1', '(', '2', ')', ')'], 4⟩, true⟩
  have parsed : s₃.Outcome (.ref "c") #['1', '(', '2', ')', ')'] 0 (.ok x) :=
    ⟨_, answers_of_step (show s₃.step 15 _ = some _ from rfl)⟩
  have built : s.step 0 (.bind "c" r) = some (.ok (.bound "nested then many(nested)"), s₁) := rfl
  have defined : s₂.step 0 (.define "f" (.ref "p")) =
      some (⟨[.defined "nested" "digit | char('(') then nested then ..."], .ok .defined⟩, s₃) := rfl
  have same := forward_transparent reached rfl built later kept defined alike
    #['1', '(', '2', ')', ')'] 0 (.ok x)
  exact ⟨s₃, rfl, x, rfl, parsed, same.1.1 parsed⟩

end Session

end Rewind
