import Rewind.Proofs.Coupling
import Rewind.Proofs.Inert
import Rewind.Rule.Combinators

namespace Rewind

/-- Puts other names in the place of names, also in thunks and in what continuations give. -/
def Rule.rename (names : String → String) : Rule → Rule
  | atom a => .atom a
  | ref name => .ref (names name)
  | lazy name watched thunk => .lazy name watched (thunk.rename names)
  | raise fault => .raise fault
  | andThen r notes next => .andThen (r.rename names) notes fun x => (next x).rename names
  | unary op r => .unary op (r.rename names)
  | binary op l r => .binary op (l.rename names) (r.rename names)
  | between o c b => .between (o.rename names) (c.rename names) (b.rename names)

/-- The body with a name in all places of another, which marks its hole. -/
def Rule.plug (hole name : String) (body : Rule) : Rule :=
  body.rename fun other => if other = hole then name else other

/-- What is renamed in two ways is alike, if the new names go together wherever they are put. -/
theorem Rule.alike_rename {L : Likeness} (admits : L.Admits .any) {names names' : String → String}
    (refs : ∀ name, L.refs (names name) (names' name)) (r : Rule) :
    (r.rename names).Alike L (r.rename names') := by
  induction r with
  | atom a => exact .atom fun _ => admits.atom trivial
  | ref name => exact .ref (refs name)
  | lazy name watched thunk ih => exact .lazy name watched ih
  | raise fault => exact .raise fault
  | andThen r notes next ih ihnext =>
    refine .andThen notes ih fun x y related => ?_
    have whole : Trait.any.parser (.andThen .blank notes next) := trivial
    rw [admits.next whole x y related]
    exact ihnext y
  | unary op r ih => exact .unary op ih
  | binary op l r ihl ihr => exact .binary op ihl ihr
  | between o c b iho ihc ihb => exact .between iho ihc ihb

/-- One name may stand in the place of the other. Names and records of parsers may differ. -/
def Likeness.twins (x f : String) : Likeness :=
  .inPlace False False False (fun a b => a = b ∨ a = x ∧ b = f) id fun _ => id

namespace Likeness

variable {x f : String}

theorem twins_admits (x f : String) : (twins x f).Admits .any :=
  .of_eq (fun _ _ => .rfl) fun _ => .inl rfl

theorem alike_plug (hole : String) (body : Rule) :
    (body.plug hole x).Alike (twins x f) (body.plug hole f) := by
  refine Rule.alike_rename (twins_admits x f) (fun name => ?_) body
  by_cases marked : name = hole
  · rw [if_pos marked, if_pos marked]
    exact .inr ⟨rfl, rfl⟩
  · rw [if_neg marked, if_neg marked]
    exact .inl rfl

/-- In a session where one name is a lazy parser, the other a forward parser, and alike rules are the
thunk and the definition. The rules may name the two parsers again. -/
theorem twins_sound {s : Session} (inside : s.Scoped) {p q : Parser} {r r' : Rule}
    (hx : s.env.lookup x = some p) (hf : s.env.lookup f = some q) (left : p.Enters s s.store r)
    (right : q.Enters s s.store r') (alike : r.Alike (twins x f) r') :
    (twins x f).Sound s where
  refs {a b} refs := by
    rcases refs with rfl | ⟨rfl, rfl⟩
    · exact (twins_admits x f).refs_self (Trait.any_ofSession s) inside a
    · exact .inr ⟨p, q, hx, hf, .entered left right False.elim alike⟩
  shared shares := shares.elim
  held there holds :=
    (twins_admits x f).held (Trait.any_ofSession s) inside there holds

end Likeness

namespace Session

variable {s s₁ s₂ : Session} {hole x f : String} {body : Rule} {name : Option String}
  {watched : Bool} {allowed : Command → Prop}

/-- Whatever is written around the two parsers, one stands for the other. -/
theorem outcome_plug_iff (reached : s.Reached allowed)
    (bound : Performed (.bind x (.lazy name watched (body.plug hole x))) s s₁)
    (defined : Performed (.define f (body.plug hole f)) s s₁) (later : Later Command.Still s₁ s₂)
    (context : Rule) (text : Array Char) (position : Int) (o : Except Fault Result) :
    s₂.Outcome (context.plug hole x) text position o ↔
      s₂.Outcome (context.plug hole f) text position o := by
  obtain ⟨p, hx, makes⟩ := bound.exists_makes reached.scoped
  cases makes with | lazy _ _ fresh =>
  obtain ⟨cell, label, q, hf, there, makes⟩ := defined.exists_target reached.scoped
  have sound := Likeness.twins_sound (bound.scoped reached.scoped) hx hf (.lazy name fresh)
    (.forward label there makes) (Likeness.alike_plug hole body)
  obtain ⟨env, grown⟩ := later.grown
  have placed : Except.Agree (Likeness.twins x f).cursors (Cursor.at? text position)
      (Cursor.at? text position) := .refl (fun _ => rfl) _
  refine outcome_iff (L := .twins x f) (fun _ _ same => same) (fun budget => ?_) o
  exact parse_agree id sound env env grown grown (Likeness.alike_plug hole context) placed budget

/-- A body is taken with one name in its hole as the thunk of the lazy parser of that name, and with
another as the definition of the forward parser of that name. However the parsers were used since
then, the two have the same outcomes on every text: one ends if the other does, in the same result or
fault. -/
theorem lazy_iff_forward (reached : s.Reached allowed)
    (bound : Performed (.bind x (.lazy name watched (body.plug hole x))) s s₁)
    (defined : Performed (.define f (body.plug hole f)) s s₁) (later : Later Command.Still s₁ s₂)
    (text : Array Char) (position : Int) (o : Except Fault Result) :
    s₂.Outcome (.ref x) text position o ↔ s₂.Outcome (.ref f) text position o := by
  have plugged : ∀ y, (Rule.ref hole).plug hole y = .ref y := by simp [Rule.plug, Rule.rename]
  have same := outcome_plug_iff reached bound defined later (.ref hole) text position o
  rwa [plugged, plugged] at same

/-- Ones and pairs in brackets, nested to any depth. -/
def pairs : Rule :=
  .or (.char '1') (.between (.char '(') (.char ')') (.unary (.times 2) (.ref "self")))

/-- The lazy parser was used on a text that breaks off in a pair. -/
def pairing : Session :=
  (((ofCommands [.declare "f" "pair"]).after 0
    [.bind "x" (.lazy none true (pairs.plug "self" "x"))]).after 0
    [.define "f" (pairs.plug "self" "f")]).after 20 [.parse (.ref "x") #['(', '1'] 0]

/-- The answer is a one and a pair of ones, read up to the position. -/
def isPair (position : Nat) : Answer → Bool
  | .parsed _ ⟨.list [.str x, .list [.str y, .str z]], c, true⟩ =>
    decide (x = "1" ∧ y = "1" ∧ z = "1" ∧ c.position = position)
  | _ => false

theorem lazy_iff_forward_pairs :
    ∃ o : Result, o.value = .list [.str "1", .list [.str "1", .str "1"]] ∧ o.cursor.position = 7 ∧
      pairing.Outcome (.ref "x") #['(', '1', '(', '1', '1', ')', ')'] 0 (.ok o) ∧
      pairing.Outcome (.ref "f") #['(', '1', '(', '1', '1', ')', ')'] 0 (.ok o) := by
  obtain ⟨answer, answered, passed⟩ := exists_answers_of_passes pairing 20
    (.parse (.ref "x") #['(', '1', '(', '1', '1', ')', ')'] 0)
    (show passes (isPair 7) _ = true by decide +kernel)
  obtain ⟨o, value, position, parsed⟩ : ∃ o : Result,
      o.value = .list [.str "1", .list [.str "1", .str "1"]] ∧ o.cursor.position = 7 ∧
        pairing.Outcome (.ref "x") #['(', '1', '(', '1', '1', ')', ')'] 0 (.ok o) := by
    unfold isPair at passed
    split at passed
    · obtain ⟨rfl, rfl, rfl, position⟩ := of_decide_eq_true passed
      exact ⟨_, rfl, position, _, answered⟩
    · cases passed
  let lazily : Command := .bind "x" (.lazy none true (pairs.plug "self" "x"))
  let defining : Command := .define "f" (pairs.plug "self" "f")
  let s := ofCommands [.declare "f" "pair"]
  let s₁ := s.after 0 [lazily]
  let s₂ := s₁.after 0 [defining]
  have reached : s.Reached fun _ => True := reached_ofCommands fun _ _ => trivial
  have kept : s.Keeps s₁ := .cons (show s.env.lookup "x" = none from rfl) rfl
  have bound : Performed lazily s s₂ :=
    ⟨s, s₁, 0, _, _, .refl, rfl, kept, .single ⟨⟨defining, 0, _, trivial, rfl⟩, .of_env_eq rfl⟩⟩
  have defined : Performed defining s s₂ :=
    ⟨s₁, s₂, 0, _, _, .single ⟨⟨lazily, 0, _, trivial, rfl⟩, kept⟩, rfl, .of_env_eq rfl, .refl⟩
  have later : Later Command.Still s₂ pairing := later_after (by simp [Command.Still])
  exact ⟨o, value, position, parsed, (lazy_iff_forward reached bound defined later _ 0 _).1 parsed⟩

end Session

end Rewind
