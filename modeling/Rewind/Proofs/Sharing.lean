import Rewind.Proofs.Coupling
import Rewind.Proofs.Inert
import Rewind.Rule.Combinators

namespace Rewind

/-- A name may stand where its rule is written out, also in thunks, in what continuations give and in
the other rules. -/
def Likeness.sharing (rules : List (String × Rule)) : Likeness :=
  { inPlace True True False Eq id fun _ => id with shares := fun name r => (name, r) ∈ rules }

theorem Likeness.sharing_admits (rules : List (String × Rule)) : (sharing rules).Admits .any :=
  .of_eq (fun _ _ => .rfl) fun _ => rfl

namespace Session

variable {s s₁ s₂ s₃ : Session}

/-- Rules are bound to names, each name once and with no parser run meanwhile, and `r` and `r'` are
alike but for places where one has a name and the other its rule, or one like it. However the parsers
are used after that, a parse of `r` gives with every budget what one of `r'` gives: the same result
or fault, under the same name, and the same records but for those of thunks. -/
theorem parse_shared {allowed : Command → Prop} {rules : List (String × Rule)} {r r' : Rule}
    (reached : s.Reached allowed) (prepared : Prepared s s₁)
    (bound : ∀ name rule, (name, rule) ∈ rules → Performed (.bind name rule) s s₁)
    (later : Later Command.Still s₁ s₂) (later' : Later Command.Still s₁ s₃)
    (alike : r.Alike (.sharing rules) r') (text : Array Char) (position : Int) (budget : Nat) :
    ((s₂.step budget (.parse r text position)).map fun last =>
        (observed last.1.log, last.1.result)) =
      (s₃.step budget (.parse r' text position)).map fun last =>
        (observed last.1.log, last.1.result) := by
  have inside := (prepared.inert reached.scoped).1
  have sound : (Likeness.sharing rules).Sound s₁ :=
    (Likeness.sharing_admits rules).sound (Trait.any_ofSession s₁) inside (fun _ _ same => same)
      fun name rule mem => (bound name rule mem).exists_makes reached.scoped
  obtain ⟨env, grown⟩ := later.grown
  obtain ⟨env', grown'⟩ := later'.grown
  exact parse_eq trivial (fun _ _ => .rfl) sound env env' grown grown' alike text position budget

/-- A lazy parser of one character. -/
def one : Rule := .lazy (some "one") true (.char '1')

/-- Runs a rule in both alternatives of every round. -/
def rounds (r : Rule) : Rule := .many (.or (.before r (.char 'x')) r)

def sharingOne : Session := (ofCommands []).after 0 [.bind "one" one]

/-- Written out, the parser has two cells, and two thunks are run. -/
theorem parse_shared_rounds :
    (sharingOne.step 9 (.parse (rounds (.ref "one")) #['1', '1'] 0)).map (fun last => last.1.log) =
        some [.filled (some "one")] ∧
      (sharingOne.step 9 (.parse (rounds one) #['1', '1'] 0)).map (fun last => last.1.log) =
        some [.filled (some "one"), .filled (some "one")] ∧
      ((sharingOne.step 9 (.parse (rounds (.ref "one")) #['1', '1'] 0)).map fun last =>
          (observed last.1.log, last.1.result)) =
        (sharingOne.step 9 (.parse (rounds one) #['1', '1'] 0)).map fun last =>
          (observed last.1.log, last.1.result) := by
  let s := ofCommands []
  have taken : s.step 0 (.bind "one" one) = some (.ok (.bound "lazy(one)"), sharingOne) := rfl
  have kept : s.Keeps sharingOne := .cons (show s.env.lookup "one" = none from rfl) rfl
  have prepared : Prepared s sharingOne := .single ⟨⟨.bind "one" one, 0, _, trivial, taken⟩, kept⟩
  have bound : ∀ name rule, (name, rule) ∈ [("one", one)] →
      Performed (.bind name rule) s sharingOne := by
    intro name rule mem
    cases List.mem_singleton.1 mem
    exact ⟨s, sharingOne, 0, _, _, .refl, taken, kept, .refl⟩
  have alike : (rounds (.ref "one")).Alike (.sharing [("one", one)]) (rounds one) := by
    have itself : ∀ rule : Rule, rule.Alike (.sharing [("one", one)]) rule :=
      fun rule => (Likeness.sharing_admits _).rule (r := rule) trivial
    have each : (Rule.ref "one").Alike (.sharing [("one", one)]) one :=
      .shareLeft List.mem_cons_self (itself one)
    exact .unary .many (.binary .or (.binary .before each (itself _)) each)
  have reached : s.Reached fun _ => True := reached_ofCommands fun _ _ => trivial
  exact ⟨rfl, rfl, parse_shared reached prepared bound .refl .refl alike _ _ _⟩

end Session

end Rewind
