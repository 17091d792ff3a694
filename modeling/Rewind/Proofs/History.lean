import Rewind.Proofs.Coupling
import Rewind.Rule.Combinators

namespace Rewind

/-- Nothing may differ but the lazy cells that are used, and whether they are filled. -/
def Likeness.equal : Likeness := .inPlace True True False Eq id fun _ => id

theorem Likeness.equal_admits : equal.Admits .any := .of_eq (fun _ _ => .rfl) fun _ => rfl

namespace Session

variable {s s' : Session}

/-- After any number of parses and runs, however they ended, and with nothing bound or defined
between, a parse of any rule gives with every budget what it gives in the session before them: the
same result or fault, under the same name, and the same records but for those of thunks. -/
theorem parse_reusable {allowed : Command → Prop} (reached : s.Reached allowed)
    (later : Later Command.Still s s') (rule : Rule) (text : Array Char) (position : Int)
    (budget : Nat) :
    ((s'.step budget (.parse rule text position)).map fun last =>
        (observed last.1.log, last.1.result)) =
      (s.step budget (.parse rule text position)).map fun last =>
        (observed last.1.log, last.1.result) := by
  obtain ⟨env, grown⟩ := later.grown
  have sound : Likeness.equal.Sound s :=
    Likeness.equal_admits.sound (Trait.any_ofSession s) reached.scoped fun _ _ same => same
  have alike : rule.Alike .equal rule := Likeness.equal_admits.rule trivial
  exact parse_eq trivial (fun _ _ => .rfl) sound env rfl grown (.refl s) alike text position budget

/-- A parse that raises leaves the lazy cell filled that it used. The next parse does not run the
thunk, and answers as it would have without that. -/
theorem parse_reusable_after_fault :
    ∃ s s' : Session, ∃ raising : Command, Later Command.Still s s' ∧
      (s.step 9 raising).map (fun last => (last.1.result.isOk, last.2.store)) = some (false, s'.store) ∧
      (s.step 9 (.parse (.ref "number") #['4', '2'] 0)).map (fun last => last.1.log) =
        some [.filled (some "number")] ∧
      (s'.step 9 (.parse (.ref "number") #['4', '2'] 0)).map (fun last => last.1.log) = some [] ∧
      ((s'.step 9 (.parse (.ref "number") #['4', '2'] 0)).map fun last =>
          (observed last.1.log, last.1.result)) =
        (s.step 9 (.parse (.ref "number") #['4', '2'] 0)).map fun last =>
          (observed last.1.log, last.1.result) := by
  let number : Rule := .lazy (some "number") true (.many1 .digit)
  let raising : Rule := .before (.ref "number") (.satisfy (CharTest.raising "no") "any")
  have reached : (ofCommands [.bind "number" number]).Reached fun _ => True :=
    reached_ofCommands fun _ _ => trivial
  have later : Later Command.Still (ofCommands [.bind "number" number])
      ((ofCommands [.bind "number" number]).after 9 [.run raising #['1', 'x'] false]) :=
    later_after (by simp [Command.Still])
  exact ⟨_, _, .run raising #['1', 'x'] false, later, rfl, rfl, rfl, parse_reusable reached later _ _ _ _⟩

end Session

end Rewind
