import Rewind.Grammar.Arithmetic
import Rewind.Grammar.Document
import Rewind.Grammar.Document.Printer

namespace Rewind.Demo

/-- Enough for the sample texts. -/
def budget : Nat := 100000

/-- What a run of a whole text gives. -/
def outcome (s : Session) (rule : Rule) (text : String) : Except Fault (Except Report Value) :=
  match s.step budget (.run rule text.toList.toArray true) with
  | some (⟨_, .ok (.ran _ outcome)⟩, _) => .ok outcome
  | some (⟨_, .error fault⟩, _) => .error fault
  | _ => .error (.raised "no answer")

def sample : String :=
  "\n\x7b\n    \"name\": \"pycombinator\",\n    \"version\": 1.5,\n" ++
  "    \"tags\": [\"parser\", \"combinator\"],\n    \"stable\": false,\n    \"extra\": null,\n" ++
  "    \"nested\": \x7b\"depth\": [1, [2, [-3]]]\x7d\n\x7d\n"

/-- Reads the sample document and shows it again. -/
def document : String :=
  match outcome Grammar.Document.session Grammar.Document.document sample with
  | .ok (.ok v) => "Successfully Parsed:\n" ++ Grammar.Document.print v ++ "\n"
  | .ok (.error report) => "Parsing Failed: " ++ report.display ++ "\n"
  | .error fault => fault.message ++ "\n"

def padded (width : Nat) (s : String) : String :=
  s ++ String.ofList (List.replicate (width - s.length) ' ')

def expressions : List String :=
  ["2 + 3", "2 * 3", "2 + 3 * 4", "(2 + 3) * 4", "-2 + 3", "10 / 2 + 3", "2 +", "10 / (2 - 2)"]

def showOutcome : Except Fault (Except Report Value) → String
  | .ok (.ok v) => v.display
  | .ok (.error report) => "Error: " ++ report.display
  | .error fault => "Runtime Error: " ++ fault.message

def row (left right : String) : String := padded 20 left ++ " | " ++ right ++ "\n"

/-- A table of expressions and what they come to. -/
def arithmetic : String :=
  row "Expression" (padded 10 "Result") ++ String.ofList (List.replicate 35 '-') ++ "\n" ++
  String.join (expressions.map fun e =>
    row e (showOutcome (outcome Grammar.Arithmetic.session Grammar.Arithmetic.expression e)))

end Rewind.Demo
