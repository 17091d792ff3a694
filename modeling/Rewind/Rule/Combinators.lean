import Rewind.Rule.Characters
import Rewind.Value.Transform

namespace Rewind

/-- From a value to what comes next. It may write notes or raise. -/
abbrev Continuation := Value → Act Rule

namespace Rule

/-- A rule that may not have come about. -/
def ofExcept : Except Fault Rule → Rule
  | .ok r => r
  | .error fault => .raise fault

/-- Goes on with a part of the first result. -/
def bindPart (r : Rule) (part : Result → Value) (next : Continuation) : Rule :=
  .andThen r (fun x => (next (part x)).log) (fun x => ofExcept (next (part x)).result)

/-- Goes on with the value of the first result. -/
def bind (r : Rule) (next : Continuation) : Rule := r.bindPart Result.value next

/-- Goes on with the written form of the first result. -/
def bindWritten (r : Rule) (next : Continuation) : Rule :=
  let go (x : Result) : Act Rule := do next (.str (← Logged.ofExcept x.write))
  .andThen r (fun x => (go x).log) (fun x => ofExcept (go x).result)

def map (r : Rule) (f : Value → Value) : Rule := .unary (.map fun v => pure (f v)) r

/-- Changes the value by a function that may refuse it. -/
def tryMap (r : Rule) (f : Value → Except Fault Value) : Rule :=
  .unary (.map fun v => Logged.ofExcept (f v)) r

def token (r : Rule) : Rule := .unary .token r

def many (r : Rule) : Rule := .unary .many r

def many1 (r : Rule) : Rule := .unary .many1 r

def option (default : Value) (r : Rule) : Rule := .unary (.option default) r

def optional (r : Rule) : Rule := option .none r

def before (r s : Rule) : Rule := .binary .before r s

def or (r s : Rule) : Rule := .binary .or r s

def sepBy (element separator : Rule) : Rule := .binary .sepBy element separator

/-- The operators are values that name an operation. -/
def chainLeft (operand operator : Rule) : Rule :=
  .binary (.chainLeft fun f x y => Logged.ofExcept (f.applyTo x y)) operand operator

/-- The first rule that matches. -/
def choice : List Rule → Rule
  | [] => fail "no alternatives"
  | r :: rs => rs.foldl or r

/-- All rules in order, with the list of their values. -/
def sequence (rs : List Rule) : Rule := rs.foldl (.binary .snoc) (constant (.list []))

end Rule

namespace Continuation

def giving (f : Value → Act Value) : Continuation := fun x => do
  let v ← f x
  return .constant v

def sameChar : Continuation := fun x => pure (Rule.charOfValue x)

def sameString : Continuation := fun x => pure (Rule.stringOfValue x)

/-- As many times as the value says, or not at all if it is no number. -/
def count (r : Rule) : Continuation := fun x => do
  let n ← Logged.ofExcept x.asCount
  return .unary (.times n) r

/-- The rule beside the first equal value, or else the last rule. -/
def switch (cases : List (Value × Rule)) (otherwise : Rule) : Continuation := fun x =>
  pure (((cases.find? fun c => c.1 == x).map Prod.snd).getD otherwise)

/-- Pairs the value with the next one. -/
def paired (r : Rule) : Continuation := fun x => pure (r.map fun y => .tuple [x, y])

/-- Records the value first. -/
def noted (label : String) (next : Continuation) : Continuation := fun x => do
  Logged.write (.called label x)
  next x

def raising (message : String) : Continuation := fun _ => Logged.raise (.raised message)

end Continuation

end Rewind
