import Rewind.Rule.Basic
import Rewind.Text.Blank
import Rewind.Text.Digit
import Rewind.Text.Letter
import Rewind.Text.Numeric
import Rewind.Text.Case

namespace Rewind

namespace CharTest

/-- A test that writes nothing and raises nothing. -/
def ofBool (test : Char → Bool) : CharTest := fun c => pure (test c)

def isAlphanumeric (c : Char) : Bool := Text.isLetter c || Text.isDigit c || Text.isNumeric c

/-- The text is this one character. -/
def equals (s : String) (c : Char) : Bool := s.toList == [c]

def occursIn (s : String) (c : Char) : Bool := s.toList.contains c

/-- The character alone comes before the text in the order by code points. -/
def comesBefore (s : String) (c : Char) : Bool := decide ([c] < s.toList)

/-- Records the character before it is tested. -/
def noted (label : String) (test : CharTest) : CharTest := fun c => do
  Logged.write (.tested label c)
  test c

def raising (message : String) : CharTest := fun _ => Logged.raise (.raised message)

end CharTest

namespace Rule

def satisfy (test : CharTest) (name : String) : Rule := .atom (.satisfy test name)

def ofTest (test : Char → Bool) (name : String) : Rule := satisfy (CharTest.ofBool test) name

/-- A test that may be missing. -/
def satisfy? (test : Option CharTest) (name : String) : Rule :=
  match test with
  | some test => satisfy test name
  | none => .raise .missingTest

def charOf? (test : Option CharTest) : Rule :=
  match test with
  | some test => satisfy test "satisfy"
  | none => .raise .missingLiteral

def char (c : Char) : Rule :=
  ofTest (· == c) ("char(" ++ Text.quoted (String.singleton c) ++ ")")

/-- An atom whose name shows a value. -/
def named (v : Value) (atom : Atom) : Rule :=
  match v.refusal? with
  | some fault => .raise fault
  | none => .atom atom

/-- The character that a value names. A text must have one character, a collection one item, which
matches nothing. A function is taken for a test, but those among the values have two operands. -/
def charOfValue (v : Value) : Rule :=
  let otherwise : Rule := .raise (.showing v (.notOneCharacter v))
  match v with
  | .none => .raise .missingLiteral
  | .op o => satisfy (fun _ => Logged.raise (.missingOperand o.name)) "satisfy"
  | .str s =>
    match s.toList with
    | [c] => char c
    | _ => otherwise
  | .list xs | .tuple xs => if xs.length = 1 then alone else otherwise
  | .dict es => if es.length = 1 then alone else otherwise
  | .bool _ | .int _ | .float _ => .raise (.notSized v.kind)
where
  alone : Rule := named v (.fail ("char(" ++ v.display ++ ")"))

/-- The distinct members in order, put together. -/
def membersText (members : List String) : String :=
  String.join (members.eraseDups.mergeSort fun s t => decide (s ≤ t))

def isMember (members : List String) (c : Char) : Bool := members.contains (String.singleton c)

def charIn (members : List String) : Rule :=
  ofTest (isMember members) ("char_in(" ++ Text.quoted (membersText members) ++ ")")

def charExcept (members : List String) : Rule :=
  ofTest (fun c => !isMember members c)
    ("char_except(" ++ Text.quoted (membersText members) ++ ")")

/-- The characters of a text, each as a member. -/
def membersOf (s : String) : List String := s.toList.map String.singleton

def anyChar : Rule := ofTest (fun _ => true) "any_char"

def whitespace : Rule := ofTest Text.isBlank "whitespace"

def digit : Rule := ofTest Text.isDigit "digit"

def letter : Rule := ofTest Text.isLetter "letter"

def alphanumeric : Rule := ofTest CharTest.isAlphanumeric "letter or digit"

def upper : Rule := ofTest Text.isUpper "uppercase letter"

def lower : Rule := ofTest Text.isLower "lowercase letter"

def newline : Rule := .unary (.label "newline") (char '\n')

def spaces : Rule := .unary (.label "spaces") (.unary .skipMany whitespace)

def endOfInput : Rule := .unary (.label "end of input") (.unary .not anyChar)

def string (s : String) : Rule := .atom (.literal s.toList (.str s))

/-- The single characters of a list of texts. -/
def chars? : List Value → Option (List Char)
  | [] => some []
  | .str s :: rest =>
    match s.toList with
    | [c] => (chars? rest).map (c :: ·)
    | _ => none
  | _ :: _ => none

/-- The items that a value lists, one after another; one that is no character matches nothing. A
value that lists none is found out when the parser is used. -/
def stringOfValue (v : Value) : Rule :=
  let name := "string(" ++ v.display ++ ")"
  let items (cs? : Option (List Char)) : Atom :=
    match cs? with
    | some cs => .literal cs v
    | none => .fail name
  named v <|
    match v with
    | .str s => items (some s.toList)
    | .list xs | .tuple xs => items (chars? xs)
    | .dict es => items (chars? (es.map Prod.fst))
    | .none | .bool _ | .int _ | .float _ | .op _ =>
      .handmade (fun _ => Logged.raise (.notIterable v.kind)) name (some "parse")

def constant (v : Value) : Rule := .atom (.constant v)

def fail (name : String) : Rule := .atom (.fail name)

end Rule

end Rewind
