import Rewind.Rule.Combinators
import Rewind.Session

namespace Rewind.Grammar.Document

open Rule

def symbol (s : String) : Rule := (string s).token

def nullValue : Rule := (symbol "null").before (constant .none)

def trueValue : Rule := (symbol "true").before (constant (.bool true))

def falseValue : Rule := (symbol "false").before (constant (.bool false))

def quote : Rule := char '"'

/-- A text runs up to the next quote. -/
def stringLiteral : Rule :=
  ((Rule.between quote quote (many (charExcept ["\""]))).map Value.joined).token

def digits : Rule := (many1 digit).map Value.joined

def digitValues (s : String) : List Nat := s.toList.filterMap Text.digitValue?

/-- The integer or, with a fraction, the double that the parts write. -/
def numberOf (sign whole fraction : String) : Except Fault Value :=
  let negative := sign == "-"
  if fraction.isEmpty then
    let n : Int := Text.positional (digitValues whole)
    Value.readInt whole.length (if negative then -n else n)
  else .ok (.float (Decimal.ofPlaces negative (digitValues whole) (digitValues fraction)))

def numberOfValues : Value → Value → Value → Except Fault Value
  | .str sign, .str whole, .str fraction => numberOf sign whole fraction
  | _, _, _ => .ok .none

def sign : Rule := option (.str "") (char '-')

/-- A point and digits, or nothing. -/
def fraction : Rule :=
  option (.str "") ((char '.').before (digits.map (Value.surrounded "." "")))

def number : Rule :=
  (sign.bind fun s => pure
    (digits.bind fun w => pure (fraction.tryMap (numberOfValues s w)))).token

/-- A document inside another. All of them go by the one parser that is bound, and so by the cells of that,
where a thunk could as well build the grammar anew with cells of its own: only cells differ, and what a cell
holds when it is filled is built from the same rule, so no result, fault or cursor can tell the two apart (see
`Session.parse_shared`). -/
def nested : Rule := .lazy (some "json_value") false (.ref "document")

def entry : Rule :=
  stringLiteral.bind fun key => pure ((symbol ":").before (nested.map fun v => .tuple [key, v]))

def object : Rule :=
  (Rule.between (symbol "\x7b") (symbol "\x7d") (sepBy entry (symbol ","))).map Value.toDict

def array : Rule := .between (symbol "[") (symbol "]") (sepBy nested (symbol ","))

def value : Rule :=
  choice [nullValue, trueValue, falseValue, stringLiteral, number, object, array]

def document : Rule := .ref "document"

/-- The name `document` stands for the value rule. -/
def session : Session := .ofCommands [.bind "document" value]

end Rewind.Grammar.Document
