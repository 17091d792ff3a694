import Rewind.Rule.Combinators
import Rewind.Session

namespace Rewind.Grammar.Arithmetic

open Rule

def integer : Rule := ((many1 digit).tryMap Value.toInt).token

def leftParen : Rule := (char '(').token

def rightParen : Rule := (char ')').token

/-- The operation that a sign stands for. -/
def operatorOf : Value → Value
  | .str "+" => .op .add
  | .str "-" => .op .sub
  | .str "*" => .op .mul
  | .str "/" => .op .div
  | _ => .none

def operators (signs : String) : Rule := ((charIn (membersOf signs)).token).map operatorOf

def factor : Rule := integer.or (.between leftParen rightParen (.ref "expr"))

def negated : Rule := (((char '-').token.before factor).map Value.negated).or factor

def term : Rule := negated.chainLeft (operators "*/")

def sum : Rule := term.chainLeft (operators "+-")

def expression : Rule := .ref "expr"

/-- The name `expr` stands for a sum of terms. -/
def session : Session := .ofCommands (grammarCommands [("expr", sum)])

end Rewind.Grammar.Arithmetic
