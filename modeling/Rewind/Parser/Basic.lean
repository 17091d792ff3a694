import Rewind.Rule.Basic

namespace Rewind

inductive Parser where
  | atom (atom : Atom)
  | andThen (parser : Parser) (notes : Result → List Note) (next : Result → Rule)
  /-- Two parsers in order, whose values are put together. -/
  | both (first second : Parser) (combine : Value → Value → Act Value)
  /-- Goes on with a constant of the changed value. -/
  | map (parser : Parser) (f : Value → Act Value)
  | or (first second : Parser)
  | not (parser : Parser)
  | many (parser : Parser)
  | lookAhead (parser : Parser)
  | trace (tag : Nat) (label : String) (parser : Parser)
  | label (parser : Parser) (name : String)
  | wrap (parser : Parser) (name : String)
  | forward (cell : Nat) (name : String)
  | lazy (cell : Nat) (name : Option String)
  deriving Inhabited

/-- The first name unless it is empty. -/
def nameOr (name fallback : String) : String := if name.isEmpty then fallback else name

namespace Atom

/-- The name that is left when no other is given. -/
def baseName : Atom → String
  | handmade _ _ own => own.getD "parser"
  | _ => "parse"

def givenName : Atom → String
  | satisfy _ name => name
  | literal _ value => "string(" ++ value.display ++ ")"
  | constant value => "constant(" ++ value.display ++ ")"
  | fail name => name
  | handmade _ name _ => name

def name (a : Atom) : String := nameOr a.givenName a.baseName

end Atom

namespace Parser

def baseName : Parser → String
  | atom a => a.baseName
  | label p _ => p.baseName
  | forward _ _ => "_run_target"
  | wrap _ _ => "parser"
  | _ => "parse"

def name : Parser → String
  | atom a => a.name
  | andThen p _ _ => p.name ++ " then ..."
  | both p _ _ => p.name ++ " then ..."
  | map p _ => nameOr p.name "parse"
  | or p q => p.name ++ " | " ++ q.name
  | not p => "not " ++ p.name
  | many p => "many(" ++ p.name ++ ")"
  | lookAhead p => "look_ahead(" ++ p.name ++ ")"
  | trace _ _ p => nameOr p.name "parse"
  | label p name => nameOr name p.baseName
  | wrap _ name => nameOr name "parser"
  | forward _ name => nameOr name "_run_target"
  | lazy _ name => "lazy(" ++ name.getD "thunk" ++ ")"

def display (p : Parser) : String := "<Parser " ++ p.name ++ ">"

def isForward : Parser → Bool
  | forward _ _ => true
  | _ => false

end Parser

end Rewind
