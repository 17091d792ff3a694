import Rewind.Result

namespace Rewind

/-- A test of one character may write notes or raise. -/
abbrev CharTest := Char → Act Bool

/-- Parsers without parts. -/
inductive Atom where
  /-- One character that passes a test. -/
  | satisfy (test : CharTest) (name : String)
  /-- The characters of a text, in order; the result is `value`. -/
  | literal (chars : List Char) (value : Value)
  | constant (value : Value)
  | fail (name : String)
  /-- Any function at all. Its own name, if it has one, serves where no other is given. -/
  | handmade (run : Cursor → Act Result) (name : String) (ownName : Option String)

/-- Ways to make a parser from one other. An empty name means that none is given. -/
inductive Unary where
  | map (f : Value → Act Value)
  | not
  | many
  | many1
  | skipMany
  | token
  | lookAhead
  | option (default : Value)
  | times (n : Nat)
  | trace (tag : Nat) (label : String)
  | label (name : String)
  | wrap (name : String)

/-- Ways to make a parser from two others. -/
inductive Binary where
  /-- Both in order, with the value of the second. -/
  | before
  | or
  /-- A parser for a list, then one for an item that goes to the list's end. -/
  | snoc
  /-- Elements, then their separator. -/
  | sepBy
  | sepBy1
  /-- Operands, then the operators between them, which `apply` applies from the left. -/
  | chainLeft (apply : Value → Value → Value → Act Value)

/-- What stands against making such a parser, since its name shows the value. -/
def Atom.refusal? : Atom → Option Fault
  | literal _ value | constant value => value.refusal?
  | _ => none

/-- What stands against making such a parser when the other one is made. -/
def Unary.refusal? : Unary → Option Fault
  | option default => default.refusal?
  | _ => none

inductive Rule where
  | atom (atom : Atom)
  /-- The parser that a name stands for when the rule is built. -/
  | ref (name : String)
  /-- A parser that builds its rule when it is first used and keeps what it built. A watched one
  records that. -/
  | lazy (name : Option String) (watched : Bool) (thunk : Rule)
  /-- Cannot be built. -/
  | raise (fault : Fault)
  /-- Goes on with the rule that `next` makes of the first result, after writing `notes`. -/
  | andThen (rule : Rule) (notes : Result → List Note) (next : Result → Rule)
  | unary (op : Unary) (rule : Rule)
  | binary (op : Binary) (left right : Rule)
  | between (opening closing body : Rule)

end Rewind
