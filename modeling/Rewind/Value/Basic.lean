namespace Rewind

/-- A two-place operation that a parser can hand to a chain of operands. -/
inductive Operator where
  | add
  | sub
  | mul
  | div
  | pair
  deriving DecidableEq

inductive Value where
  | none
  | bool (b : Bool)
  | int (n : Int)
  | float (x : Float)
  | str (s : String)
  | list (items : List Value)
  | tuple (items : List Value)
  | dict (entries : List (Value × Value))
  | op (operator : Operator)
  deriving Inhabited

namespace Value

/-- The word for the kind of a value in messages. -/
def kind : Value → String
  | none => "NoneType"
  | bool _ => "bool"
  | int _ => "int"
  | float _ => "float"
  | str _ => "str"
  | list _ => "list"
  | tuple _ => "tuple"
  | dict _ => "dict"
  | op _ => "function"

def ofChar (c : Char) : Value := .str (String.singleton c)

/-- Puts an item in front of a list. -/
def cons (x : Value) : Value → Value
  | .list xs => .list (x :: xs)
  | v => v

/-- Adds an item at the end of a list. -/
def snoc (xs : Value) (x : Value) : Value :=
  match xs with
  | .list xs => .list (xs ++ [x])
  | v => v

/-- The texts of a list that holds nothing else. -/
def strings? : List Value → Option (List String)
  | [] => some []
  | .str s :: rest => (strings? rest).map (s :: ·)
  | _ :: _ => Option.none

end Value

end Rewind
