import Rewind.Value.Arithmetic

namespace Rewind.Value

/-- The characters of a text, or of a list of texts put together. -/
def chars? : Value → Option (List Char)
  | .str s => some s.toList
  | .list xs => (strings? xs).map fun ss => (String.join ss).toList
  | _ => Option.none

/-- Reads decimal digits. -/
def toInt (v : Value) : Except Fault Value :=
  match v.chars? with
  | some cs =>
    match Text.numeral? cs with
    | some n => readInt cs.length n
    | Option.none => .ok v
  | Option.none => .ok v

/-- An integer, or what is read as one, as a number of repetitions. -/
def asCount (v : Value) : Except Fault Nat :=
  v.toInt.map fun
    | .int n => n.toNat
    | _ => 0

/-- Puts the texts of a list together. -/
def joined : Value → Value
  | .list xs => ((strings? xs).map fun ss => .str (String.join ss)).getD (.list xs)
  | v => v

/-- The length of a text or a list, and `-1` for anything else. -/
def measure : Value → Value
  | .str s => .int s.length
  | .list xs => .int xs.length
  | _ => .int (-1)

def plus (n : Int) : Value → Value
  | .int m => .int (m + n)
  | v => v

def times (n : Int) : Value → Value
  | .int m => .int (m * n)
  | v => v

def surrounded (before after : String) : Value → Value
  | .str s => .str (before ++ s ++ after)
  | v => v

def boxed (v : Value) : Value := .list [v]

def toTuple : Value → Value
  | .list xs => .tuple xs
  | v => .tuple [v]

def written (v : Value) : Except Fault Value := (v.shownIn v.display).map .str

end Rewind.Value
