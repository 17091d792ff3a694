import Rewind.Value.Basic
import Rewind.Decimal.Binary

namespace Rewind

namespace Value

/-- Numbers that are whole by their kind. -/
def int? : Value → Option Int
  | bool b => some (if b then 1 else 0)
  | int n => some n
  | _ => Option.none

/-- Compares two values that are not made of others. -/
def sameAtom (v w : Value) : Bool :=
  match v, w with
  | none, none => true
  | str s, str t => s == t
  | op o, op p => o == p
  | float x, float y => x == y
  | float x, w => w.int?.any (Decimal.equalsInt x)
  | v, float y => v.int?.any (Decimal.equalsInt y)
  | v, w =>
    match v.int?, w.int? with
    | some m, some n => m == n
    | _, _ => false

mutual

def same : Value → Value → Bool
  | list xs, w => match w with
    | list ys => sameItems xs ys
    | _ => false
  | tuple xs, w => match w with
    | tuple ys => sameItems xs ys
    | _ => false
  | dict es, w => match w with
    | dict fs => es.length == fs.length && sameEntries es fs
    | _ => false
  | v, w => sameAtom v w

def sameItems : List Value → List Value → Bool
  | [], ys => ys.isEmpty
  | _ :: _, [] => false
  | x :: xs, y :: ys => same x y && sameItems xs ys

/-- Whether every entry has one with the same key and the same value on the other side. -/
def sameEntries : List (Value × Value) → List (Value × Value) → Bool
  | [], _ => true
  | (k, v) :: es, fs => fs.any (fun f => same k f.1 && same v f.2) && sameEntries es fs

end

instance : BEq Value := ⟨same⟩

/-- Sets the value at a key; a key that is there keeps its place and its form. -/
def insertEntry (entries : List (Value × Value)) (key value : Value) : List (Value × Value) :=
  match entries with
  | [] => [(key, value)]
  | e :: rest =>
    if same e.1 key then (e.1, value) :: rest else e :: insertEntry rest key value

/-- The dictionary of a list of entries: of two with the same key the first gives the place and
the last the value. -/
def ofEntries (entries : List (Value × Value)) : Value :=
  .dict (entries.foldl (fun acc e => insertEntry acc e.1 e.2) [])

/-- The dictionary of a list of pairs; any other value stays as it is. -/
def toDict (v : Value) : Value :=
  match v with
  | .list items => ofEntries (items.filterMap fun
      | .tuple [k, x] => some (k, x)
      | _ => Option.none)
  | v => v

end Value

end Rewind
