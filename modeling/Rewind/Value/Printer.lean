import Rewind.Value.Basic
import Rewind.Decimal.Notation
import Rewind.Text.Digit
import Rewind.Text.Quoted

namespace Rewind

def Operator.name : Operator → String
  | add => "add"
  | sub => "sub"
  | mul => "mul"
  | div => "div"
  | pair => "pair"

/-- Items with a comma and a space between them. -/
def commaList (items : List String) : String := ", ".intercalate items

namespace Value

mutual

/-- The written form of a value. One with an integer of too many digits in it is never shown, see
`writable`. -/
def display : Value → String
  | none => "None"
  | bool true => "True"
  | bool false => "False"
  | int n => toString n
  | float x => Decimal.write x
  | str s => Text.quoted s
  | list xs => "[" ++ commaList (displayAll xs) ++ "]"
  | tuple [] => "()"
  | tuple [x] => "(" ++ display x ++ ",)"
  | tuple xs => "(" ++ commaList (displayAll xs) ++ ")"
  | dict es => "\x7b" ++ commaList (displayEntries es) ++ "\x7d"
  | op o => "<fn " ++ o.name ++ ">"

def displayAll : List Value → List String
  | [] => []
  | x :: xs => display x :: displayAll xs

def displayEntries : List (Value × Value) → List String
  | [] => []
  | (k, v) :: es => (display k ++ ": " ++ display v) :: displayEntries es

end

mutual

/-- Whether no integer in the value has more digits than can be written. -/
def writable : Value → Bool
  | int n => decide ((Nat.toDigits 10 n.natAbs).length ≤ Text.digitLimit)
  | list xs | tuple xs => writableAll xs
  | dict es => writableEntries es
  | _ => true

def writableAll : List Value → Bool
  | [] => true
  | x :: xs => writable x && writableAll xs

def writableEntries : List (Value × Value) → Bool
  | [] => true
  | (k, v) :: es => writable k && writable v && writableEntries es

end

@[simp]
theorem writableAll_eq_true {xs : List Value} :
    writableAll xs = true ↔ ∀ x ∈ xs, x.writable = true := by
  induction xs with
  | nil => simp [writableAll]
  | cons x xs ih => simp [writableAll, ih]

@[simp]
theorem writableEntries_eq_true {es : List (Value × Value)} :
    writableEntries es = true ↔ ∀ e ∈ es, e.1.writable = true ∧ e.2.writable = true := by
  induction es with
  | nil => simp [writableEntries]
  | cons e es ih => simp [writableEntries, ih]

@[simp]
theorem writable_list {xs : List Value} :
    (list xs).writable = true ↔ ∀ x ∈ xs, x.writable = true := by
  simp [writable]

@[simp]
theorem writable_tuple {xs : List Value} :
    (tuple xs).writable = true ↔ ∀ x ∈ xs, x.writable = true := by
  simp [writable]

@[simp]
theorem writable_none : none.writable = true := rfl

@[simp]
theorem writable_str (s : String) : (str s).writable = true := rfl

@[simp]
theorem writable_ofChar (c : Char) : (ofChar c).writable = true := rfl

theorem writable_chars (cs : List Char) : (list (cs.map ofChar)).writable = true := by
  simp

theorem writable_int {n : Int} :
    (int n).writable = true ↔ n.natAbs < Nat.pow 10 Text.digitLimit := by
  have limit : 0 < Text.digitLimit := by decide
  rw [writable, decide_eq_true_eq]
  -- The power is not to be evaluated.
  generalize Text.digitLimit = k at limit ⊢
  exact Nat.length_toDigits_le_iff (by decide) limit

theorem writable_int_of_lt {n : Int} {k : Nat} (less : n.natAbs < Nat.pow 10 k)
    (short : k ≤ Text.digitLimit) : (int n).writable = true := by
  rw [writable_int]
  generalize Text.digitLimit = limit at short ⊢
  exact Nat.lt_of_lt_of_le less (Nat.pow_le_pow_right (by decide) short)

/-- An integer of one digit too many, which is not to be evaluated. -/
@[irreducible]
def long : Value := .int (Nat.pow 10 Text.digitLimit : Nat)

theorem not_writable_long : ¬long.writable = true := by
  rw [long, writable_int, Int.natAbs_natCast]
  exact Nat.lt_irrefl _

end Value

end Rewind
