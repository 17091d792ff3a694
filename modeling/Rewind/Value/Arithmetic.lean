import Rewind.Fault
import Rewind.Value.Equality

namespace Rewind

namespace Value

def doubleOf (n : Int) : Except Fault Float :=
  match Decimal.ofInt? n with
  | some x => .ok x
  | Option.none => .error .integerTooLarge

/-- Both operands as doubles; `none` if one is no number. A truth value is no number here. -/
def doubles? : Value → Value → Option (Except Fault (Float × Float))
  | .float x, .float y => some (.ok (x, y))
  | .float x, .int n => some ((doubleOf n).map fun y => (x, y))
  | .int m, .float y => some ((doubleOf m).map fun x => (x, y))
  | _, _ => Option.none

/-- Operands that are no numbers are paired up. -/
def arithmetic (onInts : Int → Int → Value) (onDoubles : Float → Float → Float)
    (v w : Value) : Except Fault Value :=
  match v, w with
  | .int m, .int n => .ok (onInts m n)
  | v, w =>
    match doubles? v w with
    | some operands => operands.map fun (x, y) => .float (onDoubles x y)
    | Option.none => .ok (.tuple [v, w])

def isZero : Value → Bool
  | .int n => n == 0
  | .float x => x == 0
  | _ => false

def isNumber : Value → Bool
  | .int _ | .float _ => true
  | _ => false

/-- The quotient of two integers, rounded once. -/
def intQuotient (m n : Int) : Except Fault Value :=
  match Decimal.ratio? (decide (m < 0) != decide (n < 0)) m.natAbs n.natAbs with
  | some x => .ok (.float x)
  | Option.none => .error .quotientTooLarge

def quotient (v w : Value) : Except Fault Value :=
  if v.isNumber && w.isZero then .error .divisionByZero
  else
    match v, w with
    | .int m, .int n => intQuotient m n
    | v, w => arithmetic (fun m _ => .int m) (· / ·) v w

def negated : Value → Value
  | .int n => .int (-n)
  | .float x => .float (-x)
  | v => v

end Value

def Operator.apply : Operator → Value → Value → Except Fault Value
  | add => Value.arithmetic (fun m n => .int (m + n)) (· + ·)
  | sub => Value.arithmetic (fun m n => .int (m - n)) (· - ·)
  | mul => Value.arithmetic (fun m n => .int (m * n)) (· * ·)
  | div => Value.quotient
  | pair => fun v w => .ok (.tuple [v, w])

/-- Applies a value to two operands. -/
def Value.applyTo (f x y : Value) : Except Fault Value :=
  match f with
  | .op o => o.apply x y
  | f => .error (.notOperator f.kind)

end Rewind
