import Rewind.Decimal.Shortest
import Rewind.Text.Digit

namespace Rewind.Decimal

/-- Drops zeros at the end. -/
def trimZeros (ds : List Char) : List Char := (ds.reverse.dropWhile (· == '0')).reverse

def plain (ds : List Char) (power : Int) : List Char :=
  if power < 0 then '0' :: '.' :: List.replicate (-power - 1).toNat '0' ++ ds
  else
    let whole := power.toNat + 1
    let fraction := ds.drop whole
    ds.take whole ++ List.replicate (whole - ds.length) '0' ++
      '.' :: (if fraction.isEmpty then ['0'] else fraction)

def exponential (ds : List Char) (power : Int) : List Char :=
  let exponent := Nat.toDigits 10 power.natAbs
  ds.take 1 ++ (if ds.length ≤ 1 then [] else '.' :: ds.drop 1) ++
    'e' :: (if power < 0 then '-' else '+') ::
    (if exponent.length < 2 then '0' :: exponent else exponent)

/-- The decimal `0.d₁d₂… * 10 ^ (power + 1)` with the given digits. -/
def layout (ds : List Char) (power : Int) : List Char :=
  if -4 ≤ power ∧ power < 16 then plain ds power else exponential ds power

def magnitude (mantissa : Nat) (exponent : Int) : List Char :=
  if mantissa = 0 then ['0', '.', '0']
  else
    let d := shortest mantissa exponent
    let ds := Nat.toDigits 10 d.digits
    layout (trimZeros ds) (d.scale + ds.length - 1)

def signed (negative : Bool) (cs : List Char) : String :=
  String.ofList (if negative then '-' :: cs else cs)

def write (x : Float) : String :=
  match Binary.ofFloat x with
  | .finite negative m q => signed negative (magnitude m q)
  | .infinite negative => signed negative ['i', 'n', 'f']
  | .nan => "nan"

/-- The double nearest to `± whole.fraction`, the two parts being rows of digit values. -/
def ofPlaces (negative : Bool) (whole fraction : List Nat) : Float :=
  ratio negative (Text.positional (whole ++ fraction)) (Nat.pow 10 fraction.length)

/-- The double nearest to `± digits * 10 ^ scale`. -/
def ofScale (negative : Bool) (digits : Nat) (scale : Int) : Float :=
  ratio negative (digits * Nat.pow 10 scale.toNat) (Nat.pow 10 (-scale).toNat)

def takeSign : List Char → Bool × List Char
  | '-' :: cs => (true, cs)
  | '+' :: cs => (false, cs)
  | cs => (false, cs)

def exponent? : List Char → Option Int
  | [] => some 0
  | _ :: cs => do
    let (negative, ds) := takeSign cs
    let n ← Text.numeral? ds
    return if negative then -n else n

/-- Reads digits with an optional point and an optional exponent. -/
def readMagnitude? (negative : Bool) (cs : List Char) : Option Float := do
  let number := cs.takeWhile fun c => c ≠ 'e' ∧ c ≠ 'E'
  let exponent ← exponent? (cs.dropWhile fun c => c ≠ 'e' ∧ c ≠ 'E')
  let whole := number.takeWhile (· ≠ '.')
  let fraction := (number.dropWhile (· ≠ '.')).drop 1
  let digits ← Text.numeral? (whole ++ fraction)
  return ofScale negative digits (exponent - fraction.length)

/-- Reads what `write` writes, and the same with other digits, exponents and signs. -/
def read? (s : String) : Option Float :=
  match takeSign s.toList with
  | (negative, ['i', 'n', 'f']) => some (floatOfBits negative infinityBits)
  | (_, ['n', 'a', 'n']) => some (floatOfBits false (infinityBits + Nat.pow 2 51))
  | (negative, cs) => readMagnitude? negative cs

end Rewind.Decimal
