namespace Rewind.Decimal

/-- A finite magnitude has `mantissa < 2 ^ 53` and `-1074 ≤ exponent`. -/
inductive Binary where
  | finite (negative : Bool) (mantissa : Nat) (exponent : Int)
  | infinite (negative : Bool)
  | nan

/-- The sign is the top bit, then follow eleven bits of exponent and fifty-two of mantissa. -/
def Binary.ofBits (bits : Nat) : Binary :=
  let negative := bits / Nat.pow 2 63 % 2 == 1
  let exponent : Nat := bits / Nat.pow 2 52 % Nat.pow 2 11
  let fraction := bits % Nat.pow 2 52
  if exponent = 2047 then if fraction = 0 then .infinite negative else .nan
  else if exponent = 0 then .finite negative fraction (-1074)
  else .finite negative (Nat.pow 2 52 + fraction) ((exponent : Int) - 1075)

def Binary.ofFloat (x : Float) : Binary := .ofBits x.toBits.toNat

/-- Nearest natural to `num / den`, a tie to the even one. -/
def roundDiv (num den : Nat) : Nat :=
  let q := num / den
  let r := num % den
  if 2 * r < den then q else if den < 2 * r then q + 1 else q + q % 2

/-- The rounded quotient is at most half a unit away. -/
theorem roundDiv_near (num den : Nat) (pos : 0 < den) :
    2 * num ≤ 2 * (den * roundDiv num den) + den ∧
      2 * (den * roundDiv num den) ≤ 2 * num + den := by
  have whole : den * (num / den) + num % den = num := Nat.div_add_mod num den
  have small : num % den < den := Nat.mod_lt _ pos
  have next : den * (num / den + 1) = den * (num / den) + den := Nat.mul_succ ..
  simp only [roundDiv]
  split
  · omega
  · split
    · rw [next]
      omega
    · rcases Nat.mod_two_eq_zero_or_one (num / den) with parity | parity
      · rw [parity, Nat.add_zero]
        omega
      · rw [parity, next]
        omega

/-- The power of two that leaves fifty-three binary digits before the point, or fewer at the lower
end of the exponents. -/
def gridExponent (num den : Nat) : Int :=
  let guess : Int := (num.log2 : Int) - den.log2 - 52
  let low :=
    if num * Nat.pow 2 (-guess).toNat < Nat.pow 2 52 * den * Nat.pow 2 guess.toNat then guess - 1
    else guess
  max low (-1074)

/-- The bits of the nearest magnitude to `num / den`. -/
def bitsOfRatio (num den : Nat) : Nat :=
  if num = 0 then 0
  else
    let q := gridExponent num den
    let m := roundDiv (num * Nat.pow 2 (-q).toNat) (den * Nat.pow 2 q.toNat)
    if m < Nat.pow 2 52 then m else (q + 1075).toNat * Nat.pow 2 52 + (m - Nat.pow 2 52)

def infinityBits : Nat := 2047 * Nat.pow 2 52

def floatOfBits (negative : Bool) (bits : Nat) : Float :=
  Float.ofBits (UInt64.ofNat (if negative then Nat.pow 2 63 + bits else bits))

/-- The nearest double, or `none` where that lies beyond the largest finite one. -/
def ratio? (negative : Bool) (num den : Nat) : Option Float :=
  let bits := bitsOfRatio num den
  if bits < infinityBits then some (floatOfBits negative bits) else none

/-- The nearest double, infinite beyond the largest finite one. -/
def ratio (negative : Bool) (num den : Nat) : Float :=
  floatOfBits negative (min (bitsOfRatio num den) infinityBits)

def ofInt? (n : Int) : Option Float := ratio? (n < 0) n.natAbs 1

/-- Whether a double is exactly the integer. -/
def equalsInt (x : Float) (n : Int) : Bool :=
  match Binary.ofFloat x with
  | .finite negative m q =>
    m * Nat.pow 2 q.toNat = n.natAbs * Nat.pow 2 (-q).toNat && (m = 0 || negative = decide (n < 0))
  | _ => false

end Rewind.Decimal
