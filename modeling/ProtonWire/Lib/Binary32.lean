import Mathlib

/-!
# IEEE 754 binary32, by its bits

A value is its 32 bits. A finite value is an integer multiple of `2⁻¹⁴⁹` (`magnitude`), so every
operation computes an exact ratio of naturals and rounds it once, to nearest and ties to even
(`roundRatio`). All definitions run.

* `roundRatio`, `add`, `mul`, `div`, `ofInt`, `lt`, `max`, `isFinite`;
* `totalCmp`: the IEEE `totalOrder` comparison, through the integer `totalKey`;
* `display`: the shortest decimal text that rounds back to the value.
-/

/-- A binary32 value. -/
structure Binary32 where
  bits : BitVec 32
  deriving DecidableEq, Inhabited

namespace Binary32

/-- The low 31 bits: exponent and fraction. -/
def low (x : Binary32) : ℕ := x.bits.toNat % 2 ^ 31

/-- The sign bit. -/
def sign (x : Binary32) : Bool := decide (2 ^ 31 ≤ x.bits.toNat)

/-- The exponent field. -/
def exponent (x : Binary32) : ℕ := x.low / 2 ^ 23

/-- The fraction field. -/
def fraction (x : Binary32) : ℕ := x.low % 2 ^ 23

/-- Neither an infinity nor a NaN. -/
def isFinite (x : Binary32) : Bool := x.exponent != 255

/-- Not a number. -/
def isNaN (x : Binary32) : Bool := x.exponent == 255 && x.fraction != 0

/-- An infinity. -/
def isInfinite (x : Binary32) : Bool := x.exponent == 255 && x.fraction == 0

/-- The absolute value of a finite value, in units of `2⁻¹⁴⁹`. -/
def magnitude (x : Binary32) : ℕ :=
  if x.exponent = 0 then x.fraction else (2 ^ 23 + x.fraction) * 2 ^ (x.exponent - 1)

/-- The value with a given sign and low bits. -/
def ofLow (neg : Bool) (n : ℕ) : Binary32 := ⟨BitVec.ofNat 32 (if neg then 2 ^ 31 + n else n)⟩

/-- The low bits of infinity. -/
def infLow : ℕ := 255 * 2 ^ 23

/-- An infinity. -/
def inf (neg : Bool) : Binary32 := ofLow neg infLow

/-- The quiet NaN. -/
def nan : Binary32 := ofLow false (infLow + 2 ^ 22)

/-- `+0`. -/
def zero : Binary32 := ofLow false 0

/-- `1`. -/
def one : Binary32 := ofLow false (127 * 2 ^ 23)

/-- The largest finite value. -/
def maxFinite : Binary32 := ofLow false (infLow - 1)

/-- `num / den` to the nearest natural, ties to even. -/
def roundHalfEven (num den : ℕ) : ℕ :=
  if 2 * (num % den) < den ∨ (2 * (num % den) = den ∧ num / den % 2 = 0) then num / den
  else num / den + 1

/-- The value nearest to `± (num / den) · 2⁻¹⁴⁹`. Below `2 ^ 24` units the quantum is one unit;
above, the significand keeps 24 bits. The exponent field and the significand then add up to the low
bits, so a carry out of the significand lands in the exponent. -/
def roundRatio (neg : Bool) (num den : ℕ) : Binary32 :=
  let shift := Nat.log2 (num / den) - 23
  ofLow neg (min infLow (shift * 2 ^ 23 + roundHalfEven num (den * 2 ^ shift)))

/-- An integer as binary32. -/
def ofInt (z : ℤ) : Binary32 := roundRatio (decide (z < 0)) (z.natAbs * 2 ^ 149) 1

/-- The signed magnitude of a finite value. -/
def signedMagnitude (x : Binary32) : ℤ := if x.sign then -x.magnitude else x.magnitude

/-- `x + y`. -/
def add (x y : Binary32) : Binary32 :=
  if x.isNaN || y.isNaN then nan
  else if x.isInfinite then (if y.isInfinite && x.sign != y.sign then nan else x)
  else if y.isInfinite then y
  else if x.signedMagnitude + y.signedMagnitude = 0 then ofLow (x.sign && y.sign) 0
  else roundRatio (decide (x.signedMagnitude + y.signedMagnitude < 0))
    (x.signedMagnitude + y.signedMagnitude).natAbs 1

/-- `x - y`. -/
def sub (x y : Binary32) : Binary32 := x.add (ofLow (!y.sign) y.low)

/-- `x * y`. -/
def mul (x y : Binary32) : Binary32 :=
  if x.isNaN || y.isNaN then nan
  else if x.isInfinite then (if y.low = 0 then nan else inf (x.sign != y.sign))
  else if y.isInfinite then (if x.low = 0 then nan else inf (x.sign != y.sign))
  else roundRatio (x.sign != y.sign) (x.magnitude * y.magnitude) (2 ^ 149)

/-- `x / y`. -/
def div (x y : Binary32) : Binary32 :=
  if x.isNaN || y.isNaN then nan
  else if x.isInfinite then (if y.isInfinite then nan else inf (x.sign != y.sign))
  else if y.isInfinite then ofLow (x.sign != y.sign) 0
  else if y.low = 0 then (if x.low = 0 then nan else inf (x.sign != y.sign))
  else roundRatio (x.sign != y.sign) (x.magnitude * 2 ^ 149) y.magnitude

/-- The position of a value that is not a NaN; both zeros sit at `0`. -/
def position (x : Binary32) : ℤ := if x.sign then -x.low else x.low

/-- `x < y`; false when either is a NaN. -/
def lt (x y : Binary32) : Bool := !x.isNaN && !y.isNaN && decide (x.position < y.position)

/-- `x ≤ y`; false when either is a NaN. -/
def le (x y : Binary32) : Bool := !x.isNaN && !y.isNaN && decide (x.position ≤ y.position)

/-- The greater of two values; a NaN loses. -/
def max (x y : Binary32) : Binary32 :=
  if x.isNaN then y else if y.isNaN then x else if x.lt y then y else x

/-- The place of a bit pattern in the total order: a negative pattern is complemented. -/
def totalKey (x : Binary32) : ℤ := if x.sign then -x.low - 1 else x.low

/-- The IEEE `totalOrder` comparison. -/
def totalCmp (x y : Binary32) : Ordering := compare x.totalKey y.totalKey

/-! ## Decimal text -/

/-- The value nearest to `num / den`. -/
def ratio (num den : ℕ) : Binary32 := roundRatio false (num * 2 ^ 149) den

/-- `digits · 10 ^ (exp - 45)`, as a ratio. -/
def decimalRatio (digits exp : ℕ) : ℕ × ℕ :=
  if 45 ≤ exp then (digits * 10 ^ (exp - 45), 1) else (digits, 10 ^ (45 - exp))

/-- The exponent of the leading decimal digit of a positive magnitude, plus `45`. -/
def decimalExp (magnitude : ℕ) : ℕ :=
  ((List.range 84).reverse.find? fun exp =>
    decide ((decimalRatio 1 exp).1 * 2 ^ 149 ≤ magnitude * (decimalRatio 1 exp).2)).getD 0

/-- The two decimals of `n` digits around a magnitude, the nearer one first. -/
def decimalCandidates (magnitude n : ℕ) : List (ℕ × ℕ) :=
  let exp := decimalExp magnitude + 1 - n
  let (num, den) := decimalRatio 1 exp
  let digits := magnitude * den / (num * 2 ^ 149)
  let below := 2 * (magnitude * den % (num * 2 ^ 149)) ≤ num * 2 ^ 149
  if below then [(digits, exp), (digits + 1, exp)] else [(digits + 1, exp), (digits, exp)]

/-- The shortest decimal that rounds back to a magnitude. -/
def shortestDecimal (magnitude : ℕ) : Option (ℕ × ℕ) :=
  (((List.range 9).map (· + 1)).flatMap (decimalCandidates magnitude)).find? fun (digits, exp) =>
    (ratio (decimalRatio digits exp).1 (decimalRatio digits exp).2).magnitude = magnitude

/-- `digits · 10 ^ (exp - 45)` without an exponent and without trailing zeros. -/
def renderDecimal (digits exp : ℕ) : String :=
  let (num, den) := decimalRatio digits exp
  let fraction := ((toString (num % den + den)).toList.drop 1).reverse.dropWhile (· = '0')
  if fraction = [] then toString (num / den)
  else toString (num / den) ++ "." ++ String.ofList fraction.reverse

/-- `Display` of an `f32`. -/
def display (x : Binary32) : String :=
  if x.isNaN then "NaN"
  else (if x.sign then "-" else "") ++
    (if x.isInfinite then "inf"
    else if x.magnitude = 0 then "0"
    else (shortestDecimal x.magnitude).elim "" fun (digits, exp) => renderDecimal digits exp)

example : add one one = ofInt 2 := by decide
example : (div one (ofInt 10)).bits = 0x3dcccccd#32 := by decide
example : mul maxFinite (ofInt 2) = inf false := by decide +kernel
example : display (ratio 2 5) = "0.4" := by decide +kernel

end Binary32
