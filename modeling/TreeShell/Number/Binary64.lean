/-! # Double precision numbers

A number is kept as its 64 bits. Reading a decimal rounds to the nearest number, ties to the even one,
by exact arithmetic; writing takes the fewest digits that read back, the nearest such decimal, and
writes it positionally from `0.0001` up to below `10^16`. A sign of zero is kept. Powers are `Nat.pow`,
which stays the same function when algebra is imported.
-/

namespace TreeShell

/-- A double precision number, by its bits: sign, eleven bits of exponent, 52 bits of fraction. -/
structure Binary64 where
  bits : UInt64
deriving DecidableEq, Repr, Inhabited

namespace Binary64

/-- The code of infinity, and the least code that is not a finite magnitude. -/
def infinityCode : Nat := 0x7FF <<< 52

def isNegative (x : Binary64) : Bool :=
  x.bits.toNat ≥ Nat.pow 2 63

/-- The bits below the sign; they order the magnitudes. -/
def magnitudeCode (x : Binary64) : Nat :=
  x.bits.toNat % Nat.pow 2 63

/-- The quotient rounded to the nearest natural number, a half to the even one. -/
def roundDiv (num den : Nat) : Nat :=
  let q := num / den
  let twice := 2 * (num % den)
  if twice > den ∨ (twice = den ∧ q % 2 = 1) then q + 1 else q

/-- The code of the magnitude nearest to a positive fraction. -/
def codeOfRatio (num den : Nat) : Nat :=
  let scale : Int := (num.log2 : Int) - den.log2
  let atLeast : Bool := if scale ≥ 0 then den * Nat.pow 2 scale.toNat ≤ num else den ≤ num * Nat.pow 2 (-scale).toNat
  let floorLog := if atLeast then scale else scale - 1
  let unit := max (-1074) (floorLog - 52)
  let m := if unit ≥ 0 then roundDiv num (den * Nat.pow 2 unit.toNat) else roundDiv (num * Nat.pow 2 (-unit).toNat) den
  min infinityCode ((unit + 1074).toNat * Nat.pow 2 52 + m)

/-- The number nearest to `digits * 10 ^ exponent`, with the given sign. -/
def ofDecimal (negative : Bool) (digits : Nat) (exponent : Int) : Binary64 :=
  let width : Int := (Nat.toDigits 10 digits).length
  let code :=
    if digits = 0 ∨ width + exponent < -330 then 0
    else if width + exponent > 310 then infinityCode
    else if exponent ≥ 0 then codeOfRatio (digits * Nat.pow 10 exponent.toNat) 1
    else codeOfRatio digits (Nat.pow 10 (-exponent).toNat)
  ⟨UInt64.ofNat ((if negative then Nat.pow 2 63 else 0) + code)⟩

/-- Infinity with the given sign. -/
def infinity (negative : Bool) : Binary64 :=
  ⟨UInt64.ofNat ((if negative then Nat.pow 2 63 else 0) + infinityCode)⟩

/-- The number that is not one. -/
def nan : Binary64 :=
  ⟨UInt64.ofNat (0x7FF8 <<< 48)⟩

def isNaN (x : Binary64) : Bool :=
  x.magnitudeCode > infinityCode

def isInfinite (x : Binary64) : Bool :=
  x.magnitudeCode = infinityCode

/-- A finite magnitude as `significand * 2 ^ unit`. -/
def parts (x : Binary64) : Nat × Int :=
  let field : Nat := x.magnitudeCode / Nat.pow 2 52
  let fraction : Nat := x.magnitudeCode % Nat.pow 2 52
  if field = 0 then (fraction, -1074) else (Nat.pow 2 52 + fraction, (field : Int) - 1075)

/-- A decimal `0.d₁d₂… * 10 ^ point` by its digits, the first of them not zero. -/
structure Decimal where
  digits : List Char
  point : Int
deriving DecidableEq, Repr

/-- The multiples of `10 ^ step` beside a positive magnitude that read back as it, nearest first and
the even one first when both are equally near. -/
def neighbours (significand : Nat) (unit step : Int) : List Nat :=
  let ten := Nat.pow 10 step.natAbs
  let two := Nat.pow 2 (unit - 2).natAbs
  -- one quarter of the unit is `low / high` of the step's grid
  let grid := (if step ≥ 0 then ten else 1) * (if unit - 2 ≥ 0 then 1 else two)
  let quarter := (if unit - 2 ≥ 0 then two else 1) * (if step ≥ 0 then 1 else ten)
  let value := 4 * significand * quarter
  let below := (4 * significand - (if significand = Nat.pow 2 52 ∧ unit > -1074 then 1 else 2)) * quarter
  let above := (4 * significand + 2) * quarter
  let readsBack (k : Nat) : Bool :=
    if significand % 2 = 0 then below ≤ k * grid && k * grid ≤ above
    else below < k * grid && k * grid < above
  let k := value / grid
  let down := value - k * grid
  let up := (k + 1) * grid - value
  let ordered := if down < up ∨ (down = up ∧ k % 2 = 0) then [k, k + 1] else [k + 1, k]
  ordered.filter readsBack

/-- The decimal with the fewest digits that reads back as a positive finite magnitude, the nearest of
those; seventeen digits always suffice. -/
def shortest (significand : Nat) (unit : Int) : Decimal :=
  let num := if unit ≥ 0 then significand * Nat.pow 2 unit.toNat else significand
  let den := if unit ≥ 0 then 1 else Nat.pow 2 (-unit).toNat
  let point : Int :=
    if den ≤ num then (Nat.toDigits 10 (num / den)).length
    else 1 - (Nat.toDigits 10 (den / num)).length
  let found := (List.range 17).findSome? fun (n : Nat) =>
    let step : Int := point - (n + 1)
    (neighbours significand unit step).head?.map fun k => (k, step)
  match found with
  | none => ⟨['0'], 1⟩
  | some (k, step) =>
    let written := Nat.toDigits 10 k
    let significant := (written.reverse.dropWhile (· = '0')).reverse
    ⟨significant, step + written.length⟩

/-- The positional form of a decimal, with at least one digit on each side of the point. -/
def Decimal.positional (d : Decimal) : List Char :=
  if d.point ≤ 0 then "0.".toList ++ List.replicate (-d.point).toNat '0' ++ d.digits
  else
    let whole := d.point.toNat
    let padded := d.digits ++ List.replicate (whole - d.digits.length) '0'
    let fraction := padded.drop whole
    padded.take whole ++ '.' :: (if fraction.isEmpty then ['0'] else fraction)

/-- The form with an exponent, which is signed and has at least two digits. -/
def Decimal.scientific (d : Decimal) : List Char :=
  let exponent := d.point - 1
  let written := Nat.toDigits 10 exponent.natAbs
  let padded := if written.length < 2 then '0' :: written else written
  let mantissa :=
    match d.digits with
    | first :: rest@(_ :: _) => first :: '.' :: rest
    | digits => digits
  mantissa ++ 'e' :: (if exponent < 0 then '-' else '+') :: padded

/-- The text of a magnitude. -/
def magnitudeText (x : Binary64) : List Char :=
  let (significand, unit) := x.parts
  if significand = 0 then "0.0".toList
  else
    let d := shortest significand unit
    if -4 < d.point ∧ d.point ≤ 16 then d.positional else d.scientific

/-- The text of a finite number. -/
def finiteText (x : Binary64) : String :=
  String.ofList ((if x.isNegative then ['-'] else []) ++ x.magnitudeText)

/-- The text of a number, with `inf` and `nan` for the values that are not finite. -/
def text (x : Binary64) : String :=
  if x.isNaN then "nan"
  else if x.isInfinite then (if x.isNegative then "-inf" else "inf")
  else x.finiteText

end Binary64

end TreeShell
