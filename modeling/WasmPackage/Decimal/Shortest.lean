/-!
# Shortest decimals

A binary fraction `m * 2 ^ q` stands for every real that rounds to it.  Among the decimals in that
interval this module picks one with the fewest digits, and of those the nearest.  All comparisons
are between natural numbers.
-/

namespace WasmPackage.Decimal

/-- A positive binary fraction `mantissa * 2 ^ exponent`; `lowGap` says that the next smaller
fraction of its format is only half as far away as the next larger one. -/
structure Binary where
  mantissa : Nat
  exponent : Int
  lowGap : Bool
deriving DecidableEq, Repr

/-- A decimal `digits * 10 ^ exponent`. -/
structure Digits where
  digits : Nat
  exponent : Int
deriving DecidableEq, Repr

/-- Numerator and denominator of `m * b ^ q`. -/
def fraction (m b : Nat) (q : Int) : Nat × Nat :=
  if q < 0 then (m, Nat.pow b (-q).toNat) else (m * Nat.pow b q.toNat, 1)

/-- Compares the two fractions as rational numbers. -/
def fractionLE (x y : Nat × Nat) : Bool :=
  x.1 * y.2 ≤ y.1 * x.2

/-- The exponent of the first decimal digit of a positive fraction. -/
def leadingExponent (x : Nat × Nat) : Int :=
  if x.2 ≤ x.1 then ((toString (x.1 / x.2)).length : Int) - 1
  else
    let places := (toString (x.2 / x.1)).length
    if x.2 ≤ x.1 * Nat.pow 10 (places - 1) then -((places : Int) - 1) else -(places : Int)

namespace Binary

/-- A quarter step below the fraction or a half step, according to its gap; the reals from there on
round to it or to something larger. -/
def low (b : Binary) : Nat × Nat :=
  fraction (if b.lowGap then 4 * b.mantissa - 1 else 4 * b.mantissa - 2) 2 (b.exponent - 2)

/-- Half a step above the fraction. -/
def high (b : Binary) : Nat × Nat :=
  fraction (4 * b.mantissa + 2) 2 (b.exponent - 2)

/-- Does the decimal round to the fraction?  The ends of the interval do so iff the mantissa is
even. -/
def admits (b : Binary) (d : Digits) : Bool :=
  let x := fraction d.digits 10 d.exponent
  -- a tie rounds to the even mantissa
  if b.mantissa % 2 = 0 then fractionLE b.low x && fractionLE x b.high
  else !fractionLE x b.low && !fractionLE b.high x

/-- The nearer of the two neighbours of the fraction on the grid of `count` digits, if one of them
rounds to it; an exact tie goes to the even digit. -/
def onGrid? (b : Binary) (count : Nat) : Option Digits :=
  let x := fraction b.mantissa 2 b.exponent
  let place := leadingExponent x - (count - 1 : Nat)
  let step := fraction 1 10 place
  let num := x.1 * step.2
  let den := x.2 * step.1
  let below : Digits := ⟨num / den, place⟩
  let above : Digits := ⟨num / den + 1, place⟩
  let twice := 2 * (num % den)
  -- the nearer neighbour is tried first, so that it wins if both round to the fraction
  let upFirst := den < twice || (twice = den && below.digits % 2 = 1)
  let (first, second) := if upFirst then (above, below) else (below, above)
  if b.admits first then some first else if b.admits second then some second else none

/-- The shortest decimal that rounds to the fraction. -/
def shortest (b : Binary) : Digits :=
  ((List.range 17).findSome? (fun i => b.onGrid? (i + 1))).getD ⟨b.mantissa, 0⟩

end Binary

/-- What a floating-point number is, read off its bits. -/
inductive FloatParts
  | nan
  | infinite (negative : Bool)
  | zero (negative : Bool)
  | finite (negative : Bool) (value : Binary)
deriving DecidableEq, Repr

/-- Sign, exponent and mantissa of a double. -/
def FloatParts.ofBits (bits : Nat) : FloatParts :=
  let negative : Bool := Nat.pow 2 63 ≤ bits
  let biased : Nat := bits / Nat.pow 2 52 % 2048
  let field : Nat := bits % Nat.pow 2 52
  if biased = 2047 then if field = 0 then .infinite negative else .nan
  else if biased = 0 then
    if field = 0 then .zero negative else .finite negative ⟨field, -1074, false⟩
  else .finite negative ⟨field + Nat.pow 2 52, (biased : Int) - 1075, field = 0 && biased ≠ 1⟩

/-- How a floating-point number is written: between the two exponents of the first digit with a
point among or behind its digits, elsewhere with an exponent of at least two digits. -/
structure FloatStyle where
  leastPositional : Int
  mostPositional : Int
  nan : String
  infinity : String

namespace FloatStyle

/-- The digits of a decimal with trailing zeros dropped, and the exponent of the first of them. -/
def significant (d : Digits) : List Char × Int :=
  let cs := (toString d.digits).toList
  let kept := (cs.reverse.dropWhile (· = '0')).reverse
  (if kept.isEmpty then ['0'] else kept, d.exponent + cs.length - 1)

/-- The text of a decimal in this style. -/
def digits (style : FloatStyle) (d : Digits) : String :=
  let (cs, lead) := significant d
  if lead < style.leastPositional || style.mostPositional < lead then
    let fractional := cs.drop 1
    let mantissa := cs.take 1 ++ (if fractional.isEmpty then [] else '.' :: fractional)
    let size := toString lead.natAbs
    let sign := if lead < 0 then "-" else "+"
    let padding := if size.length < 2 then "0" else ""
    s!"{String.ofList mantissa}e{sign}{padding}{size}"
  else if lead < 0 then
    "0." ++ String.ofList (List.replicate (-lead - 1).toNat '0' ++ cs)
  else
    let whole := lead.toNat + 1
    let front := cs.take whole ++ List.replicate (whole - cs.length) '0'
    let back := cs.drop whole
    String.ofList (front ++ '.' :: (if back.isEmpty then ['0'] else back))

/-- The text of a floating-point number in this style. -/
def render (style : FloatStyle) (parts : FloatParts) : String :=
  let signed (negative : Bool) (s : String) := if negative then "-" ++ s else s
  match parts with
  | .nan => style.nan
  | .infinite negative => signed negative style.infinity
  | .zero negative => signed negative "0.0"
  | .finite negative value => signed negative (style.digits value.shortest)

end FloatStyle

/-- The floating-point number nearest to `digits * 10 ^ exponent`.  Beyond four hundred places the
answer is infinity or zero, and no large power is computed for it. -/
def nearestFloat (digits : Nat) (exponent : Int) : Float :=
  if digits = 0 then 0.0
  else
    let lead := exponent + (toString digits).length
    if 400 < lead then 1.0 / 0.0
    else if lead < -400 then 0.0
    else Float.ofScientific digits (exponent < 0) exponent.natAbs

end WasmPackage.Decimal
