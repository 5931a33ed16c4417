/-!
# Decimal numbers

Digits, the value of a run of digits, and the one thing that is asked of numbers with a fraction or
an exponent: whether they are too large for a binary floating-point number of 64 bits. `overflows`
answers for the exact value of a number, and `Scaled.overflows` for a reader that keeps as many
digits as fit into 64 bits and multiplies them by a power of ten.
-/

namespace SignedDirectory.Decimal

def digit? (ch : Char) : Option Nat :=
  if '0' ≤ ch ∧ ch ≤ '9' then some (ch.toNat - 48) else none

def isDigit (ch : Char) : Bool := '0' ≤ ch && ch ≤ '9'

def ofDigits (digits : List Char) : Nat := digits.foldl (fun n ch => 10 * n + (ch.toNat - 48)) 0

/-- The least number that rounds to infinity: half a unit beyond the greatest finite number of a
53-bit significand and an 11-bit exponent. -/
def infinityBound : Nat := Nat.pow 2 1024 - Nat.pow 2 970

/-- Whether `significand * 10 ^ exponent` rounds to infinity. -/
def overflows (significand : Nat) (exponent : Int) : Bool :=
  match exponent with
  | .ofNat e => if e > 308 then significand ≠ 0 else infinityBound ≤ significand * Nat.pow 10 e
  | .negSucc e =>
    if significand.log2 ≤ e then false else infinityBound * Nat.pow 10 (e + 1) ≤ significand

/-- The number of 53 significant bits that is nearest to `n`; of two, the one with an even
significand. -/
def roundTo53 (n : Nat) : Nat :=
  let shift := n.log2 - 52
  let significand := n >>> shift
  let double := 2 * (n % Nat.pow 2 shift)
  if double > Nat.pow 2 shift ∨ (double = Nat.pow 2 shift ∧ significand % 2 = 1) then
    (significand + 1) <<< shift
  else significand <<< shift

/-- A number as its leading digits and a power of ten. -/
structure Scaled where
  significand : Nat
  exponent : Int

namespace Scaled

/-- The value of the first digits that fit into 64 bits, those of `value` before them, and how many
digits are left over. -/
def keep (value : Nat) : List Char → Nat × Nat
  | [] => (value, 0)
  | ch :: rest =>
    let longer := 10 * value + (ch.toNat - 48)
    if longer < UInt64.size then keep longer rest else (value, rest.length + 1)

/-- The leading digits of a number before and after its point. -/
def ofDigits (whole fraction : List Char) (exponent : Int) : Scaled :=
  let (value, dropped) := keep 0 whole
  let (value, dropped') := keep value fraction
  ⟨value, exponent + dropped - (fraction.length - dropped' : Nat)⟩

/-- Whether the product of the significand and the power of ten, both rounded, rounds to infinity.
A quotient never does. -/
def overflows (s : Scaled) : Bool :=
  match s.exponent with
  | .ofNat e =>
    if e > 308 then s.significand ≠ 0
    else infinityBound ≤ roundTo53 s.significand * roundTo53 (Nat.pow 10 e)
  | .negSucc _ => false

end Scaled

/-- The natural number that a text of at least one digit stands for, with an optional plus sign,
if it is below `bound`. -/
def toNatBelow? (bound : Nat) (text : String) : Option Nat :=
  let digits := match text.toList with
    | '+' :: rest => rest
    | chars => chars
  if digits ≠ [] ∧ digits.all isDigit ∧ ofDigits digits < bound then some (ofDigits digits)
  else none

end SignedDirectory.Decimal
