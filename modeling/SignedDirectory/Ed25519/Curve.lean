import SignedDirectory.Bytes

/-!
# The twisted Edwards curve of Ed25519

Points of `-x² + y² = 1 + d x² y²` over the integers modulo `2 ^ 255 - 19`, in extended
coordinates, with the addition law that is complete on this curve, and the 32-byte encoding of a
point: its `y`, with the parity of `x` in the top bit.
-/

namespace SignedDirectory.Ed25519

def modulus : Nat := Nat.pow 2 255 - 19

namespace Residue

def add (a b : Nat) : Nat := (a + b) % modulus

def sub (a b : Nat) : Nat := (a + (modulus - b % modulus)) % modulus

def mul (a b : Nat) : Nat := a * b % modulus

/-- Powers with exponents below `2 ^ 255`, by repeated squaring. -/
def pow (a exponent : Nat) : Nat :=
  (List.range 255).foldr
    (fun i r => if exponent.testBit i then mul (mul r r) a else mul r r) 1

/-- The inverse, and zero for zero. -/
def inv (a : Nat) : Nat := pow a (modulus - 2)

/-- A square root of minus one. -/
def sqrtMinusOne : Nat := pow 2 ((modulus - 1) / 4)

/-- The even square root of `u / v`, if that is a square. -/
def sqrtRatio? (u v : Nat) : Option Nat :=
  let v3 := mul (mul v v) v
  let r := mul (mul u v3) (pow (mul (mul u (mul v3 v3)) v) ((modulus - 5) / 8))
  let square := mul v (mul r r)
  let root :=
    if square = u % modulus then some r
    else if square = sub 0 u then some (mul r sqrtMinusOne)
    else none
  root.map fun r => if r % 2 = 1 then sub 0 r else r

end Residue

open Residue

/-- The constant `d = -121665 / 121666` of the curve equation. -/
def curveConstant : Nat := mul (sub 0 121665) (inv 121666)

def twiceCurveConstant : Nat := add curveConstant curveConstant

/-- A point `(x / z, y / z)` together with `t = x y / z`. -/
structure Point where
  (x y z t : Nat)

namespace Point

def identity : Point := ⟨0, 1, 1, 0⟩

def add (P Q : Point) : Point :=
  let a := mul (sub P.y P.x) (sub Q.y Q.x)
  let b := mul (Residue.add P.y P.x) (Residue.add Q.y Q.x)
  let c := mul (mul P.t twiceCurveConstant) Q.t
  let d := mul (2 * P.z) Q.z
  let e := sub b a
  let f := sub d c
  let g := Residue.add d c
  let h := Residue.add b a
  ⟨mul e f, mul g h, mul f g, mul e h⟩

def neg (P : Point) : Point := ⟨sub 0 P.x, P.y, P.z, sub 0 P.t⟩

def double (P : Point) : Point := P.add P

/-- The `n`-fold sum of a point, for `n` below `2 ^ 256`. -/
def smul (n : Nat) (P : Point) : Point :=
  (List.range 256).foldr
    (fun i Q => if n.testBit i then Q.double.add P else Q.double) identity

/-- Whether eight times the point is the identity. -/
def isSmallOrder (P : Point) : Bool :=
  let Q := P.double.double.double
  Q.x = 0 && Q.y = Q.z

def encode (P : Point) : Vector UInt8 32 :=
  let zInv := inv P.z
  let x := mul P.x zInv
  let y := mul P.y zInv
  Bytes.littleEndian 32 (y + x % 2 * Nat.pow 2 255)

/-- The point of an encoding. The bytes of `y` may stand for a number above the modulus, and the
top bit may ask for the negative of a zero `x`. -/
def decode? (bytes : Vector UInt8 32) : Option Point := do
  let n := Bytes.toNatLE bytes.toList
  let y := n % Nat.pow 2 255 % modulus
  let y2 := mul y y
  let x ← sqrtRatio? (sub y2 1) (Residue.add (mul curveConstant y2) 1)
  let x := if n.testBit 255 then sub 0 x else x
  return ⟨x, y, 1, mul x y⟩

/-- The point with `y = 4 / 5` and even `x`, which generates the subgroup of prime order. -/
def base : Point :=
  (decode? (Bytes.littleEndian 32 (mul 4 (inv 5)))).getD identity

end Point

end SignedDirectory.Ed25519
