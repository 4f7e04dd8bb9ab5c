import LedgerNode.Bytes

namespace LedgerNode

/-!
# The curve P-256

Points are pairs of numbers below a prime that satisfy the equation
`y ^ 2 = x ^ 3 - 3 x + b`, and a point at infinity.  A private key is a number
below the order of the base point; its public key is that multiple of the base
point.
-/

namespace Curve

/-- The prime of the field. -/
def fieldPrime : Nat :=
  0xffffffff00000001000000000000000000000000ffffffffffffffffffffffff

/-- The order of the base point. -/
def order : Nat :=
  0xffffffff00000000ffffffffffffffffbce6faada7179e84f3b9cac2fc632551

def power (base exponent : Nat) : Nat :=
  if exponent = 0 then 1
  else
    let half := power (base * base % fieldPrime) (exponent / 2)
    if exponent % 2 = 1 then base * half % fieldPrime else half
termination_by exponent
decreasing_by exact Nat.div_lt_self (by omega) (by omega)

def inverse (element : Nat) : Nat := power element (fieldPrime - 2)

/-- A difference in the field. -/
def subtract (first second : Nat) : Nat := (first + fieldPrime - second) % fieldPrime

/-- A point of the curve. -/
inductive Point where
  | infinity
  | affine (x y : Nat)
deriving DecidableEq

/-- The base point. -/
def base : Point :=
  .affine 0x6b17d1f2e12c4247f8bce6e563a440f277037d812deb33a0f4a13945d898c296
    0x4fe342e2fe1a7f9b8ee7eb4a7c0f9e162bce33576b315ececbb6406837bf51f5

namespace Point

/-- The sum of a point and another one with a given first coordinate, by the
slope of the line through both: the third point of the line, with the sign of
its second coordinate changed. -/
def alongLine (slope x y otherX : Nat) : Point :=
  let newX := subtract (subtract (slope * slope % fieldPrime) x) otherX
  .affine newX (subtract (slope * subtract x newX % fieldPrime) y)

/-- A point added to itself. -/
def double : Point → Point
  | infinity => infinity
  | affine x y =>
    if y = 0 then infinity
    else
      let slope := subtract (3 * x * x % fieldPrime) 3 * inverse (2 * y % fieldPrime) %
        fieldPrime
      alongLine slope x y x

/-- The sum of two points. -/
def add : Point → Point → Point
  | infinity, other => other
  | point, infinity => point
  | affine x y, affine otherX otherY =>
    if x = otherX then
      if y = otherY then double (affine x y) else infinity
    else
      let slope := subtract otherY y * inverse (subtract otherX x) % fieldPrime
      alongLine slope x y otherX

def multiply (count : Nat) (point : Point) : Point :=
  if count = 0 then infinity
  else
    let half := multiply (count / 2) (double point)
    if count % 2 = 1 then add point half else half
termination_by count
decreasing_by exact Nat.div_lt_self (by omega) (by omega)

/-- The uncompressed form of a point: a leading byte and both coordinates. -/
def bytes : Point → Bytes
  | infinity => [0]
  | affine x y => 4 :: Bytes.bigEndian 32 x ++ Bytes.bigEndian 32 y

end Point

def publicKey (secret : Nat) : Bytes := (base.multiply secret).bytes

end Curve

end LedgerNode
