/-! Binary floating point numbers of 64 bits, their exact values, and rounding to the nearest. -/
namespace CallTree

-- Powers are those of the core library, whatever else is imported.
attribute [local instance (2000)] instPowNat

/-- A number as its 64 bits: a sign, a biased exponent and a fraction. -/
structure Binary64 where
  bits : UInt64
  deriving DecidableEq, Inhabited

namespace Binary64

/-- The number of bits of a fraction. -/
def fractionBits : Nat := 52

/-- The place of the sign. -/
def signBit : Nat := 63

def isNegative (x : Binary64) : Bool := 2 ^ signBit ≤ x.bits.toNat

def biased (x : Binary64) : Nat := x.bits.toNat / 2 ^ fractionBits % 2048

def fraction (x : Binary64) : Nat := x.bits.toNat % 2 ^ fractionBits

def isNaN (x : Binary64) : Bool := x.biased == 2047 && x.fraction != 0

def isInfinite (x : Binary64) : Bool := x.biased == 2047 && x.fraction == 0

def isFinite (x : Binary64) : Bool := x.biased != 2047

/-- A finite number is `significand * 2 ^ exponent` up to its sign. -/
def significand (x : Binary64) : Nat :=
  if x.biased = 0 then x.fraction else x.fraction + 2 ^ fractionBits

def exponent (x : Binary64) : Int :=
  if x.biased = 0 then -1074 else x.biased - 1075

/-- The number whose bits below the sign are `n`. -/
def signed (negative : Bool) (n : Nat) : Binary64 :=
  ⟨UInt64.ofNat (if negative then n + 2 ^ signBit else n)⟩

def infinity (negative : Bool) : Binary64 := signed negative (2047 * 2 ^ fractionBits)

def nan : Binary64 := signed false (2047 * 2 ^ fractionBits + 2 ^ (fractionBits - 1))

def zero (negative : Bool) : Binary64 := signed negative 0

/-- The whole number nearest to `n / d`, the even one of two. -/
def roundHalfEven (n d : Nat) : Nat :=
  let q := n / d
  let r := n % d
  if 2 * r < d then q else if d < 2 * r then q + 1 else q + q % 2

/-- `n * 2 ^ q / d` as a quotient of two whole numbers. -/
def scaled (n d : Nat) (q : Int) : Nat × Nat :=
  if q < 0 then (n, d * 2 ^ q.natAbs) else (n * 2 ^ q.natAbs, d)

/-- The number nearest to `n / d`, the even one of two, and infinity beyond the largest. -/
def ofRatio (negative : Bool) (n d : Nat) : Binary64 :=
  if n = 0 then zero negative
  else
    let q₀ : Int := (n.log2 : Int) - d.log2 - 53
    let p := scaled n d (-q₀)
    let q := max (if p.1 / p.2 < 2 ^ (fractionBits + 1) then q₀ else q₀ + 1) (-1074)
    let p := scaled n d (-q)
    let bits := (q + 1074).toNat * 2 ^ fractionBits + roundHalfEven p.1 p.2
    if 2047 * 2 ^ fractionBits ≤ bits then infinity negative else signed negative bits

/-- How many digits a whole number has in base ten. -/
def digitCount (n : Nat) : Nat := (Nat.toDigits 10 n).length

/-- The number nearest to `m * 10 ^ e`. Far beyond the range the answer does not depend on `m`. -/
def ofDecimal (negative : Bool) (m : Nat) (e : Int) : Binary64 :=
  if m = 0 then zero negative
  else
    let size := (digitCount m : Int) + e
    if 400 < size then infinity negative
    else if size < -400 then zero negative
    else if e < 0 then ofRatio negative m (10 ^ e.natAbs)
    else ofRatio negative (m * 10 ^ e.natAbs) 1

/-- A finite number as a quotient of whole numbers, up to its sign. -/
def ratio (x : Binary64) : Nat × Nat := scaled x.significand 1 x.exponent

/-- The whole number that a number equals, if there is one. -/
def toInt? (x : Binary64) : Option Int :=
  if x.isFinite then
    let p := x.ratio
    if p.1 % p.2 = 0 then
      some (if x.isNegative then -(p.1 / p.2 : Nat) else (p.1 / p.2 : Nat))
    else none
  else none

def neg (x : Binary64) : Binary64 :=
  signed (!x.isNegative) (x.bits.toNat % 2 ^ signBit)

/-- The sum of two finite numbers, rounded. -/
def add (x y : Binary64) : Binary64 :=
  let a := x.ratio
  let b := y.ratio
  let s := fun (z : Binary64) (n : Nat) => if z.isNegative then -(n : Int) else n
  let n := s x (a.1 * b.2) + s y (b.1 * a.2)
  if n = 0 then zero (x.isNegative && y.isNegative)
  else ofRatio (n < 0) n.natAbs (a.2 * b.2)

/-- The product of two finite numbers, rounded. -/
def mul (x y : Binary64) : Binary64 :=
  let a := x.ratio
  let b := y.ratio
  ofRatio (x.isNegative != y.isNegative) (a.1 * b.1) (a.2 * b.2)

end Binary64
end CallTree
