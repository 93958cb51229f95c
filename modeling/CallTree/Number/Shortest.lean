import CallTree.Number.Binary64

/-! The shortest decimal that reads back as a given number, and its layouts. -/
namespace CallTree

-- Powers are those of the core library, whatever else is imported.
attribute [local instance (2000)] instPowNat

/-- The digits `digits * 10 ^ exponent` of a number that is not negative. -/
structure Decimal where
  digits : Nat
  exponent : Int
  deriving DecidableEq

namespace Binary64

/-- The quotients between which a decimal has to lie to be read as `x`, each `n / (4 * d)`, where
`n` is the first, second and third number for the lower end, `x` itself and the upper end. -/
def interval (x : Binary64) : Nat × Nat × Nat × Nat :=
  let m := x.significand
  let below := if m = 2 ^ fractionBits ∧ 1 < x.biased then 1 else 2
  let s := fun n => scaled n 4 x.exponent
  ((s (4 * m - below)).1, (s (4 * m)).1, (s (4 * m + 2)).1, (s 0).2)

/-- The decimal exponent of the first digit of `n / d`. -/
def leadingExponent (n d : Nat) : Int := (digitCount (n * 10 ^ (400 : Nat) / d) : Int) - 401

/-- The nearest decimal with its last digit at `10 ^ p` that reads back, if one does. Of two equally
near ones it is that with an even last digit. -/
def onGrid? (x : Binary64) (p : Int) : Option Decimal :=
  let (lo, v, hi, d) := x.interval
  let unit := if p < 0 then 1 else 10 ^ p.natAbs
  let scale := if p < 0 then 10 ^ p.natAbs else 1
  -- a grid point `c` is `c * unit / scale`, compared with `lo / d`, `v / d` and `hi / d`
  let inside := fun c =>
    let a := c * unit * d
    if x.significand % 2 = 0 then lo * scale ≤ a && a ≤ hi * scale
    else lo * scale < a && a < hi * scale
  let below := v * scale / (unit * d)
  let above := below + 1
  let distBelow := v * scale - below * unit * d
  let distAbove := above * unit * d - v * scale
  match inside below, inside above with
  | true, true =>
    let low := distBelow < distAbove || (distBelow == distAbove && below % 2 == 0)
    some ⟨if low then below else above, p⟩
  | true, false => some ⟨below, p⟩
  | false, true => some ⟨above, p⟩
  | false, false => none

/-- The shortest decimal that reads back as `x`, looked for with 1, 2, … digits. -/
def shortest (x : Binary64) : Decimal :=
  let (_, v, _, d) := x.interval
  let e := leadingExponent v d
  ((List.range 17).findSome? fun (k : Nat) => x.onGrid? (e - k)).getD ⟨0, 0⟩

end Binary64

/-- How a format lays out a number. -/
structure NumberLayout where
  infinity : String
  nan : String
  /-- Whether the digits before an exponent always have a point. -/
  pointBeforeExponent : Bool
  exponentDigits : Nat

namespace NumberLayout

/-- Drops the zeros at the end of the digits. -/
def normalDigits (d : Decimal) : List Char × Int :=
  let cs := Nat.toDigits 10 d.digits
  let kept := (cs.reverse.dropWhile (· == '0')).reverse
  (if kept.isEmpty then ['0'] else kept, d.exponent + (cs.length - kept.length : Nat))

/-- Positional from `10 ^ -4` up to `10 ^ 16`, with an exponent outside. -/
def layout (l : NumberLayout) (d : Decimal) : List Char :=
  let (cs, e) := normalDigits d
  let point : Int := cs.length + e
  if d.digits = 0 then ['0', '.', '0']
  else if -4 < point ∧ point ≤ 16 then
    if point ≤ 0 then '0' :: '.' :: List.replicate point.natAbs '0' ++ cs
    else if e < 0 then cs.take point.natAbs ++ '.' :: cs.drop point.natAbs
    else cs ++ List.replicate e.natAbs '0' ++ ['.', '0']
  else
    let x := point - 1
    let tail := match cs.drop 1 with
      | [] => if l.pointBeforeExponent then ['.', '0'] else []
      | r => '.' :: r
    let ds := Nat.toDigits 10 x.natAbs
    cs.take 1 ++ tail ++ 'e' :: (if x < 0 then '-' else '+') ::
      (List.replicate (l.exponentDigits - ds.length) '0' ++ ds)

def render (l : NumberLayout) (x : Binary64) : String :=
  if x.isNaN then l.nan
  else
    let body := if x.isInfinite then l.infinity.toList else l.layout x.shortest
    String.ofList (if x.isNegative then '-' :: body else body)

/-- Two digits at least in the exponent, and no needless point. -/
def plain : NumberLayout := ⟨"inf", "nan", false, 2⟩

end NumberLayout
end CallTree
