import CallTree.Moment
import CallTree.Number.Reading
import CallTree.Text.Case
import CallTree.Text.Split

/-! Dates and times of TOML documents. -/
namespace CallTree.Toml

-- Powers are those of the core library, whatever else is imported.
attribute [local instance (2000)] instPowNat

/-- The text from one place up to another. -/
def slice (start stop : Nat) (s : List Char) : List Char := (s.take stop).drop start

/-- The time of day in front of text. The digits of a fraction count microseconds. -/
def readClock? (s : List Char) : Option Clock :=
  let digit := fun i => (s[i]?).any Char.isDigit
  if [0, 1, 3, 4, 6, 7].all digit ∧ s[2]? = some ':' ∧ s[5]? = some ':' then
    let number := fun i => Number.ofDigits 10 (slice i (i + 2) s)
    let fraction := match s.drop 8 with
      | '.' :: r =>
        let ds := (r.takeWhile Char.isDigit).take 6
        if 3 ≤ ds.length then Number.ofDigits 10 ds else 0
      | _ => 0
    some ⟨number 0, number 3, number 6, fraction⟩
  else none

/-- The minutes by which a place is ahead of UTC. -/
def readOffset? (s : List Char) : Option Int := do
  let s := if s = ['Z'] then "+00:00".toList else s
  let hours ← Number.readDecimalInt? (slice 1 3 s)
  let minutes ← Number.readDecimalInt? (slice 4 6 s)
  let n := hours * 60 + minutes
  return if s.head? = some '-' then -n else n

/-- The fraction of a second, in microseconds. -/
def readFraction? (s : List Char) : Option Int := do
  let n ← Number.readDecimalInt? s
  if s.length ≤ 6 then return n * 10 ^ (6 - s.length)
  else
    let x := (Binary64.ofDecimal false n.natAbs 0).mul (Binary64.ofDecimal false 1 (6 - s.length))
    let (p, q) := x.ratio
    return if n < 0 then -(p / q : Nat) else (p / q : Nat)

/-- The fraction and the offset behind the seconds. Where one of them is not readable, the offset is
lost. -/
def readTail (s : List Char) : Int × Option Int :=
  match s with
  | [] => (0, none)
  | '.' :: r =>
    let zone := fun (z : List Char) (fraction : List Char) =>
      match readOffset? z with
      | none => (0, none)
      | some o => match readFraction? fraction with
        | some n => (n, some o)
        | none => (0, none)
    if s.getLast?.map Text.upperChar = some ['Z'] then zone ['Z'] r.dropLast
    else if r.contains '+' then zone (r.dropWhile (· != '+')) (r.takeWhile (· != '+'))
    else if r.contains '-' then zone (r.dropWhile (· != '-')) (r.takeWhile (· != '-'))
    else ((readFraction? r).getD 0, none)
  | s => (0, readOffset? s)

def natOf? (s : List Char) : Option Nat :=
  (Number.readDecimalInt? s).bind fun n => if 0 ≤ n then some n.toNat else none

def readDate? (s : List Char) : Option Moment := do
  let (microsecond, offset) := if 19 < s.length then readTail (s.drop 19) else (0, none)
  if !(s.drop 1).contains '-' then none
  let year ← natOf? (s.take 4)
  let month ← natOf? (slice 5 7 s)
  let day ← natOf? (slice 8 10 s)
  let d : Date := ⟨year, month, day⟩
  if s.length = 10 then
    if d.isValid then return .date d else none
  else
    let hour ← natOf? (slice 11 13 s)
    let minute ← natOf? (slice 14 16 s)
    let second ← natOf? (slice 17 19 s)
    let c : Clock := ⟨hour, minute, second, microsecond.toNat⟩
    if d.isValid ∧ c.isValid ∧ 0 ≤ microsecond then return .dateTime d c offset else none

end CallTree.Toml
