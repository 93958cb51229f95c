import CallTree.Text.Quoted

/-! Dates and times of the proleptic Gregorian calendar, and their text. -/
namespace CallTree

structure Date where
  year : Nat
  month : Nat
  day : Nat
  deriving DecidableEq, Inhabited

structure Clock where
  hour : Nat
  minute : Nat
  second : Nat
  microsecond : Nat
  deriving DecidableEq, Inhabited

/-- A date, a time of day, or both together with the minutes by which the place is ahead of UTC. -/
inductive Moment
  | date (d : Date)
  | clock (c : Clock)
  | dateTime (d : Date) (c : Clock) (offset : Option Int)
  deriving DecidableEq, Inhabited

def Date.isLeap (year : Nat) : Bool :=
  year % 4 == 0 && (year % 100 != 0 || year % 400 == 0)

def Date.daysIn (year month : Nat) : Nat :=
  if month = 2 then (if isLeap year then 29 else 28)
  else if [4, 6, 9, 11].contains month then 30
  else 31

def Date.isValid (d : Date) : Bool :=
  1 ≤ d.year && d.year ≤ 9999 && 1 ≤ d.month && d.month ≤ 12 &&
    1 ≤ d.day && d.day ≤ daysIn d.year d.month

def Clock.isValid (c : Clock) : Bool :=
  c.hour < 24 && c.minute < 60 && c.second < 60 && c.microsecond < 1000000

/-- A number in base ten, with zeros in front up to `width` digits. -/
def padded (width n : Nat) : List Char :=
  let ds := Nat.toDigits 10 n
  List.replicate (width - ds.length) '0' ++ ds

def Date.text (d : Date) : List Char :=
  padded 4 d.year ++ '-' :: padded 2 d.month ++ '-' :: padded 2 d.day

def Clock.text (c : Clock) : List Char :=
  padded 2 c.hour ++ ':' :: padded 2 c.minute ++ ':' :: padded 2 c.second ++
    (if c.microsecond = 0 then [] else '.' :: padded 6 c.microsecond)

def offsetText (minutes : Int) : List Char :=
  (if minutes < 0 then '-' else '+') ::
    (padded 2 (minutes.natAbs / 60) ++ ':' :: padded 2 (minutes.natAbs % 60))

def Moment.text : Moment → List Char
  | .date d => d.text
  | .clock c => c.text
  | .dateTime d c offset =>
    d.text ++ ' ' :: c.text ++ (match offset with | some m => offsetText m | none => [])

end CallTree
