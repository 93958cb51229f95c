import CallTree.Document.Yaml.Node
import CallTree.Moment
import CallTree.Number.Reading

/-! The types of plain scalars, which their spelling gives away. -/
namespace CallTree.Yaml.Tag

-- Powers are those of the core library, whatever else is imported.
attribute [local instance (2000)] instPowNat

/-- The names of the types of the language. -/
def bool : String := "bool"
def int : String := "int"
def float : String := "float"
def merge : String := "merge"
def null : String := "null"
def timestamp : String := "timestamp"
def value : String := "value"
def str : String := "str"

def boolWords : List String :=
  ["yes", "Yes", "YES", "no", "No", "NO", "true", "True", "TRUE", "false", "False", "FALSE",
   "on", "On", "ON", "off", "Off", "OFF"]

def nullWords : List String := ["~", "null", "Null", "NULL", ""]

def dropSign : List Char → List Char
  | '-' :: r | '+' :: r => r
  | s => s

def isDigitOrLine (c : Char) : Bool := c.isDigit || c == '_'

/-- A part of a number in base sixty: one digit, or two of which the first is less than six. -/
def isSixty : List Char → Bool
  | [a] => a.isDigit
  | [a, b] => '0' ≤ a && a ≤ '5' && b.isDigit
  | _ => false

/-- Text of parts with colons between them. -/
def colonParts (s : List Char) : List (List Char) := s.splitOnP (· == ':')

def isSixties (parts : List (List Char)) : Bool := !parts.isEmpty && parts.all isSixty

def isInt (s : List Char) : Bool :=
  match dropSign s with
  | '0' :: 'b' :: r => !r.isEmpty && r.all fun c => c == '0' || c == '1' || c == '_'
  | '0' :: 'x' :: r => !r.isEmpty && r.all fun c => (Number.digitValue? 16 c).isSome || c == '_'
  | '0' :: r => r.all fun c => ('0' ≤ c && c ≤ '7') || c == '_'
  | c :: r => match colonParts r with
    | first :: more => c.isDigit && first.all isDigitOrLine && (more.isEmpty || isSixties more)
    | [] => false
  | [] => false

/-- An exponent, which has a sign, or nothing. -/
def isExponent : List Char → Bool
  | [] => true
  | e :: sign :: d :: r =>
    (e == 'e' || e == 'E') && (sign == '-' || sign == '+') && (d :: r).all Char.isDigit
  | _ => false

/-- What follows the point: digits, and perhaps an exponent. -/
def isFraction (s : List Char) : Bool := isExponent (s.dropWhile isDigitOrLine)

def isFloat (s : List Char) : Bool :=
  let t := dropSign s
  let (whole, r) := t.span fun c => isDigitOrLine c || c == ':'
  match whole, r with
  | [], '.' :: p =>
    let word := String.ofList p
    [("inf"), "Inf", "INF"].contains word ||
      (["nan", "NaN", "NAN"].contains word && s == t) ||
      (s == t && (p.headD ' ').isDigit && isFraction p)
  | c :: w, '.' :: p =>
    c.isDigit && match colonParts w with
      | [first] => first.all isDigitOrLine && isFraction p
      | first :: more => first.all isDigitOrLine && isSixties more && p.all isDigitOrLine
      | [] => false
  | _, _ => false

/-! Moments -/

/-- Digits in front of text, between `least` and `most` of them. -/
def takeDigits? (least most : Nat) (s : List Char) : Option (Nat × List Char) :=
  let ds := (s.take most).takeWhile Char.isDigit
  if least ≤ ds.length then some (Number.ofDigits 10 ds, s.drop ds.length) else none

def drop? (c : Char) : List Char → Option (List Char)
  | x :: r => if x = c then some r else none
  | [] => none

def isTimeSpace (c : Char) : Bool := c == ' ' || c == '\t'

/-- The hours and minutes of an offset after its sign. -/
def readOffset? (negative : Bool) (s : List Char) : Option Int := do
  let (h, r) ← takeDigits? 1 2 s
  let m ← match r with
    | [] => some 0
    | r => do
      let (m, r) ← takeDigits? 2 2 (← drop? ':' r)
      if r.isEmpty then some m else none
  return Number.signed negative (h * 60 + m)

/-- The offset at the end of a moment. -/
def readZone? (s : List Char) : Option (Option Int) :=
  match s.dropWhile isTimeSpace with
  | [] => if s.isEmpty then some none else none
  | ['Z'] => some (some 0)
  | '-' :: r => (readOffset? true r).map some
  | '+' :: r => (readOffset? false r).map some
  | _ => none

/-- The digits of a fraction of a second as millionths. -/
def millionths (ds : List Char) : Nat :=
  let six := ds.take 6
  Number.ofDigits 10 six * 10 ^ (6 - six.length)

def readClock? (s : List Char) : Option (Clock × Option Int) := do
  let (h, r) ← takeDigits? 1 2 s
  let (m, r) ← takeDigits? 2 2 (← drop? ':' r)
  let (sec, r) ← takeDigits? 2 2 (← drop? ':' r)
  let (ds, r) := match r with
    | '.' :: r => r.span Char.isDigit
    | r => ([], r)
  return (⟨h, m, sec, millionths ds⟩, ← readZone? r)

/-- A date, or a date and a time of day. Whether the numbers are in their ranges is not asked. -/
def readMoment? (s : List Char) : Option Moment := do
  let (y, r) ← takeDigits? 4 4 s
  let (m, r) ← takeDigits? 1 2 (← drop? '-' r)
  let (d, r) ← takeDigits? 1 2 (← drop? '-' r)
  match r with
  | [] => return .date ⟨y, m, d⟩
  | c :: r =>
    let r ← if c = 'T' ∨ c = 't' then some r
      else if isTimeSpace c then some (r.dropWhile isTimeSpace) else none
    let (clock, offset) ← readClock? r
    return .dateTime ⟨y, m, d⟩ clock offset

/-- A date without a time has two digits for month and day. -/
def isTimestamp (s : List Char) : Bool :=
  match readMoment? s with
  | some (.date _) => s.length == 10
  | some _ => true
  | none => false

/-- The type of a scalar; only a plain one is more than text. -/
def typeOf (plain : Bool) (s : String) : String :=
  let cs := s.toList
  if !plain then str
  else if boolWords.contains s then bool
  else if isFloat cs then float
  else if isInt cs then int
  else if s == "<<" then merge
  else if nullWords.contains s then null
  else if isTimestamp cs then timestamp
  else if s == "=" then value
  else str

def resolve : Node.Resolver := fun plain s => Node.standard ++ typeOf plain s

end CallTree.Yaml.Tag
