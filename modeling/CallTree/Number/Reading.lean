import CallTree.Number.Binary64
import CallTree.Text.Blank
import CallTree.Text.Digit

/-! Numbers read from text. -/
namespace CallTree.Number

def digitValue? (base : Nat) (c : Char) : Option Nat :=
  let v? :=
    if '0' ≤ c ∧ c ≤ '9' then some (c.toNat - 48)
    else if 'a' ≤ c ∧ c ≤ 'z' then some (c.toNat - 87)
    else if 'A' ≤ c ∧ c ≤ 'Z' then some (c.toNat - 55)
    else none
  v?.filter (· < base)

/-- The number that digits write. -/
def ofDigits (base : Nat) (cs : List Char) : Nat :=
  cs.foldl (fun n c => n * base + (digitValue? base c).getD 0) 0

/-- The digits in front of text, where single underscores may stand between two digits. -/
def digitRun (base : Nat) : List Char → List Char × List Char
  | [] => ([], [])
  | [c] => if (digitValue? base c).isSome then ([c], []) else ([], [c])
  | c :: d :: r =>
    if (digitValue? base c).isSome then
      if d = '_' then
        match digitRun base r with
        | ([], _) => ([c], d :: r)
        | (ds, rest) => (c :: ds, rest)
      else
        let (ds, rest) := digitRun base (d :: r)
        (c :: ds, rest)
    else ([], c :: d :: r)

/-- The sign in front of text: whether it is a minus, and the rest. -/
def splitSign : List Char → Bool × List Char
  | '-' :: r => (true, r)
  | '+' :: r => (false, r)
  | r => (false, r)

/-- A character of a number as one of ASCII: digits of every script count, and blank is a space. The
separators of records are no blank here. -/
def plainChar (c : Char) : Char :=
  if c.toNat < 128 then (if 0x1C ≤ c.toNat ∧ c.toNat ≤ 0x1F then '?' else c)
  else if Text.isBlank c then ' '
  else match Text.decimalValue? c with
    | some n => Char.ofNat (48 + n)
    | none => '?'

/-- The text of a number in ASCII, without the blank at its ends. -/
def plainText (s : List Char) : List Char := Text.trim (s.map plainChar)

/-- The exponent at the end of a number. -/
def readExponent? : List Char → Option Int
  | [] => some 0
  | c :: r =>
    if c = 'e' ∨ c = 'E' then
      let (negative, r) := splitSign r
      match digitRun 10 r with
      | ([], _) => none
      | (ds, []) => some (if negative then -(ofDigits 10 ds : Nat) else (ofDigits 10 ds : Nat))
      | _ => none
    else none

/-- A number in decimal notation: the digits before and after the point, and an exponent. -/
def readUnsigned? (negative : Bool) (s : List Char) : Option Binary64 := do
  let (whole, r) := digitRun 10 s
  let (part, r) := match r with
    | '.' :: r => digitRun 10 r
    | _ => ([], r)
  if whole = [] ∧ part = [] then none
  let e ← readExponent? r
  return Binary64.ofDecimal negative (ofDigits 10 (whole ++ part)) (e - part.length)

/-- A number, an infinity or no number, with blank around it. -/
def readFloat? (s : List Char) : Option Binary64 :=
  let (negative, r) := splitSign (plainText s)
  let word := r.map Char.toLower
  if word = "inf".toList ∨ word = "infinity".toList then some (.infinity negative)
  else if word = "nan".toList then some .nan
  else readUnsigned? negative r

/-- Digits that fill the text. -/
def readDigits? (base : Nat) (s : List Char) : Option Nat :=
  match digitRun base s with
  | ([], _) => none
  | (ds, []) => some (ofDigits base ds)
  | _ => none

def baseOf? (c : Char) : Option Nat :=
  match c.toLower with
  | 'x' => some 16
  | 'o' => some 8
  | 'b' => some 2
  | _ => none

/-- A whole number whose text says its base. In base ten only zero has a zero in front. -/
def readPlainInt? : List Char → Option Nat
  | ['0'] => some 0
  | '0' :: c :: r =>
    match baseOf? c with
    | some b => readDigits? b (match r with | '_' :: r => r | r => r)
    | none => (readDigits? 10 ('0' :: c :: r)).filter (· = 0)
  | s => readDigits? 10 s

def signed (negative : Bool) (n : Nat) : Int := if negative then -(n : Int) else n

def readInt? (s : List Char) : Option Int :=
  let (negative, r) := splitSign (plainText s)
  (readPlainInt? r).map (signed negative)

/-- A whole number in base ten, with blank around it. -/
def readDecimalInt? (s : List Char) : Option Int :=
  let (negative, r) := splitSign (plainText s)
  (readDigits? 10 r).map (signed negative)

end CallTree.Number
