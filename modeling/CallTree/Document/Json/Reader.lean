import CallTree.Number.Reading
import CallTree.Plain
import CallTree.Text.Surrogate

/-! Plain data read from JSON text. -/
namespace CallTree.Json

def isSpace (c : Char) : Bool := c == ' ' || c == '\t' || c == '\n' || c == '\r'

def skipSpace (s : List Char) : List Char := s.dropWhile isSpace

/-- The number that four digits in base sixteen write. -/
def readHex4? : List Char → Option (Nat × List Char)
  | a :: b :: c :: d :: r =>
    if [a, b, c, d].all fun x => (Number.digitValue? 16 x).isSome then
      some (Number.ofDigits 16 [a, b, c, d], r)
    else none
  | _ => none

/-- The character of a `\u` escape, which may take a second escape to be complete. -/
def readUnicode? (s : List Char) : Option (Char × List Char) := do
  let (n, r) ← readHex4? s
  if Text.isHighSurrogate n then
    match r with
    | '\\' :: 'u' :: r' => match readHex4? r' with
      | some (m, r'') =>
        if Text.isLowSurrogate m then return (Text.joinSurrogates n m, r'')
        else return (Text.replacement, r)
      | none => return (Text.replacement, r)
    | _ => return (Text.replacement, r)
  else return (Text.ofUnit n, r)

def readEscape? : List Char → Option (Char × List Char)
  | '"' :: r => some ('"', r)
  | '\\' :: r => some ('\\', r)
  | '/' :: r => some ('/', r)
  | 'b' :: r => some (Char.ofNat 8, r)
  | 'f' :: r => some (Char.ofNat 12, r)
  | 'n' :: r => some ('\n', r)
  | 'r' :: r => some ('\r', r)
  | 't' :: r => some ('\t', r)
  | 'u' :: r => readUnicode? r
  | _ => none

/-- The rest of a string after its opening quote, and what follows it. -/
def readString? : Nat → List Char → Option (List Char × List Char)
  | 0, _ => none
  | _ + 1, [] => none
  | n + 1, c :: r =>
    if c = '"' then some ([], r)
    else if c = '\\' then do
      let (d, r) ← readEscape? r
      let (s, r) ← readString? n r
      return (d :: s, r)
    else if c.toNat < 32 then none
    else do
      let (s, r) ← readString? n r
      return (c :: s, r)

/-- The digits in front of text. -/
def digits (s : List Char) : List Char × List Char := s.span Char.isDigit

/-- The point and the digits after it, where there is one of them at least. -/
def readFraction : List Char → List Char × List Char
  | '.' :: r => match digits r with
    | ([], _) => ([], '.' :: r)
    | (ds, rest) => (ds, rest)
  | s => ([], s)

/-- The exponent, where it has a digit at least. -/
def readExponent : List Char → Option Int × List Char
  | c :: r =>
    if c = 'e' ∨ c = 'E' then
      let (negative, r') := Number.splitSign r
      match digits r' with
      | ([], _) => (none, c :: r)
      | (ds, rest) => (some (Number.signed negative (Number.ofDigits 10 ds)), rest)
    else (none, c :: r)
  | [] => (none, [])

/-- The digits before the point: a single zero, or no zero in front. -/
def readWhole? : List Char → Option (List Char × List Char)
  | '0' :: r => some (['0'], r)
  | s => match digits s with
    | ([], _) => none
    | (ds, rest) => some (ds, rest)

def readNumber? (s : List Char) : Option (Plain × List Char) := do
  let (negative, r) := match s with
    | '-' :: r => (true, r)
    | r => (false, r)
  let (whole, r) ← readWhole? r
  let (part, r) := readFraction r
  let (e, r) := readExponent r
  if part = [] ∧ e = none then
    return (.int (Number.signed negative (Number.ofDigits 10 whole)), r)
  else
    return (.float (Binary64.ofDecimal negative (Number.ofDigits 10 (whole ++ part))
      (e.getD 0 - part.length)), r)

/-- Text that begins with a word, without the word. -/
def dropWord? (word : String) (s : List Char) : Option (List Char) :=
  if word.toList.isPrefixOf s then some (s.drop word.toList.length) else none

/-- A value that is written as a word, or a number. -/
def readWord? (s : List Char) : Option (Plain × List Char) :=
  let words : List (String × Plain) :=
    [("null", .null), ("true", .bool true), ("false", .bool false), ("NaN", .float .nan),
     ("Infinity", .float (.infinity false)), ("-Infinity", .float (.infinity true))]
  match words.findSome? fun w => (dropWord? w.1 s).map fun r => (w.2, r) with
  | some p => some p
  | none => readNumber? s

mutual
/-- The value in front of text. The first argument bounds the depth and length of what is read. -/
def readValue? : Nat → List Char → Option (Plain × List Char)
  | 0, _ => none
  | n + 1, s => match s with
    | '"' :: r => (readString? (r.length + 1) r).map fun p => (.str (String.ofList p.1), p.2)
    | '[' :: r => match skipSpace r with
      | ']' :: r => some (.list [], r)
      | r => (readItems? n r).map fun p => (.list p.1, p.2)
    | '\x7b' :: r => match skipSpace r with
      | '\x7d' :: r => some (.map [], r)
      | r => (readEntries? n r).map fun p => (.map (Plain.ofEntries p.1), p.2)
    | s => readWord? s

/-- Items up to the closing bracket. -/
def readItems? : Nat → List Char → Option (List Plain × List Char)
  | 0, _ => none
  | n + 1, s => do
    let (x, r) ← readValue? n s
    match skipSpace r with
    | ',' :: r => do
      let (xs, r) ← readItems? n (skipSpace r)
      return (x :: xs, r)
    | ']' :: r => return ([x], r)
    | _ => none

/-- Entries up to the closing brace. -/
def readEntries? : Nat → List Char → Option (List (String × Plain) × List Char)
  | 0, _ => none
  | n + 1, s => match s with
    | '"' :: r => do
      let (k, r) ← readString? (r.length + 1) r
      match skipSpace r with
      | ':' :: r => do
        let (v, r) ← readValue? n (skipSpace r)
        let e := (String.ofList k, v)
        match skipSpace r with
        | ',' :: r => do
          let (es, r) ← readEntries? n (skipSpace r)
          return (e :: es, r)
        | '\x7d' :: r => return ([e], r)
        | _ => none
      | _ => none
    | _ => none
end

/-- The value that a text is as a whole, with blank around it. -/
def read? (s : List Char) : Option Plain :=
  match readValue? (s.length + 1) (skipSpace s) with
  | some (v, r) => if skipSpace r = [] then some v else none
  | none => none

end CallTree.Json
