import CallTree.Document.Xml.Name
import CallTree.Fault
import CallTree.Number.Reading

/-! References in XML documents, and the values of attributes. -/
namespace CallTree.Xml

abbrev Read := Except Fault

def malformed {α : Type} : Read α := .error .malformedXml

/-- The names that stand for characters of the markup. -/
def markupNames : List (String × Char) :=
  [("lt", '<'), ("gt", '>'), ("amp", '&'), ("quot", '"'), ("apos", '\'')]

/-- The character that digits write. -/
def readCodePoint (base : Nat) (digits : List Char) : Read Char :=
  let n := Number.ofDigits base digits
  if digits = [] ∨ !digits.all fun c => (Number.digitValue? base c).isSome then malformed
  else if 0x110000 ≤ n ∨ (0xD800 ≤ n ∧ n < 0xE000) ∨ !isAllowed (Char.ofNat n) then malformed
  else .ok (Char.ofNat n)

/-- What stands for a reference, from the text behind its mark. With `lenient`, a name that is not
known stands for nothing. -/
def readReference (lenient : Bool) (s : List Char) : Read (List Char × List Char) := do
  match s with
  | '#' :: r =>
    let (base, r) := match r with
      | 'x' :: r => (16, r)
      | r => (10, r)
    match r.span (· != ';') with
    | (digits, _ :: rest) => return ([← readCodePoint base digits], rest)
    | _ => malformed
  | s => match readName? s with
    | some (name, ';' :: rest) => match markupNames.lookup (String.ofList name) with
      | some c => return ([c], rest)
      | none => if lenient then return ([], rest) else malformed
    | _ => malformed

/-- The value of an attribute, from the text between its quotes. The first argument bounds the
length. -/
def readValue (lenient : Bool) : Nat → List Char → Read (List Char)
  | 0, _ => .ok []
  | _, [] => .ok []
  | n + 1, '\r' :: '\n' :: r => (readValue lenient n r).map (' ' :: ·)
  | n + 1, c :: r =>
    if c = '&' then do
      let (t, r) ← readReference lenient r
      return t ++ (← readValue lenient n r)
    else if c = '<' ∨ !isAllowed c then malformed
    else (readValue lenient n r).map ((if isSpace c then ' ' else c) :: ·)

/-- Text with one space for each run of spaces between other characters; `gap` tells that a space is
left out so far. -/
def collapseAfter (gap : Bool) : List Char → List Char
  | [] => []
  | c :: r =>
    if c = ' ' then collapseAfter true r
    else if gap then ' ' :: c :: collapseAfter false r
    else c :: collapseAfter false r

/-- Text without spaces at its ends, and with one space for each run of them. -/
def collapse (s : List Char) : List Char := collapseAfter false (s.dropWhile (· == ' '))

end CallTree.Xml
