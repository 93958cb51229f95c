import CallTree.Fault
import CallTree.Text.Blank
import CallTree.Text.Split
import CallTree.Text.Word

/-! The lines of a TOML document: without comments, with each array on one line, and with keys made
of the characters that keys may have. -/
namespace CallTree.Toml

/-- What is read at the beginning of a line. -/
inductive KeyState
  | none
  | name
  /-- Behind a name, where a point or the equals sign comes next. -/
  | after
  deriving DecidableEq

/-- The kind of a table header. -/
inductive Header
  | none
  | table
  | tableArray
  deriving DecidableEq

/-- What is known in front of a character. -/
structure Reading where
  /-- The text so far, in reverse. -/
  done : List Char
  key : KeyState
  dotted : Bool
  /-- The quote of a string that is open. -/
  quote : Option Char
  /-- Whether a string goes on over lines. -/
  manyLines : Bool
  header : Header
  /-- How many arrays are open. -/
  arrays : Int
  comment : Bool
  /-- Whether nothing but blank was read on the line. -/
  lineStart : Bool

namespace Reading

def start : Reading := ⟨[], .none, false, none, false, .none, 0, false, true⟩

def push (c : Char) (r : Reading) : Reading := { r with done := c :: r.done }

def isMark (c : Char) : Bool := c == '\'' || c == '"' || c == '\\'

/-- The characters before this one, the nearest first, as far as they can matter: quotes,
backslashes, and one more. The end of the document is taken to stand before its beginning. -/
def behind (whole : List Char) (r : Reading) : List Char :=
  match r.done.span isMark with
  | (marks, []) => marks ++ whole.reverse
  | (marks, c :: _) => marks ++ [c]

/-- Letters and digits of every script. -/
def isLetterOrDigit (c : Char) : Bool := Text.isWord c && c != '_'

/-- The state of a key behind blank or a point, from the next character. -/
def resume (rest : List Char) (r : Reading) : Except Fault Reading :=
  match rest with
  | [] => .error .badIndex
  | d :: _ => .ok (if Text.isBlank d || d == '.' then r else { r with key := .name })

/-- A character of a key; `none` where the key is over. -/
def inKey (c : Char) (rest : List Char) (r : Reading) :
    Except Fault (Option Reading) := do
  if c = '\n' then .error .malformedToml
  else if let some q := r.quote then
    if c = q ∧ !Text.escapedAfter r.done then
      return some { r with key := .after, quote := none }
    else return some r
  else
    let goesOn ← match r.key with
      | .name =>
        if Text.isBlank c then pure (some { r with key := .after })
        else if c = '.' then pure (some { r with dotted := true })
        else if isLetterOrDigit c || c == '_' || c == '-' then pure (some r)
        else if r.dotted ∧ r.done.head? = some '.' ∧ (c = '"' ∨ c = '\'') then
          pure (some { r with quote := some c })
        else pure none
      | _ =>
        if Text.isBlank c then some <$> (if r.dotted then r.resume rest else pure r)
        else if c = '.' then some <$> { r with dotted := true }.resume rest
        else pure none
    match goesOn with
    | some r => return some r
    | none => if c = '=' then return none else .error .malformedToml

/-- Three quotes in a row turn a string over many lines on or off, and one a string on one line. -/
def turn (q : Char) (triple : Bool) (r : Reading) : Reading :=
  if triple then
    let open? := !r.manyLines
    { r with manyLines := open?, quote := if open? then some q else none }
  else { r with quote := if r.quote.isNone then some q else none }

/-- Whether the quotes before this one make it the third in a row. -/
def isThird (q : Char) (behind : List Char) : Bool := [q, q].isPrefixOf behind

def atQuote (whole : List Char) (c : Char) (r : Reading) : Reading :=
  let behind := r.behind whole
  if c = '\'' ∧ r.quote ≠ some '"' then r.turn c (isThird c behind)
  else if c = '"' ∧ r.quote ≠ some '\'' then
    let escaped :=
      if isThird c behind then Text.escapedAfter (behind.drop 2)
      else if behind.head? = some c then false
      else Text.escapedAfter behind
    if escaped then r else r.turn c (isThird c behind)
  else r

/-- A bracket outside of strings. -/
def atBracket (c : Char) (rest : List Char) (r : Reading) : Reading :=
  if r.quote.isSome then r
  else if c = '[' ∧ r.header = .none then
    if r.lineStart then
      { r with header := if rest.head? = some '[' then .tableArray else .table }
    else { r with arrays := r.arrays + 1 }
  else if c = ']' then
    match r.header with
    | .table => { r with header := .none }
    | .tableArray => if r.done.head? = some ']' then { r with header := .none } else r
    | .none => { r with arrays := r.arrays - 1 }
  else r

/-- The end of a line. A line that ends with the quotes that open a string goes on; in an array it
is a blank. -/
def atLineEnd (r : Reading) : Except Fault Reading :=
  if r.quote.isSome ∨ r.manyLines then
    if !r.manyLines then .error .malformedToml
    else match r.done with
      | a :: b :: c :: d =>
        if (a = '\'' ∨ a = '"') ∧ b = a then
          .ok ({ r with done := a :: b :: (if c = a then ' ' else c) :: d }.push a)
        else .ok (r.push '\n')
      | _ => .ok (r.push '\n')
  else if r.arrays ≠ 0 then .ok (r.push ' ')
  else .ok { r.push '\n' with lineStart := true }

/-- A character that is neither in a key nor the end of a line. -/
def atOther (c : Char) (r : Reading) : Except Fault Reading :=
  let s := r.push c
  if r.lineStart ∧ c ≠ ' ' ∧ c ≠ '\t' then
    if r.header ≠ .none then .ok { s with lineStart := false }
    else if c = '=' then .error .malformedToml
    else .ok { s with lineStart := false, key := .name }
  else .ok s

def step (whole : List Char) (c : Char) (rest : List Char) (r : Reading) :
    Except Fault Reading := do
  if r.comment ∧ c ≠ '\n' then return r.push ' '
  if c = '\r' ∧ rest = [] then .error .badIndex
  if c = '\r' ∧ rest.head? = some '\n' then return r.push ' '
  let r := { r with comment := false }
  let next ← if r.key = .none then pure none else r.inKey c rest
  match next with
  | some r => return r.push c
  | none =>
    let r := if r.key = .none then r else { r with key := .none, dotted := false }
    let r := r.atQuote whole c
    if c = '#' ∧ r.quote.isNone ∧ r.header = .none then
      return { r.push ' ' with comment := true }
    else
      let r := r.atBracket c rest
      if c = '\n' then r.atLineEnd else r.atOther c

def run (whole : List Char) : List Char → Reading → Except Fault Reading
  | [], r => .ok r
  | c :: rest, r => (r.step whole c rest).bind (run whole rest)

end Reading

/-- The lines of a document. -/
def lines (s : List Char) : Except Fault (List (List Char)) := do
  let r ← Reading.start.run s s
  if r.key ≠ .none ∨ r.quote.isSome then .error .malformedToml
  else return Text.split ['\n'] r.done.reverse

end CallTree.Toml
