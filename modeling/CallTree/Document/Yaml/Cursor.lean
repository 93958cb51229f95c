import CallTree.Fault

/-! A place in a YAML text, and the classes of characters that matter to its reader. -/
namespace CallTree.Yaml

/-- What stands after the last character of a text. No text has it inside. -/
def endMark : Char := Char.ofNat 0

def isBreak (c : Char) : Bool :=
  c == '\n' || c == '\r' || c.toNat == 0x85 || c.toNat == 0x2028 || c.toNat == 0x2029

def isBreakOrEnd (c : Char) : Bool := c == endMark || isBreak c

/-- Whether a character ends a token that a blank has to follow. -/
def isGap (c : Char) : Bool := c == ' ' || c == '\t' || isBreakOrEnd c

/-- Whether a character ends a token that a blank other than a tab has to follow. -/
def isSpaceGap (c : Char) : Bool := c == ' ' || isBreakOrEnd c

def byteOrderMark : Char := '\uFEFF'

/-- The characters that a text may hold. -/
def isAllowed (c : Char) : Bool :=
  let n := c.toNat
  n == 9 || n == 10 || n == 13 || (0x20 ≤ n && n ≤ 0x7E) || n == 0x85 ||
    (0xA0 ≤ n && n ≤ 0xD7FF) || (0xE000 ≤ n && n ≤ 0xFFFD) || 0x10000 ≤ n

/-- The characters of anchors, handles and names of directives. -/
def isNameChar (c : Char) : Bool := c.isAlphanum || c == '-' || c == '_'

/-- The characters that a tag may hold. -/
def isUriChar (c : Char) : Bool := c.isAlphanum || "-;/?:@&=+$,_.!~*'()[]%".contains c

structure Cursor where
  rest : List Char
  index : Nat
  line : Nat
  column : Nat

namespace Cursor

def start (s : List Char) : Cursor := ⟨s, 0, 0, 0⟩

def peek (c : Cursor) : Char := c.rest.headD endMark

def peekAt (c : Cursor) (n : Nat) : Char := (c.rest[n]?).getD endMark

/-- One character further. -/
def step (c : Cursor) : Cursor :=
  match c.rest with
  | [] => c
  | x :: r =>
    if isBreak x ∧ ¬ (x = '\r' ∧ r.head? = some '\n') then ⟨r, c.index + 1, c.line + 1, 0⟩
    else if x = byteOrderMark then ⟨r, c.index + 1, c.line, c.column⟩
    else ⟨r, c.index + 1, c.line, c.column + 1⟩

def advance : Nat → Cursor → Cursor
  | 0, c => c
  | n + 1, c => advance n c.step

/-- The characters in front that satisfy `p`, and the place after them. -/
def takeWhile (p : Char → Bool) (c : Cursor) : List Char × Cursor :=
  let s := c.rest.takeWhile p
  (s, c.advance s.length)

def skipWhile (p : Char → Bool) (c : Cursor) : Cursor := (c.takeWhile p).2

def skipSpaces (c : Cursor) : Cursor := c.skipWhile (· == ' ')

/-- Without the rest of the line, if that is a comment. -/
def skipComment (c : Cursor) : Cursor :=
  if c.peek = '#' then c.skipWhile (fun x => !isBreak x) else c

/-- The line break at this place, as it counts in text. -/
def takeBreak (c : Cursor) : List Char × Cursor :=
  match c.rest with
  | '\r' :: '\n' :: _ => (['\n'], c.advance 2)
  | x :: _ =>
    if x = '\n' ∨ x = '\r' ∨ x.toNat = 0x85 then (['\n'], c.step)
    else if isBreak x then ([x], c.step)
    else ([], c)
  | [] => ([], c)

/-- Whether one of the marks between documents stands here. -/
def atSeparator (c : Cursor) : Bool :=
  (['-', '-', '-'].isPrefixOf c.rest || ['.', '.', '.'].isPrefixOf c.rest) && isGap (c.peekAt 3)

end Cursor

/-- The result of reading a part of a text. -/
abbrev Read := Except Fault

def malformed {α : Type} : Read α := .error .malformedYaml

/-- Goes on only where a condition holds. -/
def require (p : Bool) : Read Unit := if p then .ok () else malformed

end CallTree.Yaml
