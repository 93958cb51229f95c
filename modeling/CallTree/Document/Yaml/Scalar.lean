import CallTree.Document.Yaml.Cursor
import CallTree.Number.Reading
import CallTree.Text.Surrogate

/-! The text of scalars: quoted, as a block, or plain. -/
namespace CallTree.Yaml

namespace Scalar

/-- Line breaks with blank around them; `stop` tells where no break may stand before. -/
def takeBreaks (isSpace : Char → Bool) (stop : Cursor → Bool) :
    Nat → Cursor → Option (List Char × Cursor)
  | 0, c => some ([], c)
  | n + 1, c =>
    if stop c then none
    else
      let c := c.skipWhile isSpace
      if isBreak c.peek then
        let (b, c) := c.takeBreak
        (takeBreaks isSpace stop n c).map fun p => (b ++ p.1, p.2)
      else some ([], c)

/-- A break between two lines of text: one alone becomes a space, of several one is dropped. -/
def foldBreaks (first more : List Char) : List Char :=
  if first ≠ ['\n'] then first ++ more
  else if more = [] then [' ']
  else more

/-! Quoted scalars -/

def isQuotedSpace (c : Char) : Bool := c == ' ' || c == '\t'

/-- The breaks inside a quoted scalar, in which no document may end. -/
def quotedBreaks (c : Cursor) : Read (List Char × Cursor) :=
  match takeBreaks isQuotedSpace Cursor.atSeparator (c.rest.length + 1) c with
  | some p => .ok p
  | none => malformed

def simpleEscapes : List (Char × Nat) :=
  [('0', 0), ('a', 7), ('b', 8), ('t', 9), ('\t', 9), ('n', 10), ('v', 11), ('f', 12),
   ('r', 13), ('e', 0x1B), (' ', 0x20), ('"', 0x22), ('\\', 0x5C), ('/', 0x2F), ('N', 0x85),
   ('_', 0xA0), ('L', 0x2028), ('P', 0x2029)]

def codeEscapes : List (Char × Nat) := [('x', 2), ('u', 4), ('U', 8)]

/-- The number after a letter that begins a code, if all its digits are there. -/
def readCode? (width : Nat) (c : Cursor) : Option (Nat × Cursor) :=
  let ds := c.rest.take width
  if ds.length = width ∧ ds.all fun d => (Number.digitValue? 16 d).isSome then
    some (Number.ofDigits 16 ds, c.advance width)
  else none

/-- A second code that completes the character of a first one. -/
def readLowCode? (c : Cursor) : Option (Nat × Cursor) :=
  if c.peek = '\\' then
    (codeEscapes.lookup (c.peekAt 1)).bind fun width =>
      (readCode? width (c.advance 2)).filter fun p => Text.isLowSurrogate p.1
  else none

/-- The character of a code. -/
def codeChar (n : Nat) (c : Cursor) : Read (List Char × Cursor) :=
  if Text.isHighSurrogate n then
    match readLowCode? c with
    | some (m, c) => .ok ([Text.joinSurrogates n m], c)
    | none => .ok ([Text.replacement], c)
  else if n < 0x110000 then .ok ([Text.ofUnit n], c)
  else if n < 0x80000000 then .error .badValue
  else .error .overflow

/-- What an escape stands for, from the character after the backslash on. -/
def readEscape (c : Cursor) : Read (List Char × Cursor) :=
  match simpleEscapes.lookup c.peek with
  | some n => .ok ([Char.ofNat n], c.step)
  | none => match codeEscapes.lookup c.peek with
    | some width => match readCode? width c.step with
      | some (n, c) => codeChar n c
      | none => malformed
    | none =>
      if isBreak c.peek then quotedBreaks c.takeBreak.2
      else malformed

def isQuotedStop (c : Char) : Bool := c == '\'' || c == '"' || c == '\\' || isGap c

/-- The text of a quoted scalar after its opening quote. -/
def readQuoted (double : Bool) : Nat → Cursor → Read (List Char × Cursor)
  | 0, _ => malformed
  | n + 1, c => do
    let (s, c) := c.takeWhile fun x => !isQuotedStop x
    let more (t : List Char) (c : Cursor) : Read (List Char × Cursor) := do
      let (u, c) ← readQuoted double n c
      return (s ++ t ++ u, c)
    let x := c.peek
    if double = false ∧ x = '\'' ∧ c.peekAt 1 = '\'' then more ['\''] (c.advance 2)
    else if x = (if double then '"' else '\'') then return (s, c.step)
    else if x = '\\' ∧ double then do
      let (t, c) ← readEscape c.step
      more t c
    else if x = '\'' ∨ x = '"' ∨ x = '\\' then more [x] c.step
    else
      let (t, c) := c.takeWhile isQuotedSpace
      if c.peek = endMark then malformed
      else if isBreak c.peek then do
        let (first, c) := c.takeBreak
        let (breaks, c) ← quotedBreaks c
        more (foldBreaks first breaks) c
      else more t c

/-! Block scalars -/

/-- What becomes of the breaks at the end of a block. -/
inductive Chomping
  | strip
  | clip
  | keep
  deriving DecidableEq

structure BlockHeader where
  chomping : Chomping
  increment : Option Nat

def chomping? (c : Char) : Option Chomping :=
  if c = '+' then some .keep else if c = '-' then some .strip else none

def readIncrement (c : Cursor) : Read (Option Nat × Cursor) :=
  if c.peek.isDigit then
    if c.peek = '0' then malformed else .ok (some (c.peek.toNat - 48), c.step)
  else .ok (none, c)

/-- The indicators of a block, in either order, and the rest of their line. -/
def readBlockHeader (c : Cursor) : Read (BlockHeader × Cursor) := do
  let (header, c) ← match chomping? c.peek with
    | some ch => do
      let (i, c) ← readIncrement c.step
      pure (BlockHeader.mk ch i, c)
    | none => do
      let (i, c) ← readIncrement c
      match i, chomping? c.peek with
      | some i, some ch => pure (BlockHeader.mk ch (some i), c.step)
      | _, _ => pure (BlockHeader.mk .clip i, c)
  require (isSpaceGap c.peek)
  let c := c.skipSpaces.skipComment
  require (isBreakOrEnd c.peek)
  return (header, c.takeBreak.2)

/-- The breaks before the first line of a block, and the deepest indentation among them. -/
def leadingBreaks (deepest : Nat) : Nat → Cursor → List Char × Nat × Cursor
  | 0, c => ([], deepest, c)
  | n + 1, c =>
    if c.peek = ' ' then
      let c := c.step
      leadingBreaks (max deepest c.column) n c
    else if isBreak c.peek then
      let (b, c) := c.takeBreak
      let (bs, d, c) := leadingBreaks deepest n c
      (b ++ bs, d, c)
    else ([], deepest, c)

/-- Spaces up to a column. -/
def skipIndent (indent : Nat) (c : Cursor) : Cursor :=
  c.advance (min (indent - c.column) (c.rest.takeWhile (· == ' ')).length)

/-- Empty lines of a block, and the indentation of the line after them. -/
def blockBreaks (indent : Nat) : Nat → Cursor → List Char × Cursor
  | 0, c => ([], c)
  | n + 1, c =>
    let c := skipIndent indent c
    if isBreak c.peek then
      let (b, c) := c.takeBreak
      let (bs, c) := blockBreaks indent n c
      (b ++ bs, c)
    else ([], c)

/-- The lines of a block. The last break and the breaks after it are told apart. -/
def blockLines (folded : Bool) (indent : Nat) :
    Nat → List Char → Cursor → List Char × List Char × List Char × Cursor
  | 0, breaks, c => ([], [], breaks, c)
  | n + 1, breaks, c =>
    if c.column = indent ∧ c.peek ≠ endMark then
      let leading := c.peek ≠ ' ' ∧ c.peek ≠ '\t'
      let (line, c) := c.takeWhile fun x => !isBreak x
      let (last, c) := c.takeBreak
      let (next, c) := blockBreaks indent (c.rest.length + 1) c
      if c.column = indent ∧ c.peek ≠ endMark then
        let joint :=
          if folded ∧ last = ['\n'] ∧ leading ∧ c.peek ≠ ' ' ∧ c.peek ≠ '\t' then
            (if next = [] then [' '] else [])
          else last
        let (text, last, tail, c) := blockLines folded indent n next c
        (breaks ++ line ++ joint ++ text, last, tail, c)
      else (breaks ++ line, last, next, c)
    else ([], [], breaks, c)

/-- A block scalar after its first indicator, inside a block that is indented by `parent`. -/
def readBlock (folded : Bool) (parent : Int) (c : Cursor) : Read (List Char × Cursor) := do
  let (header, c) ← readBlockHeader c
  let least := max 1 (parent + 1).toNat
  let size := c.rest.length + 1
  let (indent, breaks, c) := match header.increment with
    | none =>
      let (breaks, deepest, c) := leadingBreaks 0 size c
      (max least deepest, breaks, c)
    | some i =>
      let indent := least + i - 1
      let (breaks, c) := blockBreaks indent size c
      (indent, breaks, c)
  let (text, last, tail, c) := blockLines folded indent size breaks c
  return (match header.chomping with
    | .strip => text
    | .clip => text ++ last
    | .keep => text ++ last ++ tail, c)

/-! Plain scalars -/

def isFlowStop (c : Char) : Bool := ",[]\x7b\x7d".contains c

/-- The characters of a plain scalar up to a blank or an indicator. -/
def plainRun (flow : Bool) : List Char → List Char
  | [] => []
  | x :: r =>
    let next := r.headD endMark
    if isGap x || (x == ':' && (isGap next || (flow && isFlowStop next))) ||
        (flow && (isFlowStop x || x == '?')) then []
    else x :: plainRun flow r

/-- What stands between two runs of a plain scalar: the text for it, and whether it holds a break.
A mark between documents ends the scalar. -/
def plainSpaces (c : Cursor) : Option (List Char) × Bool × Cursor :=
  let (spaces, c) := c.takeWhile (· == ' ')
  if isBreak c.peek then
    let (first, c) := c.takeBreak
    if c.atSeparator then (none, true, c)
    else match separatorFree (c.rest.length + 1) c with
      | (some breaks, c) => (some (foldBreaks first breaks), true, c)
      | (none, c) => (none, true, c)
  else (some spaces, false, c)
where
  /-- The breaks and spaces up to the next text, unless a mark between documents is among them. -/
  separatorFree : Nat → Cursor → Option (List Char) × Cursor
    | 0, c => (some [], c)
    | n + 1, c =>
      if c.peek = ' ' then separatorFree n c.step
      else if isBreak c.peek then
        let (b, c) := c.takeBreak
        if c.atSeparator then (none, c)
        else
          let (bs, c) := separatorFree n c
          (bs.map (b ++ ·), c)
      else (some [], c)

/-- A plain scalar inside a block whose content is indented by `indent`. The flag tells whether the
scalar ends with a break, after which a key may stand. -/
def readPlain (flow : Bool) (indent : Int) :
    Nat → List Char → Bool → Cursor → List Char × Bool × Cursor
  | 0, _, broken, c => ([], broken, c)
  | n + 1, spaces, broken, c =>
    let run := if c.peek = '#' then [] else plainRun flow c.rest
    if run = [] then ([], broken, c)
    else
      let c := c.advance run.length
      let (next, broken, c) := plainSpaces c
      match next with
      | none | some [] => (spaces ++ run, broken, c)
      | some next =>
        if c.peek = '#' ∨ (flow = false ∧ (c.column : Int) < indent) then
          (spaces ++ run, broken, c)
        else
          let (text, broken, c) := readPlain flow indent n next broken c
          (spaces ++ run ++ text, broken, c)

end Scalar
end CallTree.Yaml
