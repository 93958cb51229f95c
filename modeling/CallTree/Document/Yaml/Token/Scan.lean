import CallTree.Document.Yaml.Scalar
import CallTree.Document.Yaml.Token.Tag

/-! The tokens of a YAML text. Indentation opens and closes blocks, and a `:` makes a key of what
stands before it on the line. -/
namespace CallTree.Yaml

/-- A token that becomes a key if a `:` follows on its line. -/
structure PossibleKey where
  /-- The flow level at which the `:` has to stand. -/
  level : Nat
  /-- Where the key mark goes among the tokens. -/
  place : Nat
  /-- Whether nothing but a key may stand there. -/
  required : Bool
  index : Nat
  line : Nat
  column : Nat

structure Scanner where
  cursor : Cursor
  tokens : Array Token
  flowLevel : Nat
  /-- The columns of the open blocks, the innermost first. -/
  indents : List Nat
  keyAllowed : Bool
  possibleKeys : List PossibleKey

namespace Scanner

def start (s : List Char) : Scanner := ⟨Cursor.start s, #[], 0, [], true, []⟩

def inFlow (s : Scanner) : Bool := s.flowLevel != 0

/-- The column of the innermost block, one less than the first column outside of all. -/
def indent (s : Scanner) : Int :=
  match s.indents with
  | [] => -1
  | i :: _ => i

def push (s : Scanner) (t : Token) : Scanner := { s with tokens := s.tokens.push t }

/-- Adds a token of a given length. -/
def emit (s : Scanner) (length : Nat) (t : Token) : Scanner :=
  { s.push t with cursor := s.cursor.advance length }

/-- Blanks, comments and line breaks up to the next token. -/
def skipToToken : Nat → Scanner → Scanner
  | 0, s => s
  | n + 1, s =>
    let c := if s.cursor.index = 0 ∧ s.cursor.peek = byteOrderMark then s.cursor.step
      else s.cursor
    let c := c.skipSpaces.skipComment
    if isBreak c.peek then
      skipToToken n
        { s with cursor := c.takeBreak.2, keyAllowed := s.keyAllowed || !s.inFlow }
    else { s with cursor := c }

def isStale (s : Scanner) (k : PossibleKey) : Bool :=
  k.line != s.cursor.line || 1024 < s.cursor.index - k.index

/-- Gives up the keys whose `:` cannot come any more. -/
def dropStale (s : Scanner) : Read Scanner := do
  require (!s.possibleKeys.any fun k => s.isStale k && k.required)
  return { s with possibleKeys := s.possibleKeys.filter fun k => !s.isStale k }

/-- Gives up the key of the present flow level. -/
def dropKey (s : Scanner) : Read Scanner := do
  require (!s.possibleKeys.any fun k => k.level == s.flowLevel && k.required)
  return { s with possibleKeys := s.possibleKeys.filter fun k => k.level != s.flowLevel }

/-- Notes that the next token may be a key. -/
def noteKey (s : Scanner) : Read Scanner := do
  if s.keyAllowed then
    let s ← s.dropKey
    let c := s.cursor
    let required := !s.inFlow && s.indent == (c.column : Int)
    return { s with possibleKeys :=
      ⟨s.flowLevel, s.tokens.size, required, c.index, c.line, c.column⟩ :: s.possibleKeys }
  else return s

/-- Closes the blocks that are indented deeper than a column. -/
def closeBlocks (column : Int) (s : Scanner) : Scanner :=
  if s.inFlow then s
  else
    let closed := s.indents.takeWhile fun (i : Nat) => column < i
    { s with
      indents := s.indents.drop closed.length
      tokens := s.tokens ++ Array.replicate closed.length Token.blockEnd }

/-- Opens a block at a column, if it is indented deeper than the innermost, with its token at a
place. -/
def openBlock (column : Nat) (place : Nat) (t : Token) (s : Scanner) : Scanner :=
  if s.indent < (column : Int) then
    { s with indents := column :: s.indents, tokens := s.tokens.insertIdxIfInBounds place t }
  else s

def openHere (t : Token) (s : Scanner) : Scanner := s.openBlock s.cursor.column s.tokens.size t

def allowKey (p : Bool) (s : Scanner) : Scanner := { s with keyAllowed := p }

def fetchEnd (s : Scanner) : Read Scanner := do
  let s ← (s.closeBlocks (-1)).dropKey
  return s.push .streamEnd

def fetchDirective (s : Scanner) : Read Scanner := do
  let s ← (s.closeBlocks (-1)).dropKey
  let (t, c) ← Token.readDirective s.cursor
  return { (s.allowKey false).push t with cursor := c }

def fetchSeparator (t : Token) (s : Scanner) : Read Scanner := do
  let s ← (s.closeBlocks (-1)).dropKey
  return (s.allowKey false).emit 3 t

def fetchFlowStart (t : Token) (s : Scanner) : Read Scanner := do
  let s ← s.noteKey
  return ({ s with flowLevel := s.flowLevel + 1 }.allowKey true).emit 1 t

def fetchFlowEnd (t : Token) (s : Scanner) : Read Scanner := do
  let s ← s.dropKey
  return ({ s with flowLevel := s.flowLevel - 1 }.allowKey false).emit 1 t

def fetchFlowEntry (s : Scanner) : Read Scanner := do
  let s ← (s.allowKey true).dropKey
  return s.emit 1 .flowEntry

def fetchBlockEntry (s : Scanner) : Read Scanner := do
  require (s.inFlow || s.keyAllowed)
  let s := if s.inFlow then s else s.openHere .blockSequenceStart
  let s ← (s.allowKey true).dropKey
  return s.emit 1 .blockEntry

def fetchKey (s : Scanner) : Read Scanner := do
  require (s.inFlow || s.keyAllowed)
  let s := if s.inFlow then s else s.openHere .blockMappingStart
  let s ← (s.allowKey (!s.inFlow)).dropKey
  return s.emit 1 .key

def fetchValue (s : Scanner) : Read Scanner := do
  match s.possibleKeys.find? fun k => k.level == s.flowLevel with
  | some k =>
    let s := { s with
      possibleKeys := s.possibleKeys.filter fun k => k.level != s.flowLevel
      tokens := s.tokens.insertIdxIfInBounds k.place .key }
    let s := if s.inFlow then s else s.openBlock k.column k.place .blockMappingStart
    return (s.allowKey false).emit 1 .value
  | none =>
    require (s.inFlow || s.keyAllowed)
    let s := if s.inFlow then s else s.openHere .blockMappingStart
    let s ← (s.allowKey (!s.inFlow)).dropKey
    return s.emit 1 .value

/-- Adds a token that may be a key. -/
def fetchNode (read : Cursor → Read (Token × Cursor)) (s : Scanner) : Read Scanner := do
  let s ← s.noteKey
  let (t, c) ← read s.cursor
  return { (s.allowKey false).push t with cursor := c }

def scalarToken (style : Style) (s : List Char) : Token := .scalar (String.ofList s) style

def fetchQuoted (double : Bool) : Scanner → Read Scanner :=
  fetchNode fun c => do
    let (t, c) ← Scalar.readQuoted double (c.rest.length + 1) c.step
    return (scalarToken .quoted t, c)

def fetchBlock (folded : Bool) (s : Scanner) : Read Scanner := do
  let s ← (s.allowKey true).dropKey
  let (t, c) ← Scalar.readBlock folded s.indent s.cursor.step
  return { s.push (scalarToken .quoted t) with cursor := c }

def fetchPlain (s : Scanner) : Read Scanner := do
  let s ← s.noteKey
  let (t, broken, c) := Scalar.readPlain s.inFlow (s.indent + 1) (s.cursor.rest.length + 1) []
    false s.cursor
  return { (s.allowKey broken).push (scalarToken .plain t) with cursor := c }

/-- Whether a plain scalar may begin at a place. -/
def startsPlain (s : Scanner) : Bool :=
  let x := s.cursor.peek
  let indicators := "-?:,[]\x7b\x7d#&*!|>'\"%@\x60"
  (!isGap x && !indicators.contains x) ||
    (!isGap (s.cursor.peekAt 1) && (x == '-' || (!s.inFlow && (x == '?' || x == ':'))))

/-- Adds the next token. -/
def fetch (s : Scanner) : Read Scanner := do
  let s ← (skipToToken (s.cursor.rest.length + 1) s).dropStale
  let s := s.closeBlocks s.cursor.column
  let c := s.cursor
  let x := c.peek
  let gapAfter := isGap (c.peekAt 1)
  let atSeparator := c.column = 0 ∧ c.atSeparator
  if x = endMark then s.fetchEnd
  else if x = '%' ∧ c.column = 0 then s.fetchDirective
  else if x = '-' ∧ atSeparator then s.fetchSeparator .documentStart
  else if x = '.' ∧ atSeparator then s.fetchSeparator .documentEnd
  else if x = '[' then s.fetchFlowStart .flowSequenceStart
  else if x = '\x7b' then s.fetchFlowStart .flowMappingStart
  else if x = ']' then s.fetchFlowEnd .flowSequenceEnd
  else if x = '\x7d' then s.fetchFlowEnd .flowMappingEnd
  else if x = ',' then s.fetchFlowEntry
  else if x = '-' ∧ gapAfter then s.fetchBlockEntry
  else if x = '?' ∧ (s.inFlow ∨ gapAfter) then s.fetchKey
  else if x = ':' ∧ (s.inFlow ∨ gapAfter) then s.fetchValue
  else if x = '*' then s.fetchNode fun c => do
    let (n, c) ← Token.readAnchor c
    return (.alias n, c)
  else if x = '&' then s.fetchNode fun c => do
    let (n, c) ← Token.readAnchor c
    return (.anchor n, c)
  else if x = '!' then s.fetchNode Token.readTag
  else if x = '|' ∧ !s.inFlow then s.fetchBlock false
  else if x = '>' ∧ !s.inFlow then s.fetchBlock true
  else if x = '\'' then s.fetchQuoted false
  else if x = '"' then s.fetchQuoted true
  else if s.startsPlain then s.fetchPlain
  else malformed

/-- Adds tokens up to the end of the text, or to the first place where there is none. -/
def run : Nat → Scanner → Array Token
  | 0, s => s.tokens.push (.failed .malformedYaml)
  | n + 1, s =>
    match s.fetch with
    | .error f => s.tokens.push (.failed f)
    | .ok s => if s.tokens.back? = some .streamEnd then s.tokens else run n s

end Scanner

/-- The tokens of a text, if it holds nothing but characters that it may. -/
def tokens (s : List Char) : Read (List Token) :=
  if s.all isAllowed then .ok ((Scanner.start s).run (s.length + 2)).toList
  else malformed

end CallTree.Yaml
