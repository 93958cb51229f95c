import CallTree.Document.Yaml.Token
import CallTree.Number.Reading
import CallTree.Text.Charset

/-! Tokens for tags, anchors and directives. -/
namespace CallTree.Yaml.Token

/-- The bytes of a run of percent escapes. -/
def escapedBytes : Nat → Cursor → Read (List UInt8 × Cursor)
  | 0, _ => malformed
  | n + 1, c =>
    if c.peek = '%' then do
      let c := c.step
      let ds := c.rest.take 2
      require (ds.length == 2 && ds.all fun d => (Number.digitValue? 16 d).isSome)
      let (bs, c) ← escapedBytes n (c.advance 2)
      return (UInt8.ofNat (Number.ofDigits 16 ds) :: bs, c)
    else .ok ([], c)

/-- The characters of a tag, with its escapes read as UTF-8. -/
def uriChars : Nat → Cursor → Read (List Char × Cursor)
  | 0, _ => malformed
  | n + 1, c =>
    if c.peek = '%' then do
      let (bs, c) ← escapedBytes (n + 1) c
      match Text.decodeUtf8? bs with
      | some s => do
        let (t, c) ← uriChars n c
        return (s ++ t, c)
      | none => malformed
    else if isUriChar c.peek then do
      let (t, c') ← uriChars n c.step
      return (c.peek :: t, c')
    else .ok ([], c)

def readUri (c : Cursor) : Read (String × Cursor) := do
  let (s, c') ← uriChars (c.rest.length + 1) c
  require (isUriChar c.peek)
  return (String.ofList s, c')

/-- The handle of a tag: `!`, `!!` or `!name!`. -/
def readHandle (c : Cursor) : Read (String × Cursor) := do
  require (c.peek == '!')
  let c := c.step
  if c.peek = ' ' then return ("!", c)
  let (name, c) := c.takeWhile isNameChar
  require (c.peek == '!')
  return (String.ofList ('!' :: name ++ ['!']), c.step)

/-- A tag from its `!` on. -/
def readTag (c : Cursor) : Read (Token × Cursor) := do
  let x := c.peekAt 1
  let (t, c) ← (if x = '<' then do
      let (uri, c) ← readUri (c.advance 2)
      require (c.peek == '>')
      pure (Token.tag none uri, c.step)
    else if isGap x then pure (Token.tag none "!", c.step)
    else do
      let run := (c.rest.drop 1).takeWhile fun y => !isSpaceGap y
      let (h, c) ← if run.contains '!' then readHandle c else pure ("!", c.step)
      let (uri, c) ← readUri c
      pure (Token.tag (some h) uri, c) : Read (Token × Cursor))
  require (isSpaceGap c.peek)
  return (t, c)

/-- The name of an anchor or alias after its indicator. -/
def readAnchor (c : Cursor) : Read (String × Cursor) := do
  let (name, c) := c.step.takeWhile isNameChar
  require (!name.isEmpty && (isGap c.peek || "?:,]\x7d%@\x60".contains c.peek))
  return (String.ofList name, c)

def readVersionNumber (c : Cursor) : Read (Nat × Cursor) := do
  let (ds, c) := c.takeWhile Char.isDigit
  require (!ds.isEmpty)
  return (Number.ofDigits 10 ds, c)

/-- A directive from its `%` on. -/
def readDirective (c : Cursor) : Read (Token × Cursor) := do
  let (name, c) := c.step.takeWhile isNameChar
  require (!name.isEmpty && isSpaceGap c.peek)
  let (t, c) ← (if name = "YAML".toList then do
      let (major, c) ← readVersionNumber c.skipSpaces
      require (c.peek == '.')
      let (_, c) ← readVersionNumber c.step
      require (isSpaceGap c.peek)
      pure (Token.version major, c)
    else if name = "TAG".toList then do
      let (h, c) ← readHandle c.skipSpaces
      require (c.peek == ' ')
      let (uri, c) ← readUri c.skipSpaces
      require (isSpaceGap c.peek)
      pure (Token.handle h uri, c)
    else pure (Token.reserved, c.skipWhile fun x => !isBreak x) : Read (Token × Cursor))
  let c := c.skipSpaces.skipComment
  require (isBreakOrEnd c.peek)
  return (t, c.takeBreak.2)

end CallTree.Yaml.Token
