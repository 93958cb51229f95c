import CallTree.Document.Yaml.Tag
import CallTree.Plain

/-! Plain data as YAML text: blocks of lines up to a width, and no character beyond ASCII. -/
namespace CallTree.Yaml

/-- The text so far, in reverse, and what is known of its end. -/
structure Out where
  text : List Char
  column : Nat
  /-- Whether it ends with blank. -/
  blank : Bool
  /-- Whether the last line is indentation and indicators only. -/
  indentation : Bool
  /-- Whether the document could go on. -/
  openEnded : Bool

/-- The column after which lines are folded. -/
def bestWidth : Nat := 80

def indentWidth : Nat := 2

namespace Out

def empty : Out := ⟨[], 0, true, true, false⟩

def put (s : List Char) (o : Out) : Out :=
  { o with text := s.reverse ++ o.text, column := o.column + s.length }

/-- A break of the line, written as the given character. -/
def breakLine (c : Char) (o : Out) : Out :=
  { o with text := c :: o.text, column := 0, blank := true, indentation := true }

/-- Goes to a column, on a new line where this one is used. -/
def goTo (indent : Nat) (o : Out) : Out :=
  let o := if !o.indentation || indent < o.column || (o.column == indent && !o.blank) then
    o.breakLine '\n' else o
  if o.column < indent then
    { o.put (List.replicate (indent - o.column) ' ') with blank := true }
  else o

/-- An indicator, apart from what is before it where `apart` says so. -/
def indicator (s : List Char) (apart : Bool) (blank indentation : Bool) (o : Out) : Out :=
  { o.put (if o.blank || !apart then s else ' ' :: s) with
    blank := blank
    indentation := o.indentation && indentation
    openEnded := false }

/-- Leaves indentation and blank behind. -/
def inText (o : Out) : Out := { o with blank := false, indentation := false }

end Out

/-! Scalars -/

def isWriterBreak (c : Char) : Bool :=
  c == '\n' || c.toNat == 0x85 || c.toNat == 0x2028 || c.toNat == 0x2029

def isWriterGap (c : Char) : Bool := c == '\r' || c == '\t' || c == ' ' || c == endMark ||
  isWriterBreak c

/-- Whether a character can only be written as an escape. -/
def isSpecial (c : Char) : Bool := !(c == '\n' || (32 ≤ c.toNat && c.toNat ≤ 126))

/-- Whether an indicator somewhere keeps text from being plain. `afterGap` tells whether blank, or
nothing, is before the character. -/
def hasInnerIndicator (afterGap : Bool) : List Char → Bool
  | [] => false
  | c :: r =>
    (c == ':' && isWriterGap (r.headD ' ')) || (c == '#' && afterGap) ||
      hasInnerIndicator (isWriterGap c) r

def hasLeadingIndicator : List Char → Bool
  | [] => false
  | c :: r =>
    "#,[]\x7b\x7d&*!|>'\"%@\x60".contains c ||
      ("?:-".contains c && isWriterGap (r.headD ' '))

def beginsDocument (s : List Char) : Bool :=
  ['-', '-', '-'].isPrefixOf s || ['.', '.', '.'].isPrefixOf s

/-- Whether `p` holds of a character and `q` of the one after it, somewhere. -/
def hasPair (p q : Char → Bool) : List Char → Bool
  | a :: b :: r => (p a && q b) || hasPair p q (b :: r)
  | _ => false

def isSpaceChar (c : Char) : Bool := c == ' '

/-- Whether text can be written without quotes, as far as its characters go. -/
def plainAllowed (s : List Char) : Bool :=
  let outer := fun c : Char => c == ' ' || isWriterBreak c
  !(beginsDocument s || hasLeadingIndicator s ||
    hasInnerIndicator ((s.take 1).any isWriterGap) (s.drop 1) ||
    (s.take 1).any outer || (s.reverse.take 1).any outer || s.any isSpecial ||
    s.any isWriterBreak)

/-- Whether text can be written in single quotes. -/
def singleAllowed (s : List Char) : Bool :=
  !(s.any isSpecial || hasPair isWriterBreak isSpaceChar s || hasPair isSpaceChar isWriterBreak s)

def isMultiline (s : List Char) : Bool := s.any isWriterBreak

/-- Spaces of a plain scalar, or a new line in their place. -/
def plainSpaces (fold : Bool) (indent : Nat) (count : Nat) (o : Out) : Out :=
  if count = 1 ∧ fold ∧ bestWidth < o.column then (o.goTo indent).inText
  else o.put (List.replicate count ' ')

/-- The runs of spaces and of other characters that text is made of. -/
def runs (p : Char → Bool) : List Char → List (List Char)
  | [] => []
  | c :: r => match runs p r with
    | [] => [[c]]
    | run :: more => if run.head?.map p = some (p c) then (c :: run) :: more
      else [c] :: run :: more

def writePlain (root fold : Bool) (indent : Nat) (s : List Char) (o : Out) : Out :=
  let o := if root then { o with openEnded := true } else o
  if s = [] then o
  else
    let o := (if o.blank then o else o.put [' ']).inText
    (runs isSpaceChar s).foldl
      (fun o run => if run.head? = some ' ' then plainSpaces fold indent run.length o
        else o.put run) o

/-- What a run of text is inside single quotes. -/
inductive RunKind
  | spaces
  | breaks
  | other
  deriving DecidableEq

def kindOf (c : Char) : RunKind :=
  if c = ' ' then .spaces else if isWriterBreak c then .breaks else .other

/-- The runs of spaces, of breaks and of other characters. -/
def kindRuns : List Char → List (RunKind × List Char)
  | [] => []
  | c :: r => match kindRuns r with
    | (k, run) :: more => if k = kindOf c then (k, c :: run) :: more
      else (kindOf c, [c]) :: (k, run) :: more
    | [] => [(kindOf c, [c])]

/-- A run inside single quotes; `edge` tells that it begins or ends the text. -/
def writeSingleRun (fold : Bool) (indent : Nat) (edge : Bool) (o : Out) :
    RunKind × List Char → Out
  | (.spaces, run) =>
    if run.length = 1 ∧ fold ∧ !edge ∧ bestWidth < o.column then o.goTo indent
    else o.put run
  | (.breaks, run) =>
    let o := if run.head? = some '\n' then o.breakLine '\n' else o
    (run.foldl (fun o c => o.breakLine c) o).goTo indent
  | (.other, run) => o.put (run.flatMap fun c => if c = '\'' then ['\'', '\''] else [c])

def writeSingleRuns (fold : Bool) (indent : Nat) :
    Bool → List (RunKind × List Char) → Out → Out
  | _, [], o => o
  | first, run :: more, o =>
    writeSingleRuns fold indent false more
      (writeSingleRun fold indent (first || more.isEmpty) o run)

def writeSingle (fold : Bool) (indent : Nat) (s : List Char) (o : Out) : Out :=
  (writeSingleRuns fold indent true (kindRuns s)
    (o.indicator ['\''] true false false)).indicator ['\''] false false false

def doubleEscapes : List (Nat × Char) :=
  [(0, '0'), (7, 'a'), (8, 'b'), (9, 't'), (10, 'n'), (11, 'v'), (12, 'f'), (13, 'r'),
   (0x1B, 'e'), (0x22, '"'), (0x5C, '\\'), (0x85, 'N'), (0xA0, '_'), (0x2028, 'L'),
   (0x2029, 'P')]

def upperHex (width n : Nat) : List Char := (Text.hex width n).map Char.toUpper

/-- The escape of a character in double quotes, if it needs one. -/
def doubleEscape? (c : Char) : Option (List Char) :=
  let n := c.toNat
  match doubleEscapes.lookup n with
  | some e => some ['\\', e]
  | none =>
    if 32 ≤ n ∧ n ≤ 126 then none
    else if n ≤ 0xFF then some ('\\' :: 'x' :: upperHex 2 n)
    else if n ≤ 0xFFFF then some ('\\' :: 'u' :: upperHex 4 n)
    else some ('\\' :: 'U' :: upperHex 8 n)

/-- Ends a line in double quotes; what goes on with a space needs a mark before it. -/
def foldDouble (indent : Nat) (next : Char) (o : Out) : Out :=
  let o := ((o.put ['\\']).goTo indent).inText
  if next = ' ' then o.put ['\\'] else o

/-- Text in double quotes. `held` is what is read but not written yet, in reverse; a line can be
folded before a space or beside an escape, though not at the ends of the text. -/
def writeDoubleRest (fold : Bool) (indent : Nat) (first : Bool) (held : List Char) :
    List Char → Out → Out
  | [], o => o.put held.reverse
  | c :: r, o =>
    let mayFold := fold && !first && !r.isEmpty
    match doubleEscape? c with
    | some e =>
      let o := (o.put held.reverse).put e
      writeDoubleRest fold indent false [] r
        (if mayFold && bestWidth + 1 < o.column then foldDouble indent (r.headD c) o else o)
    | none =>
      if mayFold && (c == ' ' || held.isEmpty) && bestWidth < o.column + held.length then
        writeDoubleRest fold indent false [c] r (foldDouble indent c (o.put held.reverse))
      else writeDoubleRest fold indent false (c :: held) r o

def writeDouble (fold : Bool) (indent : Nat) (s : List Char) (o : Out) : Out :=
  (writeDoubleRest fold indent true [] s
    (o.indicator ['"'] true false false)).indicator ['"'] false false false

/-- Where a node stands. -/
structure Context where
  root : Bool
  inMapping : Bool
  /-- Whether it is a key on one line with its value. -/
  simpleKey : Bool

/-- Text as a scalar. It is plain only if it would be read back as text. -/
def writeText (ctx : Context) (indent : Nat) (s : List Char) (o : Out) : Out :=
  let fold := !ctx.simpleKey
  if Tag.typeOf true (String.ofList s) == Tag.str && plainAllowed s then
    writePlain ctx.root fold indent s o
  else if singleAllowed s && !(ctx.simpleKey && isMultiline s) then writeSingle fold indent s o
  else writeDouble fold indent s o

/-- The longest text that can be a key on one line with its value. -/
def longestKey : Nat := 122

def isSimpleKey (s : List Char) : Bool :=
  s.length ≤ longestKey && !s.isEmpty && !isMultiline s

def numberLayout : NumberLayout := ⟨".inf", ".nan", true, 2⟩

def innerIndent : Option Nat → Nat
  | none => indentWidth
  | some i => i + indentWidth

mutual
def write (ctx : Context) (indent : Option Nat) : Plain → Out → Out
  | .null, o => writePlain ctx.root true (innerIndent indent) "null".toList o
  | .bool b, o =>
    writePlain ctx.root true (innerIndent indent) (if b then "true" else "false").toList o
  | .int n, o => writePlain ctx.root true (innerIndent indent) (toString n).toList o
  | .float x, o =>
    writePlain ctx.root true (innerIndent indent) (numberLayout.render x).toList o
  | .str s, o => writeText ctx (innerIndent indent) s.toList o
  | .list [], o =>
    (o.indicator ['['] true true false).indicator [']'] false false false
  | .map [], o =>
    (o.indicator ['\x7b'] true true false).indicator ['\x7d'] false false false
  | .list xs, o =>
    let inner := match indent with
      | none => 0
      | some i => if ctx.inMapping && !o.indentation then i else i + indentWidth
    writeItems inner xs o
  | .map es, o => writeEntries (match indent with | none => 0 | some i => i + indentWidth) es o

def writeItems (indent : Nat) : List Plain → Out → Out
  | [], o => o
  | x :: r, o =>
    let o := (o.goTo indent).indicator ['-'] true false true
    writeItems indent r (write ⟨false, false, false⟩ (some indent) x o)

def writeEntries (indent : Nat) : List (String × Plain) → Out → Out
  | [], o => o
  | (k, v) :: r, o =>
    let o := o.goTo indent
    let o :=
      if isSimpleKey k.toList then
        (writeText ⟨false, true, true⟩ (indent + indentWidth) k.toList o).indicator
          [':'] false false false
      else
        let o := writeText ⟨false, true, false⟩ (indent + indentWidth) k.toList
          (o.indicator ['?'] true false true)
        (o.goTo indent).indicator [':'] true false true
    writeEntries indent r (write ⟨false, true, false⟩ (some indent) v o)
end

def render (p : Plain) : String :=
  let o := (write ⟨true, false, false⟩ none p Out.empty).goTo 0
  let o := if o.openEnded then (o.indicator ['.', '.', '.'] true false false).goTo 0 else o
  String.ofList o.text.reverse

end CallTree.Yaml
