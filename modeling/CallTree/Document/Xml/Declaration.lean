import CallTree.Document.Xml.Reference
import CallTree.Text.Split

/-! What stands before the root element of an XML document: comments, instructions, and the
declarations of a document type. -/
namespace CallTree.Xml

/-- A piece of the text before the root element. -/
inductive Token
  | xmlDeclaration (text : List Char)
  | instruction
  | comment
  | space
  /-- The beginning of a declaration, with its keyword. -/
  | declaration (keyword : String)
  | name (s : String)
  /-- Name characters that are no name. -/
  | nameChars
  /-- A name with a mark of repetition. -/
  | repeated
  | keyword (s : String)
  | literal (s : List Char)
  | opening
  /-- A closing parenthesis, and the mark of repetition on it. -/
  | closing (mark : Option Char)
  | bar
  | comma
  | percent
  /-- A reference to a parameter. -/
  | parameter
  | openBracket
  | closeBracket
  | stop
  deriving DecidableEq

/-- The tokens of a text, and the root element behind them if nothing is wrong before it. -/
structure Prolog where
  tokens : List Token
  root : Option (List Char)

namespace Prolog

def bad : Prolog := ⟨[], none⟩

def cons (t : Token) (p : Prolog) : Prolog := { p with tokens := t :: p.tokens }

/-- Whether the next character is one of those, or blank. -/
def nextIn (cs : String) (s : List Char) : Bool :=
  match s with
  | c :: _ => isSpace c || cs.contains c
  | [] => false

end Prolog

/-- The text up to `stop`, if all its characters are allowed, and what is behind. -/
def readUpTo? (stop s : List Char) : Option (List Char × List Char) :=
  (Text.cut? stop s).filter fun p => p.1.all isAllowed

/-- What is behind a comment, from the text behind its opening. -/
def readComment? (s : List Char) : Option (List Char) :=
  match readUpTo? ['-', '-'] s with
  | some (_, '>' :: r) => some r
  | _ => none

/-- An instruction: its text if it is the declaration of the document, and what is behind. -/
def readInstruction? (s : List Char) : Option (Option (List Char) × List Char) := do
  let (target, r) ← readName? s
  let (text, rest) ← readUpTo? ['?', '>'] r
  if !text.isEmpty && !(text.head?.any isSpace) then none
  if (target.map Char.toLower) = ['x', 'm', 'l'] then
    if target = ['x', 'm', 'l'] then return (some text, rest) else none
  else return (none, rest)

/-- The token in front of text, and what is behind. -/
def readToken? (s : List Char) : Option (Token × List Char) :=
  match s with
  | [] => none
  | '<' :: '!' :: '-' :: '-' :: r => (readComment? r).map (.comment, ·)
  | '<' :: '!' :: r =>
    match r.span Char.isAlpha with
    | ([], _) => none
    | (k, rest) =>
      if Prolog.nextIn "" rest then some (.declaration (String.ofList k), rest) else none
  | '<' :: '?' :: r => (readInstruction? r).map fun p =>
      (match p.1 with | some t => .xmlDeclaration t | none => .instruction, p.2)
  | '%' :: r =>
    if Prolog.nextIn "%" r then some (.percent, r)
    else match readName? r with
      | some (_, ';' :: rest) => some (.parameter, rest)
      | _ => none
  | '#' :: r => match readName? r with
    | some (k, rest) =>
      if Prolog.nextIn ")>%|" rest then some (.keyword (String.ofList k), rest) else none
    | none => none
  | ')' :: c :: r =>
    if c = '*' ∨ c = '?' ∨ c = '+' then some (.closing (some c), r)
    else if Prolog.nextIn ">,|)" (c :: r) then some (.closing none, c :: r) else none
  | '(' :: r => some (.opening, r)
  | '|' :: r => some (.bar, r)
  | ',' :: r => some (.comma, r)
  | '[' :: r => some (.openBracket, r)
  | ']' :: r => some (.closeBracket, r)
  | '>' :: r => some (.stop, r)
  | c :: r =>
    if isSpace c then some (.space, skipSpace r)
    else if c = '"' ∨ c = '\'' then
      match readUpTo? [c] r with
      | some (t, rest) =>
        if rest.isEmpty || Prolog.nextIn ">%[" rest then some (.literal t, rest) else none
      | none => none
    else
      match (c :: r).span isNameChar with
      | ([], _) => none
      | (cs, d :: rest) =>
        if Prolog.nextIn ">),|[%" (d :: rest) then
          some (if isNameStart c then .name (String.ofList cs) else .nameChars, d :: rest)
        else if isNameStart c ∧ (d = '*' ∨ d = '?' ∨ d = '+') then some (.repeated, rest)
        else none
      | _ => none

/-- The tokens before the root element. The first argument bounds their number. -/
def readProlog : Nat → List Char → Prolog
  | 0, _ => .bad
  | n + 1, s =>
    match s with
    | '<' :: c :: r =>
      if isNameStart c then ⟨[], some (c :: r)⟩ else next n s
    | s => next n s
where
  next (n : Nat) (s : List Char) : Prolog :=
    match readToken? s with
    | some (t, r) => (readProlog n r).cons t
    | none => .bad

/-! The declaration of the document -/

/-- A name with a value in quotes, if there is one more. -/
def readPair? (s : List Char) : Option (Option (List Char × List Char) × List Char) :=
  match s with
  | [] => some (none, [])
  | c :: _ =>
    if !isSpace c then none
    else match skipSpace s with
      | [] => some (none, [])
      | s => do
        let (name, r) := s.span fun c => c != '=' && !isSpace c
        match skipSpace r with
        | '=' :: r => match skipSpace r with
          | q :: r =>
            let (value, r) := r.span (· != q)
            if name = [] ∨ (q ≠ '"' ∧ q ≠ '\'') ∨
              !value.all (fun c => c.isAlphanum || c == '.' || c == '-' || c == '_') then none
            else match r with
              | _ :: r => some (some (name, value), r)
              | [] => none
          | [] => none
        | _ => none

/-- Whether the document stands alone by its declaration; `none` if that is malformed. -/
def readStandalone? (text : List Char) : Option Bool := do
  let (version, r) ← readPair? text
  let (name, _) ← version
  if name ≠ "version".toList then none
  let (second, r) ← readPair? r
  let (third, r) ← match second with
    | some (name, value) =>
      if name = "encoding".toList then
        if value.head?.any Char.isAlpha then readPair? r else none
      else some (second, r)
    | none => some (none, r)
  match third with
  | none => return false
  | some (name, value) =>
    if name ≠ "standalone".toList ∨ skipSpace r ≠ [] then none
    else if value = "yes".toList then return true
    else if value = "no".toList then return false
    else none

/-! Declarations of a document type -/

/-- What is declared of an attribute. -/
structure AttributeRule where
  element : String
  name : String
  /-- Whether its value is text, and not made of names. -/
  isText : Bool
  value : Option (List Char)

structure Declarations where
  rules : List AttributeRule
  /-- Whether there may be declarations that are not in the document. -/
  openEnded : Bool
  standalone : Bool
  /-- Whether declarations still count. -/
  counting : Bool

namespace Declarations

def empty (standalone : Bool) : Declarations := ⟨[], false, standalone, true⟩

/-- Whether names that are not declared are skipped. -/
def lenient (d : Declarations) : Bool := d.openEnded && !d.standalone

def addRule (r : AttributeRule) (d : Declarations) : Declarations :=
  if !d.counting || (r.value.isSome &&
    d.rules.any fun q => q.element == r.element && q.name == r.name) then d
  else { d with rules := d.rules ++ [r] }

def ruleFor? (d : Declarations) (element name : String) : Option AttributeRule :=
  d.rules.find? fun q => q.element == element && q.name == name

end Declarations

def isPublicId (s : List Char) : Bool :=
  s.all fun c => c.isAlphanum || " \r\n-'()+,./:=?;!*#@$_%".contains c

/-- The rest of a model of the content of an element, behind its keyword. The connectors of the
groups that are open are known; `item` tells that a name or a group comes next. -/
def contentModel : Bool → List (Option Token) → List Token → Option (List Token)
  | true, groups, .opening :: r => contentModel true (none :: groups) r
  | true, groups, .name _ :: r => contentModel false groups r
  | true, groups, .repeated :: r => contentModel false groups r
  | false, _ :: groups, .closing _ :: r =>
    if groups.isEmpty then some r else contentModel false groups r
  | false, g :: groups, t :: r =>
    if (t = .bar ∨ t = .comma) ∧ (g = none ∨ g = some t) then
      contentModel true (some t :: groups) r
    else none
  | _, _, _ => none

/-- The rest of a model of text and elements. -/
def mixedModel (named : Bool) : List Token → Option (List Token)
  | .closing mark :: r => if mark = some '*' ∨ (mark = none ∧ !named) then some r else none
  | .bar :: .name _ :: r => mixedModel true r
  | _ => none

def elementRule : List Token → Option (List Token)
  | .name _ :: .name k :: r => if k = "EMPTY" ∨ k = "ANY" then some r else none
  | .name _ :: .opening :: .keyword k :: r => if k = "PCDATA" then mixedModel false r else none
  | .name _ :: .opening :: r => contentModel true [none] r
  | _ => none

/-- The rest of a list of alternatives. -/
def alternatives (namesOnly : Bool) : List Token → Option (List Token)
  | t :: u :: r =>
    let fits := match t with
      | .name _ => true
      | .nameChars => !namesOnly
      | _ => false
    if !fits then none
    else match u with
      | .closing none => some r
      | .bar => alternatives namesOnly r
      | _ => none
  | _ => none

/-- The type of an attribute: whether it is text. -/
def attributeType : List Token → Option (Bool × List Token)
  | .name k :: r =>
    if k = "CDATA" then some (true, r)
    else if ["ID", "IDREF", "IDREFS", "ENTITY", "ENTITIES", "NMTOKEN", "NMTOKENS"].contains k then
      some (false, r)
    else if k = "NOTATION" then
      match r with
      | .opening :: r => (alternatives true r).map (false, ·)
      | _ => none
    else none
  | .opening :: r => (alternatives false r).map (false, ·)
  | _ => none

/-- The default of an attribute. -/
def attributeDefault : List Token → Option (Option (List Char) × List Token)
  | .keyword k :: r =>
    if k = "IMPLIED" ∨ k = "REQUIRED" then some (none, r)
    else if k = "FIXED" then
      match r with
      | .literal v :: r => some (some v, r)
      | _ => none
    else none
  | .literal v :: r => some (some v, r)
  | _ => none

/-- The rules for the attributes of an element. The first argument bounds their number. -/
def attributeRules (element : String) : Nat → List Token → Declarations →
    Read (List Token × Declarations)
  | 0, _, _ => malformed
  | n + 1, .name a :: r, d =>
    match (attributeType r).bind fun p => (attributeDefault p.2).map (p.1, ·) with
    | some (isText, value, r) => do
      let value ← match value with
        | some v => do
          let v ← readValue d.lenient (v.length + 1) v
          pure (some (if isText then v else collapse v))
        | none => pure none
      attributeRules element n r (d.addRule ⟨element, a, isText, value⟩)
    | none => malformed
  | _, r, d => .ok (r, d)

/-- A name for something outside of the document. -/
def externalId : List Token → Option (List Token)
  | .name k :: .literal a :: r =>
    if k = "SYSTEM" then some r
    else if k = "PUBLIC" ∧ isPublicId a then
      match r with
      | .literal _ :: r => some r
      | _ => none
    else none
  | _ => none

def notationRule : List Token → Option (List Token)
  | .name _ :: .name k :: .literal a :: r =>
    if k = "SYSTEM" then some r
    else if k = "PUBLIC" ∧ isPublicId a then
      match r with
      | .literal _ :: r => some r
      | r => some r
    else none
  | _ => none

/-- Whether each reference in the text of an entity is complete. The first argument bounds the
length. -/
def isEntityText : Nat → List Char → Bool
  | 0, _ | _, [] => true
  | n + 1, c :: r =>
    if c = '&' then
      match readReference true r with
      | .ok (_, r) => isEntityText n r
      | .error _ => false
    else c != '%' && isEntityText n r

/-- An entity. Documents that declare one are refused. -/
def entityRule (d : Declarations) (ts : List Token) : Read (List Token) :=
  let (name, isParameter, r) := match ts with
    | .percent :: .name n :: r => (some n, true, r)
    | .name n :: r => (some n, false, r)
    | r => (none, false, r)
  match name with
  | none => malformed
  | some n =>
    let refused := d.counting && (isParameter || (markupNames.lookup n).isNone)
    match r with
    | .literal v :: r =>
      if refused then .error .badValue
      else if d.counting && !isEntityText v.length v then malformed
      else .ok r
    | r => match externalId r with
      | some (.stop :: r) => if refused then .error .badValue else .ok (.stop :: r)
      | some (.name "NDATA" :: .name _ :: r) =>
        if isParameter then malformed else if refused then .error .badValue else .ok r
      | _ => malformed

def orMalformed {α : Type} : Option α → Read α
  | some a => .ok a
  | none => malformed

def declaration (keyword : String) (ts : List Token) (d : Declarations) :
    Read (List Token × Declarations) := do
  let (ts, d) ← match keyword with
    | "ELEMENT" => do pure (← orMalformed (elementRule ts), d)
    | "ATTLIST" => match ts with
      | .name element :: r => attributeRules element (r.length + 1) r d
      | _ => malformed
    | "ENTITY" => do pure (← entityRule d ts, d)
    | "NOTATION" => do pure (← orMalformed (notationRule ts), d)
    | _ => malformed
  match ts with
  | .stop :: r => return (r, d)
  | _ => malformed

/-- The declarations in a document, up to the closing bracket. The first argument bounds their
number. -/
def declarations : Nat → List Token → Declarations → Read (List Token × Declarations)
  | 0, _, _ => malformed
  | n + 1, ts, d => match ts with
    | .closeBracket :: r => .ok (r, d)
    | .comment :: r | .instruction :: r => declarations n r d
    | .parameter :: r => declarations n r { d with openEnded := true, counting := d.standalone }
    | .declaration k :: r => do
      let (r, d) ← declaration k r d
      declarations n r d
    | _ => malformed

/-- A document type, behind its keyword. -/
def documentType (ts : List Token) (d : Declarations) : Read (List Token × Declarations) := do
  match ts with
  | .name _ :: r =>
    let (r, d) := match externalId r with
      | some r => (r, { d with openEnded := true })
      | none => (r, d)
    let (r, d) ← match r with
      | .openBracket :: r => declarations (r.length + 1) r d
      | r => pure (r, d)
    match r with
    | .stop :: r => return (r, d)
    | _ => malformed
  | _ => malformed

/-- The tokens before the root element; `typed` tells that there was a document type. -/
def misc (typed : Bool) : Nat → List Token → Declarations → Read Declarations
  | 0, _, _ => malformed
  | n + 1, ts, d => match ts with
    | [] => .ok d
    | .comment :: r | .instruction :: r => misc typed n r d
    | .declaration "DOCTYPE" :: r =>
      if typed then malformed
      else do
        let (r, d) ← documentType r d
        misc true n r d
    | _ => malformed

/-- The declarations of a document, and its root element behind the first bracket. -/
def Prolog.read (p : Prolog) : Read (Declarations × List Char) := do
  let (standalone, ts) ← match p.tokens with
    | .xmlDeclaration t :: r => do pure (← orMalformed (readStandalone? t), r)
    | ts => pure (false, ts)
  let ts := ts.filter (· != .space)
  let d ← misc false (ts.length + 1) ts (.empty standalone)
  return (d, ← orMalformed p.root)

end CallTree.Xml
