import CallTree.Document.Xml.Declaration
import CallTree.Document.Xml.Node

/-! Plain data read from XML documents. -/
namespace CallTree.Xml

/-- An attribute in a tag: its name, and the text between its quotes. -/
abbrev RawAttribute := List Char × List Char

/-- The attributes up to the end of a tag, whether the tag also closes the element, and what is
behind. The first argument bounds their number. -/
def readAttributes : Nat → List Char → Read (List RawAttribute × Bool × List Char)
  | 0, _ => malformed
  | n + 1, s =>
    match skipSpace s with
    | '>' :: r => .ok ([], false, r)
    | '/' :: '>' :: r => .ok ([], true, r)
    | t => do
      if !s.head?.any isSpace then malformed
      let (name, r) ← orMalformed (readName? t)
      match skipSpace r with
      | '=' :: r => match skipSpace r with
        | q :: r =>
          if q ≠ '"' ∧ q ≠ '\'' then malformed
          else match r.span (· != q) with
            | (v, _ :: rest) => do
              let (more, closed, rest) ← readAttributes n rest
              return ((name, v) :: more, closed, rest)
            | _ => malformed
        | [] => malformed
      | _ => malformed

/-- The attributes of an element with their values, and those that its declaration adds. -/
def attributesOf (d : Declarations) (element : String) (raw : List RawAttribute) :
    Read (List (String × String)) := do
  let given ← raw.mapM fun (name, v) => do
    let name := String.ofList name
    let v ← readValue d.lenient (v.length + 1) v
    let isText := match d.ruleFor? element name with
      | some rule => rule.isText
      | none => true
    return (name, String.ofList (if isText then v else collapse v))
  let names := given.map (·.1)
  if !decide names.Nodup then malformed
  let added := d.rules.filterMap fun rule =>
    if rule.element == element && !names.contains rule.name then
      rule.value.map fun v => (rule.name, String.ofList v)
    else none
  return given ++ added

/-- The text in front of the next markup, and what is behind. -/
def readText (s : List Char) : Read (List Char × List Char) :=
  let (t, r) := s.span fun c => c != '<' && c != '&'
  if !t.all isAllowed ∨ (Text.cut? [']', ']', '>'] t).isSome then malformed
  else .ok (Text.unifyBreaks t, r)

mutual
/-- The nodes up to a closing tag, and what is behind its opening. The first argument bounds the
number of nodes. -/
def readContent : Nat → Declarations → List Char → Read (List Node × List Char)
  | 0, _, _ => malformed
  | n + 1, d, s => match s with
    | [] => malformed
    | '<' :: '/' :: r => .ok ([], r)
    | '<' :: '!' :: '-' :: '-' :: r => do readContent n d (← orMalformed (readComment? r))
    | '<' :: '!' :: '[' :: 'C' :: 'D' :: 'A' :: 'T' :: 'A' :: '[' :: r => do
      let (t, r) ← orMalformed (readUpTo? [']', ']', '>'] r)
      let (nodes, r) ← readContent n d r
      return (.text (Text.unifyBreaks t) :: nodes, r)
    | '<' :: '?' :: r => do
      match ← orMalformed (readInstruction? r) with
      | (none, r) => readContent n d r
      | (some _, _) => malformed
    | '<' :: r => do
      let (node, r) ← readElement n d r
      let (nodes, r) ← readContent n d r
      return (node :: nodes, r)
    | '&' :: r => do
      let (t, r) ← readReference d.lenient r
      let (nodes, r) ← readContent n d r
      return (.text t :: nodes, r)
    | s => do
      let (t, r) ← readText s
      let (nodes, r) ← readContent n d r
      return (.text t :: nodes, r)

/-- An element, from behind the first bracket of its tag. -/
def readElement : Nat → Declarations → List Char → Read (Node × List Char)
  | 0, _, _ => malformed
  | n + 1, d, s => do
    let (name, r) ← orMalformed (readName? s)
    let (raw, closed, r) ← readAttributes (r.length + 1) r
    let attributes ← attributesOf d (String.ofList name) raw
    if closed then return (.element (String.ofList name) attributes [], r)
    else
      let (children, r) ← readContent n d r
      let (name', r) ← orMalformed (readName? r)
      match skipSpace r with
      | '>' :: r =>
        if name' = name then return (.element (String.ofList name) attributes children, r)
        else malformed
      | _ => malformed
end

/-- Whether nothing but blank, comments and instructions is behind the root element. The first
argument bounds their number. -/
def isEpilog : Nat → List Char → Bool
  | 0, _ => false
  | n + 1, s => match skipSpace s with
    | [] => true
    | '<' :: '!' :: '-' :: '-' :: r => match readComment? r with
      | some r => isEpilog n r
      | none => false
    | '<' :: '?' :: r => match readInstruction? r with
      | some (none, r) => isEpilog n r
      | _ => false
    | _ => false

/-- The root element of a document. -/
def readRoot (s : List Char) : Read Node := do
  let s := match s with
    | '\uFEFF' :: r => r
    | s => s
  let bound := s.length + 1
  let (d, r) ← (readProlog bound s).read
  let (node, r) ← readElement bound d r
  if isEpilog bound r then return node else malformed

/-- The value of the root element; an empty one has no entries. -/
def read (s : List Char) : Read Plain := do
  match (← readRoot s).value with
  | .null => return .map []
  | p => return p

end CallTree.Xml
