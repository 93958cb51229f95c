import CallTree.Document.Xml.Node
import CallTree.Fault
import CallTree.Text.Split

/-! Plain data as an XML document. -/
namespace CallTree.Xml

abbrev Entries := List (String × Plain)

def escape (s : List Char) : List Char :=
  s.flatMap fun c =>
    if c = '&' then "&amp;".toList else if c = '<' then "&lt;".toList
    else if c = '>' then "&gt;".toList else [c]

/-- The value of an attribute in quotes: double ones, unless only single ones spare an escape. -/
def quoteValue (s : List Char) : List Char :=
  let body := (escape s).flatMap fun c =>
    if c = '\n' then "&#10;".toList else if c = '\r' then "&#13;".toList
    else if c = '\t' then "&#9;".toList else [c]
  if !body.contains '"' then '"' :: body ++ ['"']
  else if !body.contains '\'' then '\'' :: body ++ ['\'']
  else '"' :: Text.replace ['"'] "&quot;".toList body ++ ['"']

/-- The text of a value. -/
def textOfValue : Plain → String
  | .bool b => if b then "true" else "false"
  | v => v.toValue.text id

/-- The text of the value of an attribute. -/
def attributeText : Plain → String
  | .null => ""
  | v => v.toValue.text id

/-- Whether a name leaves a tag intact. -/
def isSafeName (name : String) : Bool :=
  let s := name.toList
  s.head? != some '?' && s.head? != some '!' &&
    s.all fun c => !("<>/\"'=".contains c || Text.isBlank c)

def checkName (name : String) : Except Fault Unit :=
  if isSafeName name then .ok () else .error .badValue

def isSafeComment (s : List Char) : Bool :=
  (Text.cut? ['-', '-'] s).isNone && s.getLast? != some '-'

/-- The name under which comments stand. -/
def commentName : String := "#comment"

/-- How elements are set apart. -/
structure Layout where
  pretty : Bool

namespace Layout

def indent (l : Layout) (depth : Nat) : List Char :=
  if l.pretty then List.replicate depth '\t' else []

def lineEnd (l : Layout) : List Char := if l.pretty then ['\n'] else []

end Layout

/-- The attributes that an entry writes. -/
def attributesOfEntry (key : List Char) (v : Plain) : Except Fault (List (String × String)) := do
  match v with
  | .map es =>
    if key = "xmlns".toList then
      es.mapM fun (k, v) => do
        checkName k
        return (if k = "" then "xmlns" else "xmlns:" ++ k, attributeText v)
    else checked
  | _ => checked
where
  checked : Except Fault (List (String × String)) := do
    checkName (String.ofList key)
    return [(String.ofList key, attributeText v)]

/-- A known name keeps its place and gets the new value. -/
def setAttribute (a : String × String) : List (String × String) → List (String × String)
  | [] => [a]
  | b :: r => if b.1 = a.1 then a :: r else b :: setAttribute a r

/-- The attributes among the entries of an element. -/
def attributesIn (es : Entries) : Except Fault (List (String × String)) := do
  let each ← es.mapM fun (k, v) => match k.toList with
    | '@' :: key => attributesOfEntry key v
    | _ => pure []
  return each.flatten.foldl (fun d a => setAttribute a d) []

def printAttributes (attributes : List (String × String)) : List Char :=
  attributes.flatMap fun (k, v) => ' ' :: k.toList ++ '=' :: quoteValue v.toList

/-- The text of an element among its entries. -/
def ownText (es : Entries) : List Char :=
  match es.lookup textName with
  | none | some .null => []
  | some v => (textOfValue v).toList

/-- Whether an entry is an element, or a comment. -/
def isChild : String × Plain → Bool
  | (_, .list []) => false
  | (k, _) => k != textName && k.toList.head? != some '@'

def printComment (l : Layout) (depth : Nat) (v : Plain) : Except Fault (List Char) :=
  let t := match v with
    | .null => []
    | v => (textOfValue v).toList
  if t = [] then .ok []
  else if isSafeComment t then
    .ok (l.indent depth ++ "<!--".toList ++ escape t ++ "-->".toList ++ l.lineEnd)
  else .error .badValue

def printComments (l : Layout) (depth : Nat) : Plain → Except Fault (List Char)
  | .list vs => do return (← vs.mapM (printComment l depth)).flatten
  | v => printComment l depth v

/-- An element with a text between its tags. -/
def printElement (l : Layout) (depth : Nat) (name : String) (attributes : List (String × String))
    (content : List Char) : List Char :=
  l.indent depth ++ '<' :: name.toList ++ printAttributes attributes ++ '>' :: content ++
    '<' :: '/' :: name.toList ++ '>' :: (if depth = 0 then [] else l.lineEnd)

/-- An element by its entries, with the text of those that are elements themselves. -/
def printMap (l : Layout) (depth : Nat) (name : String) (es : Entries) (children : List Char) :
    Except Fault (List Char) := do
  let attributes ← attributesIn es
  let text := escape (ownText es)
  let content := if es.any isChild then l.lineEnd ++ children ++ text ++ l.indent depth else text
  return printElement l depth name attributes content

def printScalar (l : Layout) (depth : Nat) (name : String) : Plain → List Char
  | .null => printElement l depth name [] []
  | v => printElement l depth name [] (escape (textOfValue v).toList)

mutual
/-- The elements of a value: one for each item of a list. -/
def printEntry (l : Layout) (depth : Nat) (name : String) : Plain → Except Fault (List Char)
  | .list xs => do
    checkName name
    if depth = 0 ∧ 1 < xs.length then .error .badValue
    printItems l depth name xs
  | .map es => do
    checkName name
    printMap l depth name es (← printChildren l (depth + 1) es)
  | v => do
    checkName name
    return printScalar l depth name v

def printItems (l : Layout) (depth : Nat) (name : String) :
    List Plain → Except Fault (List Char)
  | [] => .ok []
  | .map es :: r => do
    let own ← printMap l depth name es (← printChildren l (depth + 1) es)
    return own ++ (← printItems l depth name r)
  | x :: r => do return printScalar l depth name x ++ (← printItems l depth name r)

/-- The elements and comments among the entries of an element. -/
def printChildren (l : Layout) (depth : Nat) : Entries → Except Fault (List Char)
  | [] => .ok []
  | (k, v) :: r => do
    let own ←
      if !isChild (k, v) then pure []
      else if k = commentName then printComments l depth v
      else printEntry l depth k v
    return own ++ (← printChildren l depth r)
end

/-- A document with one root element. -/
def render (pretty : Bool) (root : String) (v : Plain) : Except Fault String := do
  if root = commentName then .error .badValue
  let text ← printEntry ⟨pretty⟩ 0 root v
  return String.ofList ("<?xml version=\"1.0\" encoding=\"utf-8\"?>\n".toList ++ text)

end CallTree.Xml
