import CallTree.Fault
import CallTree.Plain
import CallTree.Text.Blank

/-! Elements of XML documents, and the plain data that they stand for. -/
namespace CallTree.Xml

inductive Node
  | text (s : List Char)
  | element (name : String) (attributes : List (String × String)) (children : List Node)
  deriving Inhabited

/-- What a name stands for when it comes once more. -/
def again (v : Plain) : Plain → Plain
  | .list xs => .list (xs ++ [v])
  | w => .list [w, v]

/-- Adds an entry. Values of one name are collected in a list. -/
def push (k : String) (v : Plain) : List (String × Plain) → List (String × Plain)
  | [] => [(k, v)]
  | (k', w) :: r => if k' = k then (k', again v w) :: r else (k', w) :: push k v r

/-- The name under which the text of an element stands beside its other entries. -/
def textName : String := "#text"

/-- The value of an element by its entries and its text. -/
def combine (entries : List (String × Plain)) (text : List Char) : Plain :=
  let text := Text.trim text
  if entries.isEmpty then
    if text = [] then .null else .str (String.ofList text)
  else .map (if text = [] then entries else push textName (.str (String.ofList text)) entries)

mutual
/-- The value of a node; the text of a node that is text. -/
def Node.value : Node → Plain
  | .text s => .str (String.ofList s)
  | .element _ attributes children =>
    let own := attributes.map fun a => ("@" ++ a.1, Plain.str a.2)
    combine (pushAll children own) (textOf children)

/-- Adds the elements among nodes. -/
def pushAll : List Node → List (String × Plain) → List (String × Plain)
  | [], entries => entries
  | .text _ :: r, entries => pushAll r entries
  | .element name attributes children :: r, entries =>
    pushAll r (push name (Node.value (.element name attributes children)) entries)

/-- The text among nodes, in one piece. -/
def textOf : List Node → List Char
  | [] => []
  | .text s :: r => s ++ textOf r
  | .element .. :: r => textOf r
end

end CallTree.Xml
