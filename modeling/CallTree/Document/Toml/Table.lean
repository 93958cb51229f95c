import CallTree.Document.Toml.Lines
import CallTree.Document.Toml.Value

/-! Tables of TOML documents: their headers, and the entries on the lines below them. -/
namespace CallTree.Toml

/-- A step to an entry of a table, or to the last item of an array. -/
inductive Step
  | key (k : String)
  | last

/-- The way from the document to the table that lines add to. -/
abbrev Position := List Step

/-- Applies `f` to what is at a position. -/
def updateAt (f : Value → Value) : Position → Value → Value
  | [], v => f v
  | .key k :: p, .map es => match Dict.get? (.str k) es with
    | some v => .map (Dict.insert (.str k) (updateAt f p v) es)
    | none => .map es
  | .last :: p, .list xs => match xs.getLast? with
    | some v => .list (xs.dropLast ++ [updateAt f p v])
    | none => .list xs
  | _, v => v

def valueAt : Position → Value → Value
  | [], v => v
  | .key k :: p, .map es => match Dict.get? (.str k) es with
    | some v => valueAt p v
    | none => .null
  | .last :: p, .list xs => match xs.getLast? with
    | some v => valueAt p v
    | none => .null
  | _, _ => .null

structure Document where
  root : Value
  position : Position
  /-- The names of tables that only headers of tables inside them made. -/
  implied : List String

namespace Document

def empty : Document := ⟨.map [], [], []⟩

def here (d : Document) : Value := valueAt d.position d.root

def set (v : Value) (d : Document) : Document :=
  { d with root := updateAt (fun _ => v) d.position d.root }

def move (s : Step) (d : Document) : Document := { d with position := d.position ++ [s] }

/-- A table, or an array with one, at a name that is new. -/
def make (array : Bool) (name : String) (entries : List (Value × Value)) (d : Document) :
    Document :=
  d.set (.map (Dict.insert (.str name) (if array then .list [.map []] else .map []) entries))

/-- The last table of an array, where a header leads through one. -/
def intoArray (array : Bool) (d : Document) : Read Document :=
  match array, d.here with
  | false, _ | true, .map _ => .ok d
  | true, .list [] => .error .badIndex
  | true, .list _ => .ok (d.move .last)
  | true, .str s => if s = "" then .error .badIndex else .ok d
  | true, _ => .error .badCall

/-- The last name of a header, where the table has it already. -/
def reopen (array : Bool) (name : String) (v : Value) (d : Document) : Read Document :=
  if d.implied.contains name then
    if array then malformed else .ok { d with implied := d.implied.erase name }
  else if array then
    match d.here, v with
    | .map es, .list xs => .ok (d.set (.map (Dict.insert (.str name) (.list (xs ++ [.map []])) es)))
    | _, _ => .error .missingAttribute
  else malformed

/-- Goes one name of a header further. -/
def enter (array isLast : Bool) (name : String) (d : Document) : Read Document := do
  if name = "" then malformed
  let d ← match d.here with
    | .map es => match Dict.get? (.str name) es with
      | some v => if isLast then d.reopen array name v else pure d
      | none =>
        let d := if isLast then d else { d with implied := d.implied ++ [name] }
        pure (d.make (array && isLast) name es)
    | .list xs => match xs.getLast? with
      | none => .error .badIndex
      | some (.map es) =>
        let d := d.move .last
        pure (if Dict.contains (.str name) es then d else d.make (array && isLast) name es)
      | some _ => .error .badCall
    | .str s => .error (if s = "" then .badIndex else .badCall)
    | _ => .error .badCall
  (d.move (.key name)).intoArray array

def enterAll (array : Bool) : List String → Document → Read Document
  | [], d => .ok d
  | [name], d => d.enter array true name
  | name :: r, d => do enterAll array r (← d.enter array false name)

end Document

/-! Headers -/

def isBareKeyChar (c : Char) : Bool := c.isAlphanum || c == '_' || c == '-'

/-- Whether a name ends with the quote that it begins with. -/
def isClosedName (name : List Char) : Bool :=
  let name := Text.trim name
  name.head? == name.getLast? && 1 < name.length

/-- Takes parts in until the name ends with the quote that it begins with. -/
def closeName (name : List Char) : List (List Char) → Read (List Char × List (List Char))
  | [] => if isClosedName name then .ok (Text.trim name, []) else malformed
  | p :: r =>
    if isClosedName name then .ok (Text.trim name, p :: r) else closeName (name ++ '.' :: p) r

/-- The names that the parts between the points of a header write. The first argument bounds their
number. -/
def headerNames : Nat → List (List Char) → Read (List String)
  | 0, _ | _, [] => .ok []
  | n + 1, p :: r => do
    let name := Text.trim p
    if name.head?.any isQuote then
      let (name, r) ← closeName name r
      return String.ofList (Text.inner name) :: (← headerNames n r)
    else if name ≠ [] ∧ name.all isBareKeyChar then
      return String.ofList name :: (← headerNames n r)
    else malformed

/-- The names of a header, from what stands behind its brackets. -/
def readHeader (close : List Char) (line : List Char) : Read (List String) := do
  let count := placesUpToUnquoted close false (quoteParts line)
  let parts := Text.splitAtMost close count line
  if parts.length < count + 1 ∨ Text.trim (parts.getLast?.getD []) ≠ [] then malformed
  let groups := Text.split ['.'] (Text.join close parts.dropLast)
  headerNames groups.length groups

/-! Lines -/

/-- A document, and the string that goes on over its next lines. -/
structure Progress where
  document : Document
  pending : Option OpenString

/-- Whether a line closes an open string, or the array that it is in. -/
def closes (s : OpenString) (line : List Char) : Read Bool :=
  let first := s.text.head?
  if first = some '[' then
    if line = [] then .error .badIndex else .ok (line.getLast? = some ']')
  else .ok (2 < line.length && (line.reverse.take 3).all fun c => first == some c)

/-- A line inside a string. -/
def continueString (s : OpenString) (line : List Char) (d : Document) : Read Progress := do
  let text := s.text ++ line
  if ← closes { s with text := text } line then
    let (v, _) ← readValue true text
    let table := match d.here with
      | .map es => .map (Dict.insert (.str s.key) v es)
      | t => t
    return ⟨d.set table, none⟩
  else return ⟨d, some (OpenString.ofLine s.key text)⟩

/-- A line outside of strings. -/
def readLine (line : List Char) (d : Document) : Read Progress := do
  match line with
  | ['['] => malformed
  | '[' :: '[' :: r =>
    return ⟨← { d with position := [] }.enterAll true (← readHeader [']', ']'] r), none⟩
  | '[' :: r => return ⟨← { d with position := [] }.enterAll false (← readHeader [']'] r), none⟩
  | '\x7b' :: _ =>
    if line.getLast? ≠ some '\x7d' then malformed
    let table ← inlineTable (value (line.length + 1)) line d.here
    return ⟨d.set table, none⟩
  | _ =>
    if line.contains '=' then
      let (table, pending) ← assign (value (line.length + 1)) d.here line
      return ⟨d.set table, pending⟩
    else return ⟨d, none⟩

def step (line : List Char) (p : Progress) : Read Progress :=
  match p.pending with
  | none =>
    let line := Text.trim line
    if line = [] then .ok p else readLine line p.document
  | some s =>
    let line := if s.escaped || !s.text.contains '\n' then Text.trim line else line
    if line = [] ∧ s.escaped then .ok p else continueString s line p.document

def steps : List (List Char) → Progress → Read Progress
  | [], p => .ok p
  | line :: r, p => do steps r (← step line p)

/-- The table that a document stands for. -/
def read (s : List Char) : Read Value := do
  let p ← steps (← lines s) ⟨Document.empty, none⟩
  return p.document.root

end CallTree.Toml
