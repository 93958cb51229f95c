import CallTree.Document.Yaml.Token

/-! YAML documents as trees of tagged nodes, put together from tokens. -/
namespace CallTree.Yaml

inductive Node
  | scalar (tag text : String)
  | sequence (tag : String) (items : List Node)
  | mapping (tag : String) (entries : List (Node × Node))
  deriving Inhabited

namespace Node

def tag : Node → String
  | .scalar t _ | .sequence t _ | .mapping t _ => t

/-- What the tags of a type of the language begin with. -/
def standard : String := "tag:yaml.org,2002:"

/-- The tag of a text without one. `plain` is whether the text may stand for something else. -/
abbrev Resolver := (plain : Bool) → String → String

structure Composer where
  tokens : List Token
  handles : List (String × String)
  anchors : List (String × Node)
  /-- The anchors of nodes that are not complete yet. -/
  pending : List String

abbrev Compose := StateT Composer Read

namespace Compose

def fail {α : Type} (f : Fault) : Compose α := throw f

/-- The next token. -/
def look : Compose Token := do
  match (← get).tokens with
  | [] => fail .malformedYaml
  | .failed f :: _ => fail f
  | t :: _ => return t

def drop : Compose Unit := modify fun s => { s with tokens := s.tokens.drop 1 }

/-- Takes the next token if it is the given one. -/
def takeIf (t : Token) : Compose Bool := do
  if (← look) = t then
    drop
    return true
  else return false

def expect (t : Token) : Compose Unit := do
  unless ← takeIf t do fail .malformedYaml

def nextIn (ts : List Token) : Compose Bool := return ts.contains (← look)

/-- The properties in front of a node: an anchor and a tag, in either order. -/
structure Properties where
  anchor : Option String
  tag : Option String

def takeAnchor : Compose (Option String) := do
  match ← look with
  | .anchor n => do
    drop
    return some n
  | _ => return none

def takeTag : Compose (Option (Option String × String)) := do
  match ← look with
  | .tag h s => do
    drop
    return some (h, s)
  | _ => return none

def fullTag : Option (Option String × String) → Compose (Option String)
  | none => return none
  | some (none, s) => return some s
  | some (some h, s) => do
    match (← get).handles.lookup h with
    | some uri => return some (uri ++ s)
    | none => fail .malformedYaml

def properties : Compose Properties := do
  let anchor ← takeAnchor
  let tag ← takeTag
  let anchor ← if anchor.isNone then takeAnchor else pure anchor
  return ⟨anchor, ← fullTag tag⟩

/-- Notes an anchor, which may name one node only. -/
def declare (anchor : Option String) : Compose Unit := do
  if let some a := anchor then
    let s ← get
    if (s.anchors.lookup a).isSome || s.pending.contains a then fail .malformedYaml
    set { s with pending := a :: s.pending }

def complete (anchor : Option String) (n : Node) : Compose Node := do
  if let some a := anchor then modify fun s => { s with anchors := (a, n) :: s.anchors }
  return n

def collectionTag (default : String) : Option String → String
  | none | some "!" => standard ++ default
  | some t => t

def scalarTag (resolve : Resolver) (style : Style) (text : String) : Option String → String
  | none => resolve (style == .plain) text
  | some "!" => resolve true text
  | some t => t

def empty (resolve : Resolver) : Node := .scalar (resolve true "") ""

/-- Where a node stands, and so what it may be. -/
inductive Place
  | flow
  | block
  /-- A value or key of a block mapping, whose sequence need not be indented. -/
  | entry
  deriving DecidableEq

mutual
/-- The next node. The first argument bounds the number of steps. -/
def node (resolve : Resolver) : Nat → Place → Compose Node
  | 0, _ => fail .malformedYaml
  | n + 1, place => do
    match ← look with
    | .alias a => do
      drop
      match (← get).anchors.lookup a with
      | some x => return x
      | none => fail .malformedYaml
    | _ => do
      let p ← properties
      declare p.anchor
      let sequence (items : Compose (List Node)) : Compose Node := do
        complete p.anchor (.sequence (collectionTag "seq" p.tag) (← items))
      let mapping (entries : Compose (List (Node × Node))) : Compose Node := do
        complete p.anchor (.mapping (collectionTag "map" p.tag) (← entries))
      match ← look with
      | .scalar text style => do
        drop
        complete p.anchor (.scalar (scalarTag resolve style text p.tag) text)
      | .flowSequenceStart => do
        drop
        sequence (flowItems resolve n true)
      | .flowMappingStart => do
        drop
        mapping (flowEntries resolve n true)
      | t =>
        if t = .blockEntry ∧ place = .entry then sequence (flatItems resolve n)
        else if t = .blockSequenceStart ∧ place ≠ .flow then do
          drop
          sequence (blockItems resolve n)
        else if t = .blockMappingStart ∧ place ≠ .flow then do
          drop
          mapping (blockEntries resolve n)
        else if p.anchor.isSome || p.tag.isSome then
          complete p.anchor
            (.scalar (match p.tag with
              | none | some "!" => resolve true ""
              | some t => t) "")
        else fail .malformedYaml

/-- A node, unless one of the given tokens shows that there is none. -/
def nodeUnless (resolve : Resolver) : Nat → Place → List Token → Compose Node
  | 0, _, _ => fail .malformedYaml
  | n + 1, place, stops => do
    if ← nextIn stops then return empty resolve
    else node resolve n place

/-- The items of an indented sequence. -/
def blockItems (resolve : Resolver) : Nat → Compose (List Node)
  | 0 => fail .malformedYaml
  | n + 1 => do
    if ← takeIf .blockEntry then
      let x ← nodeUnless resolve n .block [.blockEntry, .blockEnd]
      return x :: (← blockItems resolve n)
    else
      expect .blockEnd
      return []

/-- The items of a sequence that is not indented within its mapping. -/
def flatItems (resolve : Resolver) : Nat → Compose (List Node)
  | 0 => fail .malformedYaml
  | n + 1 => do
    if ← takeIf .blockEntry then
      let x ← nodeUnless resolve n .block [.blockEntry, .key, .value, .blockEnd]
      return x :: (← flatItems resolve n)
    else return []

/-- The value after a key of a block mapping. -/
def blockValue (resolve : Resolver) : Nat → Compose Node
  | 0 => fail .malformedYaml
  | n + 1 => do
    if ← takeIf .value then nodeUnless resolve n .entry [.key, .value, .blockEnd]
    else return empty resolve

def blockEntries (resolve : Resolver) : Nat → Compose (List (Node × Node))
  | 0 => fail .malformedYaml
  | n + 1 => do
    if ← takeIf .key then
      let k ← nodeUnless resolve n .entry [.key, .value, .blockEnd]
      let v ← blockValue resolve n
      return (k, v) :: (← blockEntries resolve n)
    else
      expect .blockEnd
      return []

/-- The value after a key between brackets or braces. -/
def flowValue (resolve : Resolver) : Nat → Token → Compose Node
  | 0, _ => fail .malformedYaml
  | n + 1, close => do
    if ← takeIf .value then nodeUnless resolve n .flow [.flowEntry, close]
    else return empty resolve

def flowItems (resolve : Resolver) : Nat → (first : Bool) → Compose (List Node)
  | 0, _ => fail .malformedYaml
  | n + 1, first => do
    if ← takeIf .flowSequenceEnd then return []
    unless first do expect .flowEntry
    if ← takeIf .key then
      let k ← nodeUnless resolve n .flow [.value, .flowEntry, .flowSequenceEnd]
      let v ← flowValue resolve n .flowSequenceEnd
      let x := Node.mapping (standard ++ "map") [(k, v)]
      return x :: (← flowItems resolve n false)
    else if ← takeIf .flowSequenceEnd then return []
    else
      let x ← node resolve n .flow
      return x :: (← flowItems resolve n false)

def flowEntries (resolve : Resolver) : Nat → (first : Bool) → Compose (List (Node × Node))
  | 0, _ => fail .malformedYaml
  | n + 1, first => do
    if ← takeIf .flowMappingEnd then return []
    unless first do expect .flowEntry
    if ← takeIf .key then
      let k ← nodeUnless resolve n .flow [.value, .flowEntry, .flowMappingEnd]
      let v ← flowValue resolve n .flowMappingEnd
      return (k, v) :: (← flowEntries resolve n false)
    else if ← takeIf .flowMappingEnd then return []
    else
      let k ← node resolve n .flow
      return (k, empty resolve) :: (← flowEntries resolve n false)
end

/-- The directives before a document. -/
def directives : Nat → Option Nat → List (String × String) → Compose (List (String × String))
  | 0, _, _ => fail .malformedYaml
  | n + 1, version, handles => do
    match ← look with
    | .version major => do
      drop
      if version.isSome || major != 1 then fail .malformedYaml
      directives n (some major) handles
    | .handle h uri => do
      drop
      if (handles.lookup h).isSome then fail .malformedYaml
      directives n version (handles ++ [(h, uri)])
    | .reserved => do
      drop
      directives n version handles
    | _ => return handles

def dropAll (t : Token) : Nat → Compose Unit
  | 0 => return ()
  | n + 1 => do
    if ← takeIf t then dropAll t n

def isDirective : Token → Bool
  | .version _ | .handle .. | .reserved => true
  | _ => false

/-- The document of a text that holds one at most. -/
def document (resolve : Resolver) (size : Nat) : Compose (Option Node) := do
  let t ← look
  let root ← if isDirective t || t == .documentStart || t == .streamEnd || t == .documentEnd then do
      if !isDirective t && t != .documentStart && t != .streamEnd then fail .malformedYaml
      if (← look) = .streamEnd then return none
      let hs ← directives size none []
      expect .documentStart
      modify fun s => { s with handles := hs ++ s.handles }
      let t ← look
      if isDirective t || [.documentStart, .documentEnd, .streamEnd].contains t then
        pure (empty resolve)
      else node resolve size .block
    else node resolve size .block
  dropAll .documentEnd size
  expect .streamEnd
  return some root

end Compose

/-- The root of the document in a text, if there is one. -/
def ofTokens (resolve : Resolver) (ts : List Token) : Read (Option Node) :=
  let handles := [("!", "!"), ("!!", standard)]
  ((Compose.document resolve (4 * ts.length + 4)).run ⟨ts, handles, [], []⟩).map (·.1)

end Node
end CallTree.Yaml
