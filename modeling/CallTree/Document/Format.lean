import CallTree.Fault
import CallTree.Key
import CallTree.Text.Case

/-! Formats of documents, and how a document shows its own. -/
namespace CallTree

inductive Format
  | json
  | yaml
  | toml
  | xml
  deriving DecidableEq, Inhabited

namespace Format

def name : Format → String
  | .json => "json"
  | .yaml => "yaml"
  | .toml => "toml"
  | .xml => "xml"

def all : List Format := [.json, .yaml, .toml, .xml]

def ofName? (s : String) : Option Format := all.find? (·.name == s)

/-- Whether `part` is somewhere in the text. -/
def occursIn (part : List Char) : List Char → Bool
  | [] => part.isEmpty
  | c :: r => part.isPrefixOf (c :: r) || occursIn part r

/-- The format that a media type names. -/
def ofContentType? (contentType : String) : Option Format :=
  let t := Text.lower contentType.toList
  all.find? fun f => occursIn f.name.toList t

/-- The format that text looks like: a bracket, a tag, or something else. -/
def ofLook? (text : List Char) : Option Format :=
  match Text.trimLeft text with
  | [] => none
  | c :: _ =>
    if c = '\x7b' ∨ c = '[' then some .json
    else if c = '<' then some .xml
    else some .yaml

/-- The format of a document, by its media type and else by its look. -/
def detect (contentType : Option String) (text : Option String) : Option Format :=
  match ofContentType? (contentType.getD "") with
  | some f => some f
  | none => text.bind fun t => ofLook? t.toList

/-- The last component of a path. A single dot is no component. -/
def fileName (path : List Char) : List Char :=
  ((Key.splitOn '/' path).filter fun p => p ≠ [] ∧ p ≠ ['.']).getLast?.getD []

/-- The text from the last dot on, unless the dot begins or ends the name. -/
def extension (name : List Char) : List Char :=
  let tail := (name.reverse.takeWhile (· != '.')).reverse
  if name.contains '.' ∧ tail ≠ [] ∧ tail.length + 1 < name.length then '.' :: tail else []

def ofExtension? (s : String) : Option Format :=
  match s with
  | ".json" => some .json
  | ".yaml" | ".yml" => some .yaml
  | ".toml" => some .toml
  | ".xml" => some .xml
  | _ => none

def ofPath? (path : String) : Option Format :=
  ofExtension? (String.ofList (Text.lower (extension (fileName path.toList))))

end Format
end CallTree
