import CallTree.Document.Yaml.Cursor

/-! Tokens of a YAML text. -/
namespace CallTree.Yaml

/-- How a scalar is written. -/
inductive Style
  | plain
  | quoted
  deriving DecidableEq

inductive Token
  | documentStart
  | documentEnd
  | streamEnd
  | version (major : Nat)
  | handle (name : String) (uri : String)
  /-- A directive without effect. -/
  | reserved
  | blockSequenceStart
  | blockMappingStart
  | blockEnd
  | flowSequenceStart
  | flowSequenceEnd
  | flowMappingStart
  | flowMappingEnd
  | flowEntry
  | blockEntry
  | key
  | value
  | alias (name : String)
  | anchor (name : String)
  | tag (handle : Option String) (suffix : String)
  | scalar (text : String) (style : Style)
  /-- Where no further token can be read. -/
  | failed (f : Fault)
  deriving DecidableEq

end CallTree.Yaml
