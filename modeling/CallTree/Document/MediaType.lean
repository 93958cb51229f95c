import CallTree.Fault
import CallTree.Text.Blank
import CallTree.Text.Charset

/-! The charset that a media type names, and what decodes it. -/
namespace CallTree.MediaType

/-- What is behind a word, whose letters may be large or small. -/
def dropWord? : List Char → List Char → Option (List Char)
  | [], s => some s
  | _ :: _, [] => none
  | w :: word, c :: r =>
    if c.toLower = w ∨ (w = 's' ∧ c = 'ſ') then dropWord? word r else none

/-- Whether a character can stand in a value. -/
def inValue (c : Char) : Bool := !Text.isBlank c && c != ';'

/-- The value of the parameter in front of text. -/
def charsetAt? (s : List Char) : Option (List Char) := do
  let r ← dropWord? "charset".toList s
  match Text.trimLeft r with
  | '=' :: r =>
    match (Text.trimLeft r).takeWhile inValue with
    | [] => none
    | v => return v
  | _ => none

/-- Text without a character at its ends. -/
def stripChar (c : Char) (s : List Char) : List Char :=
  ((s.dropWhile (· == c)).reverse.dropWhile (· == c)).reverse

/-- The value of the first parameter in text. -/
def firstCharset? : List Char → Option (List Char)
  | [] => none
  | c :: r => match charsetAt? (c :: r) with
    | some v => some v
    | none => firstCharset? r

/-- A value without the quotes at its ends. -/
def unquote (v : List Char) : List Char := stripChar '\'' (stripChar '"' v)

/-- The first charset in a media type. -/
def charsetName? (mediaType : List Char) : Option (List Char) :=
  (firstCharset? mediaType).map unquote

/-- What makes text of the bytes of a document. -/
abbrev Decoder := List UInt8 → Except Fault (List Char)

def decoderOf (c : Text.Charset) : Decoder := fun bs => .ok (c.decode bs)

/-- Further charsets, by the names under which they are looked up. -/
abbrev Codecs := List Char → Option Decoder

/-- What is known under a name. -/
def Codecs.find? (further : Codecs) (name : List Char) : Option Decoder :=
  match Text.Charset.ofName? name with
  | some c => some (decoderOf c)
  | none => further name

/-- The decoder for a document. Without a known name it is that of UTF-8. A name with a zero
character cannot be looked up. -/
def decoder (further : Codecs) (mediaType : Option String) : Except Fault Decoder :=
  match mediaType.bind fun t => charsetName? t.toList with
  | none | some [] => .ok (decoderOf .utf8)
  | some name =>
    if '\x00' ∈ name then .error .badValue
    else .ok ((further.find? name).getD (decoderOf .utf8))

end CallTree.MediaType
