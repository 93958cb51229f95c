import CallTree.Document.Format
import CallTree.Document.Json.Reader
import CallTree.Document.MediaType
import CallTree.Document.Toml.Table
import CallTree.Document.Xml.Reader
import CallTree.Document.Yaml.Value

/-! Values read from documents. -/
namespace CallTree

/-- The value that text in a format stands for. Text that is not quite JSON is read as YAML. -/
def Format.read (f : Format) (s : List Char) : Except Fault Value :=
  match f with
  | .json => match Json.read? s with
    | some p => .ok p.toValue
    | none => Yaml.read s
  | .yaml => Yaml.read s
  | .toml => Toml.read s
  | .xml => (Xml.read s).map Plain.toValue

namespace Document

/-- The text of a document that is given as text, bytes or another value. -/
def textOf (further : MediaType.Codecs) (mediaType : Option String) (data : Value) :
    Except Fault String :=
  match data with
  | .bytes bs => do
    let decode ← MediaType.decoder further mediaType
    return String.ofList (← decode bs)
  | v => .ok (v.text id)

/-- The format of a document: the one that is named, or the one that it shows. -/
def formatOf (name mediaType : Option String) (text : String) : Except Fault Format :=
  match name.filter (· ≠ "") with
  | some n => match Format.ofName? n with
    | some f => .ok f
    | none => .error (.unsupportedRequest (some n))
  | none => match Format.detect mediaType (some text) with
    | some f => .ok f
    | none => .error (.unsupportedRequest none)

/-- Reads a document where further charsets are known. -/
def readBy (further : MediaType.Codecs) (format mediaType : Option String) (data : Value) :
    Except Fault Value := do
  let text ← textOf further mediaType data
  (← formatOf format mediaType text).read text.toList

def read (format mediaType : Option String) (data : Value) : Except Fault Value :=
  readBy (fun _ => none) format mediaType data

theorem read_str (format mediaType : Option String) (text : String) :
    read format mediaType (.str text) =
      formatOf format mediaType text >>= fun f => f.read text.toList := rfl

end Document
end CallTree
