import CallTree.Document.Format
import CallTree.Document.Json.Printer
import CallTree.Document.Toml.Printer
import CallTree.Document.Xml.Printer
import CallTree.Document.Yaml.Printer

/-! Documents that hold values. -/
namespace CallTree

/-- The entries of a table, or one entry with what is no table. -/
def Plain.entriesUnder (root : String) : Plain → List (String × Plain)
  | .map es => es
  | p => [(root, p)]

/-- Plain data as text in a format. The root gives a name to what has none. -/
def Format.print (f : Format) (pretty : Bool) (root : String) (p : Plain) : Except Fault String :=
  match f with
  | .json => .ok (Json.render pretty p)
  | .yaml => .ok (Yaml.render p)
  | .toml => Toml.render (p.entriesUnder root)
  | .xml => Xml.render pretty root p

namespace Document

/-- The name of the root where no other is given. -/
def rootName : String := "results"

/-- The format with a name in letters of either case. -/
def formatNamed (name : Option String) : Except Fault Format :=
  match Format.ofName? (String.ofList (Text.lower (name.getD "").toList)) with
  | some f => .ok f
  | none => .error (.unsupportedResult name)

/-- A value as a document. -/
def print (os : Objects) (format : Option String) (pretty : Bool) (root : String) (v : Value) :
    Except Fault String := do
  (← formatNamed format).print pretty root (Plain.render os v)

end Document
end CallTree
