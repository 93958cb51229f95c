import CallTree.Value

/-! What ends a computation without a value. -/
namespace CallTree

inductive Fault
  /-- A host function raised an error value. -/
  | reported (e : CallError)
  /-- A host function failed in a way of its own. -/
  | failed
  | missingAttribute
  | badCall
  | badIndex
  | badKey
  | badLookup
  | badValue
  | overflow
  | notAMapping (typeName : String)
  | unknownMode (mode : Value)
  | unknownLevel (name : String)
  | unknownFormat (name : String)
  | unsupportedRequest (format : Option String)
  | unsupportedResult (format : Option String)
  | malformedJson
  | malformedYaml
  | malformedToml
  | malformedXml
  | badEncoding
  | isDirectory
  | notDirectory
  deriving DecidableEq, Inhabited

/-- The names of the document formats, in the order in which messages list them. -/
def formatNames : List String := ["json", "yaml", "toml", "xml"]

namespace Fault

def quoteOrNone : Option String → String
  | some s => Text.quote s
  | none => "None"

/-- The wording of the faults that have one. -/
def message? : Fault → Option String
  | .notAMapping t => some ("A request must be a mapping, not " ++ t)
  | .unknownMode m =>
    some ("Unknown access mode: " ++ String.ofList (m.shown id))
  | .unknownLevel s => some ("Unknown QERES_LOG_LEVEL: " ++ Text.quote s)
  | .unknownFormat s =>
    some ("Unknown QERES_FORMAT: " ++ Text.quote s ++ " (expected one of " ++
      ", ".intercalate formatNames ++ ")")
  | .unsupportedRequest f => some ("Unsupported request format: " ++ quoteOrNone f)
  | .unsupportedResult f => some ("Unsupported serialization format: " ++ quoteOrNone f)
  | _ => none

end Fault
end CallTree
