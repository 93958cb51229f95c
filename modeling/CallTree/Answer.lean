import CallTree.Request
import CallTree.Scope

/-! Answers to requests: the values of all statements, flat, in the order of the document. -/
namespace CallTree

variable {σ : Type}

namespace Answer

/-- Follows a path into mappings and objects. What is missing is nothing. -/
def extract (h : Host σ) : Value → Key.Path → Run σ Value
  | v, [] => pure v
  | v, name :: r =>
    match v with
    | .null => pure .null
    | _ => match h.objects.entries? v with
      | some es => extract h ((Dict.get? (.str name) es).getD .null) r
      | none => do
        let part ← h.part? v name
        extract h (part.getD .null) r

/-- The name that a path binds. -/
def lastName (p : Key.Path) : Value := .str (p.getLast?.getD "")

/-- Takes a value apart. An error stands for each of its parts. -/
def destructure (h : Host σ) (v : Value) (paths : List Key.Path) : Run σ (Dict Value) :=
  match v with
  | .error _ => pure (Dict.ofList (paths.map fun p => (lastName p, v)))
  | _ => do
    let parts ← paths.mapM fun p => do
      let part ← extract h v p
      pure (lastName p, part)
    pure (Dict.ofList parts)

def destructuring? : Value → Option (List Key.Path)
  | .str s => Key.destructuring? s
  | _ => none

/-- What the value of a statement binds under its key. -/
def bindings (h : Host σ) (key v : Value) : Run σ (Dict Value) :=
  match destructuring? key with
  | some paths => destructure h v paths
  | none => pure [(key, v)]

mutual
/-- What an entry binds for the entries after it and, unless it is a declaration, in the answer. -/
def answerEntry (g : Setting σ) (scope : Scope) (context : Dict Value) :
    RequestEntry → Run σ (Dict Value)
  | .declare n v => pure [(.str n, v)]
  | .leaf key s => do
    let v ← g.evaluate scope (.str s) .data context
    bindings g.host key v
  | .scope key body => do
    let provider ← g.evaluate scope key .path context
    let child ← Scope.bind g provider
    answerEntries g child context [] body
  | .invalid key => pure [(key, .error CallError.invalidStatement)]

/-- Answers entries one after the other, where `results` is bound already. -/
def answerEntries (g : Setting σ) (scope : Scope) (context results : Dict Value) :
    List RequestEntry → Run σ (Dict Value)
  | [] => pure results
  | e :: r => do
    let bound ← answerEntry g scope context e
    let results := match e with
      | .declare .. => results
      | _ => Dict.insertAll results bound
    answerEntries g scope (Dict.insertAll context bound) results r
end

/-- The answer to a request in a scope. -/
def answer (g : Setting σ) (scope : Scope) (context : Dict Value) (request : Request) :
    Run σ (Dict Value) :=
  answerEntries g scope context [] request

/-- The answer to a value, which has to be a mapping. -/
def answerValue (g : Setting σ) (scope : Scope) (context : Dict Value) (v : Value) :
    Run σ (Dict Value) :=
  match Request.ofValue? g.host.objects v with
  | some request => answer g scope context request
  | none => throw (.notAMapping v.typeName)

/-- The answer to a value by the callables of `root`. -/
def run (g : Setting σ) (root v : Value) : Run σ (Dict Value) := do
  let scope ← Scope.bind g root
  answerValue g scope [] v

/-- The answer to a value by functions under their names. -/
def runFunctions (g : Setting σ) (functions : List (String × Value)) (v : Value) :
    Run σ (Dict Value) :=
  answerValue g (Scope.ofFunctions g.host.objects functions) [] v

/-- The entries of an answer that are errors. -/
def errors (results : Dict Value) : Dict Value := results.filter (·.2.isError)

end Answer
end CallTree
