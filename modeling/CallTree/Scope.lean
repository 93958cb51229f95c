import CallTree.Argument
import CallTree.Call
import CallTree.Table

/-! Scopes, and the evaluation of one statement in them. -/
namespace CallTree

/-- Where statements are evaluated: the provider, and its callables. A scope without callables of
its own is poisoned by an error, which every statement in it yields. -/
structure Scope where
  provider : Value
  callables : Except CallError Table

/-- A host, and the hook that sees every argument. -/
structure Setting (σ : Type) where
  host : Host σ
  transform : Option Value

variable {σ : Type}

namespace Scope

def poisoned (s : Scope) : Option CallError :=
  match s.callables with
  | .error e => some e
  | .ok _ => none

def table (s : Scope) : Table :=
  match s.callables with
  | .error _ => []
  | .ok t => t

/-- The root scope of functions under their names. -/
def ofFunctions (os : Objects) (functions : List (String × Value)) : Scope :=
  ⟨.null, .ok (Table.ofNamed os functions)⟩

/-- The scope of a provider. An error poisons it, and so does a provider that cannot be asked. -/
def bind (g : Setting σ) (provider : Value) : Run σ Scope :=
  match provider with
  | .error e => pure ⟨provider, .error e⟩
  | _ => match Table.ofValue g.host.objects provider with
    | .ok t => pure ⟨provider, .ok t⟩
    | .error _ => do
      Run.logError
      pure ⟨provider, .error CallError.methodError⟩

end Scope

namespace Argument

/-- The value of an argument where `context` holds the variables. -/
def value (context : Dict Value) (text : String) : Value :=
  match ofText text with
  | .variable n => (Dict.get? (.str n) context).getD .null
  | .literal s => .str s

end Argument

namespace Setting

variable (g : Setting σ)

/-- What the hook makes of an argument. Where it gives nothing, the argument stays. -/
def applyTransform (arg : Value) : Run σ Value :=
  match g.transform with
  | none => pure arg
  | some t => do
    match ← g.host.call t [arg] with
    | .null => pure arg
    | v => pure v

/-- The call behind a statement, once its entry is found. -/
def invoke (scope : Scope) (mode : Mode) (name : String) (entry : Entry) (args : List Value) :
    Run σ Value := do
  let args ← args.mapM g.applyTransform
  Run.record (.invoke scope.provider mode name entry args)
  g.host.call entry.target args

/-- Error values that are raised are values; any other fault is logged and becomes one. -/
def contain (x : Run σ Value) : Run σ Value :=
  tryCatch x fun
    | .reported e => pure (.error e)
    | _ => do
      Run.logError
      pure (.error CallError.methodError)

/-- The value of a statement. -/
def evaluate (scope : Scope) (statement : Value) (mode : Mode) (context : Dict Value) :
    Run σ Value :=
  match scope.callables with
  | .error e => pure (.error e)
  | .ok table =>
    match statement with
    | .str s => match Call.ofStatement? s with
      | some call => match table.resolve (.str call.name) mode with
        | .error f => throw f
        | .ok (.error e) => pure (.error e)
        | .ok (.ok entry) =>
          contain (g.invoke scope mode call.name entry (call.args.map (Argument.value context)))
      | none => pure (.error CallError.invalidStatement)
    | _ => pure (.error CallError.invalidStatement)

end Setting
end CallTree
