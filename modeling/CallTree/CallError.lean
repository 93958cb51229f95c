import CallTree.Text.Quoted

/-! The closed set of errors that take the place of a value in an answer. -/
namespace CallTree

inductive ErrorKind
  | invalidStatement
  | methodNotFound
  | methodAccess
  | methodError
  deriving DecidableEq, Inhabited

/-- An error value: what went wrong, in words and as a kind. -/
structure CallError where
  kind : ErrorKind
  message : String
  deriving DecidableEq, Inhabited

namespace ErrorKind

def status : ErrorKind → Nat
  | .invalidStatement => 400
  | .methodNotFound => 404
  | .methodAccess => 403
  | .methodError => 500

def label : ErrorKind → String
  | .invalidStatement => "INVALID_STATEMENT"
  | .methodNotFound => "METHOD_NOT_FOUND"
  | .methodAccess => "METHOD_ACCESS"
  | .methodError => "METHOD_ERROR"

def all : List ErrorKind := [.invalidStatement, .methodNotFound, .methodAccess, .methodError]

def ofLabel? (s : String) : Option ErrorKind := all.find? (·.label == s)

def canonicalMessage : ErrorKind → String
  | .invalidStatement => "Invalid statement: The statement should be a call for a method"
  | .methodNotFound => "The method is not found"
  | .methodAccess =>
    "The method can't be accessed. You may be able to access this method in a different way."
  | .methodError => "The method is accessed and found, but it throwed an unknown error"

end ErrorKind

namespace CallError

/-- The error that the dispatch itself reports for a kind. -/
def canonical (k : ErrorKind) : CallError := ⟨k, k.canonicalMessage⟩

def invalidStatement : CallError := canonical .invalidStatement
def methodNotFound : CallError := canonical .methodNotFound
def methodAccess : CallError := canonical .methodAccess
def methodError : CallError := canonical .methodError

def IsCanonical (e : CallError) : Prop := e = canonical e.kind

instance (e : CallError) : Decidable e.IsCanonical := inferInstanceAs (Decidable (_ = _))

def status (e : CallError) : Nat := e.kind.status

def repr (e : CallError) : String :=
  "QeresError(" ++ e.kind.label ++ ", " ++ Text.quote e.message ++ ")"

end CallError
end CallTree
