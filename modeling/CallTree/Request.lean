import CallTree.Host.Object
import CallTree.Key

/-! Requests: trees of entries, each a statement, a scope of its own, or a declared variable. -/
namespace CallTree

inductive RequestEntry
  /-- A value for a variable. -/
  | declare (name : String) (v : Value)
  /-- A statement, and the key under which its value is answered. -/
  | leaf (key : Value) (statement : String)
  /-- A statement for an object, and a request to it. -/
  | scope (key : Value) (body : List RequestEntry)
  /-- A value that is neither a statement nor a request. -/
  | invalid (key : Value)
  deriving Inhabited

abbrev Request := List RequestEntry

namespace Request

def declared? : Value → Option String
  | .str s => Key.declarationName? s
  | _ => none

mutual
/-- The entry for a key and its value. `known` gives the requests that objects of the host are. -/
def entry (known : String → Option Request) (key : Value) : Value → RequestEntry
  | .str s => match declared? key with
    | some n => .declare n (.str s)
    | none => .leaf key s
  | .map es => match declared? key with
    | some n => .declare n (.map es)
    | none => .scope key (ofEntries known es)
  | .object name => match declared? key, known name with
    | some n, _ => .declare n (.object name)
    | none, some body => .scope key body
    | none, none => .invalid key
  | v => match declared? key with
    | some n => .declare n v
    | none => .invalid key

def ofEntries (known : String → Option Request) : List (Value × Value) → Request
  | [] => []
  | (k, v) :: r => entry known k v :: ofEntries known r
end

/-- The requests that objects of the host are, down to a depth of objects within objects. -/
def ofObject? (os : Objects) : Nat → String → Option Request
  | 0, _ => none
  | n + 1, name => (os.entries? (.object name)).map (ofEntries (ofObject? os n))

/-- A value as a request, if it is a mapping. No object lies deeper in others than there are
objects, unless it lies in itself. -/
def ofValue? (os : Objects) : Value → Option Request
  | .map es => some (ofEntries (ofObject? os os.length) es)
  | .object name => ofObject? os os.length name
  | _ => none

end Request
end CallTree
