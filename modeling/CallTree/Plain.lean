import CallTree.Host.Object

/-! Plain data: what documents hold once errors, objects and the like are rendered. -/
namespace CallTree

inductive Plain
  | null
  | bool (b : Bool)
  | int (n : Int)
  | float (x : Binary64)
  | str (s : String)
  | list (xs : List Plain)
  | map (entries : List (String × Plain))
  deriving Inhabited

namespace Plain

/-- A known key keeps its place and gets the new value; a new key goes to the end. -/
def insert (k : String) (v : Plain) : List (String × Plain) → List (String × Plain)
  | [] => [(k, v)]
  | (k', v') :: r => if k' = k then (k', v) :: r else (k', v') :: insert k v r

def ofEntries (entries : List (String × Plain)) : List (String × Plain) :=
  entries.foldl (fun d e => insert e.1 e.2 d) []

mutual
def toValue : Plain → Value
  | .null => .null
  | .bool b => .bool b
  | .int n => .int n
  | .float x => .float x
  | .str s => .str s
  | .list xs => .list (toValues xs)
  | .map es => .map (toEntries es)

def toValues : List Plain → List Value
  | [] => []
  | x :: r => toValue x :: toValues r

def toEntries : List (String × Plain) → List (Value × Value)
  | [] => []
  | (k, v) :: r => (.str k, toValue v) :: toEntries r
end

/-- An error as an entry of a document. -/
def ofError (e : CallError) : Plain :=
  .map [("error", .str e.message), ("status", .int e.status)]

mutual
/-- A value as plain data. `object` gives the plain form of an object of the host, and `textOf` its
text. -/
def ofValue (textOf : String → String) (object : String → Plain) : Value → Plain
  | .null => .null
  | .bool b => .bool b
  | .int n => .int n
  | .float x => .float x
  | .str s => .str s
  | .error e => ofError e
  | .list xs | .tuple xs | .set xs => .list (ofValues textOf object xs)
  | .map es => .map (ofEntries (ofPairs textOf object es))
  | .object name => object name
  | .bytes bs => .str (Value.text textOf (.bytes bs))
  | .moment m => .str (Value.text textOf (.moment m))
  | .function f => .str (Value.text textOf (.function f))

def ofValues (textOf : String → String) (object : String → Plain) : List Value → List Plain
  | [] => []
  | x :: r => ofValue textOf object x :: ofValues textOf object r

/-- The entries of a mapping with the texts of their keys. -/
def ofPairs (textOf : String → String) (object : String → Plain) :
    List (Value × Value) → List (String × Plain)
  | [] => []
  | (k, v) :: r => (k.text textOf, ofValue textOf object v) :: ofPairs textOf object r
end

/-- The plain form of an object: of its entries if it is a mapping, and else its text. -/
def ofObject (os : Objects) : Nat → String → Plain
  | 0, name => .str (os.textOf name)
  | n + 1, name => match os.entries? (.object name) with
    | some es => .map (ofEntries (ofPairs os.textOf (ofObject os n) es))
    | none => .str (os.textOf name)

/-- The plain form of a value in a world of objects. -/
def render (os : Objects) (v : Value) : Plain :=
  ofValue os.textOf (ofObject os (os.length + 1)) v

end Plain
end CallTree
