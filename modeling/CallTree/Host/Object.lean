import CallTree.Dict
import CallTree.Fault

/-! Objects of the host, described by what can be seen of them without running anything. -/
namespace CallTree

/-- A mark on a function: the ways of use that it adds. -/
structure Mark where
  data : Bool
  path : Bool
  deriving DecidableEq

/-- The ways of use that are open. -/
structure Flags where
  data : Bool
  path : Bool
  deriving DecidableEq

def Flags.add (f : Flags) (m : Mark) : Flags := ⟨f.data || m.data, f.path || m.path⟩

/-- What marks are put on: a function, or a static or class method around one. Each of the two
objects has flags of its own. -/
inductive Decorated
  | function (flags : Flags)
  | around (own inner : Flags)
  deriving DecidableEq

namespace Decorated

def unmarked : Decorated := .function ⟨false, false⟩

/-- A mark goes through to the function inside, and takes no flag away. -/
def mark : Decorated → Mark → Decorated
  | .function f, m => .function (f.add m)
  | .around own inner, m => .around own (inner.add m)

def markAll (d : Decorated) (marks : List Mark) : Decorated := marks.foldl mark d

/-- A static or class method around a function. -/
def wrap : Decorated → Decorated
  | .function f => .around ⟨false, false⟩ f
  | d => d

/-- The flags of a member are its own, and those of the function inside. -/
def flags : Decorated → Flags
  | .function f => f
  | .around own inner => ⟨own.data || inner.data, own.path || inner.path⟩

end Decorated

/-- The parameters that a function declares: none, or some that take a number of arguments. A
function that takes any arguments and counts them itself declares some. -/
inductive Parameters
  | empty
  | between (least : Nat) (most : Option Nat)
  deriving DecidableEq

namespace Parameters

/-- Parameters for any number of arguments. -/
def any : Parameters := .between 0 none

def accept : Parameters → Nat → Bool
  | .empty, count => count == 0
  | .between least most, count =>
    least ≤ count && (match most with | some m => count ≤ m | none => true)

end Parameters

/-- What is known of a function from outside. -/
structure Signature where
  name : String
  marks : List Mark
  parameters : Parameters
  deriving DecidableEq

namespace Signature

/-- What the marks of a function leave on it. -/
def flags (s : Signature) : Flags := (Decorated.unmarked.markAll s.marks).flags

def data (s : Signature) : Bool := s.flags.data

def path (s : Signature) : Bool := s.flags.path

def accepts (s : Signature) (count : Nat) : Bool := s.parameters.accept count

end Signature

/-- What a member is. Listing runs nothing of any of these kinds: a property that is stored when it
is first read, which a listing would read, is none of them. -/
inductive MemberKind
  | method
  | static
  | classwide
  /-- Reading it runs a function. -/
  | property
  | attribute (v : Value)
  /-- A value that the class keeps a place for. -/
  | slot (v : Value)
  | functionAttribute
  | callableAttribute
  | nestedClass
  /-- A name that is announced but not there. -/
  | ghost
  deriving DecidableEq

namespace MemberKind

def isClass : MemberKind → Bool
  | .nestedClass => true
  | _ => false

/-- Whether a member, when it is read, is a function as it was defined. -/
def isPlainFunction : MemberKind → Bool
  | .static | .functionAttribute => true
  | _ => false

end MemberKind

structure Member where
  signature : Signature
  kind : MemberKind
  deriving DecidableEq

def Member.name (m : Member) : String := m.signature.name

/-- An entry of a mapping, or of a list of callables. -/
inductive Item
  | function (s : Signature)
  | value (v : Value)
  /-- A function listed with flags of its own, whatever its marks say. -/
  | flagged (s : Signature) (data path : Bool)
  deriving DecidableEq

/-- What happens when an object is asked for its callables. -/
inductive Listing
  | fails
  | reports (e : CallError)
  | gives (v : Value)
  | items (entries : List (Value × Item))
  deriving DecidableEq

inductive HostObject
  /-- An object made for dispatch, which lists its own methods. -/
  | provider (members : List Member) (text : String)
  | plain (members : List Member) (text : String)
  | functions (positional : List Signature) (named : List (Value × Item))
  | mapping (entries : List (Value × Item))
  /-- Makes any value a provider. -/
  | adapter (of : Value)
  /-- An object that answers a request for its callables in its own way. -/
  | lister (listing : Listing)
  /-- A function of one argument that replaces arguments of statements. -/
  | hook
  /-- A plain function that stands on its own. -/
  | factory (parameters : Parameters)
  /-- A class that stands on its own. -/
  | blueprint
  | space (parts : List (String × Value))
  deriving DecidableEq

/-- The objects of the host, by name. -/
abbrev Objects := List (String × HostObject)

/-- The function that an item stands for as a value of its mapping. -/
def Item.toValue (owner : String) (place : Nat) : Item → Value
  | .function s | .flagged s _ _ => .function ⟨owner, place, s.name⟩
  | .value v => v

/-- The signature of an item. What is no function takes a place but has none. -/
def Item.signature : Item → Signature
  | .function s | .flagged s _ _ => s
  | .value _ => ⟨"", [], .any⟩

/-- The mapping that items stand for, where `first` is the place of the first of them. -/
def itemEntries (owner : String) (first : Nat) (entries : List (Value × Item)) : Dict Value :=
  Dict.ofList (entries.mapIdx fun i e => (e.1, e.2.toValue owner (first + i)))

namespace Objects

/-- The entries of a value that is a mapping. -/
def entries? (os : Objects) : Value → Option (List (Value × Value))
  | .map es => some es
  | .object name => match os.lookup name with
    | some (.mapping es) => some (itemEntries name 0 es)
    | _ => none
  | _ => none

/-- The text of an object. -/
def textOf (os : Objects) (name : String) : String :=
  match os.lookup name with
  | some (.provider _ t) | some (.plain _ t) => t
  | _ => name

/-- The named functions of an object that was made from functions. -/
def functionEntries (os : Objects) (owner : String) (positional : List Signature)
    (named : List (Value × Item)) : List (String × Value) :=
  (positional.mapIdx fun i s => (s.name, Value.function ⟨owner, i, s.name⟩)) ++
    (itemEntries owner positional.length named).map fun e => (e.1.text os.textOf, e.2)

/-- The mapping in which such an object keeps its functions. -/
def functionMap (os : Objects) (owner : String) (positional : List Signature)
    (named : List (Value × Item)) : Value :=
  .map (Dict.ofList ((os.functionEntries owner positional named).map fun e => (.str e.1, e.2)))

/-- The signatures of the functions of an object, in their places. -/
def signatures : HostObject → List Signature
  | .provider ms _ | .plain ms _ => ms.map (·.signature)
  | .functions positional named => positional ++ named.map (·.2.signature)
  | .mapping es | .lister (.items es) => es.map (·.2.signature)
  | .hook => [⟨"", [], .between 1 (some 1)⟩]
  | _ => []

def signature? (os : Objects) (f : FunctionRef) : Option Signature :=
  (os.lookup f.owner).bind fun o => (signatures o)[f.place]?

def isCallable (os : Objects) : Value → Bool
  | .function _ => true
  | .object name => match os.lookup name with
    | some .hook | some (.factory _) | some .blueprint => true
    | _ => false
  | _ => false

/-- The member of an object that a function is. -/
def member? (os : Objects) (f : FunctionRef) : Option Member :=
  match os.lookup f.owner with
  | some (.provider ms _) | some (.plain ms _) => ms[f.place]?
  | _ => none

def isClass (os : Objects) : Value → Bool
  | .object name => match os.lookup name with
    | some .blueprint => true
    | _ => false
  | .function f => match os.member? f with
    | some m => m.kind.isClass
    | none => false
  | _ => false

/-- The parameters of a plain function, which is neither a method of an object or a class nor an
object that can be called. -/
def plainParameters? (os : Objects) : Value → Option Parameters
  | .object name => match os.lookup name with
    | some .hook => some (.between 1 (some 1))
    | some (.factory ps) => some ps
    | _ => none
  | .function f => match os.member? f with
    | some m => if m.kind.isPlainFunction then some m.signature.parameters else none
    | none => (os.signature? f).map (·.parameters)
  | _ => none

/-- Whether a value stands for what it makes without arguments: a class does, and a plain function
that has no parameters. -/
def isMaker (os : Objects) (v : Value) : Bool :=
  os.isClass v || os.plainParameters? v == some .empty

end Objects
end CallTree
