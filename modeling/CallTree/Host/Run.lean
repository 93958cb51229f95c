import CallTree.Host.Object

/-! Runs of host functions: their effects, and what they leave behind. -/
namespace CallTree

/-- The way in which a statement is used. -/
inductive Mode
  /-- As the value of a key. -/
  | data
  /-- As the key of a scope. -/
  | path
  | unknown (v : Value)
  deriving DecidableEq

/-- A listed callable: the function behind a name, and the ways in which it may be used. -/
@[ext]
structure Entry where
  name : Value
  target : Value
  data : Bool
  path : Bool
  deriving DecidableEq

/-- One thing that happened in a run. -/
inductive Event
  /-- A function of the host ran. -/
  | call (name : String) (args : List Value)
  /-- A class or a factory of the host was called for what it makes. -/
  | make (name : String) (args : List Value)
  /-- A property of an object was read. -/
  | read (name : String)
  /-- The hook saw an argument. -/
  | transform (arg : Value)
  /-- A statement in the scope of `provider` got as far as a call of `entry`. -/
  | invoke (provider : Value) (mode : Mode) (name : String) (entry : Entry) (args : List Value)
  deriving DecidableEq

/-- The state of a run: that of the host, the events so far, and the number of errors logged. -/
structure Machine (σ : Type) where
  host : σ
  events : List Event
  logged : Nat

abbrev Run (σ : Type) := ExceptT Fault (StateM (Machine σ))

/-- A host: what can be seen of its objects, and what its functions do. They give a value or fail,
and neither end the program nor refuse in its place; what they write anywhere is in their own
state. -/
structure Host (σ : Type) where
  objects : Objects
  perform : FunctionRef → List Value → σ → Except Fault Value × σ

namespace Run

variable {σ : Type}

def record (e : Event) : Run σ Unit :=
  modify fun m => { m with events := m.events ++ [e] }

def logError : Run σ Unit :=
  modify fun m => { m with logged := m.logged + 1 }

end Run

namespace Host

variable {σ : Type}

/-- Runs what is behind a function. -/
def enter (h : Host σ) (f : FunctionRef) (args : List Value) : Run σ Value :=
  ExceptT.mk do
    let m ← get
    let (r, s) := h.perform f args m.host
    set { m with host := s }
    return r

/-- The record of a call. -/
def callEvent (h : Host σ) (f : FunctionRef) (args : List Value) : Event :=
  if h.objects.isClass (.function f) then .make f.name args else .call f.name args

/-- Calls a value. A wrong number of arguments shows before anything happens. -/
def call (h : Host σ) (target : Value) (args : List Value) : Run σ Value :=
  match target with
  | .function f => match h.objects.signature? f with
    | some s =>
      if s.accepts args.length then do
        Run.record (h.callEvent f args)
        h.enter f args
      else throw .badCall
    | none => throw .badCall
  | .object name => match h.objects.lookup name, args with
    | some .hook, [arg] => do
      Run.record (.transform arg)
      h.enter ⟨name, 0, name⟩ [arg]
    | some (.factory parameters), args =>
      if parameters.accept args.length then do
        Run.record (.make name args)
        h.enter ⟨name, 0, name⟩ args
      else throw .badCall
    | some .blueprint, args => do
      Run.record (.make name args)
      h.enter ⟨name, 0, name⟩ args
    | _, _ => throw .badCall
  | _ => throw .badCall

/-- The last member of a name is the one that counts. -/
def member? (ms : List Member) (name : String) : Option (Nat × Member) :=
  (ms.mapIdx fun i m => (i, m)).reverse.find? fun p => p.2.name == name

/-- Reads a member of an object. -/
def readMember (h : Host σ) (owner : String) (place : Nat) (m : Member) :
    Run σ (Option Value) :=
  match m.kind with
  | .attribute v | .slot v => pure (some v)
  | .property => do
    Run.record (.read m.name)
    tryCatch (some <$> h.enter ⟨owner, place, m.name⟩ []) fun
      | .missingAttribute => pure none
      | e => throw e
  | .ghost => pure none
  | _ => pure (some (.function ⟨owner, place, m.name⟩))

/-- The name under which providers offer their list of callables. -/
def listingName : String := "list_callables"

/-- The list of callables as an attribute, where a provider offers it. -/
def listingAttribute (owner : String) (place : Nat) (name : String) : Option Value :=
  if name == listingName then some (.function ⟨owner, place, listingName⟩) else none

/-- The value under a name of an object of the host or an error, if there is one. What every value
of a kind has, such as the operations of a text, is not among the parts. -/
def part? (h : Host σ) (v : Value) (name : String) : Run σ (Option Value) :=
  match v with
  | .error e =>
    pure (if name == "message" then some (.str e.message)
      else if name == "status" then some (.int e.status)
      else none)
  | .object owner => match h.objects.lookup owner with
    | some (.plain ms _) => match member? ms name with
      | some (i, m) => h.readMember owner i m
      | none => pure none
    | some (.provider ms _) => match member? ms name with
      | some (i, m) => h.readMember owner i m
      | none => pure (listingAttribute owner ms.length name)
    | some (.functions positional named) =>
      pure (if name == "funcs" then some (h.objects.functionMap owner positional named)
        else listingAttribute owner (positional.length + named.length) name)
    | some (.adapter of) =>
      pure (if name == "obj" then some of else listingAttribute owner 0 name)
    | some (.lister _) => pure (listingAttribute owner 0 name)
    | some (.space parts) => pure (parts.lookup name)
    | _ => pure none
  | _ => pure none

end Host
end CallTree
