import CallTree.CommandLine.Files
import CallTree.CommandLine.Options
import CallTree.Config
import CallTree.Exchange
import CallTree.Text.Split

/-! Runs of the command line: a request from a document, answered by an object of a module. -/
namespace CallTree.CommandLine

variable {σ : Type}

/-- Why a run is refused before any statement is evaluated. -/
inductive Refusal
  | setting (f : Fault)
  | malformedName (spec : String)
  /-- No module has the name; `part` is the part of it that fails. -/
  | noModule (name part : String)
  /-- A name goes on behind a module that has no modules in it. -/
  | noPackage (name part parent : String)
  | noAttribute (module path : String)
  | noFile (path : String)
  | unreadable
  | notAMapping
  deriving DecidableEq

def Refusal.message : Refusal → String
  | .setting f => f.message?.getD ""
  | .malformedName s => "Expected 'module:attribute', got " ++ Text.quote s
  | .noModule n p => "Cannot import " ++ Text.quote n ++ ": No module named " ++ Text.quote p
  | .noPackage n p q => "Cannot import " ++ Text.quote n ++ ": No module named " ++ Text.quote p ++
      "; " ++ Text.quote q ++ " is not a package"
  | .noAttribute m p => Text.quote m ++ " has no attribute " ++ Text.quote p
  | .noFile p => "file not found: " ++ p
  | .unreadable => "Cannot read request document"
  | .notAMapping => "The request document must be a mapping"

/-- What a run leaves: its status, and what it prints itself. -/
structure Outcome where
  status : Nat
  output : String
  errors : List String
  deriving DecidableEq

def Outcome.refused (r : Refusal) : Outcome := ⟨2, "", ["Error: " ++ r.message]⟩

/-- What a run can reach: modules and the values in them, variables, files, text on its input. -/
structure Surroundings (σ : Type) where
  host : Host σ
  modules : List (String × List (String × Value))
  environment : Config.Environment
  files : String → Except PathFault (List UInt8)
  input : String

abbrev Attempt (σ : Type) := ExceptT Refusal (Run σ)

/-! Providers and hooks -/

/-- The parts of a name up to each point in it. -/
def nameParts (name : String) : List String :=
  let parts := (Key.splitOn '.' name.toList)
  (List.range parts.length).map fun i => String.ofList (Text.join ['.'] (parts.take (i + 1)))

/-- The values in a module. A name with points leads through modules, of which none has others in
it. -/
def findModule (modules : List (String × List (String × Value))) (name : String) :
    Except Refusal (List (String × Value)) :=
  match nameParts name with
  | [] => .error (.noModule name name)
  | first :: r => match modules.lookup first, r with
    | none, _ => .error (.noModule name first)
    | some values, [] => .ok values
    | some _, second :: _ => .error (.noPackage name second first)

/-- The module and the path in a name such as `module:path`. -/
def cutSpec (spec : String) : Except Refusal (String × String) :=
  match Text.cut? [':'] spec.toList with
  | some (m, p) =>
    if m = [] ∨ p = [] then .error (.malformedName spec)
    else .ok (String.ofList m, String.ofList p)
  | none => .error (.malformedName spec)

/-- The value that names lead to from another one. -/
def follow (h : Host σ) (refusal : Refusal) : Value → List String → Attempt σ Value
  | v, [] => pure v
  | v, name :: r => do
    match ← ExceptT.lift (h.part? v name) with
    | some part => follow h refusal part r
    | none => throw refusal

/-- The value with a name such as `module:path`. -/
def load (s : Surroundings σ) (spec : String) : Attempt σ Value := do
  let (name, path) ← MonadExcept.ofExcept (cutSpec spec)
  -- a name that begins with a point is relative to a module, and there is none
  if name.toList.head? = some '.' then
    ExceptT.lift (throw .badCall)
  else
    let values ← MonadExcept.ofExcept (findModule s.modules name)
    match (Key.splitOn '.' path.toList).map String.ofList with
    | [] => throw (.noAttribute name path)
    | first :: r => match values.lookup first with
      | some v => follow s.host (.noAttribute name path) v r
      | none => throw (.noAttribute name path)

/-- A provider. Classes and plain functions without parameters stand for what they make. -/
def loadProvider (s : Surroundings σ) (spec : String) : Attempt σ Value := do
  let v ← load s spec
  if s.host.objects.isMaker v then ExceptT.lift (s.host.call v [])
  else return v

/-- A hook as it was found: where there is nothing under the name, there is none. -/
def hookOf? : Value → Option Value
  | .null => none
  | v => some v

/-- The hook that is named, if one is. -/
def loadTransform (s : Surroundings σ) (name : Option String) : Attempt σ (Option Value) :=
  match name.filter (· ≠ "") with
  | some t => hookOf? <$> load s t
  | none => pure none

/-! Requests -/

/-- Whether a fault says that a document is malformed. -/
def isMalformed : Fault → Bool
  | .malformedJson | .malformedYaml | .malformedToml | .malformedXml | .badValue | .badEncoding
  | .unsupportedRequest _ | .unsupportedResult _ => true
  | _ => false

/-- The text of the request, and the format that its path shows. -/
def readSource (s : Surroundings σ) (path : String) : Attempt σ (String × Option Format) :=
  if path = "-" then pure (s.input, none)
  else match s.files path with
    | .error .missing => throw (.noFile path)
    | .error .directory => ExceptT.lift (throw .isDirectory)
    | .error .notDirectory => ExceptT.lift (throw .notDirectory)
    | .error .unusable => ExceptT.lift (throw .badValue)
    | .ok bs => match Text.decodeUtf8? bs with
      | some t => pure (String.ofList (Text.unifyBreaks t), Format.ofPath? path)
      | none => ExceptT.lift (throw .badEncoding)

def readRequest (s : Surroundings σ) (path : String) : Attempt σ Value := do
  let (text, format) ← readSource s path
  match Document.read (format.map Format.name) none (.str text) with
  | .ok (.map es) => return .map es
  | .ok _ => throw .notAMapping
  | .error f => if isMalformed f then throw .unreadable else ExceptT.lift (throw f)

/-! Runs -/

/-- What has to be there before a request is answered. -/
structure Prepared where
  root : Value
  transform : Option Value
  request : Value

/-- All that comes before the answer. -/
def prepare (s : Surroundings σ) (o : Options) : Attempt σ Prepared := do
  let root ← loadProvider s o.provider
  let transform ← loadTransform s o.transform
  let request ← readRequest s o.request
  return ⟨root, transform, request⟩

/-- The answer to a request, what is printed of it, and whether there is an error in it. -/
def finish (s : Surroundings σ) (format : Format) (p : Prepared) : Run σ Outcome := do
  let result ← Answer.run ⟨s.host, p.transform⟩ p.root p.request
  let text ← MonadExcept.ofExcept (Exchange.print s.host.objects (some format.name) result)
  return ⟨if (Answer.errors result).isEmpty then 0 else 1, text ++ "\n", []⟩

/-- What a run with given options prints, and whether there is no error among the results. -/
def answer (s : Surroundings σ) (o : Options) (config : Config) : Attempt σ Outcome := do
  let p ← prepare s o
  ExceptT.lift (finish s (o.format.getD config.format) p)

def run (s : Surroundings σ) (arguments : List String) : Run σ Outcome := do
  match Options.ofArguments arguments with
  | .error .help => return ⟨0, helpText, []⟩
  | .error .misuse => return ⟨2, "", []⟩
  | .ok o => match Config.ofEnvironment s.environment with
    | .error f => return .refused (.setting f)
    | .ok config => match ← (answer s o config).run with
      | .ok outcome => return outcome
      | .error r => return .refused r

end CallTree.CommandLine
