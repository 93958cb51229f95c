import CallTree.Document.Format
import CallTree.Text.Blank

/-! Settings that the environment gives. -/
namespace CallTree

/-- How serious a log message is: the greater the number, the more so. -/
abbrev Level := Int

namespace Level

def debug : Level := 10
def warning : Level := 30

def named : List (String × Level) :=
  [("CRITICAL", 50), ("FATAL", 50), ("ERROR", 40), ("WARN", 30), ("WARNING", 30), ("INFO", 20),
   ("DEBUG", 10), ("NOTSET", 0)]

def ofName? (s : String) : Option Level := named.lookup s

/-- The name that a log line shows. -/
def label (l : Level) : String :=
  match [(50, "CRITICAL"), (40, "ERROR"), (30, "WARNING"), (20, "INFO"), (10, "DEBUG"),
    (0, "NOTSET")].lookup l with
  | some s => s
  | none => "Level " ++ toString l

end Level

structure Config where
  level : Level
  format : Format
  deriving DecidableEq

namespace Config

/-- The variables of an environment. -/
abbrev Environment := List (String × String)

/-- A variable that is set to something. -/
def setting (env : Environment) (name : String) : Option String :=
  (env.lookup name).filter (· != "")

def ofEnvironment (env : Environment) : Except Fault Config := do
  let name := String.ofList
    (Text.upper (Text.trim ((setting env "QERES_LOG_LEVEL").getD "").toList))
  let level ←
    if name = "" then .ok Level.warning
    else match Level.ofName? name with
      | some l => .ok l
      | none => .error (.unknownLevel name)
  let level := if (setting env "QERES_DEBUG").isSome then Level.debug else level
  let name := String.ofList
    (Text.lower (Text.trim ((setting env "QERES_FORMAT").getD "json").toList))
  match Format.ofName? name with
  | some format => return ⟨level, format⟩
  | none => .error (.unknownFormat name)

end Config
end CallTree
