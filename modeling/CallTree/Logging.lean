import CallTree.Config

/-! A log with one handler of its own and any number of foreign ones. -/
namespace CallTree

structure Handler where
  stream : String
  /-- Whether it was put there by `configure`. -/
  own : Bool
  deriving DecidableEq

/-- The handlers and the level of a log, and the texts of all streams. -/
structure Logging where
  handlers : List Handler
  level : Level
  streams : List (String × String)
  deriving DecidableEq

namespace Logging

def initial : Logging := ⟨[], 0, []⟩

/-- Streams are opened once. -/
def openStream (name : String) (streams : List (String × String)) : List (String × String) :=
  if (streams.lookup name).isSome then streams else streams ++ [(name, "")]

def write (name line : String) (streams : List (String × String)) : List (String × String) :=
  streams.map fun s => if s.1 = name then (s.1, s.2 ++ line ++ "\n") else s

/-- Handlers without the own ones, which are taken away one at a time on the way through a copy. -/
def withoutOwn (handlers : List Handler) : List Handler :=
  handlers.foldl (fun hs h => if h.own then hs.erase h else hs) handlers

/-- A new handler takes the place of the own one before it. -/
def configure (l : Logging) (level : Level) (stream : String) : Logging :=
  { handlers := withoutOwn l.handlers ++ [⟨stream, true⟩]
    level := level
    streams := openStream stream l.streams }

def addForeign (l : Logging) (stream : String) : Logging :=
  { l with
    handlers := l.handlers ++ [⟨stream, false⟩]
    streams := openStream stream l.streams }

/-- The name of the log. -/
def logName : String := "qeres"

/-- Whether messages of a logger reach the log: its own, and those of the loggers below it. -/
def reaches (logger : String) : Bool := logger == logName || logger.startsWith (logName ++ ".")

/-- A log without a level has the one of all logs. -/
def threshold (l : Logging) : Level := if l.level = 0 then Level.warning else l.level

def line (own : Bool) (logger : String) (level : Level) (message : String) : String :=
  if own then level.label ++ " " ++ logger ++ ": " ++ message else message

/-- A message goes once to each handler, if it is serious enough. -/
def log (l : Logging) (logger : String) (level : Level) (message : String) : Logging :=
  if reaches logger ∧ 0 < level ∧ l.threshold ≤ level then
    { l with
      streams := l.handlers.foldl
        (fun ss h => write h.stream (line h.own logger level message) ss) l.streams }
  else l

/-- What can be done to a log. -/
inductive Step
  | configure (level : Level) (stream : String)
  | addForeign (stream : String)
  | message (logger : String) (level : Level) (text : String)
  deriving DecidableEq

def step (l : Logging) : Step → Logging
  | .configure level stream => l.configure level stream
  | .addForeign stream => l.addForeign stream
  | .message logger level text => l.log logger level text

def run (steps : List Step) : Logging := steps.foldl step initial

end Logging
end CallTree
