import CallTree.Document.Format
import CallTree.Text.Digit

/-! The options of the command line. -/
namespace CallTree.CommandLine

inductive OptionKind
  | help
  | provider
  | transform
  | format
  | verbose
  deriving DecidableEq

namespace OptionKind

def all : List OptionKind := [.help, .provider, .transform, .format, .verbose]

def letter : OptionKind → Char
  | .help => 'h'
  | .provider => 'p'
  | .transform => 't'
  | .format => 'f'
  | .verbose => 'v'

def word : OptionKind → String
  | .help => "help"
  | .provider => "provider"
  | .transform => "transform"
  | .format => "format"
  | .verbose => "verbose"

def takesValue : OptionKind → Bool
  | .help | .verbose => false
  | _ => true

def ofLetter? (c : Char) : Option OptionKind := all.find? (·.letter == c)

def ofWord? (s : List Char) : Option OptionKind := all.find? (·.word.toList == s)

/-- The options whose word begins with the text. -/
def startingWith (s : List Char) : List OptionKind := all.filter fun o => s.isPrefixOf o.word.toList

end OptionKind

/-- Why the arguments give no options. -/
inductive Stop
  | help
  | misuse
  deriving DecidableEq

/-- The role of an argument. -/
inductive Word
  | plain (s : String)
  /-- The mark behind which all arguments are plain. -/
  | mark
  /-- An option, given by its letter or its word, perhaps with text that belongs to it; `equals`
  tells that an equals sign is between them. -/
  | option (kind : OptionKind) (short equals : Bool) (text : Option (List Char))
  | unknown
  deriving DecidableEq

namespace Word

/-- Text before and behind the first equals sign. -/
def cutValue (s : List Char) : List Char × Option (List Char) :=
  match s.span (· != '=') with
  | (a, _ :: b) => (a, some b)
  | (a, []) => (a, none)

/-- The text behind the letter of an option, and whether an equals sign sets it apart. -/
def textBehind : List Char → Bool × Option (List Char)
  | [] => (false, none)
  | '=' :: r => (true, some r)
  | r => (false, some r)

/-- Whether the text behind a minus is a number. A line break at its end is not looked at. -/
def isNegativeNumber (s : List Char) : Bool :=
  let s := if s.getLast? = some '\n' then s.dropLast else s
  match s.span Text.isDecimal with
  | (ds, []) => !ds.isEmpty
  | (_, '.' :: r) => !r.isEmpty && r.all Text.isDecimal
  | _ => false

/-- An argument that begins like an option and is none: a number, text with spaces, or a mistake. -/
def other (s : List Char) : Word :=
  if isNegativeNumber (s.drop 1) || s.contains ' ' then .plain (String.ofList s) else .unknown

/-- The role of an argument in front of the mark. A word can be shortened as long as only one option
begins with it. -/
def ofArgument (arg : String) : Except Stop Word :=
  match arg.toList with
  | '-' :: '-' :: r =>
    let (name, text) := cutValue r
    match OptionKind.ofWord? r with
    | some o => .ok (.option o false false none)
    | none => match OptionKind.ofWord? name with
      | some o => .ok (.option o false true text)
      | none => match OptionKind.startingWith name with
        | [o] => .ok (.option o false true text)
        | [] => .ok (other ('-' :: '-' :: r))
        | _ => .error .misuse
  | '-' :: c :: r =>
    match OptionKind.ofLetter? c with
    | some o =>
      let (equals, text) := textBehind r
      .ok (.option o true equals text)
    | none => .ok (other ('-' :: c :: r))
  | _ => .ok (.plain arg)

def ofArguments : List String → Except Stop (List Word)
  | [] => .ok []
  | arg :: r =>
    if arg = "--" then .ok (.mark :: r.map .plain)
    else do return (← ofArgument arg) :: (← ofArguments r)

end Word

/-- An option, with its value if it takes one. -/
abbrev Choice := OptionKind × Option String

/-- What an argument gives: options, and whether a part of it has no place. -/
structure Given where
  choices : List Choice
  excess : Bool

/-- The option itself, with the next argument if it takes a value; the arguments behind come with
it. -/
def alone (o : OptionKind) (rest : List Word) : Except Stop (Given × List Word) :=
  if o.takesValue then
    match rest with
    | .plain s :: r => .ok (⟨[(o, some s)], false⟩, r)
    | _ => .error .misuse
  else .ok (⟨[(o, none)], false⟩, rest)

/-- An option with text behind its letter or word: its value, or the letters of more options. -/
def withText (o : OptionKind) (short equals : Bool) (text : List Char) (rest : List Word) :
    Except Stop (Given × List Word) :=
  if o.takesValue then .ok (⟨[(o, some (String.ofList text))], false⟩, rest)
  else match text with
    | [] => .error .misuse
    | c :: more =>
      if !short || equals || c == '-' then .error .misuse
      else match OptionKind.ofLetter? c with
        | none => .ok (⟨[(o, none)], true⟩, rest)
        | some o' => do
          let (g, rest) ← match more with
            | [] => alone o' rest
            | '=' :: more => withText o' true true more rest
            | d :: more => withText o' true false (d :: more) rest
          return (⟨(o, none) :: g.choices, g.excess⟩, rest)
  termination_by text.length

/-- What an option gives, and the arguments behind. -/
def given (o : OptionKind) (short equals : Bool) (text : Option (List Char)) (rest : List Word) :
    Except Stop (Given × List Word) :=
  match text with
  | none => alone o rest
  | some text => withText o short equals text rest

/-- What the arguments gave so far. -/
structure Draft where
  request : Option String
  provider : Option String
  transform : Option String
  format : Option Format
  verbose : Bool
  /-- Whether there is an argument that has no place. -/
  excess : Bool

namespace Draft

def empty : Draft := ⟨none, none, none, none, false, false⟩

def set (d : Draft) : Choice → Except Stop Draft
  | (.help, _) => .error .help
  | (.verbose, _) => .ok { d with verbose := true }
  | (.provider, v) => .ok { d with provider := v }
  | (.transform, v) => .ok { d with transform := v }
  | (.format, v) => match v.bind Format.ofName? with
    | some f => .ok { d with format := some f }
    | none => .error .misuse

/-- Takes the arguments in. A mark right behind the request goes with it; `fresh` tells that the
request is the last argument so far. -/
def takeAll : Nat → Bool → List Word → Draft → Except Stop Draft
  | 0, _, _, d => .ok d
  | _, _, [], d => .ok d
  | n + 1, fresh, w :: r, d => match w with
    | .plain s =>
      if d.request.isNone then takeAll n true r { d with request := some s }
      else takeAll n false r { d with excess := true }
    | .mark =>
      if d.request.isNone ∨ fresh then takeAll n false r d
      else takeAll n false r { d with excess := true }
    | .unknown => takeAll n false r { d with excess := true }
    | .option o short equals text => do
      let (g, r) ← given o short equals text r
      takeAll n false r (← g.choices.foldlM set { d with excess := d.excess || g.excess })

end Draft

/-- The options of a run. -/
structure Options where
  request : String
  provider : String
  transform : Option String
  format : Option Format
  verbose : Bool

/-- The options that arguments give. -/
def Options.ofArguments (args : List String) : Except Stop Options := do
  let words ← Word.ofArguments args
  let d ← Draft.takeAll (words.length + 1) false words .empty
  match d.request, d.provider with
  | some request, some provider =>
    if d.excess then .error .misuse
    else return ⟨request, provider, d.transform, d.format, d.verbose⟩
  | _, _ => .error .misuse

/-- What is printed about the options. -/
def helpText : String :=
  "usage: qeres [-h] -p PROVIDER [-t TRANSFORM] [-f \x7bjson,yaml,toml,xml\x7d] [-v]
             request

Answer a Qeres request document against a provider

positional arguments:
  request               request file (.json/.yaml/.toml) or '-' for stdin

options:
  -h, --help            show this help message and exit
  -p PROVIDER, --provider PROVIDER
                        root provider as 'module:attribute'
  -t TRANSFORM, --transform TRANSFORM
                        argument transform hook as 'module:attribute'
  -f \x7bjson,yaml,toml,xml\x7d, --format \x7bjson,yaml,toml,xml\x7d
                        output format
  -v, --verbose         debug logging
"

end CallTree.CommandLine
