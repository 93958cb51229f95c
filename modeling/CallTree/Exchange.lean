import CallTree.Answer
import CallTree.Document.Printer
import CallTree.Document.Reader

/-! Documents answered by documents. -/
namespace CallTree

/-- A document, and what is said about it. -/
structure Source where
  data : Value
  format : Option String
  mediaType : Option String

def Source.read (s : Source) : Except Fault Value := Document.read s.format s.mediaType s.data

namespace Exchange

variable {σ : Type}

/-- The results of a request as a document. -/
def print (os : Objects) (format : Option String) (result : Dict Value) : Except Fault String :=
  Document.print os format true Document.rootName (.map result)

/-- Reads a request, answers it in a root scope, and prints the results. -/
def run (g : Setting σ) (root : Value) (source : Source) (output : Option String) :
    Run σ String := do
  let request ← MonadExcept.ofExcept source.read
  let result ← Answer.answerValue g (← Scope.bind g root) [] request
  MonadExcept.ofExcept (print g.host.objects output result)

end Exchange
end CallTree
