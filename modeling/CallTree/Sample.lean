import CallTree.Request
import CallTree.World

/-! A small host to try requests against: a notebook that counts, keeps a value, and has pages. -/
namespace CallTree.Sample

/-- A method for both ways of use. -/
def method (name : String) (parameters : Parameters) : Member :=
  ⟨⟨name, [⟨true, true⟩], parameters⟩, .method⟩

def notebook : HostObject :=
  .provider
    [method "echo" .any, method "count" .empty, method "keep" (.between 1 (some 1)),
      method "kept" .empty, method "page" .any]
    "notebook"

def page : HostObject := .provider [method "title" .empty] "page"

def world : World where
  objects := [("notebook", notebook), ("page", page)]
  scripts :=
    [("notebook", .actions
        [.echo, .count "count", .store "kept", .load "kept", .give (.object "page")]),
      ("page", .actions [.give (.str "The first page")])]

/-- The values of the host by name. -/
def values : List (String × Value) := world.objects.map fun o => (o.1, .object o.1)

/-- A request to a notebook. Names come up in several scopes, in a pattern, and for a value of no
meaning. -/
def request : Request :=
  [.leaf (.str "n") "count()", .declare "who" (.str "Ann"),
    .scope (.str "page()")
      [.declare "who" (.str "Bob"), .leaf (.str "t") "title()", .leaf (.str "n") "missing()"],
    .invalid (.int 1), .leaf (.str "\x7ba.t, b.last\x7d") "echo($\x7bwho\x7d)"]

end CallTree.Sample
