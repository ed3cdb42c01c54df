import Signpost.Route.Table

/-!
This module contains the keys of requests and of written routes: the method in small letters, then the
segments of the path.
-/

namespace Signpost.Route

/-- The key under which a request is looked up. The query is no part of it. -/
def requestKey (method path : String) : String :=
  let path := ((Text.splitOnce '?' path).map (·.1)).getD path
  joinPath (method.toLower :: segments path)

/-- The key under which a written route is stored. Its parameters become wildcards. -/
def routeKey (method path wildcard : String) : String :=
  joinPath (method.toLower :: (segments path).map fun s => if isParameter s then wildcard else s)

/-- The route to which a request leads. -/
structure Match (α : Type u) extends Hit α where
  key : String

/-- Find the route of a request. -/
def Table.match? (t : Table α) (method path : String) : Option (Match α) :=
  let key := requestKey method path
  (t.find? key).map fun hit => { hit with key }

/-- A list of texts as it is shown to a developer. -/
def describeTexts (items : List String) : String :=
  "[" ++ ", ".intercalate (items.map Text.quoted) ++ "]"

/-- The match as it is shown to a developer, with the name of the handler. -/
def Match.describe (m : Match α) (name : α → String) : String :=
  "RouteMatch \x7b handler: " ++ Text.quoted (name m.value) ++ ", args: " ++ describeTexts m.args
    ++ ", key: " ++ Text.quoted m.key ++ " \x7d"

end Signpost.Route
