/-! The routes of the service. Several routes can lie on one path, told apart by the method. -/

namespace ClassAtlas.Http

inductive Route where
  | health
  | extract
  | fromSource
  | validate
  | generate
  | list
  | diagram (id : String)
  | delete (id : String)
  | validation (id : String)
  | plantUml (id : String)
deriving Repr, DecidableEq

/-- The routes on the segments of a path, each with its method. -/
def routesAlong : List String → List (String × Route)
  | ["", "api", "health"] => [("GET", .health)]
  | ["", "api", "analysis", "extract"] => [("POST", .extract)]
  | ["", "api", "diagrams"] => [("GET", .list)]
  | ["", "api", "diagrams", id] =>
    let named := match id with
      | "from-source" => [("POST", Route.fromSource)]
      | "validate" => [("POST", Route.validate)]
      | "generate" => [("POST", Route.generate)]
      | _ => []
    if id.isEmpty then [] else named ++ [("GET", .diagram id), ("DELETE", .delete id)]
  | ["", "api", "diagrams", id, "validation"] =>
    if id.isEmpty then [] else [("GET", .validation id)]
  | ["", "api", "diagrams", id, "plantuml"] =>
    if id.isEmpty then [] else [("GET", .plantUml id)]
  | _ => []

/-- The routes on a path; slashes at its end do not count where they lead nowhere. -/
def routesOn (path : String) : List (String × Route) :=
  match routesAlong (path.splitOn "/") with
  | [] =>
    let bare := String.ofList (path.toList.reverse.dropWhile (· == '/')).reverse
    routesAlong (bare.splitOn "/")
  | routes => routes

/-- What a method and a path ask for. -/
inductive Match where
  | found (route : Route)
  | wrongMethod
  | nothing
deriving Repr, DecidableEq

def Match.ofRequest (method path : String) : Match :=
  match routesOn path with
  | [] => .nothing
  | routes =>
    match routes.lookup method with
    | some route => .found route
    | none => .wrongMethod

end ClassAtlas.Http
