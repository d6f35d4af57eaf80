import RestDispatch.Log
import RestDispatch.Route

/-!
# Schemas

The routes that a dispatcher knows, by their names. A schema is built by registering one route after
the other; the first registration that fails decides, and those after it do not count. An entry of a
schema has forgotten the type of the route's path parameters and tells a wrong one when it is given.
-/

namespace RestDispatch

variable {τ : Type} [ParamTypes τ]

/-- A registered route. -/
structure RouteEntry (τ : Type) [ParamTypes τ] where
  name : RouteName
  method : Method
  path : PresenceKind
  query : PresenceKind
  data : PresenceKind
  literalUrl : Option String
  resolve : Option (ParamValue τ) → Except ConfigError String
  defaultQuery : Query

namespace RouteEntry

/-- The URL of a route from path parameters of any type. -/
def resolver (r : Route τ) : Option (ParamValue τ) → Except ConfigError String
  | none => r.rule.resolve r.name none
  | some v =>
    match r.path.cast? v with
    | some v => r.rule.resolve r.name (some v)
    | none => .error (.pathParamsMismatch r.name)

/-- The entry of a route under its valid name. -/
def ofRoute (name : RouteName) (r : Route τ) : RouteEntry τ where
  name := name
  method := r.method
  path := r.path.kind
  query := r.query
  data := r.data
  literalUrl := r.rule.literal?
  resolve := resolver r
  defaultQuery := r.defaultQuery

/-- The description of query parameters. -/
def describeQuery (q : Query) : String :=
  "\x7b" ++ String.intercalate ", " (q.entries.map fun e =>
    Text.quoted e.1 ++ ": " ++ Text.quoted e.2) ++ "\x7d"

/-- The description of an entry. -/
def describe (e : RouteEntry τ) : String :=
  "RouteEntry \x7b name: RouteName(" ++ Text.quoted e.name.text ++
    "), method: " ++ e.method.title ++ ", path_params: " ++ e.path.title ++
    ", query_params: " ++ e.query.title ++ ", data: " ++ e.data.title ++ ", literal_url: " ++
    (e.literalUrl.map fun u => "Some(" ++ Text.quoted u ++ ")").getD "None" ++
    ", default_query: " ++ describeQuery e.defaultQuery ++ ", .. \x7d"

end RouteEntry

/-- The routes that a dispatcher knows. -/
structure Schema (τ : Type) [ParamTypes τ] where
  routes : Table (RouteEntry τ)

namespace Schema

/-- The number of routes. -/
def size (s : Schema τ) : Nat := s.routes.size

/-- Whether there is no route. -/
def isEmpty (s : Schema τ) : Bool := s.routes.entries.isEmpty

/-- The names of the routes, in increasing order. -/
def names (s : Schema τ) : List String := s.routes.keys

/-- Whether a name is that of a route. -/
def contains (s : Schema τ) (name : String) : Bool := s.routes.contains name

/-- The route of a name. -/
def get? (s : Schema τ) (name : String) : Option (RouteEntry τ) := s.routes.get? name

end Schema

/-- A schema that is being built: the routes so far, the first failure, and the log. -/
structure SchemaBuilder (τ : Type) [ParamTypes τ] where
  routes : Table (RouteEntry τ)
  failure : Option ConfigError
  log : Log

namespace SchemaBuilder

/-- No routes yet. -/
def empty : SchemaBuilder τ := ⟨.empty, none, []⟩

/-- The record of a registration. -/
def registered (r : Route τ) : LogRecord :=
  .event .debug "registered route" [("route", .text r.name), ("method", .text r.method.verb)]

/-- Registers a route, unless a registration has failed before. -/
def register (b : SchemaBuilder τ) (r : Route τ) : SchemaBuilder τ :=
  match b.failure with
  | some _ => b
  | none =>
    match RouteName.ofString r.name with
    | .error f => { b with failure := some (.invalidRouteName f) }
    | .ok name =>
      if b.routes.contains name.text then { b with failure := some (.duplicateRoute name.text) }
      else
        { b with
          routes := b.routes.insert name.text (.ofRoute name r)
          log := b.log ++ [registered r] }

/-- The schema of the routes that are registered. -/
def build (b : SchemaBuilder τ) : Except ConfigError (Schema τ) :=
  match b.failure with
  | some e => .error e
  | none => .ok ⟨b.routes⟩

end SchemaBuilder

/-- Registers routes in their order. -/
def Schema.builderOf (rs : List (Route τ)) : SchemaBuilder τ :=
  rs.foldl SchemaBuilder.register .empty

/-- The schema of a list of routes. -/
def Schema.ofRoutes (rs : List (Route τ)) : Except ConfigError (Schema τ) :=
  (Schema.builderOf rs).build

end RestDispatch
