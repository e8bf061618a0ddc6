import MapStyle.Failure

/-!
# Features and environments

A feature is what a style looks at: its properties, its identifier and its geometry. An `Env` is all
that an expression can read while it is evaluated: the feature, the zoom and the variables in scope.
-/

namespace MapStyle

/-- The kinds of geometry. -/
inductive Geometry where
  | unknown
  | point
  | lineString
  | polygon
  deriving DecidableEq, Repr

namespace Geometry

/-- The geometry of a tile's type code; codes without a meaning are unknown. -/
def ofCode : Nat → Geometry
  | 1 => .point
  | 2 => .lineString
  | 3 => .polygon
  | _ => .unknown

/-- The name that expressions see. -/
def name : Geometry → String
  | .unknown => "Unknown"
  | .point => "Point"
  | .lineString => "LineString"
  | .polygon => "Polygon"

end Geometry

/-- A feature. One without an identifier has the identifier null. -/
structure Feature (N : Type) where
  properties : Properties N
  id : Value N
  geometry : Geometry

/-- What an expression reads: the zoom, where there is one, the feature, and the variables in scope,
innermost first. -/
structure Env (N : Type) where
  zoom : Option N
  feature : Feature N
  scope : List (String × Value N)

namespace Env

variable {N : Type}

/-- The environment with more variables in scope; of one name the last counts. -/
def bind (env : Env N) (bindings : List (String × Value N)) : Env N :=
  { env with scope := bindings.reverse ++ env.scope }

/-- The value of the innermost variable of a name. -/
def lookup (env : Env N) (name : String) : Outcome N (Value N) :=
  match env.scope.lookup name with
  | some value => .ok value
  | none => .error (.unknownVariable name)

/-- The zoom, which need not be known. -/
def readZoom (env : Env N) : Outcome N N :=
  match env.zoom with
  | some zoom => .ok zoom
  | none => .error .zoomUnavailable

end Env

/-- A computation that reads an environment and may fail. -/
abbrev Eval (N : Type) := ReaderT (Env N) (Except (Failure N))

end MapStyle
