import MapStyle.Json.Basic

/-!
# Legacy filters

Filters were once written as nested arrays such as `["==", "class", "park"]`, with property names in
place of expressions. `Filter.lower` gives the expression that such a filter stands for. Every
comparison falls back on an answer where the property is absent or of another kind, so that it always
has one.
-/

namespace MapStyle.Filter

variable {N : Type}

/-- The value of an expression, or `fallback` where it has none. -/
def orElse (e : Json N) (fallback : Bool) : Json N := .call "coalesce" [e, .boolean fallback]

/-- The negation of a filter. -/
def negate (e : Json N) : Json N := .call "!" [e]

/-- Whether what `e` refers to is null. -/
def isNullTest (op : String) (e : Json N) : Json N := .call op [.call "typeof" [e], .string "Null"]

/-- What a property name refers to: the property, or the identifier or geometry of the feature. A
property and the identifier are asserted to be of `kind`, where one is given; the geometry is always
a string. -/
def reference (property : Json N) (kind : Option String) : Json N :=
  let asserted (e : Json N) := match kind with
    | some kind => .call kind [e]
    | none => e
  match property with
  | .string "$type" => .call "geometry-type" []
  | .string "$id" => asserted (.call "id" [])
  | property => asserted (.call "get" [property])

/-- The assertion that a value to compare with calls for. -/
def kindOf : Json N → Option String
  | .string _ => some "string"
  | .integer _ | .real _ => some "number"
  | .boolean _ => some "boolean"
  | .array _ | .object _ => some "object"
  | .null => none

/-- A comparison of a property with a value. Without an answer, only `!=` holds. -/
def comparison (op : String) (property value : Json N) : Json N :=
  let test := match value with
    | .null => isNullTest op (reference property none)
    | value => .call op [reference property (kindOf value), value]
  orElse test (op == "!=")

/-- Membership of `e` in a list of values. -/
def memberTest (members : List (Json N)) (e : Json N) : Json N :=
  .call "contains" [.call "literal" [.array members], e]

/-- The values of one kind. -/
def ofKind (kind : String) (values : List (Json N)) : List (Json N) :=
  values.filter fun v => kindOf v == some kind

/-- The primitive values by kind: strings, numbers, booleans. Kinds without values are left out. -/
def groups (values : List (Json N)) : List (String × List (Json N)) :=
  (["string", "number", "boolean"].map fun kind => (kind, ofKind kind values)).filter
    fun (_, members) => !members.isEmpty

/-- Whether a property is among values, of which arrays and objects do not count. With values of
one kind the property is asserted to be of that kind; with several kinds it is bound to a variable
and compared with each. -/
def membership (property : Json N) (values : List (Json N)) : Json N :=
  let input := .call "var" [.string "input"]
  match groups values, values.any Json.isNull with
  | [], false => .boolean false
  | [], true => orElse (isNullTest "==" (reference property none)) false
  | [(kind, members)], false => orElse (memberTest members (reference property (some kind))) false
  | groups, hasNull =>
    let tests := (if hasNull then [isNullTest "==" input] else []) ++
      groups.map fun (_, members) => memberTest members input
    orElse (.call "let" [.string "input", reference property none, .call "||" tests]) false

/-- Whether a feature has a property. The identifier counts as absent when it is null. -/
def presence (property : Json N) : Json N :=
  match property with
  | .string "$id" => orElse (isNullTest "!=" (.call "id" [])) false
  | property => orElse (.call "has" [property]) false

mutual

/-- The expression that a legacy filter stands for. What is no filter holds of every feature. -/
def lower : Json N → Json N
  | .array [] => .boolean true
  | .array [.string op] => .boolean (op != "any")
  | .array [_] => .boolean true
  | .array (.string op :: property :: rest) =>
    match op with
    | "==" | "!=" | "<" | ">" | "<=" | ">=" => comparison op property (rest.headD .null)
    | "any" => .call "||" (lower property :: lowerAll rest)
    | "all" => .call "&&" (lower property :: lowerAll rest)
    | "none" => negate (.call "||" (lower property :: lowerAll rest))
    | "in" => membership property rest
    | "!in" => negate (membership property rest)
    | "has" => presence property
    | "!has" => negate (presence property)
    | _ => .boolean true
  | _ => .boolean true

/-- The expressions that legacy filters stand for. -/
def lowerAll : List (Json N) → List (Json N)
  | [] => []
  | filter :: rest => lower filter :: lowerAll rest

end

end MapStyle.Filter
