import SmtQuery.Json.Reader
import SmtQuery.Json.Writer
import SmtQuery.Solver

/-!
# Stored configurations

Capability tables and configurations as JSON records.  A record may also be
given as an array of its fields in order.  Members with other names are ignored,
and a repeated member is an error.  A flag that is missing is off; a configuration
needs its solver and its table, and the rest has defaults.
-/

namespace SmtQuery

/-- The member of a stored table that holds a feature's flag. -/
def Feature.keyword : Feature → String
  | ints => "supports_unbounded_ints"
  | reals => "supports_reals"
  | singleFloats => "supports_floats"
  | doubleFloats => "supports_doubles"
  | quantifiers => "supports_quantifiers"
  | namedSorts => "supports_uninterpreted_sorts"
  | optimization => "supports_optimization"

namespace Capabilities

/-- The table as a JSON value. -/
def toJson (caps : Capabilities) : Json :=
  .ofMembers (("name", .ofString caps.name) ::
    Feature.all.map fun feature => (feature.keyword, .bool (caps.supports feature)))

/-- The table that a JSON value holds. -/
def ofJson? (value : Json) : Option Capabilities := do
  match ← value.fields? ("name" :: Feature.all.map Feature.keyword) with
  | some name :: flags =>
    let name ← name.text?
    let flags ← flags.mapM fun flag? =>
      match flag? with
      | some flag => flag.bool?
      | none => some false
    let features := (Feature.all.zip flags).filter Prod.snd
    some (.ofList name (features.map Prod.fst))
  | _ => none

/-- Loads a table from a JSON text. -/
def load (text : String) : Except Error Capabilities :=
  match (Json.read? text).bind ofJson? with
  | some caps => .ok caps
  | none => .error (.invalidConfig "not a capability table")

end Capabilities

namespace Solver

/-- The solver as a JSON value. -/
def toJson (solver : Solver) : Json := .ofString solver.keyword

/-- The solver with the given keyword. -/
def ofKeyword? (keyword : String) : Option Solver :=
  all.find? fun solver => solver.keyword = keyword

/-- The solver that a JSON value holds: its keyword, or an object whose only
member is the keyword with the value `null`. -/
def ofJson? : Json → Option Solver
  | .string s => s.toString?.bind ofKeyword?
  | .object [(key, .null)] => key.toString?.bind ofKeyword?
  | _ => none

end Solver

namespace Config

/-- An option as a JSON value: an array of key and value. -/
def optionToJson (option : String × String) : Json :=
  .array [.ofString option.1, .ofString option.2]

/-- The option that a JSON value holds. -/
def optionOfJson? : Json → Option (String × String)
  | .array [key, value] => do some (← key.text?, ← value.text?)
  | _ => none

/-- The configuration as a JSON value. -/
def toJson (config : Config) : Json :=
  .ofMembers [("kind", config.solver.toJson), ("capabilities", config.capabilities.toJson),
    ("logic", (config.logic?.map Json.ofString).getD .null),
    ("options", .array (config.options.map optionToJson)),
    ("emit_comments", .bool config.emitComments)]

/-- The logic in a field that may be missing or `null`. -/
def logicOfJson? : Option Json → Option (Option String)
  | none | some .null => some none
  | some value => value.text?.map some

/-- The options in a field that may be missing. -/
def optionsOfJson? : Option Json → Option (List (String × String))
  | none => some []
  | some value => value.items?.bind fun items => items.mapM optionOfJson?

/-- The configuration that a JSON value holds. -/
def ofJson? (value : Json) : Option Config := do
  match ← value.fields? ["kind", "capabilities", "logic", "options", "emit_comments"] with
  | [some kind, some caps, logic, options, emit] =>
    let solver ← Solver.ofJson? kind
    let capabilities ← Capabilities.ofJson? caps
    let logic? ← logicOfJson? logic
    let options ← optionsOfJson? options
    let emitComments ← match emit with
      | some flag => flag.bool?
      | none => some true
    some { solver, capabilities, logic?, options, emitComments }
  | _ => none

/-- Loads a configuration from a JSON text. -/
def load (text : String) : Except Error Config :=
  match (Json.read? text).bind ofJson? with
  | some config => .ok config
  | none => .error (.invalidConfig "not a solver configuration")

end Config
end SmtQuery
