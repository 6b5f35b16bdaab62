import SessionPool.SessionKey

/-! The arguments of an operation, given as an object or as the text of one. -/

namespace SessionPool

/-- Arguments as a caller gives them. -/
inductive Arguments where
  | structured (fields : Fields)
  | text (s : String)

namespace Arguments

/-- The arguments that a JSON value stands for. -/
def ofJson : Json → Arguments
  | .obj e => .structured e
  | .null => .structured []
  | .str s => .text s
  | v => .text v.compact

/-- The object that the arguments are; blank text is the empty object. -/
def fields : Arguments → Except PoolError Fields
  | .structured e => .ok e
  | .text s =>
    if Text.isBlank s then .ok []
    else
      match Json.parse s with
      | .error m => .error (.malformedArguments (m.message s))
      | .ok (.obj e) => .ok e
      | .ok v => .error (.malformedArguments ("expected a JSON object, got " ++ v.compact))

/-- The argument that holds the state in a call that loads one. -/
def scenarioKey : String := "scenario"

/-- The state in the arguments of a load, and the arguments besides it: an entry `scenario` that is an
    object is the state, and otherwise all arguments together are. -/
def splitScenario (args : Fields) : Json × Fields :=
  match Table.get? scenarioKey args with
  | some (.obj state) => (.obj state, Table.erase scenarioKey args)
  | _ => (.obj args, [])

end Arguments
end SessionPool
