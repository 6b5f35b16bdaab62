import SessionPool.Error
import SessionPool.FileTree
import SessionPool.Json.Record
import SessionPool.Text.Blank

/-! The configuration: which groups of tools there are, and where the server of each is found. A
    configuration is read from JSON and then checked. Group names may not hold the separator, which
    divides the group from the rest in session ids and in names of tools. -/

namespace SessionPool

/-- What divides the group from the rest of a name. -/
def separator : Char := '-'

/-- Where the server of a group is found; without a command the path decides how it is launched. -/
structure Locator where
  path : String
  command : Option String := none
  args : List String := []
  deriving DecidableEq, Inhabited

namespace Locator

/-- A locator half read. -/
structure Draft where
  path : Option String := none
  command : Option (Option String) := none
  args : Option (List String) := none

/-- How a locator is written. -/
def layout : Json.Layout Draft Locator where
  title := "struct GroupLocator"
  blank := {}
  fields := [
    .of "local_path" true Draft.path (fun v d => { d with path := some v }) (Json.textOf "path string"),
    .of "command" false Draft.command (fun v d => { d with command := some v })
      (Json.optional Json.text),
    .of "args" false Draft.args (fun v d => { d with args := some v }) (Json.listOf Json.text)]
  build d := ⟨d.path.getD "", d.command.getD none, d.args.getD []⟩

/-- The locator as a JSON value; what is absent or empty is left out. -/
def toJson (l : Locator) : Json := .obj <|
  (if l.args.isEmpty then [] else [("args", .arr (l.args.map .str))]) ++
  (match l.command with
    | none => []
    | some c => [("command", .str c)]) ++
  [("local_path", .str l.path)]

end Locator

/-- The groups of tools and their servers. -/
structure Config where
  groups : Table Locator
  deriving DecidableEq

namespace Config

/-- How a configuration is written. -/
def layout : Json.Layout (Option (Table Locator)) Config where
  title := "struct ServerConfig"
  blank := none
  fields := [.of "mcpServers" true id (fun v _ => some v) (Json.tableOf Locator.layout.read)]
  build d := ⟨d.getD []⟩

/-- What is wrong with a configuration. -/
inductive Fault where
  | noGroups
  | blankName
  | separatorInName (group : String)
  | emptyPath (group : String)
  deriving DecidableEq

def Fault.message : Fault → String
  | .noGroups => "mcpServers must define at least one group"
  | .blankName => "empty group name"
  | .separatorInName g => "group name '" ++ g ++ "' must not contain '-'"
  | .emptyPath g => "group '" ++ g ++ "' has an empty local_path"

/-- What is wrong with one group. -/
def groupFault? (group : String) (l : Locator) : Option Fault :=
  if Text.isBlank group then some .blankName
  else if group.toList.contains separator then some (.separatorInName group)
  else if l.path.isEmpty then some (.emptyPath group)
  else none

/-- The first fault, in the order of the groups. -/
def fault? (c : Config) : Option Fault :=
  if c.groups.isEmpty then some .noGroups
  else c.groups.findSome? fun g => groupFault? g.1 g.2

/-- Refuses a configuration with a fault. -/
def validate (c : Config) : Except PoolError Unit :=
  match c.fault? with
  | some f => .error (.invalidConfig f.message)
  | none => .ok ()

/-- Reads and checks a configuration. -/
def parse (text : String) : Except PoolError Config :=
  match Json.readAll (layout.read Json.maxDepth) text with
  | .error m => .error (.invalidConfig (m.message text))
  | .ok c =>
    match c.validate with
    | .error e => .error e
    | .ok () => .ok c

/-- Reads and checks the configuration in a file. -/
def load (files : FileTree) (path : String) : Except PoolError Config :=
  match files.readText path with
  | .error e => .error (.file e)
  | .ok text => (parse text).mapError fun e => .invalidConfig (path ++ ": " ++ e.message)

def toJson (c : Config) : Json :=
  .obj [("mcpServers", .obj (c.groups.map fun g => (g.1, g.2.toJson)))]

end Config

/-- What a pool is started with; times are in nanoseconds. -/
structure Options where
  callTimeout : Option Nat := some (120 * Text.second)
  shutdownTimeout : Nat := 5 * Text.second
  python : String := "python3"
  deriving DecidableEq

end SessionPool
