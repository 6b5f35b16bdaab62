import SessionPool.SessionKey

/-! The catalog: the groups of tools, where the server of each is found, and the operations it offers. -/

namespace SessionPool

/-- An operation of a server, as it is described to callers. -/
structure Operation where
  name : String
  description : String := ""
  input : Json
  deriving Inhabited

namespace Operation

/-- The schema of an operation that says nothing of its input. -/
def anyInput : Json := .obj [("properties", .obj []), ("type", .str "object")]

/-- A description half read. -/
structure Draft where
  name : Option String := none
  description : Option String := none
  input : Option Json := none

/-- How an operation is written. -/
def layout : Json.Layout Draft Operation where
  title := "struct OperationSchema"
  blank := {}
  fields := [
    .of "name" true Draft.name (fun v d => { d with name := some v }) Json.text,
    .of "description" false Draft.description (fun v d => { d with description := some v }) Json.text,
    .of "input_schema" false Draft.input (fun v d => { d with input := some v }) Json.readValue]
  build d := ⟨d.name.getD "", d.description.getD "", d.input.getD anyInput⟩

/-- Reads an operation from a text. -/
def parse (text : String) : Except Json.Misread Operation :=
  Json.readAll (layout.read Json.maxDepth) text

def toJson (o : Operation) : Json :=
  .obj [("description", .str o.description), ("input_schema", o.input), ("name", .str o.name)]

/-- The operation of a group as a function that can be called. -/
def schema (group : String) (o : Operation) : Json :=
  .obj [
    ("function", .obj [
      ("description", .str o.description),
      ("name", .str (routedName group o.name)),
      ("parameters", o.input)]),
    ("type", .str "function")]

end Operation

/-- A group of tools. -/
structure Group where
  locator : Locator
  operations : List Operation

/-- The groups by name. -/
abbrev Catalog := Table Group

namespace Catalog

/-- The catalog of a configuration, before any server was asked for its operations. -/
def ofConfig (c : Config) : Catalog := c.groups.map fun g => (g.1, ⟨g.2, []⟩)

def locator? (c : Catalog) (group : String) : Option Locator := (Table.get? group c).map (·.locator)

def operations? (c : Catalog) (group : String) : Option (List Operation) :=
  (Table.get? group c).map (·.operations)

/-- A group with operations of which none loads a state: its sessions need none. -/
def isStateless (c : Catalog) (group : String) : Bool :=
  match c.operations? group with
  | some ops => !ops.isEmpty && !ops.any fun o => isLoad o.name
  | none => false

/-- All operations as functions that can be called. -/
def schemas (c : Catalog) : List Json := c.flatMap fun g => g.2.operations.map (·.schema g.1)

/-- The operation with a routed name as a function that can be called. -/
def schema? (c : Catalog) (routed : String) : Option Json := do
  let (group, name) ← divideText routed
  let ops ← c.operations? group
  let o ← ops.find? (·.name = name)
  pure (o.schema group)

/-- The routed name of an operation; of the groups that have it the first counts. -/
def qualify? (c : Catalog) (operation : String) : Option String :=
  (c.find? fun g => g.2.operations.any (·.name = operation)).map fun g => routedName g.1 operation

end Catalog
end SessionPool
