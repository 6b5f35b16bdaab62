import SessionPool.SessionKey
import SessionPool.FileTree

/-! The call log: what was said and which tools were called, in order, by the actor that did it. Sessions
    of one actor in several groups log under one id. -/

namespace SessionPool

/-- One entry of the log. -/
inductive LogEntry where
  | chat (user assistant : String)
  | tool (name : String) (args : Json) (result : String)

namespace LogEntry

def toJson : LogEntry → Json
  | chat user assistant =>
    .obj [("chat", .obj [("assistant", .str assistant), ("user", .str user)])]
  | tool name args result =>
    .obj [("tool", .obj [("tool_args", args), ("tool_name", .str name), ("tool_result", .str result)])]

/-- A turn half read. -/
structure ChatDraft where
  user : Option String := none
  assistant : Option String := none

/-- A call half read. -/
structure ToolDraft where
  name : Option String := none
  args : Option Json := none
  result : Option String := none

/-- How a turn is written. -/
def chatLayout : Json.Layout ChatDraft LogEntry where
  title := "struct variant LogEntry::Chat"
  blank := {}
  fields := [
    .of "user" true ChatDraft.user (fun v d => { d with user := some v }) Json.text,
    .of "assistant" true ChatDraft.assistant (fun v d => { d with assistant := some v }) Json.text]
  build d := .chat (d.user.getD "") (d.assistant.getD "")

/-- How a call is written. -/
def toolLayout : Json.Layout ToolDraft LogEntry where
  title := "struct variant LogEntry::Tool"
  blank := {}
  fields := [
    .of "tool_name" true ToolDraft.name (fun v d => { d with name := some v }) Json.text,
    .of "tool_args" true ToolDraft.args (fun v d => { d with args := some v }) Json.readValue,
    .of "tool_result" true ToolDraft.result (fun v d => { d with result := some v }) Json.text]
  build d := .tool (d.name.getD "") (d.args.getD .null) (d.result.getD "")

/-- The layout of the entry that a tag announces. -/
def variant? (tag : String) : Option (Json.TypedReader LogEntry) :=
  if tag = "chat" then some chatLayout.read
  else if tag = "tool" then some toolLayout.read
  else none

/-- The tag of an entry, from behind its opening quote. -/
def readTag (s : List Char) : Except Json.Misread (Json.TypedReader LogEntry × List Char) := do
  let (tag, r) ← Json.readString s
  match variant? tag with
  | some v => pure (v, r)
  | none => throw (Json.faultAt (.unknownVariant tag "`chat` or `tool`") r)

/-- Goes behind the opening quote of the tag, which stands where a key does. -/
def openTag (s : List Char) : Except Json.Misread (List Char) :=
  match Json.skipSpace s with
  | [] => .error (Json.faultPast .endInValue [])
  | '"' :: r => .ok r
  | '\x7d' :: r => .error (Json.faultPast .expectedValue ('\x7d' :: r))
  | r => .error (Json.faultPast .keyNotString r)

/-- Reads an entry: an object with one key, the tag, and what the tag announces. -/
def read : Json.TypedReader LogEntry := fun depth s =>
  match Json.skipSpace s with
  | [] => .error (Json.faultPast .endInValue [])
  | '\x7b' :: r => do
    let d ← Json.deeper depth s
    let q ← openTag r
    let (v, r) ← readTag q
    let r ← Json.readColon r
    let (entry, r) ← v d r
    match Json.skipSpace r with
    | [] => throw (Json.faultAt .endInObject [])
    | '\x7d' :: t => pure (entry, t)
    | t => throw (Json.faultAt .expectedValue t)
  | '"' :: r => do
    let _ ← readTag r
    throw ⟨.invalidType .unitVariant "struct variant", none⟩
  | t => .error (Json.faultPast .expectedValue t)

/-- Reads an entry from a text. -/
def parse (text : String) : Except Json.Misread LogEntry := Json.readAll (read Json.maxDepth) text

end LogEntry

/-- The entries of each actor, in order. -/
abbrev CallLog := Table (List LogEntry)

namespace CallLog

/-- Adds an entry for the actor of a session. -/
def record (log : CallLog) (session : String) (e : LogEntry) : CallLog :=
  Table.alter (SessionKey.parse session).descoped (fun l => l.getD [] ++ [e]) log

def entries (log : CallLog) (id : String) : List LogEntry := (Table.get? id log).getD []

/-- The line that stands for one actor, its end included. -/
def line (id : String) (entries : List LogEntry) : List Char :=
  (Json.obj [(id, .arr (entries.map LogEntry.toJson))]).chars ++ ['\n']

/-- The text of a log: a line for each actor, in the order of their ids. -/
def render (log : CallLog) : List Char := log.flatMap fun p => line p.1 p.2

/-- Adds the text of a log at the end of a file: the number of lines added, and the files then. The
    directories above the file are made first, and stay when the file cannot be written. -/
def flush (log : CallLog) (files : FileTree) (path : String) : Except PoolError Nat × FileTree :=
  match files.makeParents path with
  | (.error e, files) => (.error (.file e), files)
  | (.ok (), files) =>
    match files.append path (String.ofList log.render) with
    | .error e => (.error (.file e), files)
    | .ok files => (.ok log.length, files)

/-- Where the log goes unless said otherwise. -/
def defaultPath : String := "log/log.jsonl"

end CallLog
end SessionPool
