import SessionPool.Catalog
import SessionPool.Path

/-! The protocol of tool servers, as far as it is data: how a server is launched, what it says of a
    tool, and what a reply to a call carries. -/

namespace SessionPool

/-- A program and its arguments. -/
structure Command where
  program : String
  args : List String
  deriving DecidableEq

namespace Command

/-- The program that runs the server, unless the server is a program itself. -/
def launcher? (python : String) (l : Locator) : Option String :=
  match l.command with
  | some program => some program
  | none =>
    match Path.extension? l.path with
    | some "py" => some python
    | some "js" => some "node"
    | some "mjs" => some "node"
    | _ => none

/-- How the server of a locator is launched. -/
def ofLocator (python : String) (l : Locator) : Command :=
  match launcher? python l with
  | some program => ⟨program, l.args ++ [l.path]⟩
  | none => ⟨l.path, l.args⟩

/-- Whether a word may be handed to a process: in there a NUL would end it. -/
def canHand (word : String) : Bool := !word.toList.contains '\x00'

/-- A word as it is kept for a process; what cannot be handed over is replaced. -/
def kept (word : String) : String := if canHand word then word else "<string-with-nul>"

/-- The words that are kept for the process. -/
def words (c : Command) : Command := ⟨kept c.program, c.args.map kept⟩

/-- Whether the process can be given all words. -/
def isSound (c : Command) : Bool := (c.program :: c.args).all canHand

end Command

/-- The operation that a server describes as a tool. -/
def Operation.ofTool (tool : Json) : Except RemoteError Operation :=
  match (tool.get? "name").bind Json.text? with
  | none => .error (.unexpected "tool without a name")
  | some name => .ok
    { name
      description := ((tool.get? "description").bind Json.text?).getD ""
      input := (tool.get? "inputSchema").getD Operation.anyInput }

namespace Reply

/-- The first text among the contents of a reply. -/
def firstText? (reply : Json) : Option String := do
  let items ← (reply.get? "content").bind Json.items?
  items.findSome? fun item => (item.get? "text").bind Json.text?

/-- The structured content of a reply, as text. -/
def structured? (reply : Json) : Option String :=
  match reply.get? "structuredContent" with
  | none => none
  | some .null => none
  | some v => some v.compact

/-- Whether a reply says that the call failed. -/
def isError (reply : Json) : Bool :=
  match reply.get? "isError" with
  | some (.bool b) => b
  | _ => false

/-- The text that a reply to a call carries. -/
def decode (reply : Json) : Except RemoteError String :=
  let text := (firstText? reply).or (structured? reply)
  if isError reply then .error (.rejected (text.getD "tool reported an error"))
  else
    match text with
    | some t => .ok t
    | none => .error (.unexpected "reply carried no content")

end Reply
end SessionPool
