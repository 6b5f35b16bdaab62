import SessionPool.Rehearsal.Listing
import SessionPool.Remote
import SessionPool.Reply

/-! Scripts of tool servers, for trying the pool without any: which operations a server has, what each
    does, and where it fails. Scripts are written in JSON. A script may count calls, and a server keeps
    one state for each connection, which starts as `null`. -/

namespace SessionPool

/-- The failure that a JSON value describes; `none` if it describes none. -/
def RemoteError.ofJson? (j : Json) : Option RemoteError :=
  match (j.get? "rejected").bind Json.text?, (j.get? "connect").bind Json.text?,
    (j.get? "unexpected").bind Json.text?, (j.get? "closed").bind Json.text? with
  | some m, _, _, _ => some (.rejected m)
  | _, some m, _, _ => some (.connect m)
  | _, _, some m, _ => some (.unexpected m)
  | _, _, _, some id => some (.closed id)
  | _, _, _, _ => none

namespace Rehearsal

/-- The text under a key; empty if there is none. -/
def textAt (j : Json) (k : String) : String := ((j.get? k).bind Json.text?).getD ""

/-- The members under a key; none if there is no array. -/
def itemsAt (j : Json) (k : String) : List Json := ((j.get? k).bind Json.items?).getD []

/-- The entries under a key; none if there is no object. -/
def fieldsAt (j : Json) (k : String) : Fields := ((j.get? k).bind Json.fields?).getD []

/-- Whether a flag is set. -/
def flagAt (j : Json) (k : String) : Bool :=
  match j.get? k with
  | some (.bool b) => b
  | _ => false

/-- How a server changes its state when it tells it. -/
structure Echo where
  instead : Option Json := none
  added : Fields := []
  dropped : Option String := none

namespace Echo

/-- The state as it is told. -/
def apply (e : Echo) (state : Json) : Json :=
  match e.instead, state with
  | some v, _ => v
  | none, .obj fields =>
    let merged := Table.merge fields e.added
    .obj (match e.dropped with
      | some k => merged.erase k
      | none => merged)
  | none, v => v

def ofJson (j : Json) : Echo :=
  { instead := j.get? "const"
    added := fieldsAt j "add"
    dropped := (j.get? "drop").bind Json.text? }

end Echo

/-- What one call does. -/
inductive Part where
  | text (s : String)
  | fail (e : RemoteError)
  | get (key : String)
  | set
  | state
  /-- Tells the arguments that the server was started with. -/
  | argv
  | die
  | echo
  | sum
  | load
  | save (e : Echo)

namespace Part

/-- The part that a JSON value describes, if it is not a sequence. -/
def ofJson (j : Json) : Part :=
  match j.get? "text", j.get? "fail", j.get? "get" with
  | some t, _, _ => .text (t.text?.getD "")
  | none, some e, _ => .fail ((RemoteError.ofJson? e).getD (.unexpected ""))
  | none, none, some k => .get (k.text?.getD "")
  | none, none, none =>
    if (j.get? "set").isSome then .set
    else if (j.get? "state").isSome then .state
    else if (j.get? "argv").isSome then .argv
    else if (j.get? "die").isSome then .die
    else .echo

end Part

/-- What an operation does: its calls take the parts in turn, and after the last all take that. -/
abbrev Play := List Part

namespace Play

/-- The part for the call that has `n` calls before it. -/
def part (p : Play) (n : Nat) : Part := (p[n]?.or p.getLast?).getD .echo

def ofJson (j : Json) : Play :=
  match (j.get? "seq").bind Json.items? with
  | some parts => parts.map Part.ofJson
  | none => [.ofJson j]

end Play

/-- What a server is like. -/
structure Script where
  operations : Table (Operation × Play) := []
  /-- How attempts to connect come out, the first first; later ones succeed. -/
  connects : List (Option RemoteError) := []
  closing : Option RemoteError := none
  /-- What is listed instead of the operations. -/
  listed : Option Json := none
  listing : Option RemoteError := none
  /-- The gates in front of operations. -/
  gates : Table String := []
  /-- Whole replies to operations, given instead of what those do. -/
  replies : Table Json := []

namespace Script

/-- Adds an operation. -/
def offer (s : Script) (name description : String) (p : Play) : Script :=
  { s with operations := s.operations.insert name (⟨name, description, Operation.anyInput⟩, p) }

/-- Adds the operations that load and tell the state. -/
def offerScenario (s : Script) (e : Echo) : Script :=
  (s.offer loadScenario "Load a scenario" [.load]).offer saveScenario "Save the current scenario" [.save e]

/-- Adds whatever of the sums and the state a server is said to have. -/
def offerStandard (s : Script) (j : Json) : Script :=
  let s := if flagAt j "calculator" then s.offer "add" "Add two numbers" [.sum] else s
  match j.get? "scenario" with
  | some (.obj e) => s.offerScenario (.ofJson (.obj e))
  | some (.bool true) => s.offerScenario {}
  | _ => s

/-- Adds the operations of a list. -/
def offerListed (s : Script) (j : Json) : Script :=
  (itemsAt j "ops").foldl (fun s o =>
    s.offer (textAt o "name") (textAt o "description") (.ofJson ((o.get? "do").getD .null))) s

/-- What a close comes to. -/
def closingOf (j : Json) : Option RemoteError :=
  match (j.get? "close_error").bind RemoteError.ofJson? with
  | some e => some e
  | none => if flagAt j "fail_close" then some (.unexpected "server refused to shut down") else none

/-- The script that a JSON value describes. -/
def ofJson (j : Json) : Script :=
  let s : Script :=
    { connects := (itemsAt j "connects").map RemoteError.ofJson?
      closing := closingOf j
      listed := j.get? "list"
      listing := (j.get? "list_error").bind RemoteError.ofJson?
      gates := (fieldsAt j "gates").map fun g => (g.1, g.2.text?.getD "")
      replies := fieldsAt j "replies" }
  (s.offerStandard j).offerListed j

/-- The operations that a server lists. -/
def operationsListed (s : Script) : Except RemoteError (List Operation) :=
  match s.listing, s.listed with
  | some e, _ => .error e
  | none, some j => (operationsOf j).mapError fun fault => .unexpected fault.describe
  | none, none => .ok (s.operations.map fun o => o.2.1)

/-- The gate in front of an operation. -/
def gate? (s : Script) (operation : String) : Option String := Table.get? operation s.gates

end Script
end Rehearsal
end SessionPool
