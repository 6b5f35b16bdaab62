import SessionPool.Arguments
import SessionPool.Rehearsal.Script

/-! Players: connections to scripted servers. A player keeps the state of its connection and does what
    the script says of an operation. -/

namespace SessionPool.Rehearsal

/-- The bits of a number as a double. -/
def doubleOf : Number → Float
  | .int (.ofNat n) => n.toUInt64.toFloat
  | .int (.negSucc n) => -(n + 1).toUInt64.toFloat
  | .double bits => Float.ofBits bits

/-- A number that is an integer of 64 bits with a sign. -/
def smallInt? : Number → Option Int
  | .int i => if i < Decimal.wordBound / 2 then some i else none
  | .double _ => none

/-- A double as a value; `null` stands for what is not finite. -/
def ofDouble (f : Float) : Json := if f.isFinite then .num (.double f.toBits) else .null

/-- The sum of two numbers: of small integers in 64 bits, of others as doubles. -/
def sum (m n : Number) : Json :=
  match smallInt? m, smallInt? n with
  | some i, some j => .int (Int.bmod (i + j) Decimal.wordBound)
  | _, _ => ofDouble (doubleOf m + doubleOf n)

/-- A connection to a server. -/
structure Player where
  /-- Where the server is found. -/
  place : String
  script : Script
  argv : List String := []
  state : Json := .null

namespace Player

/-- The answer to a sum, from its arguments. -/
def sumAnswer (args : Fields) : Except RemoteError String :=
  match Table.get? "a" args, Table.get? "b" args with
  | some (.num m), some (.num n) => .ok (sum m n).compact
  | _, _ => .error (.rejected "arguments 'a' and 'b' must be numbers")

/-- What a load comes to, and the state then. -/
def loaded (args : Fields) (state : Json) : Except RemoteError String × Json :=
  match Table.get? Arguments.scenarioKey args with
  | some s => (.ok "Successfully loaded from scenario.", s)
  | none => (.error (.rejected "missing required argument 'scenario'"), state)

/-- The state with entries set; it becomes an object if it is none. -/
def withEntries (args : Fields) : Json → Json
  | .obj fields => .obj (Table.merge fields args)
  | _ => .obj args

/-- What a part does. -/
def perform (p : Player) (args : Fields) : Part → Answer × Player
  | .text s => (.replied (.ok s), p)
  | .fail e => (.replied (.error e), p)
  | .get k => (.replied (.ok ((p.state.get? k).getD .null).compact), p)
  | .set => (.replied (.ok "ok"), { p with state := withEntries args p.state })
  | .state => (.replied (.ok p.state.compact), p)
  | .argv => (.replied (.ok (Json.arr (p.argv.map .str)).compact), p)
  | .die => (.died, p)
  | .echo => (.replied (.ok (Json.obj args).compact), p)
  | .sum => (.replied (sumAnswer args), p)
  | .load =>
    let (reply, state) := loaded args p.state
    (.replied reply, { p with state := state })
  | .save e => (.replied (.ok (e.apply p.state).compact), p)

/-- What an operation does on the call that has `n` calls of it before it. -/
def play (p : Player) (operation : String) (args : Fields) (n : Nat) : Answer × Player :=
  match p.script.operations.get? operation with
  | none => (.replied (.error (.rejected ("Unknown tool: " ++ operation))), p)
  | some (_, play) => p.perform args (play.part n)

end Player
end SessionPool.Rehearsal
