import SessionPool.Catalog
import SessionPool.Program

/-! Tool servers as the pool sees them: they are connected to, list their operations, are called, and
    are closed. What a client does may depend on its own state `κ` and on a state `ρ` that all share.
    Discovery asks the server of each group in turn for its operations. -/

namespace SessionPool

/-- What comes of a call: a reply, or the work that made it dies. -/
inductive Answer where
  | replied (reply : Except RemoteError String)
  | died

/-- The servers. -/
structure Remote (ρ κ : Type) where
  connect : Locator → ρ → Except RemoteError κ × ρ
  list : κ → ρ → (Except RemoteError (List Operation) × κ) × ρ
  call : κ → String → Fields → ρ → (Answer × κ) × ρ
  close : κ → ρ → Except RemoteError Unit × ρ
  /-- Whether a call would not get through to the server at present. -/
  stalls : κ → String → ρ → Bool

/-- What is asked of servers while their operations are found out. -/
inductive Survey (κ : Type) where
  | connect (l : Locator)
  | list (client : κ)
  | close (client : κ)

def Survey.Reply {κ : Type} : Survey κ → Type
  | .connect _ => Except RemoteError κ
  | .list _ => Except RemoteError (List Operation) × κ
  | .close _ => Except RemoteError Unit

/-- What the servers reply. -/
def Remote.answer {ρ κ : Type} (r : Remote ρ κ) : (a : Survey κ) → ρ → a.Reply × ρ
  | .connect l, s => r.connect l s
  | .list client, s => r.list client s
  | .close client, s => r.close client s

/-- A survey of servers that gives an `α`. -/
abbrev Discovery (κ α : Type) := Program (Survey κ) Survey.Reply α

namespace Discovery
variable {κ : Type}

/-- What a group that cannot be asked is reported with. -/
def failure (group : String) (e : RemoteError) : PoolError :=
  .unexpected ("group '" ++ group ++ "': " ++ e.message)

/-- The operations of one group. The client is closed again whatever it answered, and it does not
    matter whether that works. -/
def operations (group : String) (l : Locator) : Discovery κ (Except PoolError (List Operation)) := do
  match ← Program.ask (Survey.connect l) with
  | .error e => pure (.error (failure group e))
  | .ok client =>
    let (listed, client) ← Program.ask (Survey.list client)
    let _ ← Program.ask (Survey.close client)
    pure (listed.mapError (failure group))

/-- Adds groups to a catalog one after the other, up to the first that cannot be asked. -/
def groups (c : Catalog) : Table Locator → Discovery κ (Except PoolError Catalog)
  | [] => pure (.ok c)
  | (group, l) :: rest => do
    match ← operations group l with
    | .error e => pure (.error e)
    | .ok ops => groups (Table.insert group ⟨l, ops⟩ c) rest

/-- The catalog of a configuration with the operations that its servers list. -/
def ofConfig (c : Config) : Discovery κ (Except PoolError Catalog) := groups [] c.groups

end Discovery
end SessionPool
