import SessionPool.Rehearsal.Player

/-! The house: all scripted servers, with gates that hold calls up until they are opened, and counts of
    what happened. Servers are found by their paths; paths with the same components are the same. -/

namespace SessionPool.Rehearsal

/-- A path by its components alone. -/
def place (path : String) : String :=
  (if Path.isAbsolute path then "/" else "") ++ "/".intercalate (Path.components path)

/-- A server, with its attempts to connect and the calls of each operation so far. -/
structure Server where
  script : Script
  attempts : Nat := 0
  calls : Table Nat := []

/-- All servers by their places, the gates that are open, and the counts. -/
structure House where
  servers : Table Server := []
  opened : List String := []
  connects : Nat := 0
  closes : Nat := 0
  calls : Table Nat := []
  inFlight : Nat := 0
  /-- The greatest number of calls that ran at once. -/
  peak : Nat := 0

namespace House

def ofScripts (scripts : Table Script) : House :=
  { servers := Table.ofList (scripts.map fun s => (place s.1, { script := s.2 })) }

def callsOf (h : House) (operation : String) : Nat := (Table.get? operation h.calls).getD 0

/-- Counts an attempt to connect. -/
def noteAttempt (h : House) (spot : String) (s : Server) : House :=
  { h with servers := h.servers.insert spot { s with attempts := s.attempts + 1 } }

def connect (l : Locator) (h : House) : Except RemoteError Player × House :=
  let spot := place l.path
  match Table.get? spot h.servers with
  | none => (.error (.connect ("no mock server at " ++ l.path)), h)
  | some s =>
    let h := h.noteAttempt spot s
    match s.script.connects[s.attempts]? with
    | some (some e) => (.error e, h)
    | _ => (.ok { place := spot, script := s.script }, { h with connects := h.connects + 1 })

/-- Counts a call that begins. -/
def enter (h : House) (operation : String) : House :=
  let running := h.inFlight + 1
  { h with
    calls := h.calls.alter operation fun n => n.getD 0 + 1
    inFlight := running
    peak := max h.peak running }

/-- The calls of an operation on a server so far, and the house with one more. -/
def turn (h : House) (spot operation : String) : Nat × House :=
  match Table.get? spot h.servers with
  | none => (0, h)
  | some s =>
    let n := (Table.get? operation s.calls).getD 0
    (n, { h with servers := h.servers.insert spot { s with calls := s.calls.insert operation (n + 1) } })

/-- A call; one that dies never counts as finished. -/
def call (p : Player) (operation : String) (args : Fields) (h : House) : (Answer × Player) × House :=
  let (n, h) := (h.enter operation).turn p.place operation
  match p.play operation args n with
  | (.died, p) => ((.died, p), h)
  | (.replied r, p) => ((.replied r, p), { h with inFlight := h.inFlight - 1 })

def close (p : Player) (h : House) : Except RemoteError Unit × House :=
  (match p.script.closing with
    | some e => .error e
    | none => .ok (),
   { h with closes := h.closes + 1 })

/-- Whether a gate in front of an operation is still closed. -/
def stalls (p : Player) (operation : String) (h : House) : Bool :=
  match p.script.gate? operation with
  | some g => !h.opened.contains g
  | none => false

/-- Opens a gate for good. -/
def openGate (h : House) (gate : String) : House := { h with opened := gate :: h.opened }

/-- The servers of a house. -/
def remote : Remote House Player where
  connect := connect
  list p h := ((p.script.operationsListed, p), h)
  call := call
  close := close
  stalls := stalls

end House

end SessionPool.Rehearsal
