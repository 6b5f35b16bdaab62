import SessionPool.Decimal.Scaled
import SessionPool.Table

/-! Invocations: what the words of a command line ask for. Options come before the subcommand or belong
    to it, take their value from the same word or the next, and are given at most once. A word with a
    leading dash is never a value of its own, unless everything after `--` is taken as it is. -/

namespace SessionPool.CommandLine

/-- What is asked for. -/
inductive Task where
  | tools
  | call (session tool args : String) (scenario : Option String) (verify : Bool) (logOut : Option String)
  | save (sessions : List String) (scenario : Option String) (verify : Bool)
  deriving DecidableEq

/-- A task, with what holds for all of them. -/
structure Invocation where
  config : String
  python : Option String
  timeoutSeconds : Nat
  task : Task
  deriving DecidableEq

/-- Why there is nothing to run. -/
inductive Halt where
  /-- The words make no sense. -/
  | usage
  | version
  | help
  deriving DecidableEq

/-- What a word looks like. -/
inductive Word where
  | escape
  | long (name : List Char) (value : Option String)
  | short (letter : Char)
  | plain (s : String)

namespace Word

/-- A long option with the value in the same word, if it has one. -/
def ofLong (s : List Char) : Word :=
  let name := s.takeWhile (· ≠ '=')
  match s.drop name.length with
  | [] => long name none
  | _ :: value => long name (some (String.ofList value))

def of (s : String) : Word :=
  match s.toList with
  | ['-', '-'] => escape
  | '-' :: '-' :: rest => ofLong rest
  | '-' :: letter :: _ => short letter
  | _ => plain s

end Word

/-- The options that a part of the command line knows: those with a value, and flags. -/
structure Form where
  options : List String
  flags : List String := []
  /-- Whether the version may be asked for. -/
  versioned : Bool := false
  /-- How many plain words there is room for; any number if none is said. -/
  room : Option Nat := none
  /-- Whether the first plain word ends the part. -/
  stops : Bool := false

/-- What a part of the command line holds. -/
structure Found where
  options : Table String := []
  flags : List String := []
  plain : List String := []
  /-- Whether its last value turned out wrong only behind its end. -/
  faulty : Bool := false

namespace Found

/-- Notes the value of an option, which must be sound and the first. -/
def setOption? (f : Found) (ok : Bool) (name value : String) : Option Found :=
  if f.options.has name || !ok then none
  else some { f with options := f.options.insert name value }

/-- Notes a flag, which must be the first. -/
def setFlag (f : Found) (name : String) : Except Halt Found :=
  if f.flags.contains name then .error .usage else .ok { f with flags := name :: f.flags }

end Found

namespace Form

/-- What a flag of every part means. -/
def standing (m : Form) (name : String) : Halt :=
  if name = "help" then .help
  else if name = "version" && m.versioned then .version
  else .usage

/-- What a letter means. -/
def letter (m : Form) (c : Char) : Halt :=
  if c = 'h' then .help
  else if c = 'V' && m.versioned then .version
  else .usage

/-- Checks the value of an option as soon as it is known. -/
abbrev Check := String → String → Bool

/-- Whether there is room for one more plain word. -/
def hasRoom (m : Form) (f : Found) : Bool :=
  match m.room with
  | some n => f.plain.length < n
  | none => true

/-- Whether the part ends before some words. -/
def endsBefore (m : Form) : List String → Bool
  | [] => false
  | w :: _ =>
    match Word.of w with
    | .plain _ => m.stops
    | _ => false

/-- Reads a part of the command line: what it holds, and the words after it. A value that stands behind
    its option is judged together with the word after it, which may be the end of the part. -/
def read (m : Form) (ok : Check) : Found → List String → Except Halt (Found × List String)
  | f, [] => .ok (f, [])
  | f, w :: rest =>
    match Word.of w with
    | .escape =>
      if m.stops then .error .usage else .ok ({ f with plain := f.plain ++ rest }, [])
    | .short c => .error (m.letter c)
    | .plain s =>
      if m.stops then .ok (f, w :: rest)
      else if m.hasRoom f then read m ok { f with plain := f.plain ++ [s] } rest
      else .error .usage
    | .long name value =>
      let name := String.ofList name
      if m.options.contains name then
        match value, rest with
        | some v, rest =>
          match f.setOption? (ok name v) name v with
          | some f => read m ok f rest
          | none => .error .usage
        | none, next :: rest =>
          match Word.of next with
          | .plain v =>
            match f.setOption? (ok name v) name v with
            | some f => read m ok f rest
            | none =>
              if m.endsBefore rest then .ok ({ f with faulty := true }, rest) else .error .usage
          | _ => .error .usage
        | none, [] => .error .usage
      else if value.isSome then .error .usage
      else if m.flags.contains name then
        match f.setFlag name with
        | .ok f => read m ok f rest
        | .error h => .error h
      else .error (m.standing name)

end Form

namespace Invocation

/-- A number of 64 bits, with an optional plus sign. -/
def seconds? (s : String) : Option Nat :=
  let digits := match s.toList with
    | '+' :: rest => rest
    | rest => rest
  if digits.isEmpty || !digits.all Char.isDigit then none
  else
    let n := digits.foldl (fun n c => n * 10 + (c.toNat - '0'.toNat)) 0
    if n < Decimal.wordBound then some n else none

def timeoutOption : String := "timeout-secs"

/-- What may be given before the subcommand. -/
def generalForm : Form where
  options := ["config", "python", timeoutOption]
  versioned := true
  stops := true

def toolsForm : Form where
  options := []
  room := some 0

def callForm : Form where
  options := ["args", "scenario", "log-out"]
  flags := ["verify"]
  room := some 2

def saveForm : Form where
  options := ["scenario"]
  flags := ["verify"]

/-- The only values that are checked are numbers of seconds. -/
def checkGeneral : Form.Check := fun name value =>
  name ≠ timeoutOption || (seconds? value).isSome

/-- Reads the words after the name of a subcommand. -/
def readTask (m : Form) (words : List String) : Except Halt Found :=
  (m.read (fun _ _ => true) {} words).map (·.1)

/-- What asking for help with some words comes to: they may name one subcommand. -/
def helpOn : List String → Halt
  | [] => .help
  | [name] => if ["tools", "call", "save", "help"].contains name then .help else .usage
  | _ => .usage

/-- The task that a subcommand and the words after it ask for. -/
def taskOf (name : String) (words : List String) : Except Halt Task :=
  if name = "tools" then
    match readTask toolsForm words with
    | .error h => .error h
    | .ok f => if f.plain.isEmpty then .ok .tools else .error .usage
  else if name = "call" then
    match readTask callForm words with
    | .error h => .error h
    | .ok f =>
      match f.plain with
      | [session, tool] => .ok (.call session tool
          ((Table.get? "args" f.options).getD "\x7b\x7d")
          (Table.get? "scenario" f.options)
          (f.flags.contains "verify")
          (Table.get? "log-out" f.options))
      | _ => .error .usage
  else if name = "save" then
    match readTask saveForm words with
    | .error h => .error h
    | .ok f =>
      if f.plain.isEmpty then .error .usage
      else .ok (.save f.plain (Table.get? "scenario" f.options) (f.flags.contains "verify"))
  else if name = "help" then .error (helpOn words)
  else .error .usage

/-- The configuration that is read unless another is named. -/
def defaultConfig : String := "mcp_servers.json"

/-- How long a call may take unless said otherwise, in seconds. -/
def defaultTimeout : Nat := 120

/-- What the words of a command line ask for. -/
def parse (words : List String) : Except Halt Invocation :=
  match generalForm.read checkGeneral {} words with
  | .error h => .error h
  | .ok (_, []) => .error .usage
  | .ok (f, name :: rest) =>
    match taskOf name rest with
    | .error h => .error h
    | .ok t =>
      if f.faulty then .error .usage
      else .ok
        { config := (Table.get? "config" f.options).getD defaultConfig
          python := Table.get? "python" f.options
          timeoutSeconds := ((Table.get? timeoutOption f.options).bind seconds?).getD defaultTimeout
          task := t }

end Invocation
end SessionPool.CommandLine
