import SessionPool.CommandLine.Run

/-! The command line. The files that an invocation names are read before it runs and written after it;
    servers are the scripts found at the paths of the configuration. -/

namespace SessionPool.CommandLine

/-- What stands at a path, if anything. -/
def inspect (path : String) : IO (Option Node) := do
  try
    pure (some (.file (← IO.FS.readBinFile path)))
  catch
    | .noFileOrDirectory _ _ _ => pure none
    | .inappropriateType _ _ _ => pure (some .dir)
    | _ => pure none

/-- The files at some paths, and the directories above them. -/
def gather (paths : List String) : IO FileTree := do
  let mut files : FileTree := []
  for path in paths do
    for above in (FileTree.withParents (Path.components path).length path).reverse do
      if let some node ← inspect above then files := files.put above node
  pure files

/-- The paths of files that an invocation names. -/
def Invocation.paths (home : Option String) (i : Invocation) : List String :=
  let named := match i.task with
    | .tools => []
    | .call _ _ _ scenario _ logOut => scenario.toList ++ logOut.toList
    | .save _ scenario _ => scenario.toList
  (i.config :: named).map (Path.expand home)

/-- The servers of a configuration, as far as there are scripts of them. -/
def gatherServers (c : Config) : IO (Table Rehearsal.Script) := do
  let mut servers : Table Rehearsal.Script := []
  for (_, l) in c.groups do
    if let some (.file content) ← inspect l.path then
      if let some text := String.fromUTF8? content then
        if let .ok j := Json.parse text then
          servers := servers.insert l.path (Rehearsal.Script.ofJson j)
  pure servers

/-- The programs that launch servers of a configuration. -/
def launchers (python : String) (c : Config) : List String :=
  c.groups.filterMap fun g => Command.launcher? python g.2

/-- The machine that an invocation runs on. -/
def survey (home : Option String) (i : Invocation) : IO Machine := do
  let files ← gather (i.paths home)
  match Config.load files (Path.expand home i.config) with
  | .error _ => pure { files := files }
  | .ok c =>
    pure (.ofScripts (← gatherServers c) (launchers i.options.python c) files)

/-- Writes the log if the invocation asked for one and it has changed. -/
def writeLog (home : Option String) (i : Invocation) (before after : FileTree) : IO Unit := do
  let .call _ _ _ _ _ (some path) := i.task | pure ()
  let path := Path.expand home path
  match before.read path, after.read path with
  | old, .ok content =>
    if old.toOption.map (·.toList) ≠ some content.toList then
      if let some parent := Path.parent? path then
        if !parent.isEmpty then IO.FS.createDirAll parent
      IO.FS.writeBinFile path content
  | _, _ => pure ()

end SessionPool.CommandLine

open SessionPool CommandLine in
/-- Runs the words of the command line. -/
def main (words : List String) : IO UInt32 := do
  let home ← IO.getEnv "HOME"
  let finish (o : Outcome) : IO UInt32 := do
    IO.print o.printed
    IO.eprint (o.report.getD "usage: toolpool [--config FILE] [--python PROGRAM] [--timeout-secs N] (tools | call | save)\n")
    pure o.exit.toUInt32
  match Invocation.parse words with
  | .error h => finish (.ofHalt [] h)
  | .ok i =>
    let m ← survey home i
    let o := i.run (m.remote i.options.python) () home m.files
    writeLog home i m.files o.files
    finish o
