import SessionPool.Text.Duration

/-! The ways in which work on a tool server can fail, and how each is put into words. A remote failure
    is what a server or the way to it reports; a pool failure is what a caller of the pool is told. -/

namespace SessionPool

/-- A failure reported by a client of a tool server. -/
inductive RemoteError where
  | rejected (message : String)
  | connect (message : String)
  | unexpected (message : String)
  | closed (session : String)
  deriving DecidableEq

def RemoteError.message : RemoteError → String
  | .rejected m => m
  | .connect m => "failed to connect: " ++ m
  | .unexpected m => m
  | .closed id => "session " ++ id ++ " is closed"

/-- A failure of the file system. -/
inductive FileError where
  | notFound
  | alreadyThere
  | notDirectory
  | isDirectory
  | nameTooLong
  | denied
  | notText
  | nulInName
  | other (message : String)
  deriving DecidableEq

def FileError.message : FileError → String
  | .notFound => "No such file or directory (os error 2)"
  | .alreadyThere => "File exists (os error 17)"
  | .notDirectory => "Not a directory (os error 20)"
  | .isDirectory => "Is a directory (os error 21)"
  | .nameTooLong => "File name too long (os error 36)"
  | .denied => "Permission denied (os error 13)"
  | .notText => "stream did not contain valid UTF-8"
  | .nulInName => "file name contained an unexpected NUL byte"
  | .other m => m

/-- A failure that a caller of the pool is told. -/
inductive PoolError where
  | unknownGroup (group : String)
  | malformedArguments (message : String)
  | rejected (message : String)
  | unexpected (message : String)
  | loadFailed (message : String)
  | timeout (nanos : Nat)
  | sessionClosed (session : String)
  | closeFailed (session reason : String)
  | invalidConfig (message : String)
  | workerClosed
  | file (cause : FileError)
  deriving DecidableEq

def PoolError.message : PoolError → String
  | .unknownGroup g => "Unknown tool group: " ++ g
  | .malformedArguments m => "Malformed arguments: " ++ m
  | .rejected m => "Rejected before execution: " ++ m
  | .unexpected m => "Unexpected failure: " ++ m
  | .loadFailed m => "Scenario load failed: " ++ m
  | .timeout n => "Operation timed out after " ++ Text.duration n
  | .sessionClosed id => "Session closed: " ++ id
  | .closeFailed id reason => "Failed to close session " ++ id ++ ": " ++ reason
  | .invalidConfig m => "Invalid configuration: " ++ m
  | .workerClosed => "Bridge worker closed"
  | .file cause => "I/O error: " ++ cause.message

/-- What the caller of an operation is told of a remote failure. -/
def RemoteError.toPool : RemoteError → PoolError
  | .rejected m => .rejected m
  | .closed id => .sessionClosed id
  | e => .unexpected e.message

/-- What the caller of a load is told of a remote failure. -/
def RemoteError.toLoad : RemoteError → PoolError
  | .closed id => .sessionClosed id
  | e => .loadFailed e.message

/-- What the caller of a close is told of any failure. -/
def PoolError.toClose (session : String) : PoolError → PoolError
  | .closeFailed id reason => .closeFailed id reason
  | e => .closeFailed session e.message

end SessionPool
