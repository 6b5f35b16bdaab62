import SessionPool.Error
import SessionPool.Path
import SessionPool.Table

/-! A tree of files, seen from a current directory. A place is the list of names that lead to it; it may
    start with `..` or with the empty name of the root, and those directories are always there. A path
    is followed name by name: whatever is not the last must be a directory. -/

namespace SessionPool

/-- What stands at a place. -/
inductive Node where
  | dir
  | file (content : ByteArray)

/-- Files and directories by the path from the current directory. -/
abbrev FileTree := Table Node

namespace FileTree

/-- The names that lead to a place. -/
abbrev Place := List String

def key (p : Place) : String := "/".intercalate p

/-- Directories that exist in every tree. -/
def isBase (p : Place) : Bool := p = [""] || p.all (· = "..")

def node? (t : FileTree) (p : Place) : Option Node :=
  if isBase p then some .dir else Table.get? (key p) t

/-- The directory above a directory. -/
def up (p : Place) : Place :=
  if p = [""] then p
  else if p.all (· = "..") then p ++ [".."]
  else p.dropLast

/-- Longer names are refused. -/
def maxName : Nat := 255

/-- Longer paths are refused. -/
def maxPath : Nat := 4095

/-- The place that names lead to, from a place that need not exist. -/
def walk (t : FileTree) (p : Place) : List String → Except FileError Place
  | [] => .ok p
  | n :: ns =>
    match t.node? p with
    | none => .error .notFound
    | some (.file _) => .error .notDirectory
    | some .dir =>
      if maxName < n.utf8ByteSize then .error .nameTooLong
      else if n = "." then walk t p ns
      else if n = ".." then walk t (up p) ns
      else walk t (p ++ [n]) ns

/-- Refuses what is no path anywhere. -/
def refuseNoPath (path : String) : Except FileError Unit :=
  if path.toList.contains '\x00' then .error .nulInName
  else if path.isEmpty then .error .notFound
  else if maxPath < path.utf8ByteSize then .error .nameTooLong
  else .ok ()

/-- The place where a path begins. -/
def origin (path : String) : Place := if Path.isAbsolute path then [""] else []

/-- The names in a path, dots among them. -/
def names (path : String) : List String :=
  ((Path.pieces path.toList).map String.ofList).filter (· ≠ "")

/-- The place that a path leads to. -/
def locate (t : FileTree) (path : String) : Except FileError Place :=
  match refuseNoPath path with
  | .error e => .error e
  | .ok () => walk t (origin path) (names path)

/-- Whether a path must lead to a directory because it ends in a slash. -/
def endsOpen (path : String) : Bool := path.toList.getLast? = some '/'

/-- The content of a file. -/
def read (t : FileTree) (path : String) : Except FileError ByteArray :=
  match t.locate path with
  | .error e => .error e
  | .ok p =>
    match t.node? p with
    | none => .error .notFound
    | some .dir => .error .isDirectory
    | some (.file content) => if endsOpen path then .error .notDirectory else .ok content

/-- The text of a file. -/
def readText (t : FileTree) (path : String) : Except FileError String :=
  match t.read path with
  | .error e => .error e
  | .ok content =>
    match String.fromUTF8? content with
    | none => .error .notText
    | some s => .ok s

def isDir (t : FileTree) (path : String) : Bool :=
  match t.locate path with
  | .error _ => false
  | .ok p =>
    match t.node? p with
    | some .dir => true
    | _ => false

/-- Makes one directory. -/
def makeDir (t : FileTree) (path : String) : Except FileError FileTree :=
  match t.locate path with
  | .error e => .error e
  | .ok p => if (t.node? p).isSome then .error .alreadyThere else .ok (Table.insert (key p) .dir t)

/-- What comes of an attempt to make a directory, which may be there already. -/
def settleDir (t : FileTree) (path : String) : Except FileError FileTree → Except FileError Unit × FileTree
  | .ok u => (.ok (), u)
  | .error e => (if t.isDir path then .ok () else .error e, t)

/-- Makes a directory and those above it that are missing; the list holds the path and those above.
    What was made stays when the rest fails. -/
def makeDirs (t : FileTree) : List String → Except FileError Unit × FileTree
  | [] => (.ok (), t)
  | path :: above =>
    match t.makeDir path with
    | .error .notFound =>
      match makeDirs t above with
      | (.error e, u) => (.error e, u)
      | (.ok (), u) => u.settleDir path (u.makeDir path)
    | r => t.settleDir path r

/-- A path and the paths above it, as far as they have a component. -/
def withParents : Nat → String → List String
  | 0, _ => []
  | fuel + 1, path =>
    if path.isEmpty then []
    else path :: (match Path.parent? path with
      | none => []
      | some parent => withParents fuel parent)

/-- Makes the directory of a file and those above it. -/
def makeParents (t : FileTree) (path : String) : Except FileError Unit × FileTree :=
  match Path.parent? path with
  | none => (.ok (), t)
  | some parent => t.makeDirs (withParents (Path.components path).length parent)

/-- The place of a file that is to be written. A path that ends in a slash names none, whatever its last
    name is. -/
def locateFile (t : FileTree) (path : String) : Except FileError Place :=
  if endsOpen path then
    match refuseNoPath path with
    | .error e => .error e
    | .ok () =>
      match walk t (origin path) (names path).dropLast with
      | .error e => .error e
      | .ok p =>
        match t.node? p with
        | none => .error .notFound
        | some (.file _) => .error .notDirectory
        | some .dir => .error .isDirectory
  else t.locate path

/-- Adds text at the end of a file, which is made if it is missing. -/
def append (t : FileTree) (path text : String) : Except FileError FileTree :=
  match t.locateFile path with
  | .error e => .error e
  | .ok p =>
    match t.node? p with
    | some .dir => .error .isDirectory
    | some (.file content) => .ok (Table.insert (key p) (.file (content ++ text.toUTF8)) t)
    | none => .ok (Table.insert (key p) (.file text.toUTF8) t)

/-- Puts a node at a path, with the directories above it. -/
def put (t : FileTree) (path : String) (n : Node) : FileTree :=
  let u := (t.makeParents path).2
  match u.locate path with
  | .error _ => u
  | .ok p => Table.insert (key p) n u

end FileTree
end SessionPool
