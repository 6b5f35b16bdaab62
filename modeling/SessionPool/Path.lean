/-! Paths as texts. Components are separated by slashes; repeated and final slashes and inner dots
    count for nothing, a leading dot does. Joining adds a slash only where one is needed. -/

namespace SessionPool.Path

/-- The pieces between slashes, empty ones included. -/
def pieces : List Char → List (List Char)
  | [] => [[]]
  | c :: s =>
    if c = '/' then [] :: pieces s
    else
      match pieces s with
      | [] => [[c]]
      | p :: ps => (c :: p) :: ps

/-- Whether the path starts at the root. -/
def isAbsolute (path : String) : Bool := path.toList.head? = some '/'

/-- The components of a path, of which the root is none. -/
def components (path : String) : List String :=
  let ps := (pieces path.toList).map String.ofList
  match ps with
  | "." :: rest => "." :: rest.filter fun p => p ≠ "" && p ≠ "."
  | ps => ps.filter fun p => p ≠ "" && p ≠ "."

/-- The name of the last component, unless it leads upwards or is a leading dot. -/
def fileName? (path : String) : Option String :=
  match (components path).getLast? with
  | some ".." => none
  | some "." => none
  | name => name

/-- What follows the last dot of the file name; a dot at its start does not count. -/
def extension? (path : String) : Option String := do
  let name ← fileName? path
  let reversed := name.toList.reverse
  let after := reversed.takeWhile (· ≠ '.')
  if reversed.length ≤ after.length + 1 then none
  else some (String.ofList after.reverse)

/-- The path of what contains the last component; `none` if there is no component. -/
def parent? (path : String) : Option String :=
  match components path with
  | [] => none
  | cs => some ((if isAbsolute path then "/" else "") ++ "/".intercalate cs.dropLast)

/-- `right` seen from `left`: an absolute path replaces the other. -/
def join (left right : String) : String :=
  if isAbsolute right then right
  else if left.isEmpty || left.toList.getLast? = some '/' then left ++ right
  else left ++ "/" ++ right

/-- A leading `~/` stands for the home directory, if that is known. -/
def expand (home : Option String) (path : String) : String :=
  match home, path.toList with
  | some dir, '~' :: '/' :: rest => join dir (String.ofList rest)
  | _, _ => path

end SessionPool.Path
