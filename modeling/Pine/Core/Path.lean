import Pine.Core.Text

/-!
# Pure paths

Posix paths as their root and their components, without a look at any file system.
-/

namespace Pine

/-- `value.split(separator)` -/
def splitOn (separator : Char) : Text → List Text
  | [] => [[]]
  | c :: s => match splitOn separator s with
    | first :: rest => if c = separator then [] :: first :: rest else (c :: first) :: rest
    | [] => [[]]

/-- The root of a path and its components. -/
def purePath (s : Text) : Text × List Text :=
  let root := match s with
    | '/' :: '/' :: '/' :: _ => ['/']
    | '/' :: '/' :: _ => ['/', '/']
    | '/' :: _ => ['/']
    | _ => []
  (root, (splitOn '/' s).filter fun part => part ≠ [] ∧ part ≠ ['.'])

/-- `str(path)` -/
def pathText (path : Text × List Text) : Text :=
  match path with
  | ([], []) => ['.']
  | (root, parts) => root ++ (parts.intersperse ['/']).flatten

/-- `path.is_absolute()` -/
def pathAbsolute (path : Text × List Text) : Bool := !path.1.isEmpty

end Pine
