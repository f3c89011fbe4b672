import SchemaTransfer.Text.Lines

/-!
# Paths

A path is taken apart at slashes, and empty pieces do not count. In the shortest form of a path
single points do not count either; two points stay, since what they lead to depends on the
directories there are.
-/
namespace SchemaTransfer.Path

def pieces (path : String) : List String :=
  ((List.splitOn '/' path.toList).map String.ofList).filter (· ≠ "")

def parts (path : String) : List String := (pieces path).filter (· ≠ ".")

def isAbsolute (path : String) : Bool := path.toList.head? = some '/'

/-- What stands before the first part. Two slashes are kept, three or more are one. -/
def root (path : String) : String :=
  match path.toList with
  | '/' :: '/' :: '/' :: _ => "/"
  | '/' :: '/' :: _ => "//"
  | '/' :: _ => "/"
  | _ => ""

/-- A path in its shortest form. The working directory is a point. -/
def normal (path : String) : String :=
  let shortest := root path ++ "/".intercalate (parts path)
  if shortest = "" then "." else shortest

/-- A file of a directory. -/
def child (directory name : String) : String :=
  root directory ++ "/".intercalate (parts directory ++ [name])

end SchemaTransfer.Path
