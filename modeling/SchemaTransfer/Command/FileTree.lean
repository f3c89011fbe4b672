import SchemaTransfer.Command.Path
import SchemaTransfer.Text.Quoted

/-!
# Files and directories

A place is told by the names on the way to it from the root; there are no links. A path is followed
part by part, from the root or from the working directory. What is left behind on the way has to be
a directory, and two points lead to the directory above.
-/
namespace SchemaTransfer

inductive FileProblem
  | missing
  | exists
  | notDirectory
  | isDirectory
  /-- No path holds the character zero. -/
  | nullCharacter
  /-- Any other problem, in the words of the system. -/
  | other (text : String)
  deriving DecidableEq, Inhabited

structure FileError where
  problem : FileProblem
  path : String
  deriving DecidableEq, Inhabited

def FileError.message (e : FileError) : String :=
  let shown := Quoted.quote e.path.toList
  match e.problem with
  | .missing => s!"[Errno 2] No such file or directory: {shown}"
  | .exists => s!"[Errno 17] File exists: {shown}"
  | .notDirectory => s!"[Errno 20] Not a directory: {shown}"
  | .isDirectory => s!"[Errno 21] Is a directory: {shown}"
  | .nullCharacter => "embedded null byte"
  | .other text => text

inductive Content
  | bytes (bytes : List UInt8)
  | text (text : String)
  deriving DecidableEq, Inhabited

/-- Texts are stored in UTF-8. -/
def Content.toBytes : Content → List UInt8
  | .bytes bs => bs
  | .text s => s.toUTF8.toList

/-- A text behind what a file holds. -/
def Content.append : Content → String → Content
  | .bytes bs, s => .bytes (bs ++ s.toUTF8.toList)
  | .text t, s => .text (t ++ s)

inductive Node
  | file (content : Content)
  | directory
  deriving DecidableEq, Inhabited

/-- The names on the way from the root. -/
abbrev Place := List String

/-- Where a part of a path leads from a directory. The root is above itself. -/
def Place.step (p : Place) (part : String) : Place :=
  if part = "." then p else if part = ".." then p.dropLast else p ++ [part]

structure FileTree where
  /-- What stands at a place is what comes first for it. -/
  nodes : List (Place × Node) := []
  workingDirectory : Place := []
  deriving DecidableEq, Inhabited

namespace FileTree

/-- The root is a directory. -/
def node? (t : FileTree) (p : Place) : Option Node :=
  if p = [] then some .directory else t.nodes.lookup p

def file? (t : FileTree) (p : Place) : Option Content :=
  match t.node? p with
  | some (.file content) => some content
  | _ => none

def insert (t : FileTree) (p : Place) (n : Node) : FileTree := { t with nodes := (p, n) :: t.nodes }

def walk (t : FileTree) (p : Place) : List String → Except FileProblem Place
  | [] => .ok p
  | part :: parts =>
    match t.node? p with
    | some .directory => t.walk (p.step part) parts
    | some (.file _) => .error .notDirectory
    | none => .error .missing

/-- The place that parts of a path lead to. Nothing has to stand there. -/
def follow (t : FileTree) (start : Place) (parts : List String) : Except FileProblem Place :=
  if parts.any fun part => part.toList.contains '\x00' then .error .nullCharacter
  else t.walk start parts

def start (t : FileTree) (path : String) : Place :=
  if Path.isAbsolute path then [] else t.workingDirectory

/-- The place of a path in its shortest form. -/
def locate (t : FileTree) (path : String) : Except FileProblem Place :=
  t.follow (t.start path) (Path.parts path)

def read (t : FileTree) (path : String) : Except FileError (List UInt8) :=
  let path := Path.normal path
  match t.locate path with
  | .error problem => .error ⟨problem, path⟩
  | .ok p =>
    match t.node? p with
    | some (.file content) => .ok content.toBytes
    | some .directory => .error ⟨.isDirectory, path⟩
    | none => .error ⟨.missing, path⟩

/-- Gives a file a content that may depend on the one it had. Its directory has to exist. -/
def put (t : FileTree) (path : String) (content : Option Content → Content) :
    Except FileError FileTree :=
  match t.locate path with
  | .error problem => .error ⟨problem, path⟩
  | .ok p =>
    match t.node? p with
    | some .directory => .error ⟨.isDirectory, path⟩
    | _ => .ok (t.insert p (.file (content (t.file? p))))

def write (t : FileTree) (path text : String) : Except FileError FileTree :=
  t.put path fun _ => .text text

/-- A file that does not exist is made. -/
def append (t : FileTree) (path text : String) : Except FileError FileTree :=
  t.put path fun old => (old.getD (.text "")).append text

section
variable (t : FileTree) (start : Place) (parts : List String)

/-- What the parts lead to. -/
def nodeAt? : Option Node := ((t.follow start parts).toOption).bind t.node?

/-- Makes one directory where nothing stands. -/
def makeOne : Except FileProblem FileTree :=
  match t.follow start parts with
  | .error problem => .error problem
  | .ok p => if (t.node? p).isSome then .error .exists else .ok (t.insert p .directory)

/-- A directory that exists stays as it is. -/
def makeLast : FileTree × Option FileProblem :=
  match t.makeOne start parts with
  | .ok t => (t, none)
  | .error problem =>
    (t, if t.nodeAt? start parts = some .directory then none else some problem)

end

/-- Makes a directory, and those above it if there is nothing to stand in. The parts are given from
the last one on. What was made before a failure stays. -/
def makeWithParents (t : FileTree) (start : Place) : List String → FileTree × Option FileProblem
  | [] => t.makeLast start []
  | part :: above =>
    match t.makeOne start (part :: above).reverse with
    | .error .missing =>
      match t.makeWithParents start above with
      | (t, none) => t.makeLast start (part :: above).reverse
      | failed => failed
    | _ => t.makeLast start (part :: above).reverse

/-- Looks first for the directory above, and does not mind a file in its place until something has
to stand in it. -/
def makeAll (t : FileTree) (start : Place) : List String → FileTree × Option FileProblem
  | [] => t.makeLast start []
  | part :: above =>
    if (t.nodeAt? start above.reverse).isSome then t.makeLast start (part :: above).reverse
    else
      match t.makeAll start above with
      | (t, none) | (t, some .exists) =>
        if part = "." then (t, none) else t.makeLast start (part :: above).reverse
      | failed => failed

def makeDirectory (t : FileTree) (path : String) : FileTree × Option FileError :=
  let (t, problem) := t.makeWithParents (t.start path) (Path.parts path).reverse
  (t, problem.map (⟨·, path⟩))

/-- Takes the path as it is written. -/
def makeDirectories (t : FileTree) (path : String) : FileTree × Option FileError :=
  if path = "" then (t, some ⟨.missing, path⟩)
  else
    let (t, problem) := t.makeAll (t.start path) (Path.pieces path).reverse
    (t, problem.map (⟨·, path⟩))

end FileTree

end SchemaTransfer
