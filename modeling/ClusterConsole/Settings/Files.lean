import ClusterConsole.Text.Utf8

/-! Files as a program finds them from the folder that it runs in. -/

namespace ClusterConsole

inductive FileNode where
  | file (bytes : List UInt8)
  | folder (entries : List (String × FileNode))
  deriving Inhabited

/-- Why a path gives no text. -/
inductive FileError where
  | notFound
  | unreadable
  deriving DecidableEq, Repr, Inhabited

namespace FileNode

def empty : FileNode := folder []

/-- The number of bytes that a name may have. -/
def maxNameLength : Nat := 255

/-- The number of bytes that a path may have. -/
def maxPathLength : Nat := 4095

/-- Follows the parts of a path. `above` holds the folders around the node, nearest first; the
outermost folder counts as its own outer one. A part that says nothing, or only `.`, still asks
for a folder. -/
def follow : List FileNode → FileNode → List String → Except FileError FileNode
  | _, node, [] => .ok node
  | above, node, part :: parts =>
    match node with
    | file _ => .error .unreadable
    | folder entries =>
      if part = "" ∨ part = "." then follow above node parts
      else if part = ".." then
        match above with
        | [] => follow [] node parts
        | outer :: above => follow above outer parts
      else if maxNameLength < part.utf8ByteSize then .error .unreadable
      else
        match entries.lookup part with
        | none => .error .notFound
        | some inner => follow (node :: above) inner parts

/-- Changes the node at the end of some names, in new folders where there are none. -/
def change (f : FileNode → FileNode) : List String → FileNode → FileNode
  | [], node => f node
  | name :: names, node =>
    match node with
    | file bytes => file bytes
    | folder entries =>
      let inner := change f names ((entries.lookup name).getD empty)
      folder ((name, inner) :: entries.filter (·.1 != name))

end FileNode

/-- The outermost folder, and the names on the way to the one that a program runs in. -/
structure FileSystem where
  root : FileNode := .empty
  here : List String := []
  deriving Inhabited

namespace FileSystem

/-- The parts of a path from the outermost folder on. -/
def parts (fs : FileSystem) (path : String) : List String :=
  let parts := path.splitOn "/"
  if parts.head? = some "" then parts else fs.here ++ parts

/-- The node at a path. -/
def find (fs : FileSystem) (path : String) : Except FileError FileNode :=
  if path.isEmpty then .error .notFound
  else if path.contains '\x00' || FileNode.maxPathLength < path.utf8ByteSize then .error .unreadable
  else fs.root.follow [] (fs.parts path)

/-- The text of the file at a path. -/
def readText (fs : FileSystem) (path : String) : Except FileError String :=
  match fs.find path with
  | .error e => .error e
  | .ok (.folder _) => .error .unreadable
  | .ok (.file bytes) =>
    match Utf8.text? bytes with
    | none => .error .unreadable
    | some text => .ok text

/-! ### Making files -/

/-- The names on the way to where a part of a path leads from others. -/
def enter (names : List String) (part : String) : List String :=
  if part = "" ∨ part = "." then names
  else if part = ".." then names.dropLast
  else names ++ [part]

/-- Makes the folders that a path goes through, also those that it leaves again. -/
def makeFolders (fs : FileSystem) (path : String) : FileSystem × List String :=
  (fs.parts path).foldl
    (fun (fs, names) part =>
      let names := enter names part
      ({ fs with root := fs.root.change id names }, names))
    (fs, [])

/-- Makes a folder. -/
def makeFolder (fs : FileSystem) (path : String) : FileSystem := (fs.makeFolders path).1

/-- Makes a file. -/
def write (fs : FileSystem) (path : String) (bytes : List UInt8) : FileSystem :=
  let (fs, names) := fs.makeFolders path
  { fs with root := fs.root.change (fun _ => .file bytes) names }

end FileSystem

end ClusterConsole
