import MiniPascal.Source.Input

/-! # Files and directories

A file tree is what a program can see of a file system: directories and files by the names on the
way to them. The current directory, the directories above it and the root are always there.
-/

namespace MiniPascal

/-- A file with its contents, or a directory. -/
inductive FileNode where
  | file (bytes : Bytes)
  | directory

/-- The names on the way from the current directory. A path from the root starts with a slash, and a
path out of the current directory with two dots. -/
abbrev FilePath := List Text

structure FileTree where
  nodes : List (FilePath × FileNode) := []

/-- Why a path leads nowhere. -/
inductive PathError where
  | missing
  | notDirectory
  | isDirectory
  | exists_
  | tooLong
  | invalid
deriving DecidableEq

def PathError.reason : PathError → Text
  | missing => "no such file or directory"
  | notDirectory => "not a directory"
  | isDirectory => "is a directory"
  | exists_ => "file exists"
  | tooLong => "file name too long"
  | invalid => "invalid argument"

/-- The failure of an action on a path. -/
def PathError.failure (error : PathError) (action : String) (path : Text) : Failure :=
  .reported (.join [action, " ", path, ": ", error.reason])

namespace FileTree

def slash : Glyph := .char '/'

def names : Text → List Text
  | [] => [[]]
  | glyph :: rest =>
    if glyph = slash then [] :: names rest
    else match names rest with
      | [] => [[glyph]]
      | name :: more => (glyph :: name) :: more

/-- The name of the directory above. -/
def above : Text := ".."

/-- The path of the directory above. -/
def parent (path : FilePath) : FilePath :=
  match path.getLast? with
  | none => [above]
  | some name => if name = above then path ++ [above] else if name = [slash] then path else path.dropLast

/-- Whether a path leads to the root, the current directory or a directory above it. -/
def isUpward (path : FilePath) : Bool := path = [[slash]] || path.all (· = above)

def node? (tree : FileTree) (path : FilePath) : Option FileNode :=
  if isUpward path then some .directory else (tree.nodes.find? (·.1 = path)).map (·.2)

def nameLimit : Nat := 255

def pathLimit : Nat := 4095

/-- Refuses a written path that no file system takes. -/
def checkPath (path : Text) : Except PathError Unit :=
  if 0 ∈ path.bytes then .error .invalid
  else if pathLimit < path.bytes.length then .error .tooLong
  else if path = [] then .error .missing
  else .ok ()

/-- Follows one name after another from a place; every place on the way has to be a directory. -/
def follow (tree : FileTree) (place : FilePath) : List Text → Except PathError FilePath
  | [] => .ok place
  | name :: rest =>
    match tree.node? place with
    | none => .error .missing
    | some (.file _) => .error .notDirectory
    | some .directory =>
      if name = [] ∨ name = Text.ofString "." then follow tree place rest
      else if name = above then follow tree (parent place) rest
      else if nameLimit < name.bytes.length then .error .tooLong
      else follow tree (place ++ [name]) rest

/-- The place that a written path means, whether or not something stands there. -/
def place (tree : FileTree) (path : Text) : Except PathError FilePath := do
  checkPath path
  tree.follow (if path.head? = some slash then [[slash]] else []) (names path)

def find (tree : FileTree) (path : Text) : Except PathError FileNode := do
  let place ← tree.place path
  match tree.node? place with
  | some node => return node
  | none => throw .missing

def put (tree : FileTree) (path : FilePath) (node : FileNode) : FileTree :=
  { nodes := tree.nodes.filter (·.1 ≠ path) ++ [(path, node)] }

/-- Adds a node and the directories on the way to it. A path with a slash at its end is a directory. -/
def add (tree : FileTree) (path : Text) (bytes : Bytes) : FileTree :=
  let parts := (names path).filter (· ≠ [])
  let ways := (List.range parts.length).drop 1 |>.map fun n => parts.take n
  let tree := ways.foldl (fun tree way =>
    if (tree.node? way).isSome then tree else tree.put way .directory) tree
  tree.put parts (if path.getLast? = some slash then .directory else .file bytes)

/-- What a call finds beside its current directory on every system: the device that holds nothing,
and the directory for files of the moment. -/
def fresh : FileTree :=
  { nodes := [([[slash], "dev"], .directory), ([[slash], "dev", "null"], .file []),
      ([[slash], "tmp"], .directory)] }

/-- The written paths on the way to a path, and the path itself. -/
def waypoints (path : Text) : List Text :=
  let parts := names path
  (List.range parts.length).map fun n => .join ((parts.take (n + 1)).intersperse [slash])

def openStream (tree : FileTree) (path : Text) : Except Failure Stream :=
  match tree.find path with
  | .ok (.file bytes) => .ok (.ofFile path bytes)
  | .ok .directory => .ok (.ofDirectory path)
  | .error error => .error (error.failure "open" path)

def makeDirectory (tree : FileTree) (path : Text) : Except PathError FileTree := do
  checkPath path
  let place ← tree.place (path.reverse.dropWhile (· = slash)).reverse
  match tree.node? place with
  | some _ => throw .exists_
  | none =>
    match tree.node? (parent place) with
    | none => throw .missing
    | some (.file _) => throw .notDirectory
    | some .directory => return tree.put place .directory

/-- The part of a path before its last name. -/
def upperPart (path : Text) : Text :=
  ((path.reverse.dropWhile (· = slash)).dropWhile (· ≠ slash)).drop 1 |>.reverse

/-- Makes a directory and those on the way to it, with at most `fuel` names. -/
def makeDirectories : (fuel : Nat) → (path : Text) → FileTree → Except Failure FileTree
  | 0, path, _ => .error (PathError.missing.failure "mkdir" path)
  | fuel + 1, path, tree =>
    match tree.find path with
    | .ok .directory => .ok tree
    | .ok (.file _) => .error (PathError.notDirectory.failure "mkdir" path)
    | .error _ => do
      let tree ← if upperPart path = [] then .ok tree else makeDirectories fuel (upperPart path) tree
      match tree.makeDirectory path with
      | .ok tree => return tree
      | .error error =>
        match tree.find path with
        | .ok .directory => return tree
        | _ => throw (error.failure "mkdir" path)

/-- The shortest way to write a path followed by a name. -/
def join (path name : Text) : Text :=
  let kept := (names path ++ [name]).foldl (fun (kept : List Text) part =>
    if part = [] ∨ part = Text.ofString "." then kept
    else if part = above then
      match kept with
      | last :: rest => if last = above then part :: kept else rest
      | [] => if path.head? = some slash then [] else [part]
    else part :: kept) []
  (if path.head? = some slash then [slash] else []) ++ .join (kept.reverse.intersperse [slash])

def write (tree : FileTree) (path : Text) (bytes : Bytes) : Except Failure FileTree :=
  let written : Except PathError FileTree := do
    let place ← tree.place path
    match tree.node? place with
    | some .directory => throw .isDirectory
    | some (.file _) => return tree.put place (.file bytes)
    | none =>
      match tree.node? (parent place) with
      | none => throw .missing
      | some (.file _) => throw .notDirectory
      | some .directory => return tree.put place (.file bytes)
  written.mapError fun error => error.failure "open" path

def files (tree : FileTree) : List (Text × Bytes) :=
  tree.nodes.filterMap fun
    | (path, .file bytes) => some (.join (path.intersperse [slash]), bytes)
    | (_, .directory) => none

def filesHere (tree : FileTree) : List (Text × Bytes) :=
  let here := tree.nodes.filter fun node => !(node.1.head?.any fun name => isUpward [name])
  { tree with nodes := here }.files

end FileTree

end MiniPascal
