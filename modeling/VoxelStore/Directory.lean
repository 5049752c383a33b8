import VoxelStore.Error
/-!
# Reading files by path

A tree of files as a list of paths with contents. A path is looked up from the directory that the tree
hangs in, component by component, and the first component that cannot be entered decides the error.

A path may leave the tree. The names in the directories between the tree and the root of the system are not
known; in the root there is what every system has. Climbing far enough always ends in the root.
-/

namespace VoxelStore

/-- The files of a directory and of the directories in it, each with the components of its path. -/
structure Directory where
  files : List (List (List Char) × List UInt8)
  /-- The number of directories between the root of the system and the tree. -/
  depth : Nat := 1

namespace Directory

/-- The longest name of one component, in bytes. -/
def maxName : Nat := 255

/-- The longest path, in bytes. -/
def maxPath : Nat := 4095

def byteCount (cs : List Char) : Nat := (Text.Utf8.encode cs).length

def components (path : List Char) : List (List Char) := path.splitOn '/'

/-- A directory or a file on the way along a path. -/
inductive Place where
  /-- In the tree, by its components. -/
  | inside (path : List (List Char))
  /-- A directory above the tree, with `height` directories between the root and it. -/
  | between (height : Nat)
  /-- In the root of the system, by its components. -/
  | system (path : List (List Char))
  deriving DecidableEq, Repr

/-- The directories that every system has. -/
def systemDirectories : List (List Char) :=
  ["bin", "dev", "etc", "home", "lib", "media", "mnt", "opt", "proc", "proc/self", "root", "run", "sbin",
    "srv", "sys", "tmp", "usr", "usr/bin", "usr/lib", "usr/local", "usr/share", "var", "var/lib", "var/log",
    "var/tmp"].map String.toList

/-- The files that every system has, with a content like the one they have. -/
def systemFiles : List (List Char × String) :=
  [("dev/null".toList, ""), ("etc/passwd".toList, "root:x:0:0:root:/root:/bin/sh\n"),
    ("etc/group".toList, "root:x:0:\n")]

/-- The link in the system to the directory that the process is in. -/
def processLink : List Char := "proc/self/cwd".toList

def joined (path : List (List Char)) : List Char := ['/'].intercalate path

/-- The directory that is `height` directories below the root. -/
def Place.below : Nat → Place
  | 0 => system []
  | height + 1 => between height

variable (d : Directory)

/-- The directory that a directory is in. The root is in itself. -/
def parent : Place → Place
  | .inside [] => .below d.depth
  | .inside path => .inside path.dropLast
  | .between height => .below height
  | .system path => .system path.dropLast

/-- The place of the given name in a directory. -/
def child? (name : List Char) : Place → Option Place
  | .inside path => some (.inside (path ++ [name]))
  | .between _ => none
  | .system path =>
    if joined (path ++ [name]) = processLink then some (.inside []) else some (.system (path ++ [name]))

/-- The content of the file of the tree at `path`. -/
def file? (path : List (List Char)) : Option (List UInt8) :=
  (d.files.find? fun f => decide (f.1 = path)).map Prod.snd

/-- There is a directory of the tree at `path`. -/
def isDirectory (path : List (List Char)) : Bool :=
  path.isEmpty || d.files.any fun f => path.isPrefixOf f.1 && path.length < f.1.length

def contentAt? : Place → Option (List UInt8)
  | .inside path => d.file? path
  | .between _ => none
  | .system path => (systemFiles.lookup (joined path)).map fun text => Text.Utf8.encode text.toList

def hasDirectoryAt : Place → Bool
  | .inside path => d.isDirectory path
  | .between _ => true
  | .system path => path.isEmpty || systemDirectories.contains (joined path)

/-- Follows the components from a directory. -/
def follow (place : Place) : List (List Char) → Except ReadProblem (List UInt8)
  | [] => .error .isDirectory
  | name :: rest =>
    if name = [] ∨ name = ['.'] then follow place rest
    else if name = ['.', '.'] then follow (d.parent place) rest
    else if maxName < byteCount name then .error .nameTooLong
    else match child? name place with
      | none => .error .notFound
      | some here =>
        match d.contentAt? here with
        | some content => if rest = [] then .ok content else .error .notADirectory
        | none => if d.hasDirectoryAt here then follow here rest else .error .notFound

/-- The content of the file that a path names. A path that starts with a slash starts at the root. -/
def read (path : List Char) : Except ReadProblem (List UInt8) :=
  if path = [] then .error .notFound
  else if maxPath < byteCount path then .error .nameTooLong
  else d.follow (if path.head? = some '/' then .system [] else .inside []) (components path)

end Directory

end VoxelStore
