import NodeProvisioner.StringMap

/-!
# Files

A set of files, each under its path, as far as a reader can tell it from a file system: a directory
is there if a file lies in it, and the directory `root` is there in any case.
-/

namespace NodeProvisioner

/-- Why a file cannot be read. -/
inductive IoFault where
  | notFound
  | isDirectory
  | notDirectory
  | notUtf8
  | other (message : String)
deriving Inhabited, DecidableEq, Repr

/-- The fault in words. -/
def IoFault.message : IoFault → String
  | notFound => "No such file or directory (os error 2)"
  | isDirectory => "Is a directory (os error 21)"
  | notDirectory => "Not a directory (os error 20)"
  | notUtf8 => "stream did not contain valid UTF-8"
  | other message => message

/-- The names that a path leads through. -/
def pathNames (path : String) : List String :=
  (path.splitToList (· = '/')).filter fun name => name ≠ "" && name ≠ "."

/-- The path of `name` in a directory. -/
def joinPath (directory name : String) : String :=
  if name.startsWith "/" then name
  else if directory.isEmpty || directory.endsWith "/" then directory ++ name
  else directory ++ "/" ++ name

/-- Files and what they hold. -/
structure Files where
  root : String := ""
  entries : List (List String × ByteArray) := []
deriving Inhabited

namespace Files

/-- The files of a directory by name. -/
def inDirectory (root : String) (files : List (String × ByteArray)) : Files :=
  ⟨root, files.map fun f => (pathNames (joinPath root f.1), f.2)⟩

/-- Reads a file. -/
def read (files : Files) (path : String) : Except IoFault ByteArray :=
  let names := pathNames path
  let within (other : List String) : Bool := names.isPrefixOf other
  match files.entries.lookup names with
  | some bytes => if path.endsWith "/" then .error .notDirectory else .ok bytes
  | none =>
    if within (pathNames files.root) || files.entries.any (within ·.1) then .error .isDirectory
    else if files.entries.any (·.1.isPrefixOf names) then .error .notDirectory
    else .error .notFound

/-- Reads a file that holds a text. -/
def readText (files : Files) (path : String) : Except IoFault String := do
  let bytes ← files.read path
  match String.fromUTF8? bytes with
  | some text => return text
  | none => throw .notUtf8

end Files

end NodeProvisioner
