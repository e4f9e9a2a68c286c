/-! A working directory: files by the names that lead to them, and the folders that hold them.
A path is followed name by name, and the first name that leads nowhere decides why nothing can be read. -/
namespace Interop.CommandLine

inductive FileError where
  | missing
  | notADirectory
  | isADirectory
  | nameTooLong
deriving DecidableEq, Repr

def FileError.message : FileError → String
  | missing => "No such file or directory (os error 2)"
  | notADirectory => "Not a directory (os error 20)"
  | isADirectory => "Is a directory (os error 21)"
  | nameTooLong => "File name too long (os error 36)"

abbrev Files := String → Except String (List Char)

structure Directory where
  /-- Whether nothing lies above the folder. -/
  isRoot : Bool
  /-- Folders that are there besides those of the files. -/
  folders : List (List String)
  files : List (List String × List Char)

namespace Directory

/-- The names in a path, which slashes separate; neighbouring slashes have an empty name between them. -/
def namesOf (path : String) : List String := path.splitOn "/"

def staysIn (name : String) : Bool := name == "" || name == "."

def ofFiles (files : List (String × List Char)) : Directory :=
  ⟨false, [], files.map fun (path, text) => ((namesOf path).filter fun name => !staysIn name, text)⟩

def file? (directory : Directory) (names : List String) : Option (List Char) :=
  (directory.files.find? fun file => file.1 == names).map (·.2)

def contains (directory : Directory) (names : List String) : Bool :=
  (directory.folders ++ directory.files.map (·.1)).any fun known => names.isPrefixOf known

/-- How many bytes a name has at most, and a path with the byte that ends it. -/
def maxName : Nat := 255
def maxPath : Nat := 4096

/-- Why nothing can be read above a working directory, where nothing but folders is known. -/
def aboveFault : (names : List String) → FileError
  | [] => .isADirectory
  | name :: rest =>
    if staysIn name || name == ".." then aboveFault rest
    else if maxName < name.utf8ByteSize then .nameTooLong
    else .missing

def follow (directory : Directory) : (folder names : List String) → Except FileError (List String)
  | folder, [] => .ok folder
  | folder, name :: rest =>
    if (directory.file? folder).isSome then .error .notADirectory
    else if staysIn name then directory.follow folder rest
    else if name = ".." then
      if folder = [] ∧ !directory.isRoot then .error (aboveFault rest)
      else directory.follow folder.dropLast rest
    else if maxName < name.utf8ByteSize then .error .nameTooLong
    else if directory.contains (folder ++ [name]) then directory.follow (folder ++ [name]) rest
    else .error .missing

/-- What is known under the root of every system: its standard folders, and the file without contents. -/
def system : Directory :=
  ⟨true, ["bin", "etc", "home", "lib", "opt", "proc", "run", "sys", "tmp", "usr", "var"].map fun name => [name],
    [(["dev", "null"], [])]⟩

def readFrom (directory : Directory) (path : String) : Except FileError (List Char) := do
  let names ← directory.follow [] (namesOf path)
  match directory.file? names with
  | some text => .ok text
  | none => .error .isADirectory

/-- The contents of the file at a path, which a slash in front leads to from the root. -/
def read (directory : Directory) (path : String) : Except FileError (List Char) :=
  if path = "" then .error .missing
  else if maxPath ≤ path.utf8ByteSize then .error .nameTooLong
  else if path.startsWith "/" then system.readFrom path
  else directory.readFrom path

def toFiles (directory : Directory) : Files := fun path => (directory.read path).mapError FileError.message

end Directory
end Interop.CommandLine
