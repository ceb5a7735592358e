import EightBit.Text.Quoted

/-!
# Files

Commands read and write files through `FileAccess`, in a monad of the caller's choice. A
`Directory` is a working directory held in memory, with which commands run without any other
store.

## Main Definitions

- `FileError`: why a file cannot be read or written.
- `FileAccess`: reading and writing.
- `Directory.access`: the files of a directory in memory.
-/

namespace EightBit.CommandLine

/-! ## Access to files -/

/-- What can be wrong with a file name. -/
inductive FileProblem
  /-- There is no file, or no directory to put it in. -/
  | notFound
  /-- Something inside a file is asked for. -/
  | notDirectory
  | isDirectory
  /-- The name holds a null character. -/
  | nullInName
  /-- Anything else, with its wording. -/
  | other (text : String)
  deriving DecidableEq, Repr

/-- A problem with a file name. -/
structure FileError where
  problem : FileProblem
  name : List Char
  deriving DecidableEq, Repr

/-- The wording of a file error. -/
def FileError.message (e : FileError) : String :=
  let named (text : String) := text ++ ": " ++ String.ofList (Text.quoted e.name)
  match e.problem with
  | .notFound => named "[Errno 2] No such file or directory"
  | .notDirectory => named "[Errno 20] Not a directory"
  | .isDirectory => named "[Errno 21] Is a directory"
  | .nullInName => "embedded null byte"
  | .other text => text

/-- Reading and writing whole files, by name. -/
structure FileAccess (m : Type → Type) where
  read : List Char → m (Except FileError (List UInt8))
  write : List Char → List UInt8 → m (Except FileError Unit)

/-! ## A directory in memory -/

/-- The way to a file, from the working directory downwards. -/
abbrev Path := List (List Char)

/-- A working directory: its files, and the files in directories below it. A directory below it
exists if there is a file in it. -/
structure Directory where
  files : List (Path × List UInt8) := []
  deriving DecidableEq, Repr

/-- What a name leads to. -/
inductive Place
  /-- A directory, at or below the working directory. -/
  | directory (path : Path)
  /-- A directory so many levels above the working directory. -/
  | above (levels : Nat)
  | file (path : Path) (bytes : List UInt8)
  /-- Nothing yet, but a file can be put there. -/
  | vacant (path : Path)
  deriving DecidableEq, Repr

namespace Directory

/-- The parts of a name between its slashes. -/
def splitName (name : List Char) : List (List Char) :=
  name.splitBy (fun a b => a != '/' && b != '/') |>.filter (· != ['/'])

/-- What there is at a path. -/
def lookup (directory : Directory) (path : Path) : Place :=
  match directory.files.lookup path with
  | some bytes => .file path bytes
  | none =>
    if path.isEmpty || directory.files.any (fun file => path.isPrefixOf file.1) then
      .directory path
    else .vacant path

/-- Where one part of a name leads to. -/
def enter (directory : Directory) (part : List Char) : Place → Except FileProblem Place
  | .file _ _ => .error .notDirectory
  | .vacant _ => .error .notFound
  | .directory path =>
    if part = ['.'] then .ok (.directory path)
    else if part = ['.', '.'] then
      .ok (if path.isEmpty then .above 1 else .directory path.dropLast)
    else .ok (directory.lookup (path ++ [part]))
  | .above levels =>
    if part = ['.'] then .ok (.above levels)
    else if part = ['.', '.'] then .ok (.above (levels + 1))
    else .error .notFound

/-- What a name leads to. -/
def resolve (directory : Directory) (name : List Char) : Except FileProblem Place := do
  if name.contains '\x00' then throw .nullInName
  if name.isEmpty then throw .notFound
  let start : Place := if name.head? = some '/' then .above 1 else .directory []
  (splitName name).foldlM (fun place part => directory.enter part place) start

/-- A slash behind a name says that it means a directory. -/
def meansDirectory (name : List Char) : Bool :=
  name.getLast? == some '/'

/-- The bytes of a file. -/
def read (directory : Directory) (name : List Char) : Except FileProblem (List UInt8) := do
  match ← directory.resolve name with
  | .file _ bytes => if meansDirectory name then throw .notDirectory else return bytes
  | .vacant _ => throw .notFound
  | .directory _ | .above _ => throw .isDirectory

/-- The directory with other bytes at a path. -/
def put (directory : Directory) (path : Path) (bytes : List UInt8) : Directory :=
  ⟨(path, bytes) :: directory.files.filter (·.1 != path)⟩

/-- The directory after a file was written. -/
def write (directory : Directory) (name : List Char) (bytes : List UInt8) :
    Except FileProblem Directory := do
  match ← directory.resolve name with
  | .file path _ | .vacant path =>
    if meansDirectory name then throw .isDirectory else return directory.put path bytes
  | .directory _ | .above _ => throw .isDirectory

/-- The files of a directory that commands change as they go. -/
def access : FileAccess (StateM Directory) where
  read name := return ((← get).read name).mapError (FileError.mk · name)
  write name bytes := do
    match (← get).write name bytes with
    | .ok after =>
      set after
      return .ok ()
    | .error problem => return .error ⟨problem, name⟩

end Directory

end EightBit.CommandLine
