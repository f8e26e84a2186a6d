import CanonicalLR.Name.Map

/-!
Contract: reading and writing text files.

Owns:
- the two file operations that a command may use, and the ways they fail;
- a working directory with files as a value, on which the operations act.

Does not own: the file system of the machine.

The working directory holds files and no directories. Around it there are the
directories above it, which hold nothing else, and the root directory with its
usual directories, which hold nothing but a few devices.
-/

namespace CanonicalLR

/-- `system` carries the number and the description of an error of the file
system; `notText` is the content of a file that is not valid UTF-8. -/
inductive FileError where
  | system (code : Nat) (description : String)
  | notText
deriving DecidableEq

namespace FileError

def notFound : FileError := system 2 "No such file or directory"

def notADirectory : FileError := system 20 "Not a directory"

def isADirectory : FileError := system 21 "Is a directory"

def nameTooLong : FileError := system 36 "File name too long"

def noSpace : FileError := system 28 "No space left on device"

def outOfMemory : FileError := system 12 "Cannot allocate memory"

def message : FileError → String
  | system code description => s!"{description} (os error {code})"
  | notText => "stream did not contain valid UTF-8"

end FileError

/-- The file operations, by path. Writing replaces the whole content. -/
structure FileAccess (m : Type → Type) where
  readText : String → m (Except FileError String)
  writeText : String → String → m (Except FileError Unit)

/-- A directory that a path can lead through. `above levels` is so many levels
above the working directory, which is itself `above 0`, and `top name` is a
directory of the root directory. -/
inductive Folder where
  | above (levels : Nat)
  | root
  | top (name : String)
deriving DecidableEq

namespace Folder

/-- The directories that every root directory has. -/
def topNames : List String :=
  ["bin", "boot", "dev", "etc", "home", "lib", "media", "mnt", "opt", "proc", "root", "run",
    "sbin", "srv", "sys", "tmp", "usr", "var"]

def parent : Folder → Folder
  | above levels => above (levels + 1)
  | root => root
  | top _ => root

/-- The folder that `name` leads to, unless it stands for a file. -/
def child? (folder : Folder) (name : String) : Option Folder :=
  match folder with
  | root => if name ∈ topNames then some (top name) else none
  | _ => none

/-- The shortest path that leads to the file `name` of the folder. -/
def pathOf (folder : Folder) (name : String) : String :=
  match folder with
  | above levels => String.join (List.replicate levels "../") ++ name
  | root => "/" ++ name
  | top folderName => "/" ++ folderName ++ "/" ++ name

end Folder

/-- Files without a content of their own. The null device is empty, and so is the
standard input; the others go on without end. What is written to a device is lost,
except that the full device takes nothing. -/
inductive Device where
  | null
  | zero
  | full
deriving DecidableEq

namespace Device

def ofPath? : String → Option Device
  | "/dev/null" | "/dev/stdin" => some null
  | "/dev/zero" => some zero
  | "/dev/full" => some full
  | _ => none

def readText : Device → Except FileError String
  | null => .ok ""
  | zero => .error .outOfMemory
  | full => .error .outOfMemory

def writeText : Device → String → Except FileError Unit
  | null, _ => .ok ()
  | zero, _ => .ok ()
  | full, text => if text.isEmpty then .ok () else .error .noSpace

end Device

/-- What a path leads to. `file` stands for a file that there is, or that there
may be, under its shortest path. -/
inductive Place where
  | file (path : String)
  | device (device : Device)
  | folder
deriving DecidableEq

/-- The content of each file by its shortest path, which for a file of the working
directory is its name. -/
structure Directory where
  files : NameMap ByteArray

namespace Directory

def maximalNameSize : Nat := 255

/-- The size that a path stays below. -/
def pathSizeLimit : Nat := 4096

/-- The place that the steps of a path lead to. An empty step and a dot stay in
the folder; a slash behind the last name asks for a folder, and none is created. -/
def locate (directory : Directory) (creating : Bool) (folder : Folder) :
    List String → Except FileError Place
  | [] => .ok .folder
  | name :: rest =>
      if name = "" ∨ name = "." then
        directory.locate creating folder rest
      else if name = ".." then
        directory.locate creating folder.parent rest
      else if creating ∧ !rest.isEmpty ∧ rest.all String.isEmpty then
        .error .isADirectory
      else if name.utf8ByteSize > maximalNameSize then
        .error .nameTooLong
      else
        match folder.child? name with
        | some child => directory.locate creating child rest
        | none =>
            let path := folder.pathOf name
            let device? := Device.ofPath? path
            if rest.isEmpty then
              .ok (device?.elim (.file path) .device)
            else if device?.isSome ∨ (directory.files.get? path).isSome then
              .error .notADirectory
            else
              .error .notFound

/-- A path is absolute if it begins with a slash. -/
def resolve (directory : Directory) (creating : Bool) (path : String) : Except FileError Place :=
  if path.isEmpty then
    .error .notFound
  else if path.utf8ByteSize ≥ pathSizeLimit then
    .error .nameTooLong
  else
    let start := if path.toList.head? = some '/' then Folder.root else .above 0
    directory.locate creating start ((path.toList.splitOn '/').map String.ofList)

def readText (directory : Directory) (path : String) : Except FileError String := do
  match ← directory.resolve false path with
  | .folder => .error .isADirectory
  | .device device => device.readText
  | .file path =>
      match directory.files.get? path with
      | none => .error .notFound
      | some content =>
          match String.fromUTF8? content with
          | none => .error .notText
          | some text => .ok text

def writeText (directory : Directory) (path text : String) : Except FileError Directory := do
  match ← directory.resolve true path with
  | .folder => .error .isADirectory
  | .device device =>
      device.writeText text
      return directory
  | .file path => .ok ⟨directory.files.insert path text.toUTF8⟩

/-- The operations on a directory that is passed along. A failure leaves it as it
is. -/
def access : FileAccess (StateM Directory) where
  readText path := do
    return (← get).readText path
  writeText path text := do
    match (← get).writeText path text with
    | .error cause => return .error cause
    | .ok directory =>
        set directory
        return .ok ()

end Directory

end CanonicalLR
