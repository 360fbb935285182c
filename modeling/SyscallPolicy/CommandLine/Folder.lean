import SyscallPolicy.Kernel.Errno
/-! Folders, and what opening a path finds in them. -/
namespace SyscallPolicy.CommandLine
open Kernel (Errno)

inductive Found where
  | file (content : List UInt8)
  | directory
  deriving DecidableEq, Repr

/-- A folder of files and empty subfolders, in surroundings that hold nothing known. -/
structure Folder where
  files : List (String × List UInt8)
  subfolders : List String
  deriving DecidableEq, Repr

namespace Folder

/-- Where a walk along a path has come to. -/
inductive Place where
  | here
  | subfolder
  | outside
  | file (content : List UInt8)

def maxName : Nat := 255

def maxPath : Nat := 4095

/-- Goes one name further. A file has nothing in it, not even itself. -/
def walk (folder : Folder) (place : Place) (name : String) : Except Errno Place :=
  match place with
  | .file _ => .error .notDirectory
  | place =>
    if name = "" ∨ name = "." then .ok place
    else if name = ".." then
      match place with
      | .subfolder => .ok .here
      | _ => .ok .outside
    else if maxName < name.utf8ByteSize then .error .nameTooLong
    else
      match place with
      | .here =>
        match folder.files.lookup name with
        | some content => .ok (.file content)
        | none => if name ∈ folder.subfolders then .ok .subfolder else .error .noEntry
      | _ => .error .noEntry

/-- Opens a path that starts in the folder, or outside it when it begins with a slash. -/
def find (folder : Folder) (path : String) : Except Errno Found := do
  if maxPath < path.utf8ByteSize then throw .nameTooLong
  let start := if path.startsWith "/" then .outside else .here
  match ← (path.splitOn "/").foldlM folder.walk start with
  | .file content => return .file content
  | _ => return .directory

end Folder

end SyscallPolicy.CommandLine
