/-
# Trees of files

File trees give file systems: a path is followed from the root, one piece at a time.
Names are bytes, of which a slash and a zero are none.
-/

import Workbench.Path.Basic
import Workbench.Path.FileSystem
import Workbench.Text.Utf8

namespace Workbench

/-- The name of a file in its directory. -/
abbrev FileName := List UInt8

namespace FileName

/-- The name in a directory of the one above it. -/
def above : FileName := [0x2E, 0x2E]

/-- The greatest length of a name, in bytes. -/
def longest : Nat := 255

end FileName

/-- A tree of named files. -/
inductive FileTree where
  | file (isEmpty : Bool)
  | directory (entries : List (FileName × FileTree))

namespace FileTree

/-- A directory whose entries are named by texts. -/
def folder (entries : List (String × FileTree)) : FileTree :=
  directory (entries.map fun (name, tree) => (Text.utf8 name, tree))

/-- The reason given when a path goes on behind a file that is no directory. -/
def notDirectory : String := "Not a directory (os error 20)"

/-- The reason given for a name or a path beyond what the system takes. -/
def nameTooLong : String := "File name too long (os error 36)"

/-- The reason given for a path with a null character in it. -/
def nullCharacter : String := "file name contained an unexpected NUL byte"

/-- The greatest length of a path, in bytes. -/
def longestPath : Nat := 4095

/-- Follow the pieces of a path, given the directories above, nearest first. Pieces that
name nothing stay where they are, and two dots go up; both ask for a directory. -/
def follow (above : List FileTree) (current : FileTree) : List FileName → FileStatus
  | [] =>
      match current with
      | .file _ => .regularFile
      | .directory _ => .directory
  | piece :: rest =>
      match current with
      | .file _ => .failed notDirectory
      | .directory entries =>
          if !Path.isComponent piece then follow above current rest
          else if piece = FileName.above then
            match above with
            | [] => follow [] current rest
            | up :: further => follow further up rest
          else if FileName.longest < piece.length then .failed nameTooLong
          else
            match entries.lookup piece with
            | none => .missing
            | some child => follow (current :: above) child rest

/-- The file system of a tree. Texts that cannot be paths are refused before any file is
looked at. -/
def fileSystem (root : FileTree) : FileSystem where
  status path :=
    if path.contains 0 then .failed nullCharacter
    else if longestPath < path.length then .failed nameTooLong
    else follow [] root (Path.pieces path)

/-- What a way of names leads to, where no name goes up. -/
def find? (tree : FileTree) : List FileName → Option FileTree
  | [] => some tree
  | name :: rest =>
      match tree with
      | .file _ => none
      | .directory entries => (entries.lookup name).bind fun child => child.find? rest

/-- The tree with a file at the end of a way of names. Directories on the way are made if
need be. -/
def withFile (isEmpty : Bool) : List FileName → FileTree → FileTree
  | [], _ => .file isEmpty
  | name :: rest, tree =>
      let entries := match tree with
        | .file _ => []
        | .directory entries => entries
      let child := (entries.lookup name).getD (.directory [])
      .directory ((name, withFile isEmpty rest child) ::
        entries.filter fun entry => entry.1 ≠ name)

end FileTree

end Workbench
