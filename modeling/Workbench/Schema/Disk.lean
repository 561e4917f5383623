/-
# Disks

A disk is a tree of files, some of which hold databases. Opening a database may create
its file, which from then on stands in the way of paths that lead through it, even if
the database could not be prepared for use.
-/

import Workbench.Schema.DatabaseFile
import Workbench.Schema.Objects

namespace Workbench

/-- Files, and the databases in some of them. -/
structure Disk where
  tree : FileTree
  databases : List (FilePlace × ObjectDatabase)

namespace Disk

/-- The failure for a file that holds something other than a database. -/
def notADatabase : EngineFailure := ⟨26, "file is not a database"⟩

/-- The database in the file at a place. An empty file holds an empty database. -/
def read (disk : Disk) (place : FilePlace) : Except EngineFailure ObjectDatabase :=
  match disk.databases.lookup place with
  | some database => .ok database
  | none =>
      match disk.tree.find? place with
      | some (.file false) => .error notADatabase
      | _ => .ok .fresh

/-- The disk with a file at a place, unless there is one. -/
def touch (disk : Disk) (place : FilePlace) : Disk :=
  match disk.tree.find? place with
  | some _ => disk
  | none => { disk with tree := disk.tree.withFile true place }

/-- The disk with a database in the file at a place. -/
def write (disk : Disk) (place : FilePlace) (database : ObjectDatabase) : Disk where
  tree := disk.tree.withFile false place
  databases := (place, database) :: disk.databases.filter fun entry => entry.1 ≠ place

/-- Prepare a database that was opened, and let a body work with it. -/
def workWith {α : Type} (opened : OpenedFile) (stored : ObjectDatabase)
    (body : ObjectDatabase → α × ObjectDatabase) :
    Except DatabaseError (α × ObjectDatabase) :=
  match stored.prepareWith opened.writeFailure with
  | (.ok (), ready) => .ok (body ready)
  | (.error problem, _) => .error problem

/-- Read the database that was opened, and let a body work with it. -/
def workOn {α : Type} (disk : Disk) (opened : OpenedFile)
    (body : ObjectDatabase → α × ObjectDatabase) :
    Except DatabaseError (α × ObjectDatabase) :=
  match opened.readFailure, opened.place with
  | some failure, _ => .error (.statementFailed failure)
  | none, none => workWith opened .fresh body
  | none, some place =>
      match disk.read place with
      | .error failure => .error (.statementFailed failure)
      | .ok stored => workWith opened stored body

/-- Open the database under a name, let a body work with it, and close it. What the body
leaves is kept if the database has a file. -/
def use {α : Type} (disk : Disk) (workingDirectory : List UInt8) (name : String)
    (body : ObjectDatabase → α × ObjectDatabase) : Except DatabaseError α × Disk :=
  let surroundings : Surroundings := ⟨workingDirectory, disk.tree.fileSystem⟩
  match (DatabaseName.ofText name).bind (·.openDatabase surroundings) with
  | .error failure => (.error (.cannotOpen (.file name) failure), disk)
  | .ok opened =>
      let disk := match opened.place with
        | some place => disk.touch place
        | none => disk
      match disk.workOn opened body, opened.place with
      | .ok (value, left), some place => (.ok value, disk.write place left)
      | .ok (value, _), none => (.ok value, disk)
      | .error problem, _ => (.error problem, disk)

end Disk

end Workbench
