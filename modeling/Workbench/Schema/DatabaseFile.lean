/-
# Files of databases

Before the engine opens the file of a database it looks for the file's place. It follows
the path from the root, or from the working directory, and takes two dots as a step back
on the way it came. What is missing on the way does no harm as long as a later step leads
back from it, but a name or a path that is too long does, and so does a step into
something that is no directory.

Writing needs a second file beside the first, the journal, and reading may need a lock
there. A file whose name leaves no room for their names can be opened, and then refuses
to be written or read.
-/

import Workbench.Path.Basic
import Workbench.Path.FileTree
import Workbench.Schema.DatabaseName

namespace Workbench

/-- The names on the way from the root to a file. -/
abbrev FilePlace := List FileName

/-- The path of a place. -/
def FilePlace.path (place : FilePlace) : List UInt8 :=
  if place.isEmpty then [Path.separator]
  else place.flatMap fun name => Path.separator :: name

/-- A database that the engine has opened. -/
structure OpenedFile where
  /-- The place of the database's file, if it has one. -/
  place : Option FilePlace
  /-- Why reading fails, if it does. -/
  readFailure : Option EngineFailure
  /-- Why writing fails, if it does. -/
  writeFailure : Option EngineFailure
  deriving Repr

namespace DatabaseName

/-- The failure for a database that cannot be opened. -/
def cannotOpen (name : DatabaseName) : EngineFailure :=
  ⟨14, "unable to open database file: " ++ name.given⟩

/-- The failure for writing to a database that must not be written. -/
def readOnlyFailure : EngineFailure := ⟨8, "attempt to write a readonly database"⟩

/-- The failure for writing to a database that cannot have a journal. -/
def journalFailure : EngineFailure := ⟨14, "unable to open database file"⟩

/-- The failure for reading from something that has no content. -/
def noContentFailure : EngineFailure := ⟨266, "disk I/O error"⟩

/-- The failure for a file whose permissions were to be taken over and cannot be read. -/
def noTemplateFailure : EngineFailure := ⟨1802, "disk I/O error"⟩

/-- The failure for a lock that cannot be made. -/
def lockFailure : EngineFailure := ⟨3850, "disk I/O error"⟩

/-- The greatest length of a path that is met on the way to a file, in bytes. -/
def longestWay : Nat := 511

/-- The greatest length of the path of a database file, in bytes. -/
def longestPlace : Nat := 504

/-- The greatest length of the name of a database that a layer keeps in memory, in
bytes. -/
def longestKept : Nat := 1016

/-- What the name of a journal adds to the name of its database. -/
def journalEnding : String := "-journal"

/-- What the name of a lock adds to the name of its database. -/
def lockEnding : String := ".lock"

/-- Go one step further on the way to a file. -/
def proceed (files : FileSystem) (place : FilePlace) (step : FileName) : Option FilePlace :=
  if step = FileName.above then some place.dropLast
  else
    let further : FilePlace := place ++ [step]
    if longestWay < further.path.length then none
    else
      match files.status further.path with
      | .failed _ => none
      | _ => some further

/-- The place of the file of a database. The root itself is none. -/
def place? (surroundings : Surroundings) (name : DatabaseName) : Option FilePlace :=
  let start :=
    if Path.isAbsolute name.file then []
    else Path.components surroundings.workingDirectory
  match (start ++ Path.components name.file).foldlM (proceed surroundings.files) [] with
  | none => none
  | some place =>
      if place.isEmpty || longestPlace < place.path.length then none else some place

/-- Whether a file at a place leaves room for the name of a file beside it. -/
def hasRoomFor (ending : String) (place : FilePlace) : Bool :=
  (place.getLast?.getD []).length + ending.utf8ByteSize ≤ FileName.longest

/-- Whether the file whose permissions a new file takes over can be looked at, if the name
asks for one. -/
def hasTemplate (surroundings : Surroundings) (name : DatabaseName) : Bool :=
  match name.options.lookup "modeof" with
  | none => true
  | some [] => false
  | some path =>
      let path :=
        if Path.isAbsolute path then path
        else surroundings.workingDirectory ++ Path.separator :: path
      match surroundings.files.status path with
      | .directory | .regularFile => true
      | .missing | .failed _ => false

/-- Open or create the file at a place. A directory can be opened for reading only, and
then has nothing to read. -/
def reach (files : FileSystem) (name : DatabaseName) (place : FilePlace) :
    Except EngineFailure Unit :=
  match files.status place.path with
  | .regularFile => .ok ()
  | .directory => .error (if name.mode = .readOnly then noContentFailure else name.cannotOpen)
  | .missing =>
      let above : FilePlace := place.dropLast
      if name.mode = .create ∧ files.status above.path = .directory then .ok ()
      else .error name.cannotOpen
  | .failed _ => .error name.cannotOpen

/-- Open the file of a database. -/
def openFile (surroundings : Surroundings) (name : DatabaseName) :
    Except EngineFailure OpenedFile := do
  match name.place? surroundings with
  | none => throw name.cannotOpen
  | some place =>
      if !name.hasTemplate surroundings then throw noTemplateFailure
      name.reach surroundings.files place
      let isLocked := !name.usesLockDirectory || hasRoomFor lockEnding place
      let writeFailure :=
        if name.isReadOnly then some readOnlyFailure
        else if hasRoomFor journalEnding place then none
        else some journalFailure
      return ⟨some place, if isLocked then none else some lockFailure, writeFailure⟩

/-- Open a database. -/
def openDatabase (surroundings : Surroundings) (name : DatabaseName) :
    Except EngineFailure OpenedFile :=
  let withoutFile : OpenedFile :=
    ⟨none, none, if name.isReadOnly then some readOnlyFailure else none⟩
  if name.isTransient then .ok withoutFile
  else if name.layer = .memory then
    if name.file.length ≤ longestKept then .ok withoutFile else .error name.cannotOpen
  else name.openFile surroundings

end DatabaseName

end Workbench
