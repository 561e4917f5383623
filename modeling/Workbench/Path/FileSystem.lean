/-
# File systems

A program learns about files by asking what a path leads to. A file system is the
collection of all such answers. It takes any bytes for a path, whether or not they spell
a text.
-/

namespace Workbench

/-- What a path leads to. -/
inductive FileStatus where
  | directory
  | regularFile
  | missing
  /-- The question could not be answered. -/
  | failed (reason : String)
  deriving DecidableEq, Repr

/-- The answers for all absolute paths. -/
structure FileSystem where
  status : List UInt8 → FileStatus

/-- A program's view of the files around it. Its working directory need not have a name that
spells a text. -/
structure Surroundings where
  workingDirectory : List UInt8
  files : FileSystem

end Workbench
