/-
# Paths

A path is a list in which separators stand between the names of files. A system writes it in
bytes, which need not spell a text; where a path is given as a text it is written in
characters. The rules are the same for both.

Making a path absolute is a matter of the path alone: components that say nothing are dropped,
and no file is looked at. So `..` stays, because what it means depends on the files before it,
and a slash at the end stays, because it asks for a directory. Exactly two slashes at the start
are kept apart from one, since a system may give them a meaning of its own.
-/

import Workbench.Text.Pieces

namespace Workbench.Path

/-- What paths are written in. Two of its letters have a meaning. -/
class Alphabet (α : Type) where
  /-- What stands between components. -/
  separator : α
  /-- What names nothing when it stands alone. -/
  dot : α
  dot_ne_separator : dot ≠ separator

export Alphabet (separator dot)

instance : Alphabet Char := ⟨'/', '.', by decide⟩

instance : Alphabet UInt8 := ⟨0x2F, 0x2E, by decide⟩

variable {α : Type} [DecidableEq α] [Alphabet α]

/-- The pieces of a path between separators. There is always at least one. -/
def pieces (path : List α) : List (List α) := Text.pieces separator path

/-- Whether a piece names anything. The empty piece and the dot do not. -/
def isComponent (piece : List α) : Bool := piece ≠ [] && piece ≠ [dot]

/-- The components of a path, without those that name nothing. -/
def components (path : List α) : List (List α) := (pieces path).filter isComponent

/-- Whether a path begins at the root. -/
def isAbsolute (path : List α) : Bool := path.head? = some separator

/-- Whether a path begins with exactly two separators. -/
def hasTwoLeading : List α → Bool
  | a :: b :: rest => a = separator && b = separator && rest.head? ≠ some separator
  | _ => false

/-- Put a component behind a path, with one separator between them. -/
def push (path component : List α) : List α :=
  if path.getLast? = some separator then path ++ component
  else path ++ separator :: component

/-- What the components of a path are put behind. -/
def base (workingDirectory path : List α) : List α :=
  if isAbsolute path then
    if hasTwoLeading path then [separator, separator] else [separator]
  else workingDirectory

/-- The absolute form of a path that is not empty. -/
def absolute (workingDirectory path : List α) : List α :=
  let joined := (components path).foldl push (base workingDirectory path)
  if path.getLast? = some separator then push joined [] else joined

/-- A path without the separators at its end. -/
def dropTrailing (path : List α) : List α :=
  (path.reverse.dropWhile (· = separator)).reverse

/-- A path without its last component. The separators around it are still there. -/
def dropName (path : List α) : List α :=
  (path.reverse.dropWhile (· ≠ separator)).reverse

/-- The parent of an absolute path, the root of a path directly below it. Roots have no
parent. -/
def parent? (path : List α) : Option (List α) :=
  match dropTrailing path with
  | [] => none
  | body =>
      match dropTrailing (dropName body) with
      | [] => some [separator]
      | above => some above

end Workbench.Path
