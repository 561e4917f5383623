/-
# Names of databases

The engine takes the name of a database as one text. Mostly it is the path of a file.
The empty name and `:memory:` name a database without a file, which belongs to whoever
opens it and is gone afterwards.

A name that begins with `file:` is an address. It may name the host, which has to be
this one, then comes the path, and behind a question mark the options that say how to
open the file. What stands behind a number sign is not looked at. Options that decide
how the file may be used are heeded in the order in which they stand, so the first one
that cannot be met is reported. Of the other options the first one with a key counts.
-/

import Workbench.Store.Error
import Workbench.Text.Percent
import Workbench.Text.Utf8

namespace Workbench

/-- What may be done with the file of a database that is opened. -/
inductive OpenMode where
  | readOnly
  | readWrite
  /-- Read, write, and create the file if there is none. -/
  | create
  /-- Have no file at all. -/
  | memory
  deriving DecidableEq, Repr

namespace OpenMode

/-- The modes that an address may ask for, by name. -/
def named : List (String × OpenMode) :=
  [("ro", .readOnly), ("rw", .readWrite), ("rwc", .create), ("memory", .memory)]

/-- How much a mode allows to do with a file. -/
def extent : OpenMode → Nat
  | .memory => 0
  | .readOnly => 1
  | .readWrite => 2
  | .create => 3

/-- Whether one mode may replace another. Nothing can be gained over a file, but what
has no file may become anything. -/
def allows (current asked : OpenMode) : Bool :=
  current = .memory || asked.extent ≤ current.extent

end OpenMode

/-- The ways in which files are used and locked. -/
inductive FileLayer where
  /-- Locks are kept by the system. -/
  | usual
  /-- There are no locks. -/
  | unlocked
  /-- A lock is a directory beside the file. -/
  | lockDirectory
  /-- Locks are kept by the system, for as long as the file is open. -/
  | exclusive
  /-- There are no files either: databases are kept in memory. -/
  | memory
  deriving DecidableEq, Repr

/-- The layers that an address may ask for, by name. -/
def FileLayer.named : List (String × FileLayer) :=
  [("unix", .usual), ("unix-none", .unlocked), ("unix-dotfile", .lockDirectory),
    ("unix-excl", .exclusive), ("memdb", .memory)]

/-- An option of an address: a key and a value. -/
abbrev AddressOption := String × List UInt8

/-- A database as it is named by those who open it. -/
structure DatabaseName where
  /-- The name as it was given. -/
  given : String
  /-- The path of the file, or a name for a database without one. -/
  file : List UInt8
  mode : OpenMode
  layer : FileLayer
  /-- All options that came with the name. -/
  options : List AddressOption

namespace DatabaseName

/-- A name that is no address. -/
def plain (text : String) : DatabaseName := ⟨text, Text.utf8 text, .create, .usual, []⟩

/-! ### Options -/

/-- One option, with its escapes resolved. -/
def optionOf (text : List Char) : AddressOption :=
  (Text.ofUtf8 (Text.unescape (Text.before '=' text)), Text.unescape (Text.after '=' text))

/-- The options of an address. Those without a key are dropped. -/
def optionsOf (query : List Char) : List AddressOption :=
  ((Text.pieces '&' query).map optionOf).filter fun option => option.1 ≠ ""

/-- The number that digits stand for in a base, up to the first character that is no
digit of the base. -/
def leadingNumber (base : Nat) (text : List Char) : Nat :=
  let digit? (c : Char) : Option Nat := (Text.hexValue? c).filter (· < base)
  let digits := (text.takeWhile fun c => (digit? c).isSome).filterMap digit?
  digits.foldl (fun number digit => base * number + digit) 0

/-- The number at the start of a text, in base sixteen behind `0x`. It must fit 32 bits
with a sign, else it counts as zero. -/
def numberOf (text : List Char) : Nat :=
  let number := match text with
    | '0' :: 'x' :: digits => leadingNumber 16 digits
    | '0' :: 'X' :: digits => leadingNumber 16 digits
    | digits => leadingNumber 10 digits
  if number < 0x80000000 then number else 0

/-- Whether the value of an option means yes. A number does unless its lowest eight bits
are zero. -/
def isYes (value : List UInt8) : Bool :=
  let text := Text.ofUtf8 value
  if text.toList.head?.any fun c => '0' ≤ c && c ≤ '9' then numberOf text.toList % 256 ≠ 0
  else ["on", "yes", "true"].contains (text.map Char.toLower)

/-- Whether the first option with a key means yes. -/
def asksFor (name : DatabaseName) (key : String) : Bool :=
  (name.options.lookup key).any isYes

/-! ### Addresses -/

/-- What an address begins with. -/
def scheme : List Char := ['f', 'i', 'l', 'e', ':']

/-- The failure for an address that cannot be understood. -/
def badAddress (text : String) : EngineFailure := ⟨1, text⟩

/-- The failure for an option that goes beyond what was allowed before. -/
def notAllowed (mode : String) : EngineFailure := ⟨3, "access mode not allowed: " ++ mode⟩

/-- The path and options of an address, without its host. -/
def afterHost (address : List Char) : Except EngineFailure (List Char) :=
  match address with
  | '/' :: '/' :: rest =>
      let host := String.ofList (Text.before '/' rest)
      if host = "" ∨ host = "localhost" then .ok (rest.dropWhile (· ≠ '/'))
      else .error (badAddress ("invalid uri authority: " ++ host))
  | _ => .ok address

/-- Heed one option that decides how the file may be used. -/
def heed (name : DatabaseName) (option : AddressOption) : Except EngineFailure DatabaseName :=
  let asked := Text.ofUtf8 option.2
  if option.1 = "cache" then
    if asked = "shared" ∨ asked = "private" then .ok name
    else .error (badAddress ("no such cache mode: " ++ asked))
  else if option.1 = "mode" then
    match OpenMode.named.lookup asked with
    | none => .error (badAddress ("no such access mode: " ++ asked))
    | some mode =>
        if name.mode.allows mode then .ok { name with mode } else .error (notAllowed asked)
  else .ok name

/-- The layer that options ask for. Here the last word counts. -/
def layerOf (options : List AddressOption) : Except EngineFailure FileLayer :=
  match options.reverse.lookup "vfs" with
  | none => .ok .usual
  | some value =>
      let asked := Text.ofUtf8 value
      match FileLayer.named.lookup asked with
      | some layer => .ok layer
      | none => .error (badAddress ("no such vfs: " ++ asked))

/-- Read an address, of which the text after the scheme is given. -/
def ofAddress (text : String) (address : List Char) : Except EngineFailure DatabaseName := do
  let place := Text.before '#' (← afterHost address)
  let options := optionsOf (Text.after '?' place)
  let file := Text.unescape (Text.before '?' place)
  let name ← options.foldlM heed { plain text with file, options }
  let layer ← layerOf options
  return { name with layer }

/-- Read the name of a database. A null character would end it too early, and is
reported with the number of bytes before it. -/
def ofText (text : String) : Except EngineFailure DatabaseName :=
  let bytes := Text.utf8 text
  if bytes.contains 0 then
    let position := (Text.before 0 bytes).length
    .error ⟨21, s!"nul byte found in provided data at position: {position}"⟩
  else if scheme.isPrefixOf text.toList then
    ofAddress text (text.toList.drop scheme.length)
  else .ok (plain text)

/-! ### Databases without a file -/

/-- Whether a database has neither a file nor a layer that stands for one. -/
def isTransient (name : DatabaseName) : Bool :=
  name.file = [] || name.file = Text.utf8 ":memory:" || name.mode = .memory

/-- Whether a database stays as it is found, whatever its file allows. -/
def isFixed (name : DatabaseName) : Bool := !name.isTransient && name.asksFor "immutable"

/-- Whether nothing can be written to a database. -/
def isReadOnly (name : DatabaseName) : Bool := name.mode = .readOnly || name.isFixed

/-- Whether the file of a database is locked for use by a directory beside it. -/
def usesLockDirectory (name : DatabaseName) : Bool :=
  name.layer = .lockDirectory && !name.isFixed && !name.asksFor "nolock"

end DatabaseName

end Workbench
