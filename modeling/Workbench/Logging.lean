/-
# Logging

Logging starts once, at a level and in a directory. Asking for it again with the same
settings does nothing, and asking for anything else is refused, so the settings in
force never change. Directories are the same when they have the same components.

When the program breaks down, what it said last goes into the log on one line.
-/

import Workbench.Config
import Workbench.Path.Basic
import Workbench.Text.Blank
import Workbench.Text.OneLine

namespace Workbench

/-- How much is logged; each level includes those behind it. -/
inductive LogLevel where
  | trace
  | debug
  | info
  | warn
  | error
  deriving DecidableEq, Repr

namespace LogLevel

/-- The name of a level. -/
def name : LogLevel → String
  | .trace => "trace"
  | .debug => "debug"
  | .info => "info"
  | .warn => "warn"
  | .error => "error"

/-- The level that a name in small letters stands for. One level has two names. -/
def ofName? : String → Option LogLevel
  | "trace" => some .trace
  | "debug" => some .debug
  | "info" => some .info
  | "warn" => some .warn
  | "warning" => some .warn
  | "error" => some .error
  | _ => none

end LogLevel

/-- Settings of logging. The directory is an absolute path, as it was given. -/
structure LogSettings where
  level : LogLevel
  directory : String
  deriving DecidableEq, Repr

/-- The reasons for which logging does not start, or not again. -/
inductive LoggingError where
  | unsupportedLevel (level : String)
  | emptyDirectory
  | relativeDirectory (directory : String)
  /-- Logging already goes to another directory. -/
  | otherDirectory (active requested : String)
  /-- Logging already runs at another level. -/
  | otherLevel (active requested : LogLevel)
  /-- The log could not be opened. -/
  | notStarted (reason : String)
  deriving DecidableEq, Repr

/-- The text of a logging error. -/
def LoggingError.message : LoggingError → String
  | .unsupportedLevel level =>
      "unsupported log level " ++ Json.shownName level ++
        "; expected trace|debug|info|warn|error"
  | .emptyDirectory => "log_dir cannot be empty"
  | .relativeDirectory directory =>
      "log_dir must be an absolute path, got " ++ Json.shownName directory
  | .otherDirectory active requested =>
      "logging already initialized at " ++ Json.shownName active ++
        "; refusing to switch to " ++ Json.shownName requested
  | .otherLevel active requested =>
      "logging already initialized with level " ++ Json.shownName active.name ++
        "; refusing to switch to " ++ Json.shownName requested.name
  | .notStarted reason => reason

namespace LogSettings

/-- The level that a text names. Blanks around it and capital letters do not matter. -/
def levelOfText (text : String) : Except LoggingError LogLevel :=
  let named := (Text.trim text).map Char.toLower
  match LogLevel.ofName? named with
  | some level => .ok level
  | none => .error (.unsupportedLevel named)

/-- The directory that a text names. Blanks around it do not matter. -/
def directoryOfText (text : String) : Except LoggingError String :=
  let named := Text.trim text
  if named.isEmpty then .error .emptyDirectory
  else if Path.isAbsolute named.toList then .ok named
  else .error (.relativeDirectory named)

/-- The settings that two texts describe. The level is looked at first. -/
def ofTexts (level directory : String) : Except LoggingError LogSettings := do
  let level ← levelOfText level
  let directory ← directoryOfText directory
  return ⟨level, directory⟩

/-- Whether settings in force satisfy a request. The directory is looked at first. -/
def agree (active requested : LogSettings) : Except LoggingError Unit :=
  if Path.components active.directory.toList ≠ Path.components requested.directory.toList then
    .error (.otherDirectory active.directory requested.directory)
  else if active.level ≠ requested.level then
    .error (.otherLevel active.level requested.level)
  else .ok ()

end LogSettings

namespace Logging

/-- Ask for logging at a level and in a directory. `start` opens a log, or tells why it
cannot; it is used only when logging is not active. The settings in force afterwards
are given back. -/
def request (start : LogSettings → Except String Unit) (active : Option LogSettings)
    (level directory : String) : Except LoggingError Unit × Option LogSettings :=
  match LogSettings.ofTexts level directory with
  | .error problem => (.error problem, active)
  | .ok requested =>
      match active with
      | some settings => (settings.agree requested, active)
      | none =>
          match start requested with
          | .ok () => (.ok (), some requested)
          | .error reason => (.error (.notStarted reason), none)

/-- Ask for logging at the level of a configuration. -/
def requestFrom (config : Config) (start : LogSettings → Except String Unit)
    (active : Option LogSettings) (directory : String) :
    Except LoggingError Unit × Option LogSettings :=
  request start active config.logLevel directory

/-- The greatest length of a last message in the log, in characters. -/
def longestLastMessage : Nat := 160

/-- What goes into the log when the program breaks down with a message, or with something
that is no text. -/
def lastMessage (message : Option String) : String :=
  Text.oneLine longestLastMessage (message.getD "non-string panic payload")

end Logging

end Workbench
