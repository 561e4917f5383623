/-
# Configuration

The configuration sets how long requests may take and how much is logged. It is a
record in which every field has a default. How much is logged by default depends on how the
program was built. No time may be zero, since a request without time can do nothing.
-/

import Workbench.Json.Record

namespace Workbench

/-- What the program was built for. -/
inductive Build where
  /-- To find faults in it. -/
  | debug
  /-- To be used. -/
  | release
  deriving DecidableEq, Repr

/-- How much a build logs when nothing is said. -/
def Build.logLevel : Build → String
  | .debug => "debug"
  | .release => "info"

/-- The configuration of the program. Times are in milliseconds. -/
structure Config where
  accessorTimeout : UInt64
  bootstrapTimeout : UInt64
  logLevel : String
  deriving DecidableEq

/-- The reasons for which a configuration is refused. -/
inductive ConfigError where
  /-- The text is no configuration. -/
  | unreadable (cause : Json.DecodeError)
  /-- The time with this name is zero. -/
  | zeroTimeout (field : String)
  deriving DecidableEq

namespace ConfigError

/-- The text of a configuration error. -/
def message : ConfigError → String
  | .unreadable cause => "invalid core config: " ++ cause.message
  | .zeroTimeout field => Json.shownName field ++ " must be greater than zero"

/-- The text of what caused the error, if something did. -/
def causeText? : ConfigError → Option String
  | .unreadable cause => some cause.message
  | .zeroTimeout _ => none

end ConfigError

namespace Config

/-- Two seconds. -/
def defaultTimeout : UInt64 := 2000

/-- The configuration that is used when nothing is said. -/
def default (build : Build) : Config := ⟨defaultTimeout, defaultTimeout, build.logLevel⟩

/-- The name of the time that accessors have. -/
def accessorKey : String := "accessor_timeout_ms"

/-- The name of the time that a layout's bootstrap has. -/
def bootstrapKey : String := "bootstrap_timeout_ms"

/-- The fields of a configuration. -/
def fields (build : Build) : Json.Fields (UInt64 × UInt64 × String × Unit) :=
  .cons (.withDefault accessorKey (.word "u64") (default build).accessorTimeout) <|
  .cons (.withDefault bootstrapKey (.word "u64") (default build).bootstrapTimeout) <|
  .cons (.withDefault "log_level" .string (default build).logLevel) .nil

/-- Configurations are records. -/
def codec (build : Build) : Json.Codec Config :=
  (fields build).codec "CoreConfig"
    (fun config => (config.accessorTimeout, config.bootstrapTimeout, config.logLevel, ()))
    (fun (accessorTimeout, bootstrapTimeout, logLevel, ()) =>
      ⟨accessorTimeout, bootstrapTimeout, logLevel⟩)

/-- Check that no time is zero. The time of accessors is looked at first. -/
def validate (config : Config) : Except ConfigError Unit :=
  if config.accessorTimeout = 0 then .error (.zeroTimeout accessorKey)
  else if config.bootstrapTimeout = 0 then .error (.zeroTimeout bootstrapKey)
  else .ok ()

/-- Read a configuration and check it. -/
def ofText (build : Build) (text : String) : Except ConfigError Config :=
  match (codec build).decode text with
  | .error cause => .error (.unreadable cause)
  | .ok config => config.validate.map fun () => config

end Config

end Workbench
