/-
# View targets

A user opens something by naming it. Addresses of web pages become web views; anything
else is a path and becomes a preview of a file. The file need not exist yet, but
something must exist in the place of its directory.

Files are looked for by the bytes of a path, and the preview mentions the path as a text. So
where the working directory has bytes in its name that spell no text, the preview mentions
what those bytes are read as.
-/

import Workbench.Object.Block
import Workbench.Path.Basic
import Workbench.Path.FileSystem
import Workbench.Text.Utf8

namespace Workbench

/-- How a target is to be shown. -/
structure ViewOptions where
  edit : Bool
  /-- The remote connection that has the file; empty for none. -/
  connection : String
  magnified : Bool

/-- The reasons for which nothing can be shown. -/
inductive ViewTargetError where
  /-- The path could not be made absolute, or its directory could not be looked at. -/
  | unresolved (reason : String)
  /-- The directory does not exist. -/
  | parentMissing (parent : List UInt8)
  deriving DecidableEq, Repr

namespace ViewTargetError

/-- The text of the error. -/
def message : ViewTargetError → String
  | .unresolved reason => "cannot resolve view target: " ++ reason
  | .parentMissing parent => "parent directory does not exist: " ++ Text.ofUtf8 parent

/-- The text of the error, followed by the text of its cause. -/
def chain (error : ViewTargetError) : List String :=
  error.message ::
    match error with
    | .unresolved reason => [reason]
    | .parentMissing _ => []

end ViewTargetError

namespace ViewTarget

/-- The reason given for the empty target. -/
def emptyPath : String := "cannot make an empty path absolute"

/-- Whether a target is the address of a web page. Capital letters do not count. -/
def isWebAddress (target : String) : Bool :=
  "http://".toList.isPrefixOf target.toList || "https://".toList.isPrefixOf target.toList

/-- The absolute path of a file that can be shown. -/
def resolveFile (surroundings : Surroundings) (target : String) :
    Except ViewTargetError (List UInt8) :=
  if target.toList.isEmpty then .error (.unresolved emptyPath)
  else
    let path := Path.absolute surroundings.workingDirectory (Text.utf8 target)
    match Path.parent? path with
    | none => .ok path
    | some parent =>
        match surroundings.files.status parent with
        | .missing => .error (.parentMissing parent)
        | .failed reason => .error (.unresolved reason)
        | .directory | .regularFile => .ok path

end ViewTarget

namespace BlockDefinition

/-- The definition that shows a web page. -/
def ofWebAddress (address : String) : BlockDefinition :=
  (empty.withText Meta.viewKey "web").withText Meta.urlKey address

/-- The definition that shows a file. Only what the options ask for is mentioned. -/
def ofFile (path : String) (options : ViewOptions) : BlockDefinition :=
  let shown := (empty.withText Meta.viewKey "preview").withText Meta.fileKey path
  let editable := if options.edit then shown.withEntry Meta.editKey (.ofBool true) else shown
  if options.connection.isEmpty then editable
  else editable.withText Meta.connectionKey options.connection

/-- The definition that shows a target. -/
def ofViewTarget (surroundings : Surroundings) (target : String) (options : ViewOptions) :
    Except ViewTargetError BlockDefinition :=
  if ViewTarget.isWebAddress target then .ok (ofWebAddress target)
  else
    (ViewTarget.resolveFile surroundings target).map fun path =>
      ofFile (Text.ofUtf8 path) options

end BlockDefinition

/-- The request for a block that shows a target. -/
def BlockRequest.ofViewTarget (surroundings : Surroundings) (target : String)
    (options : ViewOptions) : Except ViewTargetError BlockRequest :=
  (BlockDefinition.ofViewTarget surroundings target options).map fun definition =>
    ⟨definition, options.magnified⟩

end Workbench
