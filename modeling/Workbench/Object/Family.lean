/-
# Stored objects

The objects of the five kinds form one family indexed by the kind. All of them have an
identifier and a version; the version belongs to the store, which sets it to one when
the object is created and raises it by one with every write.
-/

import Workbench.Kind
import Workbench.Object.Client
import Workbench.Object.Window
import Workbench.Object.Workspace
import Workbench.Object.Tab
import Workbench.Object.Block

namespace Workbench

namespace Kind

/-- The type of the objects of a kind. -/
abbrev Object : Kind → Type
  | .client => Client
  | .window => Window
  | .workspace => Workspace
  | .tab => Tab
  | .block => Block

/-- The codec of the objects of a kind. -/
def objectCodec : (kind : Kind) → Json.Codec kind.Object
  | .client => Client.codec
  | .window => Window.codec
  | .workspace => Workspace.codec
  | .tab => Tab.codec
  | .block => Block.codec

/-- The identifier of an object. -/
def oid : (kind : Kind) → kind.Object → String
  | .client, object => Client.oid object
  | .window, object => Window.oid object
  | .workspace, object => Workspace.oid object
  | .tab, object => Tab.oid object
  | .block, object => Block.oid object

/-- The version of an object. -/
def version : (kind : Kind) → kind.Object → Int64
  | .client, object => Client.version object
  | .window, object => Window.version object
  | .workspace, object => Workspace.version object
  | .tab, object => Tab.version object
  | .block, object => Block.version object

/-- The object with another version. -/
def withVersion : (kind : Kind) → kind.Object → Int64 → kind.Object
  | .client, object, version => { (object : Client) with version }
  | .window, object, version => { (object : Window) with version }
  | .workspace, object, version => { (object : Workspace) with version }
  | .tab, object, version => { (object : Tab) with version }
  | .block, object, version => { (object : Block) with version }

@[simp] theorem oid_withVersion (kind : Kind) (object : kind.Object) (version : Int64) :
    kind.oid (kind.withVersion object version) = kind.oid object := by
  cases kind <;> rfl

@[simp] theorem version_withVersion (kind : Kind) (object : kind.Object) (version : Int64) :
    kind.version (kind.withVersion object version) = version := by
  cases kind <;> rfl

@[simp] theorem withVersion_withVersion (kind : Kind) (object : kind.Object)
    (first second : Int64) :
    kind.withVersion (kind.withVersion object first) second = kind.withVersion object second := by
  cases kind <;> rfl

@[simp] theorem withVersion_version (kind : Kind) (object : kind.Object) :
    kind.withVersion object (kind.version object) = object := by
  cases kind <;> rfl

end Kind

end Workbench
