/-
# Kinds of objects

Five kinds of objects are stored. The kind is part of an object's key, so one
identifier may be used once in each kind. There is at most one client.
-/

import Workbench.Json.Codec

namespace Workbench

/-- What a stored object is. -/
inductive Kind where
  | client
  | window
  | workspace
  | tab
  | block
  deriving DecidableEq, Repr

namespace Kind

/-- The name of a kind, in rows, in records and in messages. -/
def name : Kind → String
  | .client => "client"
  | .window => "window"
  | .workspace => "workspace"
  | .tab => "tab"
  | .block => "block"

/-- All kinds, in the order in which messages list them. -/
def all : List Kind := [.client, .window, .workspace, .tab, .block]

/-- The kind with a name. Names are compared exactly. -/
def ofName? (name : String) : Option Kind := all.find? fun kind => kind.name = name

/-- Whether at most one object of the kind may exist. -/
def isSingleton : Kind → Bool
  | .client => true
  | _ => false

/-- Kinds are written as their names. -/
def codec : Json.Codec Kind := .names all name

end Kind

end Workbench
