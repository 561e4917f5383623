/-
# Store calls as values

A store call together with its arguments is a value, so that programs made of store
calls can be looked at as well as run. What a call gives back when it succeeds depends
on the call; after an update it is the object as the caller holds it then.
-/

import Workbench.Store.Operation

namespace Workbench

/-- A store call with its arguments. -/
inductive StoreCall where
  | get (kind : Kind) (oid : String)
  | mustGet (kind : Kind) (oid : String)
  | getSingleton (kind : Kind)
  | getAll (kind : Kind)
  | create (kind : Kind) (object : kind.Object)
  | createAttached (child parent : Kind) (object : child.Object) (parentOid : String)
      (edit : parent.Object → child.Object → parent.Object)
  | update (kind : Kind) (object : kind.Object)
  | modify (kind : Kind) (oid : String) (edit : kind.Object → kind.Object × Bool)
  | modifySingleton (kind : Kind) (edit : kind.Object → kind.Object × Bool)

namespace StoreCall

/-- What a call gives back when it succeeds. -/
abbrev Value : StoreCall → Type
  | get kind _ => Option kind.Object
  | mustGet kind _ => kind.Object
  | getSingleton kind => kind.Object
  | getAll kind => List kind.Object
  | create kind _ => kind.Object
  | createAttached child parent _ _ _ => child.Object × parent.Object
  | update kind _ => kind.Object
  | modify kind _ _ => kind.Object
  | modifySingleton kind _ => kind.Object

/-- Run a call. -/
def run (moment : Moment) (context : Context) (table : Table) :
    (call : StoreCall) → Outcome call.Value
  | get kind oid => Store.get moment context table kind oid
  | mustGet kind oid => Store.mustGet moment context table kind oid
  | getSingleton kind => Store.getSingleton moment context table kind
  | getAll kind => Store.getAll moment context table kind
  | create kind object => Store.create moment context table kind object
  | createAttached child parent object parentOid edit =>
      Store.createAttached moment context table child parent object parentOid edit
  | update kind object =>
      let (outcome, held) := Store.update moment context table kind object
      ⟨outcome.result.map fun () => held, outcome.context, outcome.table⟩
  | modify kind oid edit => Store.modify moment context table kind oid edit
  | modifySingleton kind edit => Store.modifySingleton moment context table kind edit

end StoreCall

end Workbench
