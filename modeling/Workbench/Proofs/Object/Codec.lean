/-
# Codecs of stored objects

The objects of all five kinds are records of faithful fields, so what holds of faithful
records holds of them. Every kind keeps its metadata as the last field.
-/

import Workbench.Proofs.Json.Memory
import Workbench.Update

namespace Workbench

open Json

theorem Client.faithful_fields : Client.fields.Faithful :=
  ⟨Codec.faithful_string, Codec.writesSorted_string, nofun,
    Codec.faithful_int64, Codec.writesSorted_int64, nofun,
    Codec.faithful_list Codec.faithful_string, Codec.writesSorted_list Codec.writesSorted_string,
    nofun, Codec.faithful_int64, Codec.writesSorted_int64, nofun,
    Meta.faithful_codec, Meta.writesSorted_codec, nofun, trivial⟩

theorem Window.faithful_fields : Window.fields.Faithful :=
  ⟨Codec.faithful_string, Codec.writesSorted_string, nofun,
    Codec.faithful_int64, Codec.writesSorted_int64, nofun,
    Codec.faithful_string, Codec.writesSorted_string, nofun,
    Codec.faithful_string, Codec.writesSorted_string, nofun,
    Meta.faithful_codec, Meta.writesSorted_codec, nofun, trivial⟩

theorem Workspace.faithful_fields : Workspace.fields.Faithful :=
  ⟨Codec.faithful_string, Codec.writesSorted_string, nofun,
    Codec.faithful_int64, Codec.writesSorted_int64, nofun,
    Codec.faithful_string, Codec.writesSorted_string, nofun,
    Codec.faithful_list Codec.faithful_string, Codec.writesSorted_list Codec.writesSorted_string,
    nofun, Meta.faithful_codec, Meta.writesSorted_codec, nofun, trivial⟩

theorem Tab.faithful_fields : Tab.fields.Faithful :=
  ⟨Codec.faithful_string, Codec.writesSorted_string, nofun,
    Codec.faithful_int64, Codec.writesSorted_int64, nofun,
    Codec.faithful_string, Codec.writesSorted_string, nofun,
    Codec.faithful_list Codec.faithful_string, Codec.writesSorted_list Codec.writesSorted_string,
    nofun, Meta.faithful_codec, Meta.writesSorted_codec, nofun, trivial⟩

theorem Block.faithful_fields : Block.fields.Faithful :=
  ⟨Codec.faithful_string, Codec.writesSorted_string, nofun,
    Codec.faithful_int64, Codec.writesSorted_int64, nofun,
    Meta.faithful_codec, Meta.writesSorted_codec, nofun, trivial⟩

/-- An object that was written and sorted is read back from memory. -/
theorem Kind.decodeJson_sorted (kind : Kind) (object : kind.Object) :
    kind.objectCodec.decodeJson (kind.objectCodec.write object).sorted = .ok object := by
  cases kind with
  | client =>
      exact Fields.decodeJson_sorted _ _ _ Client.faithful_fields (by decide) (fun _ => rfl) object
  | window =>
      exact Fields.decodeJson_sorted _ _ _ Window.faithful_fields (by decide) (fun _ => rfl) object
  | workspace =>
      exact Fields.decodeJson_sorted _ _ _ Workspace.faithful_fields (by decide) (fun _ => rfl)
        object
  | tab =>
      exact Fields.decodeJson_sorted _ _ _ Tab.faithful_fields (by decide) (fun _ => rfl) object
  | block =>
      exact Fields.decodeJson_sorted _ _ _ Block.faithful_fields (by decide) (fun _ => rfl) object

namespace UpdateRecord

/-- A record gives back exactly the object that it was made of. -/
@[simp]
theorem objectAs?_ofObject (updateType : UpdateType) (kind : Kind) (object : kind.Object) :
    (ofObject updateType kind object).objectAs? kind = some object := by
  have decoded := kind.decodeJson_sorted object
  simp only [objectAs?, ofObject, if_true, Option.bind_some, decoded]
  rfl

/-- A record gives nothing for another kind. -/
theorem objectAs?_ofObject_of_ne {kind other : Kind} (differs : other ≠ kind)
    (updateType : UpdateType) (object : kind.Object) :
    (ofObject updateType kind object).objectAs? other = none :=
  if_neg (Ne.symm differs)

end UpdateRecord

end Workbench
