/-
# Objects in rows

A row holds an object as text. When the text is read again everything but the metadata comes
back as it was written: identifiers, names and lists are strings, and the other fields are
whole numbers. The metadata is arbitrary JSON, so it comes back as what its own text is
worth. That can differ in the last bits of doubles, and can fail altogether where values are
nested too deeply.

Within the limits of reading, rows give back exactly the objects that were put into them.
-/

import Workbench.Proofs.Json.Text
import Workbench.Proofs.Object.Codec
import Workbench.Store.Operation

namespace Workbench

open Json

/-! ## Single values -/

namespace Json.Codec

/-- In the given room the text of every value is read back as that value. -/
def RereadsAll {α : Type} (codec : Codec α) (room : Nat) : Prop :=
  ∀ value, codec.read room (Node.ofPrinted (codec.write value)) = .ok value

theorem rereadsAll_string (room : Nat) : string.RereadsAll room := fun _ => rfl

theorem rereadsAll_int64 (room : Nat) : int64.RereadsAll room := by
  intro value
  have worth : (Number.ofInt64 value).reread = some (Number.ofInt64 value) :=
    Number.reread_whole _ _
  have same : Node.ofPrinted (int64.write value) = Node.ofJson (int64.write value) := by
    simp only [int64, Node.ofPrinted, Node.ofJson, worth]
  rw [same]
  exact faithful_int64 value room (Nat.zero_le _)

theorem rereadsAll_list {α : Type} {codec : Codec α} {inner : Nat}
    (rereads : codec.RereadsAll inner) : codec.list.RereadsAll (inner + 1) := by
  intro values
  have items : readItems codec inner (Node.ofPrintedItems (values.map codec.write)) =
      .ok values := by
    induction values with
    | nil => rfl
    | cons value rest ih =>
        rw [List.map_cons, Node.ofPrintedItems, readItems, rereads value, ih]
        rfl
  simp only [list, Node.ofPrinted, items, if_true]

theorem RereadsAll.read_eq_ok_iff {α : Type} {codec : Codec α} {room : Nat}
    (rereads : codec.RereadsAll room) (value read : α) :
    codec.read room (Node.ofPrinted (codec.write value)) = .ok read ↔ read = value := by
  rw [rereads value, Except.ok.injEq]
  exact eq_comm

end Json.Codec

/-! ## Metadata -/

namespace Meta

/-- How deep metadata may nest, given that the object around it is one container more. -/
def room : Nat := Node.nestingLimit - 1

/-- What the text of metadata is read as, if it can be read. -/
def reread (entries : Meta) : Except DecodeError Meta :=
  codec.read room (Node.ofPrinted (codec.write entries))

/-- The metadata nests no deeper than texts may, and every number in it is worth itself. -/
structure WithinLimits (entries : Meta) : Prop where
  depth : (Json.obj entries.members).depth ≤ room
  rereads : (Json.obj entries.members).Rereads

/-- Within these limits metadata is read back as it was written. -/
theorem WithinLimits.reread {entries : Meta} (limits : entries.WithinLimits) :
    entries.reread = .ok entries := by
  rw [Meta.reread, codec, limits.rereads.ofPrinted]
  exact faithful_codec entries room limits.depth

theorem withinLimits_empty : empty.WithinLimits :=
  ⟨by decide, .obj [] (fun _ impossible => nomatch impossible)⟩

end Meta

namespace Kind

/-- The metadata of an object. -/
def metadata : (kind : Kind) → kind.Object → Meta
  | .client, object => Client.metadata object
  | .window, object => Window.metadata object
  | .workspace, object => Workspace.metadata object
  | .tab, object => Tab.metadata object
  | .block, object => Block.metadata object

/-- The object with other metadata. -/
def withMetadata : (kind : Kind) → kind.Object → Meta → kind.Object
  | .client, object, metadata => { (object : Client) with metadata }
  | .window, object, metadata => { (object : Window) with metadata }
  | .workspace, object, metadata => { (object : Workspace) with metadata }
  | .tab, object, metadata => { (object : Tab) with metadata }
  | .block, object, metadata => { (object : Block) with metadata }

@[simp]
theorem oid_withMetadata (kind : Kind) (object : kind.Object) (metadata : Meta) :
    kind.oid (kind.withMetadata object metadata) = kind.oid object := by
  cases kind <;> rfl

@[simp]
theorem version_withMetadata (kind : Kind) (object : kind.Object) (metadata : Meta) :
    kind.version (kind.withMetadata object metadata) = kind.version object := by
  cases kind <;> rfl

@[simp]
theorem metadata_withVersion (kind : Kind) (object : kind.Object) (version : Int64) :
    kind.metadata (kind.withVersion object version) = kind.metadata object := by
  cases kind <;> rfl

@[simp]
theorem metadata_withMetadata (kind : Kind) (object : kind.Object) (metadata : Meta) :
    kind.metadata (kind.withMetadata object metadata) = metadata := by
  cases kind <;> rfl

@[simp]
theorem withMetadata_metadata (kind : Kind) (object : kind.Object) :
    kind.withMetadata object (kind.metadata object) = object := by
  cases kind <;> rfl

end Kind

/-! ## Texts of objects -/

/-- The text of a record is read field by field from what was written. -/
theorem Json.Fields.decode_encode_eq_ok_iff {α ρ : Type} (fields : Fields ρ) {record : String}
    {toValues : α → ρ} {ofValues : ρ → α} (distinct : fields.names.Nodup) (value found : α) :
    (fields.codec record toValues ofValues).decode
        ((fields.codec record toValues ofValues).encode value) = .ok found ↔
      ∃ values, fields.ReadsAs Meta.room Node.ofPrinted (toValues value) values ∧
        ofValues values = found := by
  have members : Node.ofPrintedMembers (fields.members (toValues value)) =
      fields.nodes Node.ofPrinted (toValues value) := Node.ofPrintedMembers_eq_map _
  have read : ∀ values, fields.readObject Meta.room
      (Node.ofPrintedMembers (fields.members (toValues value))) true = .ok values ↔
        fields.ReadsAs Meta.room Node.ofPrinted (toValues value) values := fun values =>
    readObject_eq_ok_iff distinct (members ▸ List.Perm.refl _)
  have decoded : (fields.codec record toValues ofValues).decode
      ((fields.codec record toValues ofValues).encode value) =
        (fields.readObject Meta.room
          (Node.ofPrintedMembers (fields.members (toValues value))) true).map ofValues := by
    rw [Codec.decode, Codec.encode, Node.ofText_text]
    simp only [codec, Node.ofPrinted, Fields.read, Node.nestingLimit, Meta.room]
    cases fields.readObject 126 (Node.ofPrintedMembers (fields.members (toValues value))) true <;>
      rfl
  rw [decoded]
  cases result : fields.readObject Meta.room
      (Node.ofPrintedMembers (fields.members (toValues value))) true with
  | error problem =>
      simp only [← read, result, Except.map]
      simp
  | ok values =>
      simp only [← read, result, Except.map, Except.ok.injEq]
      simp

namespace Kind

/-- The text of an object gives back the object, with what the text of its metadata is worth. -/
theorem decode_encode_eq_ok_iff (kind : Kind) (object found : kind.Object) :
    kind.objectCodec.decode (kind.objectCodec.encode object) = .ok found ↔
      ∃ metadata, (kind.metadata object).reread = .ok metadata ∧
        found = kind.withMetadata object metadata := by
  have text := (Codec.rereadsAll_string Meta.room).read_eq_ok_iff
  have word := (Codec.rereadsAll_int64 Meta.room).read_eq_ok_iff
  have list : ∀ values read : List String,
      Codec.string.list.read Meta.room (Node.ofPrinted (Codec.string.list.write values)) =
        .ok read ↔ read = values :=
    (Codec.rereadsAll_list (Codec.rereadsAll_string 125)).read_eq_ok_iff
  cases kind with
  | client =>
      refine (Client.fields.decode_encode_eq_ok_iff (by decide) object found).trans ?_
      simp only [Client.fields, Fields.ReadsAs, Field.required, Field.withDefault, text, word, list,
        Bool.false_eq_true, if_false, Prod.exists]
      constructor
      · rintro ⟨_, _, _, _, metadata, _, ⟨rfl, rfl, rfl, rfl, read, -⟩, rfl⟩
        exact ⟨metadata, read, rfl⟩
      · rintro ⟨metadata, read, rfl⟩
        exact ⟨_, _, _, _, metadata, (), ⟨rfl, rfl, rfl, rfl, read, trivial⟩, rfl⟩
  | window =>
      refine (Window.fields.decode_encode_eq_ok_iff (by decide) object found).trans ?_
      simp only [Window.fields, Fields.ReadsAs, Field.required, Field.withDefault, text, word,
        Bool.false_eq_true, if_false, Prod.exists]
      constructor
      · rintro ⟨_, _, _, _, metadata, _, ⟨rfl, rfl, rfl, rfl, read, -⟩, rfl⟩
        exact ⟨metadata, read, rfl⟩
      · rintro ⟨metadata, read, rfl⟩
        exact ⟨_, _, _, _, metadata, (), ⟨rfl, rfl, rfl, rfl, read, trivial⟩, rfl⟩
  | workspace =>
      refine (Workspace.fields.decode_encode_eq_ok_iff (by decide) object found).trans ?_
      simp only [Workspace.fields, Fields.ReadsAs, Field.required, Field.withDefault, text, word,
        list, Bool.false_eq_true, if_false, Prod.exists]
      constructor
      · rintro ⟨_, _, _, _, metadata, _, ⟨rfl, rfl, rfl, rfl, read, -⟩, rfl⟩
        exact ⟨metadata, read, rfl⟩
      · rintro ⟨metadata, read, rfl⟩
        exact ⟨_, _, _, _, metadata, (), ⟨rfl, rfl, rfl, rfl, read, trivial⟩, rfl⟩
  | tab =>
      refine (Tab.fields.decode_encode_eq_ok_iff (by decide) object found).trans ?_
      simp only [Tab.fields, Fields.ReadsAs, Field.required, Field.withDefault, text, word, list,
        Bool.false_eq_true, if_false, Prod.exists]
      constructor
      · rintro ⟨_, _, _, _, metadata, _, ⟨rfl, rfl, rfl, rfl, read, -⟩, rfl⟩
        exact ⟨metadata, read, rfl⟩
      · rintro ⟨metadata, read, rfl⟩
        exact ⟨_, _, _, _, metadata, (), ⟨rfl, rfl, rfl, rfl, read, trivial⟩, rfl⟩
  | block =>
      refine (Block.fields.decode_encode_eq_ok_iff (by decide) object found).trans ?_
      simp only [Block.fields, Fields.ReadsAs, Field.required, Field.withDefault, text, word,
        Bool.false_eq_true, if_false, Prod.exists]
      constructor
      · rintro ⟨_, _, metadata, _, ⟨rfl, rfl, read, -⟩, rfl⟩
        exact ⟨metadata, read, rfl⟩
      · rintro ⟨metadata, read, rfl⟩
        exact ⟨_, _, metadata, (), ⟨rfl, rfl, read, trivial⟩, rfl⟩

/-- What a row gives back for the object that it holds. -/
theorem ofRow_toRow_eq_ok_iff (kind : Kind) (object found : kind.Object) :
    kind.ofRow (kind.toRow object) = .ok found ↔
      ∃ metadata, (kind.metadata object).reread = .ok metadata ∧
        found = kind.withMetadata object metadata := by
  rw [← decode_encode_eq_ok_iff, ofRow, toRow]
  cases decoded : kind.objectCodec.decode (kind.objectCodec.encode object) with
  | error problem => simp only [reduceCtorEq]
  | ok held =>
      obtain ⟨metadata, -, rfl⟩ := (kind.decode_encode_eq_ok_iff object held).1 decoded
      have same : kind.withVersion (kind.withMetadata object metadata) (kind.version object) =
          kind.withMetadata object metadata := by
        rw [← kind.version_withMetadata object metadata, withVersion_version]
      simp only [same, Except.ok.injEq]

/-- A row gives back exactly the object that it holds if the metadata does so. -/
theorem ofRow_toRow_eq_self_iff (kind : Kind) (object : kind.Object) :
    kind.ofRow (kind.toRow object) = .ok object ↔
      (kind.metadata object).reread = .ok (kind.metadata object) := by
  rw [ofRow_toRow_eq_ok_iff]
  constructor
  · rintro ⟨metadata, read, same⟩
    have kept := congrArg kind.metadata same
    rw [metadata_withMetadata] at kept
    rw [read, kept]
  · intro read
    exact ⟨kind.metadata object, read, (kind.withMetadata_metadata object).symm⟩

/-- Whether a row gives back its object depends on the metadata alone. -/
theorem ofRow_toRow_of_metadata_eq (kind : Kind) {first second : kind.Object}
    (read : kind.ofRow (kind.toRow first) = .ok first)
    (same : kind.metadata second = kind.metadata first) :
    kind.ofRow (kind.toRow second) = .ok second := by
  rw [ofRow_toRow_eq_self_iff, same]
  exact (kind.ofRow_toRow_eq_self_iff first).1 read

/-- Within the limits of reading a row gives back the object that it holds. -/
theorem ofRow_toRow (kind : Kind) {object : kind.Object}
    (limits : (kind.metadata object).WithinLimits) : kind.ofRow (kind.toRow object) = .ok object :=
  (kind.ofRow_toRow_eq_ok_iff object object).2
    ⟨kind.metadata object, limits.reread, (kind.withMetadata_metadata object).symm⟩

end Kind

end Workbench
