/-
# Everything that is stored or sent can be decoded again

Ten types have a text form: the objects of the five kinds, definitions of blocks and requests for
them, layout actions, events for windows and update records. For each of them decoding undoes
encoding, and so a text that was decoded once has a text of its own that decodes to the same
value.

An update record may hold any value as its object. It cannot tell the value null from no object,
and it never has to: a record that was decoded does not hold null.
-/

import Workbench.Event
import Workbench.Proofs.Json.Roundtrip
import Workbench.Proofs.Object.Codec

namespace Workbench

open Json

/-! ## What is decoded fits -/

section Fit

variable (room : Nat)

theorem Client.fit_fields : Client.fields.Fit (room + 1) :=
  .required (Codec.fits_string _) <|
  .withDefault (Codec.fits_int64 _) (Nat.zero_le _) <|
  .withDefault (Codec.fits_list (Codec.fits_string _)) (Nat.le_add_left 1 room) <|
  .withDefault (Codec.fits_int64 _) (Nat.zero_le _) <|
  .withDefault (Meta.fits_codec _) (Nat.le_add_left 1 room) .nil

theorem Window.fit_fields : Window.fields.Fit (room + 1) :=
  .required (Codec.fits_string _) <|
  .withDefault (Codec.fits_int64 _) (Nat.zero_le _) <|
  .required (Codec.fits_string _) <|
  .required (Codec.fits_string _) <|
  .withDefault (Meta.fits_codec _) (Nat.le_add_left 1 room) .nil

theorem Workspace.fit_fields : Workspace.fields.Fit (room + 1) :=
  .required (Codec.fits_string _) <|
  .withDefault (Codec.fits_int64 _) (Nat.zero_le _) <|
  .required (Codec.fits_string _) <|
  .withDefault (Codec.fits_list (Codec.fits_string _)) (Nat.le_add_left 1 room) <|
  .withDefault (Meta.fits_codec _) (Nat.le_add_left 1 room) .nil

theorem Tab.fit_fields : Tab.fields.Fit (room + 1) :=
  .required (Codec.fits_string _) <|
  .withDefault (Codec.fits_int64 _) (Nat.zero_le _) <|
  .required (Codec.fits_string _) <|
  .withDefault (Codec.fits_list (Codec.fits_string _)) (Nat.le_add_left 1 room) <|
  .withDefault (Meta.fits_codec _) (Nat.le_add_left 1 room) .nil

theorem Block.fit_fields : Block.fields.Fit (room + 1) :=
  .required (Codec.fits_string _) <|
  .withDefault (Codec.fits_int64 _) (Nat.zero_le _) <|
  .withDefault (Meta.fits_codec _) (Nat.le_add_left 1 room) .nil

theorem BlockDefinition.fit_fields : BlockDefinition.fields.Fit (room + 1) :=
  .withDefault (Meta.fits_codec _) (Nat.le_add_left 1 room) .nil

theorem BlockRequest.fit_fields : BlockRequest.fields.Fit (room + 2) :=
  .required ((BlockDefinition.fit_fields room).fits_codec fun _ => rfl) <|
  .withDefault (Codec.fits_of_flat (fun _ => rfl) _) (Nat.zero_le _) .nil

theorem LayoutAction.fit_fields : LayoutAction.fields.Fit (room + 1) :=
  .required (Codec.fits_names _ _ _) <|
  .required (Codec.fits_string _) <|
  .required (Codec.fits_string _) <|
  .required (Codec.fits_list (Codec.fits_of_flat (fun _ => rfl) _)) <|
  .optional (Codec.fits_of_flat (fun _ => rfl) _) .nil

theorem WindowEvent.fit_fields : WindowEvent.fields.Fit (room + 2) :=
  .required (Codec.fits_string _) <|
  .required (Codec.fits_string _) <|
  .required (Codec.fits_untagged _ ((LayoutAction.fit_fields room).fits_codec fun _ => rfl)) .nil

theorem UpdateRecord.fit_fields : UpdateRecord.fields.Fit room :=
  .required (Codec.fits_names _ _ _) <|
  .required (Codec.fits_names _ _ _) <|
  .required (Codec.fits_string _) <|
  .optional (CanonicalJson.fits_codec _) .nil

end Fit

/-! ## What is encoded is read back -/

theorem BlockDefinition.faithful_codec : BlockDefinition.codec.Faithful := fun definition =>
  Fields.ReadBack.readsBack_codec (.withDefault (Meta.faithful_codec _) .nil) (by decide) rfl

theorem BlockRequest.faithful_codec : BlockRequest.codec.Faithful := fun request =>
  Fields.ReadBack.readsBack_codec
    (.required (BlockDefinition.faithful_codec _) <| .withDefault (Codec.faithful_bool _) .nil)
    (by decide) rfl

theorem LayoutActionType.faithful_codec : LayoutActionType.codec.Faithful :=
  Codec.faithful_names fun
    | .insertAtIndex => rfl

theorem LayoutAction.faithful_codec : LayoutAction.codec.Faithful := fun action =>
  Fields.ReadBack.readsBack_codec
    (.required (LayoutActionType.faithful_codec _) <|
      .required (Codec.faithful_string _) <|
      .required (Codec.faithful_string _) <|
      .required (Codec.faithful_list (Codec.faithful_word _) _) <|
      .optional (fun hint _ => ⟨Codec.faithful_uint32 hint, nofun⟩) .nil)
    (by decide) rfl

theorem WindowEvent.faithful_codec : WindowEvent.codec.Faithful := fun event =>
  Fields.ReadBack.readsBack_codec
    (.required (Codec.faithful_string _) <|
      .required (Codec.faithful_string _) <|
      .required (Codec.faithful_untagged _ LayoutAction.faithful_codec _) .nil)
    (by decide) rfl

theorem UpdateType.faithful_codec : UpdateType.codec.Faithful :=
  Codec.faithful_names fun
    | .created => rfl
    | .updated => rfl
    | .deleted => rfl

namespace Kind

theorem faithful_codec : codec.Faithful :=
  Codec.faithful_names fun
    | .client => rfl
    | .window => rfl
    | .workspace => rfl
    | .tab => rfl
    | .block => rfl

theorem faithful_objectCodec : (kind : Kind) → kind.objectCodec.Faithful
  | .client => fun client =>
      (Client.faithful_fields.readBack _).readsBack_codec (by decide) (Eq.refl client)
  | .window => fun window =>
      (Window.faithful_fields.readBack _).readsBack_codec (by decide) (Eq.refl window)
  | .workspace => fun workspace =>
      (Workspace.faithful_fields.readBack _).readsBack_codec (by decide) (Eq.refl workspace)
  | .tab => fun tab =>
      (Tab.faithful_fields.readBack _).readsBack_codec (by decide) (Eq.refl tab)
  | .block => fun block =>
      (Block.faithful_fields.readBack _).readsBack_codec (by decide) (Eq.refl block)

theorem fits_objectCodec : (kind : Kind) → kind.objectCodec.Fits Node.nestingLimit
  | .client => (Client.fit_fields 125).fits_codec fun _ => rfl
  | .window => (Window.fit_fields 125).fits_codec fun _ => rfl
  | .workspace => (Workspace.fit_fields 125).fits_codec fun _ => rfl
  | .tab => (Tab.fit_fields 125).fits_codec fun _ => rfl
  | .block => (Block.fit_fields 125).fits_codec fun _ => rfl

end Kind

namespace UpdateRecord

/-- The object of a record is not the value null. -/
def ObjectIsNotNull (record : UpdateRecord) : Prop :=
  ∀ value, record.object = some value → value.json ≠ .null

theorem readsBack_codec {record : UpdateRecord} (notNull : record.ObjectIsNotNull) :
    codec.ReadsBack record :=
  Fields.ReadBack.readsBack_codec
    (.required (UpdateType.faithful_codec _) <|
      .required (Kind.faithful_codec _) <|
      .required (Codec.faithful_string _) <|
      .optional (fun value held => ⟨CanonicalJson.faithful_codec value, notNull value held⟩) .nil)
    (by decide) rfl

/-- No text decodes as a record that holds null: null is read as no object. -/
theorem objectIsNotNull_of_read {room : Nat} {node : Node} {record : UpdateRecord}
    (read : codec.read (room + 1) node = .ok record) : record.ObjectIsNotNull := by
  simp only [codec, Fields.codec] at read
  cases found : fields.read "UpdateRecord" (room + 1) node with
  | error problem =>
      rw [found] at read
      cases read
  | ok values =>
      rw [found] at read
      cases read
      obtain ⟨updateType, kind, oid, object, _⟩ := values
      obtain ⟨-, -, -, taken, -⟩ := Fields.taken_of_read found
      intro value held
      subst held
      rcases taken with ⟨inner, given⟩ | fallback
      · obtain ⟨notNull, taken⟩ := Codec.read_of_option given
        exact CanonicalJson.json_ne_null_of_read taken notNull
      · cases fallback

end UpdateRecord

/-! ## The types -/

/-- The types that have a text form. -/
inductive WireType where
  /-- The objects of a kind. -/
  | object (kind : Kind)
  | blockDefinition
  | blockRequest
  | layoutAction
  | windowEvent
  | updateRecord
  deriving DecidableEq, Repr

namespace WireType

/-- The values of a type. -/
abbrev Value : WireType → Type
  | object kind => kind.Object
  | blockDefinition => BlockDefinition
  | blockRequest => BlockRequest
  | layoutAction => LayoutAction
  | windowEvent => WindowEvent
  | updateRecord => UpdateRecord

/-- How the values of a type are written and read. -/
def codec : (type : WireType) → Codec type.Value
  | object kind => kind.objectCodec
  | blockDefinition => BlockDefinition.codec
  | blockRequest => BlockRequest.codec
  | layoutAction => LayoutAction.codec
  | windowEvent => WindowEvent.codec
  | updateRecord => UpdateRecord.codec

/-- The value does not hold null where its type would write nothing alike. Only an update record
can do that. -/
def Unambiguous : (type : WireType) → type.Value → Prop
  | updateRecord, record => UpdateRecord.ObjectIsNotNull record
  | object _, _ | blockDefinition, _ | blockRequest, _ | layoutAction, _ | windowEvent, _ => True

theorem readsBack : (type : WireType) → {value : type.Value} → type.Unambiguous value →
    type.codec.ReadsBack value
  | object kind, value, _ => kind.faithful_objectCodec value
  | blockDefinition, value, _ => BlockDefinition.faithful_codec value
  | blockRequest, value, _ => BlockRequest.faithful_codec value
  | layoutAction, value, _ => LayoutAction.faithful_codec value
  | windowEvent, value, _ => WindowEvent.faithful_codec value
  | updateRecord, _, notNull => UpdateRecord.readsBack_codec notNull

theorem fits : (type : WireType) → type.codec.Fits Node.nestingLimit
  | object kind => kind.fits_objectCodec
  | blockDefinition => (BlockDefinition.fit_fields 125).fits_codec fun _ => rfl
  | blockRequest => (BlockRequest.fit_fields 124).fits_codec fun _ => rfl
  | layoutAction => (LayoutAction.fit_fields 125).fits_codec fun _ => rfl
  | windowEvent => (WindowEvent.fit_fields 124).fits_codec fun _ => rfl
  | updateRecord => (UpdateRecord.fit_fields 126).fits_codec fun _ => rfl

theorem unambiguous_of_decode (type : WireType) {text : String} {value : type.Value}
    (decoded : type.codec.decode text = .ok value) : type.Unambiguous value := by
  cases type with
  | updateRecord => exact UpdateRecord.objectIsNotNull_of_read (Codec.read_of_decode decoded)
  | object | blockDefinition | blockRequest | layoutAction | windowEvent => trivial

end WireType

/-- Decoding undoes encoding, for every type and every value whose containers nest within the
limit. A value that was decoded always does so, and it never holds null in an ambiguous place;
so it can be encoded and decoded again, which gives the same value and hence the same text.
Numbers have to be worth themselves, which only doubles can fail to be. -/
theorem decoding_undoes_encoding (type : WireType) :
    (∀ value : type.Value, (type.codec.write value).depth ≤ Node.nestingLimit →
      type.Unambiguous value → (type.codec.write value).Rereads →
        type.codec.decode (type.codec.encode value) = .ok value) ∧
    ∀ (text : String) (value : type.Value), type.codec.decode text = .ok value →
      (type.codec.write value).depth ≤ Node.nestingLimit ∧ type.Unambiguous value ∧
      ((type.codec.write value).Rereads →
        type.codec.decode (type.codec.encode value) = .ok value ∧
          ∀ again, type.codec.decode (type.codec.encode value) = .ok again →
            type.codec.encode again = type.codec.encode value) := by
  have first : ∀ value : type.Value, (type.codec.write value).depth ≤ Node.nestingLimit →
      type.Unambiguous value → (type.codec.write value).Rereads →
        type.codec.decode (type.codec.encode value) = .ok value :=
    fun value fits unambiguous => (type.readsBack unambiguous).decode_encode fits
  refine ⟨first, fun text value decoded => ?_⟩
  have fits := type.fits.depth_le_of_decode decoded
  have unambiguous := type.unambiguous_of_decode decoded
  refine ⟨fits, unambiguous, fun rereads => ⟨first value fits unambiguous rereads, ?_⟩⟩
  intro again decodedAgain
  rw [first value fits unambiguous rereads, Except.ok.injEq] at decodedAgain
  rw [decodedAgain]

/-- A record with the least whole number, a null inside its object and a negative zero. -/
theorem a_record_with_rare_values_comes_back :
    let entries : Meta :=
      ((Meta.empty.insert "least" ⟨.num (.ofInt64 Int64.minValue), .num _⟩).insert
        "nothing" ⟨.null, .null⟩).insert "zero" ⟨.num (.double ⟨true, 0, by decide⟩), .num _⟩
    let record : UpdateRecord :=
      ⟨.updated, .block, "block", some ⟨.obj entries.members, entries.canonical⟩⟩
    UpdateRecord.codec.decode (UpdateRecord.codec.encode record) = .ok record ∧
      ∀ again, UpdateRecord.codec.decode (UpdateRecord.codec.encode record) = .ok again →
        UpdateRecord.codec.encode again = UpdateRecord.codec.encode record := by
  intro entries record
  have negativeZero : (Number.double ⟨true, 0, by decide⟩).reread =
      some (.double ⟨true, 0, by decide⟩) := by decide +kernel
  have members : entries.members =
      [("least", .num (.ofInt64 Int64.minValue)), ("nothing", .null),
        ("zero", .num (.double ⟨true, 0, by decide⟩))] := rfl
  have inside : (Json.obj entries.members).Rereads := by
    rw [members]
    refine .obj _ ?_
    simp only [List.forall_mem_cons]
    exact ⟨.num _ (Number.reread_whole _ _), .null, .num _ negativeZero, List.forall_mem_nil _⟩
  have rereads : (UpdateRecord.codec.write record).Rereads := by
    have written : UpdateRecord.codec.write record =
        .obj [("updateType", .str "updated"), ("otype", .str "block"), ("oid", .str "block"),
          ("obj", .obj entries.members)] := rfl
    rw [written]
    refine .obj _ ?_
    simp only [List.forall_mem_cons]
    exact ⟨.str _, .str _, .str _, inside, List.forall_mem_nil _⟩
  have decoded := (decoding_undoes_encoding .updateRecord).1 record (by decide +kernel) (by
    intro value held null
    cases held
    cases null) rereads
  exact ((decoding_undoes_encoding .updateRecord).2 _ record decoded).2.2 rereads

end Workbench
