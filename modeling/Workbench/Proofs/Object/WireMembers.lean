/-
# Which members of a text matter

For every type with a text form it is said once which members it declares, which of them are
required and what the others are when they are not given. What an object decodes to depends
on these members alone: their order, foreign members and members that say what would be
assumed anyway make no difference, and the array of the same values decodes alike. Without a
required member, or with a declared member given twice, nothing is decoded.
-/

import Workbench.Proofs.Json.RecordText
import Workbench.Proofs.Object.Wire

namespace Workbench

open Json

namespace WireType

/-- The members of a type in the order of declaration, each with the value that is assumed when
it is not given. A member without one is required. -/
def declared : WireType → Declaration
  | object .client =>
      [("oid", none), ("version", some (.num (.ofInt64 0))), ("windowIds", some (.arr [])),
        ("tosAgreed", some (.num (.ofInt64 0))), ("meta", some (.obj []))]
  | object .window =>
      [("oid", none), ("version", some (.num (.ofInt64 0))), ("workspaceId", none),
        ("activeTabId", none), ("meta", some (.obj []))]
  | object .workspace =>
      [("oid", none), ("version", some (.num (.ofInt64 0))), ("name", none),
        ("tabIds", some (.arr [])), ("meta", some (.obj []))]
  | object .tab =>
      [("oid", none), ("version", some (.num (.ofInt64 0))), ("name", none),
        ("blockIds", some (.arr [])), ("meta", some (.obj []))]
  | object .block =>
      [("oid", none), ("version", some (.num (.ofInt64 0))), ("meta", some (.obj []))]
  | blockDefinition => [("meta", some (.obj []))]
  | blockRequest => [("blockDef", none), ("magnified", some (.bool false))]
  | layoutAction =>
      [("actionType", none), ("tabId", none), ("blockId", none), ("indexPath", none),
        ("sizeHint", some .null)]
  | windowEvent => [("eventType", none), ("windowId", none), ("data", none)]
  | updateRecord =>
      [("updateType", none), ("otype", none), ("oid", none), ("obj", some .null)]

theorem nodup_declared (type : WireType) : (type.declared.map Prod.fst).Nodup := by
  rcases type with kind | _ | _ | _ | _ | _
  · cases kind <;> decide
  all_goals decide

/-- The text of a value that is assumed says that value. -/
theorem rereads_declared (type : WireType) :
    ∀ member ∈ type.declared, ∀ value ∈ member.2, value.Rereads := by
  have zero : (Json.num (.ofInt64 0)).Rereads := .num _ (Number.reread_whole _ _)
  have none : (Json.arr []).Rereads := .arr [] (List.forall_mem_nil _)
  have empty : (Json.obj []).Rereads := .obj [] (List.forall_mem_nil _)
  rcases type with kind | _ | _ | _ | _ | _
  · cases kind <;> simp [declared, zero, none, empty]
  all_goals simp [declared, empty, Rereads.bool, Rereads.null]

/-- Every type is a record whose fields are declared. -/
theorem exists_fields : (type : WireType) →
    ∃ (ρ : Type) (fields : Fields ρ) (record : String) (toValues : type.Value → ρ)
      (ofValues : ρ → type.Value), type.codec = fields.codec record toValues ofValues ∧
        fields.DeclaredAs 126 type.declared
  | object .client =>
      ⟨_, Client.fields, "Client", _, _, rfl, .required rfl <| .withDefault rfl rfl <|
        .withDefault rfl rfl <| .withDefault rfl rfl <| .withDefault rfl rfl .nil⟩
  | object .window =>
      ⟨_, Window.fields, "Window", _, _, rfl, .required rfl <| .withDefault rfl rfl <|
        .required rfl <| .required rfl <| .withDefault rfl rfl .nil⟩
  | object .workspace =>
      ⟨_, Workspace.fields, "Workspace", _, _, rfl, .required rfl <| .withDefault rfl rfl <|
        .required rfl <| .withDefault rfl rfl <| .withDefault rfl rfl .nil⟩
  | object .tab =>
      ⟨_, Tab.fields, "Tab", _, _, rfl, .required rfl <| .withDefault rfl rfl <|
        .required rfl <| .withDefault rfl rfl <| .withDefault rfl rfl .nil⟩
  | object .block =>
      ⟨_, Block.fields, "Block", _, _, rfl, .required rfl <| .withDefault rfl rfl <|
        .withDefault rfl rfl .nil⟩
  | blockDefinition =>
      ⟨_, BlockDefinition.fields, "BlockDef", _, _, rfl, .withDefault rfl rfl .nil⟩
  | blockRequest =>
      ⟨_, BlockRequest.fields, "CreateBlockData", _, _, rfl, .required rfl <|
        .withDefault rfl rfl .nil⟩
  | layoutAction =>
      ⟨_, LayoutAction.fields, "LayoutActionData", _, _, rfl, .required rfl <| .required rfl <|
        .required rfl <| .required rfl <| .withDefault rfl rfl .nil⟩
  | windowEvent =>
      ⟨_, WindowEvent.fields, "WindowEvent", _, _, rfl, .required rfl <| .required rfl <|
        .required rfl .nil⟩
  | updateRecord =>
      ⟨_, UpdateRecord.fields, "UpdateRecord", _, _, rfl, .required rfl <| .required rfl <|
        .required rfl <| .withDefault rfl rfl .nil⟩

end WireType

/-- What an object decodes to depends on its declared members alone. Every text that begins with
a brace and decodes is the text of an object. Moving members, adding foreign ones and leaving out
those that say what would be assumed does not change what it decodes to, and the array of the same
values in the order of declaration decodes alike; but without a required member the text is refused,
and a text that gives a declared member twice is refused in any case. -/
theorem decoding_depends_on_declared_members (type : WireType) :
    (∀ (before rest : List Char) (value : type.Value), Blank before →
      type.codec.decode (String.ofList (before ++ '{' :: rest)) = .ok value →
        ∃ spacing members, String.ofList (before ++ '{' :: rest) = objectText spacing members) ∧
    (∀ (spacing : Spacing) (members : List MemberText) (value : type.Value),
      type.codec.decode (objectText spacing members) = .ok value →
        (∀ others, Relation.ReflTransGen (Unnoticed type.declared) members others →
          ∀ between, type.codec.decode (objectText between others) = .ok value) ∧
        (∃ items, List.Forall₂ (GivesText members) type.declared items) ∧
        (∀ items, List.Forall₂ (GivesText members) type.declared items →
          ∀ between, type.codec.decode (arrayText between items) = .ok value) ∧
        ∀ front member behind, members = front ++ member :: behind →
          (member.name, none) ∈ type.declared →
            ∀ between, type.codec.decode (objectText between (front ++ behind)) =
              .error (.missingField member.name)) ∧
    ∀ (spacing : Spacing) (front between behind : List MemberText) (first second : MemberText),
      first.name ∈ type.declared.map Prod.fst → second.name = first.name →
        ∃ problem, type.codec.decode
          (objectText spacing (front ++ first :: (between ++ second :: behind))) =
            .error problem := by
  obtain ⟨ρ, fields, record, toValues, ofValues, same, declared⟩ := type.exists_fields
  have names := type.nodup_declared
  rw [same]
  refine ⟨?_, ?_, ?_⟩
  · intro before rest value blank decoded
    exact Fields.exists_objectText_of_decode blank decoded
  · intro spacing members value decoded
    refine ⟨?_, Fields.exists_items_of_decode declared type.rereads_declared decoded, ?_, ?_⟩
    · intro others changes between
      exact Fields.decode_of_unnoticed declared names decoded changes between
    · intro items gives between
      exact Fields.decode_arrayText_of_gives declared decoded gives between
    · rintro front member behind rfl field between
      exact Fields.decode_of_required declared names decoded field between
  · intro spacing front between behind first second field twice
    exact Fields.exists_error_of_decode_twice declared spacing field twice

/-- A client text loses its version, gains a colour, becomes an array, loses its identifier and
gets it twice. -/
theorem a_client_text_is_rewritten :
    let oid := MemberText.written "oid" (.str "c")
    let version := MemberText.written "version" (.num (.ofInt64 0))
    let colour := MemberText.written "colour" (.arr [.null])
    let decode := Client.codec.decode
    decode (objectText .none [version, oid]) = .ok (Client.new "c") ∧
      decode (objectText .none [oid, colour]) = .ok (Client.new "c") ∧
      decode (arrayText .none [.written (.str "c"), .written (.num (.ofInt64 0)),
        .written (.arr []), .written (.num (.ofInt64 0)), .written (.obj [])]) =
          .ok (Client.new "c") ∧
      decode (objectText .none [version]) = .error (.missingField "oid") ∧
      ∃ problem, decode (objectText .none [oid, version, oid]) = .error problem := by
  intro oid version colour decode
  have zero : Node.ofPrinted (.num (.ofInt64 0)) = Node.ofJson (.num (.ofInt64 0)) :=
    Rereads.ofPrinted (.num _ (Number.reread_whole _ _))
  have decoded : decode (objectText .none [version, oid]) = .ok (Client.new "c") := by
    simp only [decode, Client.codec, Fields.decode_objectText, version, oid, List.map_cons,
      List.map_nil, MemberText.node, MemberText.written, ValueText.written, zero]
    rfl
  obtain ⟨-, alike, twice⟩ := decoding_depends_on_declared_members (.object .client)
  obtain ⟨unnoticed, -, array, required⟩ := alike _ _ _ decoded
  refine ⟨decoded, unnoticed _ ?_ _, array _ ?_ _, required [version] oid [] rfl ?_ _,
    twice _ [] [version] [] oid oid ?_ rfl⟩
  · have left : Unnoticed (WireType.object .client).declared [version, oid] [oid] :=
      .leaveOut [] [oid] version (.num (.ofInt64 0)) (by simp [WireType.declared, version,
        MemberText.written]) zero
    have added : Unnoticed (WireType.object .client).declared [oid] [oid, colour] :=
      .add [oid] [] colour (by decide)
    exact (Relation.ReflTransGen.single left).tail added
  · have missing : ∀ name, name ≠ "version" → name ≠ "oid" →
        ∀ member ∈ [version, oid], member.name ≠ name := by
      intro name first second member present
      simp only [List.mem_cons, List.not_mem_nil, or_false] at present
      rcases present with rfl | rfl
      · exact Ne.symm first
      · exact Ne.symm second
    refine .cons (.inl ⟨oid, by simp, rfl, rfl⟩) <| .cons (.inl ⟨version, by simp, rfl, rfl⟩) <|
      .cons (.inr ⟨missing _ (by decide) (by decide), _, rfl, rfl⟩) <|
      .cons (.inr ⟨missing _ (by decide) (by decide), _, rfl, zero⟩) <|
      .cons (.inr ⟨missing _ (by decide) (by decide), _, rfl, rfl⟩) .nil
  · simp [WireType.declared, oid, MemberText.written]
  · simp [WireType.declared, oid, MemberText.written]

end Workbench
