/-
# Configurations are loaded and checked

A text is decoded first and checked then. It is accepted only if both times are positive, and
why it is refused tells at which step: it does not decode, or a time is zero, where the time of
accessors is looked at first.

An object text says of each field what its member says, or else nothing, and then the default
holds. A configuration that is written and loaded again is the same one, unless its own check
refuses it.
-/

import Workbench.Config
import Workbench.Proofs.Json.RecordText
import Workbench.Proofs.Json.Roundtrip

namespace Workbench

open Json

namespace Config

/-! ## Checking -/

/-- Both times are positive. -/
def Timed (config : Config) : Prop := 0 < config.accessorTimeout ∧ 0 < config.bootstrapTimeout

theorem validate_eq_ok_iff (config : Config) : config.validate = .ok () ↔ config.Timed := by
  rw [validate, Timed, UInt64.pos_iff_ne_zero, UInt64.pos_iff_ne_zero]
  split_ifs with accessor bootstrap
  · simp [accessor]
  · simp [bootstrap]
  · simp [accessor, bootstrap]

/-- The time that is refused: it is zero, and the time before it is not. -/
def Refuses (config : Config) (field : String) : Prop :=
  config.accessorTimeout = 0 ∧ field = accessorKey ∨
    config.accessorTimeout ≠ 0 ∧ config.bootstrapTimeout = 0 ∧ field = bootstrapKey

theorem validate_eq_error_iff (config : Config) (problem : ConfigError) :
    config.validate = .error problem ↔
      ∃ field, problem = .zeroTimeout field ∧ config.Refuses field := by
  rw [validate]
  split_ifs with accessor bootstrap
  · simp [Refuses, accessor, eq_comm]
  · simp [Refuses, accessor, bootstrap, eq_comm]
  · simp [Refuses, accessor, bootstrap]

/-! ## Loading -/

variable {build : Build}

theorem ofText_of_decode {text : String} {config : Config}
    (decoded : (codec build).decode text = .ok config) :
    ofText build text = config.validate.map fun () => config := by
  rw [ofText, decoded]

theorem ofText_of_error {text : String} {cause : DecodeError}
    (refused : (codec build).decode text = .error cause) :
    ofText build text = .error (.unreadable cause) := by
  rw [ofText, refused]

theorem ofText_eq_ok_iff {text : String} {config : Config} :
    ofText build text = .ok config ↔ (codec build).decode text = .ok config ∧ config.Timed := by
  cases decoded : (codec build).decode text with
  | error cause => simp [ofText_of_error decoded]
  | ok found =>
      rw [ofText_of_decode decoded, Except.ok.injEq, ← validate_eq_ok_iff]
      cases checked : found.validate with
      | error problem =>
          refine ⟨nofun, ?_⟩
          rintro ⟨rfl, valid⟩
          cases checked.symm.trans valid
      | ok =>
          refine ⟨fun same => ?_, fun same => congrArg Except.ok same.1⟩
          cases same
          exact ⟨rfl, checked⟩

theorem ofText_eq_zeroTimeout_iff {text field : String} :
    ofText build text = .error (.zeroTimeout field) ↔
      ∃ config, (codec build).decode text = .ok config ∧ config.Refuses field := by
  cases decoded : (codec build).decode text with
  | error cause => simp [ofText_of_error decoded]
  | ok found =>
      have refuses := found.validate_eq_error_iff (.zeroTimeout field)
      simp only [ConfigError.zeroTimeout.injEq, exists_eq_left'] at refuses
      simp only [ofText_of_decode decoded, Except.ok.injEq, exists_eq_left', ← refuses]
      cases found.validate <;> simp [Except.map]

theorem ofText_eq_unreadable_iff {text : String} {cause : DecodeError} :
    ofText build text = .error (.unreadable cause) ↔ (codec build).decode text = .error cause := by
  cases decoded : (codec build).decode text with
  | error problem => simp [ofText_of_error decoded]
  | ok found =>
      have refuses := found.validate_eq_error_iff (.unreadable cause)
      rw [ofText_of_decode decoded]
      cases checked : found.validate with
      | error problem =>
          rw [checked] at refuses
          simpa [Except.map] using refuses
      | ok => simp [Except.map]

/-! ## Members -/

/-- The node of a number as the documents spell it. -/
def wordNode (value : UInt64) : Node := .number (some (.ofUInt64 value))

/-- The node of a string. -/
def stringNode (text : String) : Node := .string (some text)

theorem eq_wordNode_of_read {expected : String} {room : Nat} {node : Node} {value : UInt64}
    (read : (Codec.word expected).read room node = .ok value) : node = wordNode value := by
  simp only [Codec.word] at read
  cases found : Codec.readWhole expected 0 0xFFFFFFFFFFFFFFFF node with
  | error problem =>
      rw [found] at read
      cases read
  | ok whole =>
      rw [found] at read
      cases read
      unfold Codec.readWhole at found
      split at found
      · split at found
        · rename_i bounds
          cases found
          have small : whole.toNat < 2 ^ 64 := by omega
          simp only [wordNode, Number.ofUInt64, Node.number.injEq, Option.some.injEq,
            Number.whole.injEq, UInt64.toNat_ofNat_of_lt' small]
          omega
        · cases found
      · cases found

theorem eq_stringNode_of_read {room : Nat} {node : Node} {text : String}
    (read : Codec.string.read room node = .ok text) : node = stringNode text := by
  simp only [Codec.string] at read
  split at read
  · cases read
    rfl
  · cases read

/-- The members of a configuration in the order of declaration, with their defaults. -/
def declared (build : Build) : Declaration :=
  [(accessorKey, some (.num (.ofUInt64 defaultTimeout))),
    (bootstrapKey, some (.num (.ofUInt64 defaultTimeout))),
    ("log_level", some (.str build.logLevel))]

/-- No two fields have one name, whatever the build. -/
theorem nodup_names : [accessorKey, bootstrapKey, "log_level"].Nodup := by
  decide

theorem declaredAs_fields : (fields build).DeclaredAs 126 (declared build) :=
  .withDefault rfl rfl <| .withDefault rfl rfl <| .withDefault rfl rfl .nil

/-- What an object decodes to is what its members say. -/
theorem told_of_decode {spacing : Spacing} {members : List MemberText} {config : Config}
    (decoded : (codec build).decode (objectText spacing members) = .ok config) :
    Told members accessorKey wordNode defaultTimeout config.accessorTimeout ∧
      Told members bootstrapKey wordNode defaultTimeout config.bootstrapTimeout ∧
      Told members "log_level" stringNode build.logLevel config.logLevel := by
  obtain ⟨⟨accessor, bootstrap, level, _⟩, read, rfl⟩ := Fields.readObject_of_decode decoded
  obtain ⟨-, distinct, first, second, third, -⟩ := Fields.readObject_eq_ok_iff_takes.1 read
  have word := fun node value => @eq_wordNode_of_read "u64" 126 node value
  exact ⟨Fields.told_of_taken word distinct (.head _) first,
    Fields.told_of_taken word distinct (.tail _ (.head _)) second,
    Fields.told_of_taken (fun _ _ => eq_stringNode_of_read) distinct
      (.tail _ (.tail _ (.head _))) third⟩

/-! ## Writing and loading again -/

theorem decode_encode (build : Build) (config : Config) :
    (codec build).decode ((codec build).encode config) = .ok config := by
  have reads : (codec build).ReadsBack config :=
    Fields.ReadBack.readsBack_codec
      (.withDefault (Codec.faithful_word _ _) <| .withDefault (Codec.faithful_word _ _) <|
        .withDefault (Codec.faithful_string _) .nil)
      nodup_names rfl
  have written : (codec build).write config =
      .obj [(accessorKey, .num (.ofUInt64 config.accessorTimeout)),
        (bootstrapKey, .num (.ofUInt64 config.bootstrapTimeout)),
        ("log_level", .str config.logLevel)] := rfl
  refine reads.decode_encode ?_ ?_
  · rw [written]
    simp [depth, membersDepth, Node.nestingLimit]
  · rw [written]
    refine .obj _ ?_
    simp only [List.forall_mem_cons]
    exact ⟨.num _ (Number.reread_whole _ _), .num _ (Number.reread_whole _ _), .str _,
      List.forall_mem_nil _⟩

end Config

/-- A text is accepted as a configuration exactly if it decodes and both times are positive, it
is refused for a time exactly if it decodes and that time is the first that is zero, and it is
unreadable exactly if it does not decode. An object that decodes says of each field what its
member says, and the default holds for a field without a member; other members and the order do
not matter. A configuration that was written is loaded as it is, or refused as its own check
refuses it. -/
theorem configurations_are_loaded_and_checked (build : Build) :
    (∀ text : String,
      (∀ config, Config.ofText build text = .ok config ↔
        (Config.codec build).decode text = .ok config ∧
          0 < config.accessorTimeout ∧ 0 < config.bootstrapTimeout) ∧
      (∀ field, Config.ofText build text = .error (.zeroTimeout field) ↔
        ∃ config, (Config.codec build).decode text = .ok config ∧
          (config.accessorTimeout = 0 ∧ field = Config.accessorKey ∨
            config.accessorTimeout ≠ 0 ∧ config.bootstrapTimeout = 0 ∧
              field = Config.bootstrapKey)) ∧
      ∀ cause, Config.ofText build text = .error (.unreadable cause) ↔
        (Config.codec build).decode text = .error cause) ∧
    (∀ (before rest : List Char) (config : Config), Blank before →
      (Config.codec build).decode (String.ofList (before ++ '{' :: rest)) = .ok config →
        ∃ spacing members, String.ofList (before ++ '{' :: rest) = objectText spacing members) ∧
    (∀ (spacing : Spacing) (members : List MemberText) (config : Config),
      (Config.codec build).decode (objectText spacing members) = .ok config →
        Told members Config.accessorKey Config.wordNode 2000 config.accessorTimeout ∧
        Told members Config.bootstrapKey Config.wordNode 2000 config.bootstrapTimeout ∧
        Told members "log_level" Config.stringNode build.logLevel config.logLevel ∧
        ∀ others, Relation.ReflTransGen (Unnoticed (Config.declared build)) members others →
          ∀ between, (Config.codec build).decode (objectText between others) = .ok config) ∧
    ∀ config : Config,
      (Config.ofText build ((Config.codec build).encode config) = .ok config ↔
        0 < config.accessorTimeout ∧ 0 < config.bootstrapTimeout) ∧
      (¬(0 < config.accessorTimeout ∧ 0 < config.bootstrapTimeout) →
        ∃ field, config.validate = .error (.zeroTimeout field) ∧
          Config.ofText build ((Config.codec build).encode config) =
            .error (.zeroTimeout field)) := by
  refine ⟨fun text => ⟨?_, ?_, ?_⟩, ?_, ?_, fun config => ⟨?_, fun untimed => ?_⟩⟩
  · exact fun config => Config.ofText_eq_ok_iff
  · exact fun field => Config.ofText_eq_zeroTimeout_iff
  · exact fun cause => Config.ofText_eq_unreadable_iff
  · intro before rest config blank decoded
    exact Fields.exists_objectText_of_decode blank decoded
  · intro spacing members config decoded
    obtain ⟨accessor, bootstrap, level⟩ := Config.told_of_decode decoded
    refine ⟨accessor, bootstrap, level, fun others changes between => ?_⟩
    exact Fields.decode_of_unnoticed Config.declaredAs_fields Config.nodup_names decoded changes
      between
  · rw [Config.ofText_eq_ok_iff]
    exact and_iff_right (config.decode_encode build)
  · have loaded := Config.ofText_of_decode (config.decode_encode build)
    cases checked : config.validate with
    | ok => exact absurd (config.validate_eq_ok_iff.1 checked) untimed
    | error problem =>
        obtain ⟨field, rfl, -⟩ := (config.validate_eq_error_iff problem).1 checked
        rw [checked] at loaded
        exact ⟨field, rfl, loaded⟩

/-- A document gives one time and something unknown, and a configuration without time is written. -/
theorem a_document_gives_one_time :
    let bootstrap := MemberText.written Config.bootstrapKey (.num (.ofUInt64 500))
    let colour := MemberText.written "colour" .null
    let config : Config := ⟨2000, 500, "debug"⟩
    (Config.codec .debug).decode (objectText .none [bootstrap]) = .ok config ∧
      bootstrap.value.node = Config.wordNode config.bootstrapTimeout ∧
      config.accessorTimeout = 2000 ∧
      Config.ofText .debug (objectText .none [colour, bootstrap]) = .ok config ∧
      Config.ofText .debug ((Config.codec .debug).encode ⟨0, 0, "info"⟩) =
        .error (.zeroTimeout Config.accessorKey) := by
  intro bootstrap colour config
  have number : Node.ofPrinted (.num (.ofUInt64 500)) = Node.ofJson (.num (.ofUInt64 500)) :=
    Rereads.ofPrinted (.num _ (Number.reread_whole _ _))
  have decoded : (Config.codec .debug).decode (objectText .none [bootstrap]) = .ok config := by
    simp only [Config.codec, Fields.decode_objectText, bootstrap, List.map_cons, List.map_nil,
      MemberText.node, MemberText.written, ValueText.written, number]
    rfl
  obtain ⟨texts, -, objects, written⟩ := configurations_are_loaded_and_checked .debug
  obtain ⟨accessor, time, -, unnoticed⟩ := objects _ _ _ decoded
  have added : Unnoticed (Config.declared .debug) [bootstrap] [colour, bootstrap] :=
    .add [] [bootstrap] colour (by decide)
  have elsewhere : ∀ member ∈ [bootstrap], member.name ≠ Config.accessorKey := by
    intro member present
    rw [List.mem_singleton.1 present]
    exact (by decide : Config.bootstrapKey ≠ Config.accessorKey)
  obtain ⟨field, refused, loaded⟩ := (written ⟨0, 0, "info"⟩).2 (by decide)
  refine ⟨decoded, time.given bootstrap List.mem_cons_self rfl, accessor.missing elsewhere, ?_, ?_⟩
  · exact ((texts _).1 config).2 ⟨unnoticed _ (.single added) .none, by decide, by decide⟩
  · cases refused
    exact loaded

end Workbench
