/-
# Decoding what was encoded

Two things are said of a codec. For a value it may read back what it writes, given room for
the containers in it. And whatever it reads in some room, it may write no deeper than that. The
second is why a decoded value can always be encoded and decoded again: reading has already
made sure that the nesting limit is kept.

A record has both properties if its fields have them. The fallback of a field is a value like
any other here, since a value that was not given is written all the same.
-/

import Workbench.Proofs.Json.Text

namespace Workbench

namespace Json

/-! ## Values of nodes -/

theorem itemsDepth_le {items : List Json} {room : Nat}
    (each : ∀ item ∈ items, item.depth ≤ room) : itemsDepth items ≤ room := by
  induction items with
  | nil => exact Nat.zero_le _
  | cons item rest ih =>
      rw [itemsDepth, Nat.max_le]
      exact ⟨each item List.mem_cons_self,
        ih fun other present => each other (List.mem_cons_of_mem _ present)⟩

theorem membersDepth_le {members : List (String × Json)} {room : Nat}
    (each : ∀ member ∈ members, member.2.depth ≤ room) : membersDepth members ≤ room := by
  induction members with
  | nil => exact Nat.zero_le _
  | cons member rest ih =>
      rw [membersDepth, Nat.max_le]
      exact ⟨each member List.mem_cons_self,
        ih fun other present => each other (List.mem_cons_of_mem _ present)⟩

mutual

/-- A value that was taken in some room is no deeper than that. -/
theorem depth_le_of_toJson? {room : Nat} {node : Node} {value : Json}
    (read : node.toJson? room = some value) : value.depth ≤ room := by
  match node with
  | .broken => cases read
  | .null =>
      cases read
      exact Nat.zero_le _
  | .bool held =>
      cases read
      exact Nat.zero_le _
  | .number held =>
      obtain ⟨number, -, rfl⟩ := Option.map_eq_some_iff.1 read
      exact Nat.zero_le _
  | .string held =>
      obtain ⟨text, -, rfl⟩ := Option.map_eq_some_iff.1 read
      exact Nat.zero_le _
  | .array items closed =>
      cases room with
      | zero => cases read
      | succ inner =>
          simp only [Node.toJson?] at read
          split at read
          · obtain ⟨values, found, rfl⟩ := Option.map_eq_some_iff.1 read
            exact Nat.succ_le_succ (itemsDepth_le (depth_le_of_itemsToJson? found))
          · cases read
  | .object members closed =>
      cases room with
      | zero => cases read
      | succ inner =>
          simp only [Node.toJson?] at read
          split at read
          · obtain ⟨values, found, rfl⟩ := Option.map_eq_some_iff.1 read
            exact Nat.succ_le_succ <| membersDepth_le fun member present =>
              depth_le_of_membersToJson? found member (mem_of_mem_sortMembers present)
          · cases read

theorem depth_le_of_itemsToJson? {room : Nat} {items : List Node} {values : List Json}
    (read : Node.itemsToJson? room items = some values) :
    ∀ value ∈ values, value.depth ≤ room := by
  match items with
  | [] =>
      cases read
      exact nofun
  | item :: rest =>
      simp only [Node.itemsToJson?] at read
      split at read
      · cases read
      · rename_i first found
        obtain ⟨others, more, rfl⟩ := Option.map_eq_some_iff.1 read
        intro value present
        rcases List.mem_cons.1 present with rfl | there
        · exact depth_le_of_toJson? found
        · exact depth_le_of_itemsToJson? more value there

theorem depth_le_of_membersToJson? {room : Nat} {members : List (Option String × Node)}
    {values : List (String × Json)} (read : Node.membersToJson? room members = some values) :
    ∀ member ∈ values, member.2.depth ≤ room := by
  match members with
  | [] =>
      cases read
      exact nofun
  | (key, item) :: rest =>
      simp only [Node.membersToJson?] at read
      split at read
      · rename_i name first found
        obtain ⟨others, more, rfl⟩ := Option.map_eq_some_iff.1 read
        intro member present
        rcases List.mem_cons.1 present with rfl | there
        · exact depth_le_of_toJson? found
        · exact depth_le_of_membersToJson? more member there
      · cases read

end

/-! ## Codecs -/

namespace Codec

variable {α : Type} {codec : Codec α}

/-- Whatever the codec reads in some room, it writes no deeper than that. -/
def Fits (codec : Codec α) (room : Nat) : Prop :=
  ∀ node value, codec.read room node = .ok value → (codec.write value).depth ≤ room

/-- The text of a value decodes as that value. Here the numbers of the value must be worth
themselves, and its containers must nest within the limit. -/
theorem ReadsBack.decode_encode {value : α} (reads : codec.ReadsBack value)
    (fits : (codec.write value).depth ≤ Node.nestingLimit)
    (rereads : (codec.write value).Rereads) : codec.decode (codec.encode value) = .ok value := by
  rw [decode, encode, Node.ofText_text, rereads.ofPrinted]
  simp only [reads _ fits, Bool.false_eq_true, if_false]

/-- What was decoded was read from the text. -/
theorem read_of_decode {text : String} {value : α} (decoded : codec.decode text = .ok value) :
    codec.read Node.nestingLimit (Node.ofText text).1 = .ok value := by
  rw [decode] at decoded
  cases read : codec.read Node.nestingLimit (Node.ofText text).1 with
  | error problem =>
      simp only [read] at decoded
      cases decoded
  | ok found =>
      simp only [read] at decoded
      split at decoded
      · cases decoded
      · exact decoded

/-- A value that was decoded nests within the limit. -/
theorem Fits.depth_le_of_decode (fits : codec.Fits Node.nestingLimit) {text : String} {value : α}
    (decoded : codec.decode text = .ok value) :
    (codec.write value).depth ≤ Node.nestingLimit := fits _ _ (read_of_decode decoded)

/-- A codec that writes no containers fits everywhere. -/
theorem fits_of_flat (flat : ∀ value, (codec.write value).depth = 0) (room : Nat) :
    codec.Fits room := by
  intro node value _
  rw [flat value]
  exact Nat.zero_le _

theorem fits_string (room : Nat) : string.Fits room := fits_of_flat (fun _ => rfl) room

theorem fits_int64 (room : Nat) : int64.Fits room := fits_of_flat (fun _ => rfl) room

theorem fits_names (values : List α) (name : α → String) (room : Nat) :
    (names values name).Fits room := fits_of_flat (fun _ => rfl) room

theorem faithful_bool : bool.Faithful := fun _ _ _ => rfl

/-- A whole number within the bounds is read. -/
theorem readWhole_of_bounds {expected : String} {low high value : Int}
    (inRange : -0x8000000000000000 ≤ value ∧ value < 0x10000000000000000)
    (bounds : low ≤ value ∧ value ≤ high) :
    readWhole expected low high (Node.ofJson (.num (.whole value inRange))) = .ok value := by
  simp only [Node.ofJson, readWhole, if_pos bounds]

theorem faithful_word (expected : String) : (word expected).Faithful := by
  intro value room _
  have below := value.toNat_lt
  simp only [word, Number.ofUInt64]
  rw [readWhole_of_bounds _ (by omega), Except.map, Int.toNat_natCast, UInt64.ofNat_toNat]

theorem faithful_uint32 : uint32.Faithful := by
  intro value room _
  have below := value.toNat_lt
  have wide : value.toUInt64.toNat = value.toNat := UInt32.toNat_toUInt64 value
  simp only [uint32, Number.ofUInt64]
  rw [readWhole_of_bounds _ (by omega), Except.map, Int.toNat_natCast, wide, UInt32.ofNat_toNat]

/-- Names are read back if every value is the first of its name. -/
theorem faithful_names {values : List α} {name : α → String}
    (first : ∀ value, values.find? (fun other => name other = name value) = some value) :
    (names values name).Faithful := by
  intro value room _
  simp only [names, Node.ofJson, first value]

/-- A value that may be absent is read back, unless it is written as absence is. -/
theorem ReadsBack.option {value : α} (reads : codec.ReadsBack value)
    (present : codec.write value ≠ .null) : codec.option.ReadsBack (some value) := by
  intro room fits
  have read := reads room fits
  simp only [Codec.option, Option.map_some, Option.getD_some]
  cases written : codec.write value with
  | null => exact absurd written present
  | bool | num | str | arr | obj =>
      rw [written] at read
      simp only [Node.ofJson] at read ⊢
      rw [read]
      rfl

/-- A type without a tag reads what its alternative reads. -/
theorem faithful_untagged (type : String) (faithful : codec.Faithful) :
    (untagged type codec).Faithful := by
  intro value room fits
  have within : (codec.write value).depth ≤ room := fits
  have spelled := toJson?_ofJson_eq (codec.write value) room
  rw [if_pos within] at spelled
  simp only [untagged, spelled, faithful value room within]

theorem fits_list {room : Nat} (fits : codec.Fits room) : codec.list.Fits (room + 1) := by
  have items : ∀ nodes values, readItems codec room nodes = .ok values →
      ∀ value ∈ values, (codec.write value).depth ≤ room := by
    intro nodes
    induction nodes with
    | nil =>
        intro values read
        cases read
        exact nofun
    | cons node rest ih =>
        intro values read
        rw [readItems] at read
        cases first : codec.read room node with
        | error problem =>
            simp only [first] at read
            cases read
        | ok value =>
            cases others : readItems codec room rest with
            | error problem =>
                simp only [first, others] at read
                cases read
            | ok more =>
                simp only [first, others] at read
                cases read
                intro held present
                rcases List.mem_cons.1 present with rfl | there
                · exact fits _ _ first
                · exact ih more others held there
  intro node values read
  cases node with
  | array nodes closed =>
      simp only [list] at read
      cases found : readItems codec room nodes with
      | error problem =>
          simp only [found] at read
          cases read
      | ok held =>
          simp only [found] at read
          split at read
          · cases read
            refine Nat.succ_le_succ (itemsDepth_le fun item present => ?_)
            obtain ⟨value, there, rfl⟩ := List.mem_map.1 present
            exact items nodes values found value there
          · cases read
  | broken | null | bool | number | string | object => cases read

/-- A value that is there was not read from `null`. -/
theorem read_of_option {room : Nat} {node : Node} {value : α}
    (read : codec.option.read room node = .ok (some value)) :
    node ≠ .null ∧ codec.read room node = .ok value := by
  simp only [option] at read
  split at read
  · cases read
  · rename_i given
    cases found : codec.read room node with
    | error problem =>
        rw [found] at read
        cases read
    | ok held =>
        rw [found] at read
        cases read
        exact ⟨given, rfl⟩

theorem fits_option {room : Nat} (fits : codec.Fits room) : codec.option.Fits room := by
  intro node value read
  cases value with
  | none => exact Nat.zero_le _
  | some held => exact fits node held (read_of_option read).2

theorem fits_untagged (type : String) {room : Nat} (fits : codec.Fits room) :
    (untagged type codec).Fits room := by
  intro node value read
  simp only [untagged] at read
  split at read
  · cases read
  · split at read
    · rename_i found
      cases read
      exact fits _ _ found
    · cases read

end Codec

/-! ## Records -/

namespace Fields

variable {α ρ : Type} {fields : Fields ρ} {room : Nat}

section ReadBack

variable {name : String} {codec : Codec α} {values : ρ}

theorem ReadBack.nil : Fields.nil.ReadBack () := trivial

theorem ReadBack.required {value : α} (reads : codec.ReadsBack value)
    (rest : fields.ReadBack values) :
    (cons (.required name codec) fields).ReadBack (value, values) := ⟨reads, rest⟩

theorem ReadBack.withDefault {value fallback : α} (reads : codec.ReadsBack value)
    (rest : fields.ReadBack values) :
    (cons (.withDefault name codec fallback) fields).ReadBack (value, values) := ⟨reads, rest⟩

/-- A field that may be absent has to tell its values from absence. -/
theorem ReadBack.optional {value : Option α}
    (reads : ∀ held, value = some held → codec.ReadsBack held ∧ codec.write held ≠ .null)
    (rest : fields.ReadBack values) :
    (cons (.optional name codec) fields).ReadBack (value, values) := by
  refine ⟨?_, rest⟩
  cases value with
  | none => exact rfl
  | some held => exact (reads held rfl).1.option (reads held rfl).2

end ReadBack

/-- A record is read back if its values are. -/
theorem ReadBack.readsBack_codec {record : String} {toValues : α → ρ} {ofValues : ρ → α}
    {value : α} (reads : fields.ReadBack (toValues value)) (distinct : fields.names.Nodup)
    (inverse : ofValues (toValues value) = value) :
    (fields.codec record toValues ofValues).ReadsBack value := by
  intro room fits
  cases room with
  | zero => cases fits
  | succ inner =>
      have each : ∀ member ∈ fields.members (toValues value), member.2.depth ≤ inner :=
        fun member present =>
          Nat.le_trans (depth_le_membersDepth present) (Nat.le_of_succ_le_succ fits)
      have nodes : (Node.ofMembers (fields.members (toValues value))).Perm
          (fields.nodes Node.ofJson (toValues value)) :=
        ofMembers_eq_map (fields.members (toValues value)) ▸ List.Perm.refl _
      have read := (readObject_eq_ok_iff distinct nodes).2 (reads.readsAs each)
      simp only [codec, Node.ofJson, Fields.read, read, Except.map, inverse]

/-! ### What a record is read as -/

/-- Each of the values was read from some node, or is the fallback of its field. -/
def Taken (room : Nat) {ρ : Type} : Fields ρ → ρ → Prop
  | .nil, _ => True
  | .cons field rest, (value, values) =>
      ((∃ node, field.codec.read room node = .ok value) ∨ field.fallback = some value) ∧
        rest.Taken room values

theorem taken_of_pick {members : List (Option String × Node)} {values : ρ}
    (picked : fields.pick room members = .ok values) : fields.Taken room values := by
  induction fields with
  | nil => trivial
  | cons field rest ih =>
      rw [pick] at picked
      cases others : rest.pick room members with
      | error problem =>
          rw [others] at picked
          repeat' split at picked
          all_goals cases picked
      | ok more =>
          rw [others] at picked
          split at picked
          · rename_i node _
            split at picked
            · cases picked
            · rename_i value read
              cases picked
              exact ⟨.inl ⟨node, read⟩, ih others⟩
          · split at picked
            · rename_i value fallback
              cases picked
              exact ⟨.inr fallback, ih others⟩
            · cases picked

theorem taken_of_readItems {short : Nat → DecodeError} {closed : Bool} {count : Nat}
    {items left : List Node} {values : ρ}
    (read : fields.readItems room short closed count items = .ok (values, left)) :
    fields.Taken room values := by
  induction fields generalizing count items with
  | nil => trivial
  | cons field rest ih =>
      cases items with
      | nil =>
          cases others : rest.readItems room short closed (count + 1) [] with
          | error problem =>
              rw [readItems, others] at read
              repeat' split at read
              all_goals cases read
          | ok more =>
              rw [readItems, others] at read
              split at read
              · split at read
                · rename_i value fallback
                  cases read
                  exact ⟨.inr fallback, ih others⟩
                · cases read
              · cases read
      | cons item items =>
          rw [readItems] at read
          cases found : field.codec.read room item with
          | error problem =>
              simp only [found] at read
              cases read
          | ok value =>
              cases others : rest.readItems room short closed (count + 1) items with
              | error problem =>
                  simp only [found, others] at read
                  cases read
              | ok more =>
                  simp only [found, others] at read
                  cases read
                  exact ⟨.inl ⟨item, found⟩, ih others⟩

/-- However a record is spelled, its values were read one by one or are fallbacks. -/
theorem taken_of_read {record : String} {node : Node} {values : ρ}
    (read : fields.read record (room + 1) node = .ok values) : fields.Taken room values := by
  cases node with
  | object members closed =>
      simp only [Fields.read, readObject] at read
      split at read
      · cases read
      · split at read
        · exact taken_of_pick read
        · cases read
  | array items closed =>
      simp only [Fields.read, readArray] at read
      split at read
      · cases read
      · rename_i found left items
        split at read
        · cases read
          exact taken_of_readItems items
        · cases read
  | broken | null | bool | number | string => cases read

/-- The codecs of all fields fit, and so do the fallbacks. -/
def Fit (room : Nat) {ρ : Type} : Fields ρ → Prop
  | .nil => True
  | .cons field rest =>
      field.codec.Fits room ∧
        (∀ value, field.fallback = some value → (field.codec.write value).depth ≤ room) ∧
        rest.Fit room

section Fit

variable {name : String} {codec : Codec α} (fits : codec.Fits room)

theorem Fit.nil : Fields.nil.Fit room := trivial

include fits

theorem Fit.required (rest : fields.Fit room) : (cons (.required name codec) fields).Fit room :=
  ⟨fits, nofun, rest⟩

theorem Fit.withDefault {fallback : α} (small : (codec.write fallback).depth ≤ room)
    (rest : fields.Fit room) : (cons (.withDefault name codec fallback) fields).Fit room :=
  ⟨fits, fun _ same => Option.some.inj same ▸ small, rest⟩

theorem Fit.optional (rest : fields.Fit room) : (cons (.optional name codec) fields).Fit room :=
  ⟨Codec.fits_option fits, fun _ same => Option.some.inj same ▸ Nat.zero_le _, rest⟩

end Fit

theorem Taken.depth_le {values : ρ} (taken : fields.Taken room values) (fit : fields.Fit room) :
    ∀ member ∈ fields.members values, member.2.depth ≤ room := by
  induction fields with
  | nil => exact nofun
  | cons field rest ih =>
      obtain ⟨value, values⟩ := values
      obtain ⟨first, others⟩ := taken
      obtain ⟨fits, fallback, more⟩ := fit
      have here : (field.codec.write value).depth ≤ room := by
        rcases first with ⟨node, read⟩ | default
        · exact fits node value read
        · exact fallback value default
      intro member present
      rw [members] at present
      split at present
      · exact ih others more member present
      · rcases List.mem_cons.1 present with rfl | there
        · exact here
        · exact ih others more member there

/-- A record fits in one container more than its fields. -/
theorem Fit.fits_codec {record : String} {toValues : α → ρ} {ofValues : ρ → α}
    (fit : fields.Fit room) (inverse : ∀ values, toValues (ofValues values) = values) :
    (fields.codec record toValues ofValues).Fits (room + 1) := by
  intro node value read
  simp only [codec] at read ⊢
  cases found : fields.read record (room + 1) node with
  | error problem =>
      rw [found] at read
      cases read
  | ok values =>
      rw [found] at read
      cases read
      rw [inverse]
      exact Nat.succ_le_succ (membersDepth_le ((taken_of_read found).depth_le fit))

end Fields

end Json

/-! ## Values and maps that are passed through -/

open Json

namespace CanonicalJson

theorem faithful_codec : codec.Faithful := by
  intro value room fits
  have found := toJson?_ofJson value.canonical fits
  simp only [codec]
  split
  · rename_i json same
    rw [found, Option.some.injEq] at same
    subst same
    rfl
  · rename_i impossible
    rw [found] at impossible
    cases impossible

theorem toJson?_of_read {room : Nat} {node : Node} {value : CanonicalJson}
    (read : codec.read room node = .ok value) : node.toJson? room = some value.json := by
  simp only [codec] at read
  split at read
  · rename_i json found
    cases read
    exact found
  · cases read

theorem fits_codec (room : Nat) : codec.Fits room := fun _ _ read =>
  depth_le_of_toJson? (toJson?_of_read read)

/-- Only `null` is read as the value null. -/
theorem json_ne_null_of_read {room : Nat} {node : Node} {value : CanonicalJson}
    (read : codec.read room node = .ok value) (given : node ≠ .null) : value.json ≠ .null := by
  intro null
  have found := toJson?_of_read read
  rw [null] at found
  cases node with
  | null => exact given rfl
  | broken | bool => cases found
  | number | string =>
      obtain ⟨held, -, impossible⟩ := Option.map_eq_some_iff.1 found
      cases impossible
  | array items closed | object members closed =>
      cases room with
      | zero => cases found
      | succ inner =>
          simp only [Node.toJson?] at found
          split at found
          · obtain ⟨held, -, impossible⟩ := Option.map_eq_some_iff.1 found
            cases impossible
          · cases found

end CanonicalJson

theorem Meta.fits_codec (room : Nat) : codec.Fits room := by
  intro node entries read
  cases node with
  | object members closed =>
      simp only [codec] at read
      split at read
      · rename_i found
        cases read
        exact depth_le_of_toJson? found
      · cases read
  | broken | null | bool | number | string | array => cases read

end Workbench
