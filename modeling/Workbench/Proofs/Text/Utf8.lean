/-
# Reading what was written

The bytes of a text are read as that text. Bytes that spell none are read as some text all the
same, so reading can be undone only where nothing was replaced.

What a reader of paths needs holds for all bytes. A byte below 0x80 is a character by itself
wherever it stands, and no character below 0x80 comes from anything else. So a mark among these
characters cuts the bytes where it cuts the text.
-/

import Mathlib.Tactic.SplitIfs
import Workbench.Text.Utf8

namespace Workbench.Text

/-! ## One character -/

section Reading

variable {byte : UInt8} {bytes rest : List UInt8} {value n : Nat} {bounds : List (Nat × Nat)}

theorem charsOfUtf8_nil : charsOfUtf8 [] = [] := by
  rw [charsOfUtf8]

/-- A byte that begins no character is replaced. -/
theorem charsOfUtf8_of_not_leading (begins : leading? byte.toNat = none) :
    charsOfUtf8 (byte :: bytes) = replacement :: charsOfUtf8 bytes := by
  rw [charsOfUtf8, begins]

theorem charsOfUtf8_of_leading (begins : leading? byte.toNat = some (value, bounds)) :
    charsOfUtf8 (byte :: bytes) =
      ((following value bounds bytes).1.map Char.ofNat).getD replacement ::
        charsOfUtf8 (following value bounds bytes).2 := by
  rw [charsOfUtf8, begins]

theorem charsOfUtf8_of_ascii (ascii : byte.toNat < 0x80) :
    charsOfUtf8 (byte :: bytes) = Char.ofNat byte.toNat :: charsOfUtf8 bytes :=
  charsOfUtf8_of_leading (if_pos ascii)

theorem following_nil_eq_some : following value [] bytes = (some n, rest) ↔
    value = n ∧ bytes = rest := by
  rw [following, Prod.mk.injEq, Option.some.injEq]

/-- Another byte of a character was read if there is one within its bounds. -/
theorem following_cons_eq_some {low high : Nat} :
    following value ((low, high) :: bounds) bytes = (some n, rest) ↔
      ∃ byte later, bytes = byte :: later ∧ (low ≤ byte.toNat ∧ byte.toNat ≤ high) ∧
        following (value * 64 + (byte.toNat - 0x80)) bounds later = (some n, rest) := by
  cases bytes with
  | nil => simp [following]
  | cons first others =>
      rw [following]
      constructor
      · intro read
        split at read
        · rename_i within
          exact ⟨first, others, rfl, within, read⟩
        · cases read
      · rintro ⟨byte, later, same, within, read⟩
        cases same
        rwa [if_pos within]

/-- What is read is a code point of a character. Only a byte below 0x80 is one of those below 0x80,
and it is read alone. -/
theorem valid_of_following (begins : leading? byte.toNat = some (value, bounds))
    (read : following value bounds bytes = (some n, rest)) :
    n.isValidChar ∧ (n < 0x80 → n = byte.toNat ∧ bytes = rest) := by
  unfold leading? continuation at begins
  unfold Nat.isValidChar
  -- One case for each way to begin a character, by the number of bytes that follow.
  split_ifs at begins
  all_goals
    simp only [Option.some.injEq, Prod.mk.injEq] at begins
    obtain ⟨rfl, rfl⟩ := begins
    simp only [following_cons_eq_some, following_nil_eq_some] at read
  · obtain ⟨rfl, rfl⟩ := read
    exact ⟨by omega, fun _ => ⟨rfl, rfl⟩⟩
  · obtain ⟨b1, r1, rfl, w1, rfl, rfl⟩ := read
    omega
  · obtain ⟨b1, r1, rfl, w1, b2, r2, rfl, w2, rfl, rfl⟩ := read
    omega
  · obtain ⟨b1, r1, rfl, w1, b2, r2, rfl, w2, rfl, rfl⟩ := read
    omega
  · obtain ⟨b1, r1, rfl, w1, b2, r2, rfl, w2, rfl, rfl⟩ := read
    omega
  · obtain ⟨b1, r1, rfl, w1, b2, r2, rfl, w2, b3, r3, rfl, w3, rfl, rfl⟩ := read
    omega
  · obtain ⟨b1, r1, rfl, w1, b2, r2, rfl, w2, b3, r3, rfl, w3, rfl, rfl⟩ := read
    omega
  · obtain ⟨b1, r1, rfl, w1, b2, r2, rfl, w2, b3, r3, rfl, w3, rfl, rfl⟩ := read
    omega

/-- The bytes that were not used are left. -/
theorem following_suffix (value : Nat) (bounds : List (Nat × Nat)) (bytes : List UInt8) :
    (following value bounds bytes).2 <:+ bytes := by
  fun_induction following value bounds bytes with
  | case1 => exact List.suffix_rfl
  | case2 => exact List.suffix_rfl
  | case3 value low high bounds byte bytes _ ih => exact ih.trans (List.suffix_cons byte bytes)
  | case4 => exact List.suffix_rfl

/-- Reading goes from character to character. One below 0x80 is a byte of the same number. -/
theorem exists_charsOfUtf8_cons (byte : UInt8) (bytes : List UInt8) :
    ∃ c rest, charsOfUtf8 (byte :: bytes) = c :: charsOfUtf8 rest ∧ rest <:+ bytes ∧
      (c.toNat < 0x80 → c.toNat = byte.toNat ∧ bytes = rest) := by
  have replaced : ∀ rest : List UInt8, replacement.toNat < 0x80 →
      replacement.toNat = byte.toNat ∧ bytes = rest := fun _ small => absurd small (by decide)
  cases begins : leading? byte.toNat with
  | none =>
      exact ⟨replacement, bytes, charsOfUtf8_of_not_leading begins, List.suffix_rfl, replaced bytes⟩
  | some found =>
      obtain ⟨value, bounds⟩ := found
      have read : charsOfUtf8 (byte :: bytes) = _ := charsOfUtf8_of_leading begins
      refine ⟨_, _, read, following_suffix value bounds bytes, ?_⟩
      rcases followed : following value bounds bytes with ⟨_ | n, rest⟩
      · exact replaced rest
      · obtain ⟨valid, alone⟩ := valid_of_following begins followed
        have same : (Char.ofNat n).toNat = n := by
          rw [Char.ofNat, dif_pos valid]
          rfl
        simpa [same] using alone

end Reading

/-! ## Marks below 0x80 -/

section Mark

variable {mark : UInt8}

/-- No byte below 0x80 goes on with a character. -/
theorem le_low_of_leading {byte value : Nat} {bounds : List (Nat × Nat)}
    (begins : leading? byte = some (value, bounds)) : ∀ bound ∈ bounds, 0x80 ≤ bound.1 := by
  unfold leading? continuation at begins
  split_ifs at begins
  all_goals
    simp only [Option.some.injEq, Prod.mk.injEq] at begins
    obtain ⟨rfl, rfl⟩ := begins
    simp

theorem following_append_mark (ascii : mark.toNat < 0x80) (value : Nat)
    {bounds : List (Nat × Nat)} (high : ∀ bound ∈ bounds, 0x80 ≤ bound.1)
    (front back : List UInt8) :
    following value bounds (front ++ mark :: back) =
      ((following value bounds front).1, (following value bounds front).2 ++ mark :: back) := by
  fun_induction following value bounds front with
  | case1 value bytes => rw [following]
  | case2 value bound bounds =>
      have outside : ¬ (bound.1 ≤ mark.toNat ∧ mark.toNat ≤ bound.2) := by
        have least := high bound List.mem_cons_self
        omega
      rw [List.nil_append, following, if_neg outside]
  | case3 value low greatest bounds byte bytes within ih =>
      rw [List.cons_append, following, if_pos within]
      exact ih fun bound there => high bound (List.mem_cons_of_mem _ there)
  | case4 value low greatest bounds byte bytes outside =>
      rw [List.cons_append, following, if_neg outside]

/-- A byte below 0x80 is read by itself, and what stands before it is read as if it ended there. -/
theorem charsOfUtf8_append_mark (ascii : mark.toNat < 0x80) (front back : List UInt8) :
    charsOfUtf8 (front ++ mark :: back) =
      charsOfUtf8 front ++ Char.ofNat mark.toNat :: charsOfUtf8 back := by
  fun_induction charsOfUtf8 front with
  | case1 => exact charsOfUtf8_of_ascii ascii
  | case2 byte bytes begins ih =>
      rw [List.cons_append, charsOfUtf8_of_not_leading begins, ih, List.cons_append]
  | case3 byte bytes value bounds begins _ read ih =>
      rw [List.cons_append, charsOfUtf8_of_leading begins,
        following_append_mark ascii value (le_low_of_leading begins), ih, List.cons_append]

/-- A character below 0x80 is read only where its byte stands. -/
theorem exists_mem_of_mem_charsOfUtf8 {bytes : List UInt8} {c : Char}
    (present : c ∈ charsOfUtf8 bytes) (ascii : c.toNat < 0x80) :
    ∃ byte ∈ bytes, byte.toNat = c.toNat := by
  induction length : bytes.length using Nat.strongRecOn generalizing bytes with
  | _ size ih =>
      cases bytes with
      | nil =>
          rw [charsOfUtf8_nil] at present
          cases present
      | cons byte bytes =>
          obtain ⟨first, rest, read, suffix, alone⟩ := exists_charsOfUtf8_cons byte bytes
          rw [read] at present
          rcases List.mem_cons.1 present with rfl | later
          · exact ⟨byte, List.mem_cons_self, (alone ascii).1.symm⟩
          · have shorter := suffix.length_le
            rw [List.length_cons] at length
            obtain ⟨found, there, same⟩ := ih rest.length (by omega) later rfl
            exact ⟨found, List.mem_cons_of_mem _ (suffix.subset there), same⟩

end Mark

theorem charsOfUtf8_eq_nil_iff {bytes : List UInt8} : charsOfUtf8 bytes = [] ↔ bytes = [] := by
  cases bytes with
  | nil => simp [charsOfUtf8_nil]
  | cons byte bytes =>
      obtain ⟨first, rest, read, -⟩ := exists_charsOfUtf8_cons byte bytes
      simp [read]

/-- A single character below 0x80 is read only from its byte. -/
theorem charsOfUtf8_eq_singleton_iff {bytes : List UInt8} {c : Char} (ascii : c.toNat < 0x80) :
    charsOfUtf8 bytes = [c] ↔ bytes = [UInt8.ofNat c.toNat] := by
  have number : (UInt8.ofNat c.toNat).toNat = c.toNat :=
    UInt8.toNat_ofNat_of_lt' (Nat.lt_trans ascii (by decide))
  constructor
  · intro spelled
    cases bytes with
    | nil =>
        rw [charsOfUtf8_nil] at spelled
        cases spelled
    | cons byte bytes =>
        obtain ⟨first, rest, read, -, alone⟩ := exists_charsOfUtf8_cons byte bytes
        rw [read, List.cons.injEq, charsOfUtf8_eq_nil_iff] at spelled
        obtain ⟨rfl, rfl⟩ := spelled
        obtain ⟨same, rfl⟩ := alone ascii
        rw [same, UInt8.ofNat_toNat]
  · rintro rfl
    rw [← number] at ascii
    rw [charsOfUtf8_of_ascii ascii, charsOfUtf8_nil, number, Char.ofNat_toNat]

/-! ## Texts -/

theorem utf8OfChars_append (first second : List Char) :
    utf8OfChars (first ++ second) = utf8OfChars first ++ utf8OfChars second :=
  List.flatMap_append

/-- A byte that goes on with a character is read with six bits more. -/
theorem following_cons_of_within {value low high n : Nat} {bounds : List (Nat × Nat)}
    {bytes : List UInt8} (small : n < 0x100) (within : low ≤ n ∧ n ≤ high) :
    following value ((low, high) :: bounds) (UInt8.ofNat n :: bytes) =
      following (value * 64 + (n - 0x80)) bounds bytes := by
  rw [following, UInt8.toNat_ofNat_of_lt' small, if_pos within]

/-- What begins and goes on as the bytes of a character do is read as the character. -/
theorem charsOfUtf8_eq_cons {c : Char} {n value : Nat} {bounds : List (Nat × Nat)}
    {bytes rest : List UInt8} (small : n < 0x100) (begins : leading? n = some (value, bounds))
    (read : following value bounds bytes = (some c.toNat, rest)) :
    charsOfUtf8 (UInt8.ofNat n :: bytes) = c :: charsOfUtf8 rest := by
  rw [← UInt8.toNat_ofNat_of_lt' small] at begins
  rw [charsOfUtf8_of_leading begins, read]
  exact congrArg (· :: charsOfUtf8 rest) (Char.ofNat_toNat c)

/-! The first byte of a character that is not alone, by the number of bytes that follow. -/

theorem leading?_two {share : Nat} (least : 2 ≤ share) (less : share < 32) :
    leading? (share + 0xC0) = some (share, [continuation]) := by
  rw [leading?, if_neg (by omega), if_neg (by omega), if_pos (by omega), Nat.add_sub_cancel]

theorem leading?_three : ∀ share < 16, leading? (share + 0xE0) =
    some (share, [(if share = 0 then 0xA0 else 0x80, if share = 0xD then 0x9F else 0xBF),
      continuation]) := by
  decide

theorem leading?_four : ∀ share < 5, leading? (share + 0xF0) =
    some (share, [(if share = 0 then 0x90 else 0x80, if share = 4 then 0x8F else 0xBF),
      continuation, continuation]) := by
  decide

/-- The bytes of a character are read as the character. -/
theorem charsOfUtf8_encode_append (c : Char) (rest : List UInt8) :
    charsOfUtf8 (String.utf8EncodeChar c ++ rest) = c :: charsOfUtf8 rest := by
  have valid : c.toNat < 0xD800 ∨ 0xDFFF < c.toNat ∧ c.toNat < 0x110000 := c.valid
  simp only [String.utf8EncodeChar, Char.toNat_val]
  split_ifs with one two three
  all_goals simp only [List.cons_append, List.nil_append]
  · exact charsOfUtf8_eq_cons (by omega) (if_pos (by omega)) rfl
  · refine charsOfUtf8_eq_cons (by omega) (leading?_two (by omega) (by omega)) ?_
    rw [continuation, following_cons_of_within (by omega) (by omega)]
    exact following_nil_eq_some.2 ⟨by omega, rfl⟩
  · refine charsOfUtf8_eq_cons (by omega) (leading?_three _ (by omega)) ?_
    rw [continuation, following_cons_of_within (by omega) (by split_ifs <;> omega),
      following_cons_of_within (by omega) (by omega)]
    exact following_nil_eq_some.2 ⟨by omega, rfl⟩
  · refine charsOfUtf8_eq_cons (by omega) (leading?_four _ (by omega)) ?_
    rw [continuation, following_cons_of_within (by omega) (by split_ifs <;> omega),
      following_cons_of_within (by omega) (by omega),
      following_cons_of_within (by omega) (by omega)]
    exact following_nil_eq_some.2 ⟨by omega, rfl⟩

theorem charsOfUtf8_utf8OfChars_append (text : List Char) (rest : List UInt8) :
    charsOfUtf8 (utf8OfChars text ++ rest) = text ++ charsOfUtf8 rest := by
  induction text with
  | nil => rfl
  | cons c text ih =>
      rw [utf8OfChars, List.flatMap_cons, List.append_assoc, charsOfUtf8_encode_append]
      exact congrArg (c :: ·) ih

theorem charsOfUtf8_utf8OfChars (text : List Char) : charsOfUtf8 (utf8OfChars text) = text := by
  have read := charsOfUtf8_utf8OfChars_append text []
  rwa [List.append_nil, charsOfUtf8_nil, List.append_nil] at read

/-- The bytes of a text are read as the text. -/
@[simp]
theorem ofUtf8_utf8 (text : String) : ofUtf8 (utf8 text) = text := by
  rw [ofUtf8, utf8, charsOfUtf8_utf8OfChars, String.ofList_toList]

end Workbench.Text
