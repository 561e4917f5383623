/-
# Objects that were read and are written again

Metadata is put into rows as text, and some of it cannot be read again: it may be nested too
deeply. What was read once is not, and no number in it is too large for a double when its text
is read. So metadata that was read, written and read again and again changes at most in the last
bits of its numbers, and an object that was read from a row can always be read after an edit
that leaves its metadata alone.
-/

import Workbench.Proofs.Json.Reread
import Workbench.Proofs.Json.Roundtrip
import Workbench.Proofs.Object.Stored

namespace Workbench

open Json

namespace Meta

/-- Metadata that is not nested too deeply can be read from its text. -/
theorem exists_reread {entries : Meta} (fits : (Json.obj entries.members).depth ≤ room) :
    ∃ read, entries.reread = .ok read := by
  obtain ⟨value, found⟩ := exists_toJson?_ofPrinted (.obj entries.members) fits
  obtain ⟨members, rfl⟩ : ∃ members, value = .obj members := by
    rw [Node.ofPrinted, room, Node.nestingLimit, Node.toJson?, if_pos rfl] at found
    obtain ⟨members, -, same⟩ := Option.map_eq_some_iff.1 found
    exact ⟨_, same.symm⟩
  rw [Node.ofPrinted] at found
  simp only [reread, codec, Node.ofPrinted]
  split
  · exact ⟨_, rfl⟩
  · rename_i other
    exact absurd found (other members)

/-- What was read can be read again. -/
theorem exists_reread_of_reread {entries read : Meta} (once : entries.reread = .ok read) :
    ∃ again, read.reread = .ok again :=
  exists_reread (fits_codec room _ _ once)

end Meta

namespace Kind

/-- An object that was read from a row can be read from a row again, and so can any other object
with its metadata. -/
theorem exists_ofRow_toRow (kind : Kind) {stored read edited : kind.Object}
    (decoded : kind.ofRow (kind.toRow stored) = .ok read)
    (kept : kind.metadata edited = kind.metadata read) :
    ∃ metadata,
      kind.ofRow (kind.toRow edited) = .ok (kind.withMetadata edited metadata) := by
  obtain ⟨once, reread, rfl⟩ := (kind.ofRow_toRow_eq_ok_iff stored read).1 decoded
  rw [metadata_withMetadata] at kept
  obtain ⟨again, more⟩ := Meta.exists_reread_of_reread reread
  exact ⟨again, (kind.ofRow_toRow_eq_ok_iff edited _).2 ⟨again, kept ▸ more, rfl⟩⟩

end Kind

end Workbench
