/-
# The walk over the tokens of a value

A value is read by one walk over its tokens. The walk does the same wherever the value
stands: inside open containers it goes through the same places, with these containers around
them, and puts the value where it was awaited. Conversely, where a member of an object is
read to its end, its value was.

A walk that ends with a whole value met no broken token, and only such a walk ends with a
complete node and nothing behind it.
-/

import Workbench.Proofs.Json.Text

namespace Workbench.Json.Node

/-! ## Walks inside of containers -/

/-- The same progress inside further containers. -/
def Progress.inside (outer : List Open) : Progress → Progress
  | .within inner => .within (inner ++ outer)
  | .done node => give node outer
  | .stopped node trailing => .stopped (outer.foldl Open.leave node) trailing

theorem abandon_append (inner outer : List Open) :
    abandon (inner ++ outer) = outer.foldl Open.leave (abandon inner) :=
  List.foldl_append

variable {outer : List Open}

theorem give_inside (node : Node) (inner : List Open) :
    give node (inner ++ outer) = (give node inner).inside outer := by
  match inner with
  | [] => rfl
  | .array items place :: rest => rfl
  | .object members (.afterColon key) :: rest => rfl
  | .object members .start :: rest
  | .object members (.afterKey key) :: rest
  | .object members .afterMember :: rest
  | .object members .afterComma :: rest =>
      exact congrArg (Progress.stopped · false) (abandon_append (.object members _ :: rest) outer)

theorem startValue_inside (inner : List Open) (token : Token) :
    startValue (inner ++ outer) token = (startValue inner token).inside outer := by
  cases token
  case null | bool | number | string => exact give_inside _ inner
  case openBracket | openBrace => rfl
  all_goals exact congrArg (Progress.stopped · false) (abandon_append inner outer)

theorem startValue_closeBracket (containers : List Open) :
    startValue containers .closeBracket = .stopped (abandon containers) false := rfl

theorem startKey_inside (members : List (Option String × Node)) (inner : List Open)
    (token : Token) :
    startKey members (inner ++ outer) token = (startKey members inner token).inside outer := by
  cases token
  case string => rfl
  all_goals
    exact congrArg (Progress.stopped · false)
      (abandon_append (.object members .afterComma :: inner) outer)

/-- One token is read inside further containers as it is read without them. Only where the
value itself has not begun yet, a closing bracket could end the array around it. -/
theorem advance_inside (awaits : AwaitsValue outer) {inner : List Open} {token : Token}
    (begins : inner = [] → token ≠ .closeBracket) :
    advance (.within (inner ++ outer)) token = (advance (.within inner) token).inside outer := by
  match inner with
  | [] => exact (advance_of_awaitsValue awaits (begins rfl)).trans (startValue_inside [] token)
  | .array items .start :: rest =>
      simp only [List.cons_append, advance]
      split_ifs
      · exact give_inside _ rest
      · exact startValue_inside (.array items .start :: rest) token
  | .array items .afterItem :: rest =>
      simp only [List.cons_append, advance]
      split_ifs
      · rfl
      · exact give_inside _ rest
      · exact congrArg (Progress.stopped · false) (abandon_append (_ :: rest) outer)
  | .array items .afterComma :: rest => exact startValue_inside (_ :: rest) token
  | .object members .start :: rest =>
      simp only [List.cons_append, advance]
      split_ifs
      · exact give_inside _ rest
      · exact startKey_inside members rest token
  | .object members (.afterKey key) :: rest =>
      simp only [List.cons_append, advance]
      split_ifs
      · rfl
      · exact congrArg (Progress.stopped · false) (abandon_append (_ :: rest) outer)
  | .object members (.afterColon key) :: rest => exact startValue_inside (_ :: rest) token
  | .object members .afterMember :: rest =>
      simp only [List.cons_append, advance]
      split_ifs
      · rfl
      · exact give_inside _ rest
      · exact congrArg (Progress.stopped · false) (abandon_append (_ :: rest) outer)
  | .object members .afterComma :: rest => exact startKey_inside members rest token

/-! ## Whole walks -/

theorem foldl_stopped (tokens : List Token) (node : Node) (trailing : Bool) :
    tokens.foldl advance (.stopped node trailing) = .stopped node trailing := by
  induction tokens with
  | nil => rfl
  | cons token rest ih => exact ih

/-- Nothing follows a value that is done. -/
theorem eq_nil_of_foldl_done {tokens : List Token} {node final : Node}
    (walk : tokens.foldl advance (.done node) = .done final) : tokens = [] ∧ node = final := by
  cases tokens with
  | nil =>
      cases walk
      exact ⟨rfl, rfl⟩
  | cons token rest =>
      rw [List.foldl_cons, advance, foldl_stopped] at walk
      cases walk

/-- A broken token ends every walk. -/
theorem exists_stopped_of_junk (progress : Progress) :
    ∃ node trailing, advance progress .junk = .stopped node trailing := by
  match progress with
  | .stopped node trailing => exact ⟨_, _, rfl⟩
  | .done node => exact ⟨_, _, rfl⟩
  | .within [] => exact ⟨_, _, rfl⟩
  | .within (.array items .start :: outer)
  | .within (.array items .afterItem :: outer)
  | .within (.array items .afterComma :: outer) => exact ⟨_, _, rfl⟩
  | .within (.object members .start :: outer)
  | .within (.object members (.afterKey key) :: outer)
  | .within (.object members (.afterColon key) :: outer)
  | .within (.object members .afterMember :: outer)
  | .within (.object members .afterComma :: outer) => exact ⟨_, _, rfl⟩

theorem junk_notMem_of_foldl {tokens : List Token} {progress : Progress} {node : Node}
    (walk : tokens.foldl advance progress = .done node) : .junk ∉ tokens := by
  induction tokens generalizing progress with
  | nil => exact List.not_mem_nil
  | cons token rest ih =>
      rw [List.foldl_cons] at walk
      intro broken
      rcases List.mem_cons.1 broken with rfl | later
      · obtain ⟨stopped, trailing, same⟩ := exists_stopped_of_junk progress
        rw [same, foldl_stopped] at walk
        cases walk
      · exact ih walk later

/-- The walk over a value goes through inside containers that await one, and gives them the
value. -/
theorem foldl_inside (awaits : AwaitsValue outer) {tokens : List Token} {inner : List Open}
    {node : Node} (walk : tokens.foldl advance (.within inner) = .done node) :
    tokens.foldl advance (.within (inner ++ outer)) = give node outer := by
  induction tokens generalizing inner with
  | nil => cases walk
  | cons token rest ih =>
      rw [List.foldl_cons] at walk ⊢
      -- A walk that begins with a closing bracket stops, and this one is done.
      have begins : inner = [] → token ≠ .closeBracket := by
        rintro rfl rfl
        rw [advance, startValue_closeBracket, foldl_stopped] at walk
        cases walk
      rw [advance_inside awaits begins]
      cases step : advance (.within inner) token with
      | within next =>
          rw [step] at walk
          exact ih walk
      | done found =>
          rw [step] at walk
          obtain ⟨rfl, rfl⟩ := eq_nil_of_foldl_done walk
          rfl
      | stopped found trailing =>
          rw [step, foldl_stopped] at walk
          cases walk

/-- Where a member is read and the walk goes on to its end, its value is read to its end
first. -/
theorem exists_value_of_foldl {members : List (Option String × Node)} {key : Option String}
    {tokens : List Token} {inner : List Open} {final : Node}
    (walk : tokens.foldl advance (.within (inner ++ .object members (.afterColon key) :: outer)) =
      .done final) :
    ∃ first second node, tokens = first ++ second ∧
      first.foldl advance (.within inner) = .done node ∧
      second.foldl advance (.within (.object ((key, node) :: members) .afterMember :: outer)) =
        .done final := by
  induction tokens generalizing inner with
  | nil => cases walk
  | cons token rest ih =>
      rw [List.foldl_cons] at walk
      have begins : inner = [] → token ≠ .closeBracket := by
        rintro rfl rfl
        rw [List.nil_append, advance, startValue_closeBracket, foldl_stopped] at walk
        cases walk
      have awaits : AwaitsValue (.object members (.afterColon key) :: outer) := trivial
      rw [advance_inside awaits begins] at walk
      cases step : advance (.within inner) token with
      | within next =>
          rw [step] at walk
          obtain ⟨first, second, node, rfl, value, later⟩ := ih walk
          exact ⟨token :: first, second, node, rfl, by rw [List.foldl_cons, step, value], later⟩
      | done node =>
          rw [step] at walk
          exact ⟨[token], rest, node, rfl, step, walk⟩
      | stopped found trailing =>
          rw [step, Progress.inside, foldl_stopped] at walk
          cases walk

/-! ## Complete values -/

/-- A value that is done is complete, and so is one that something follows; a value in which
the walk stopped is not. -/
def Progress.Sound : Progress → Prop
  | .within _ => True
  | .done node => node.complete = true
  | .stopped node trailing => node.complete = trailing

theorem complete_foldl_leave (containers : List Open) {node : Node}
    (incomplete : node.complete = false) :
    (containers.foldl Open.leave node).complete = false := by
  induction containers generalizing node with
  | nil => exact incomplete
  | cons first rest ih =>
      refine ih ?_
      match first with
      | .array items place => rfl
      | .object members .start | .object members (.afterKey key)
      | .object members (.afterColon key) | .object members .afterMember
      | .object members .afterComma => rfl

theorem complete_abandon (containers : List Open) : (abandon containers).complete = false :=
  complete_foldl_leave containers rfl

theorem sound_give {node : Node} (complete : node.complete = true) (containers : List Open) :
    (give node containers).Sound := by
  match containers with
  | [] => exact complete
  | .array items place :: rest => trivial
  | .object members (.afterColon key) :: rest => trivial
  | .object members .start :: rest
  | .object members (.afterKey key) :: rest
  | .object members .afterMember :: rest
  | .object members .afterComma :: rest => exact complete_abandon _

theorem sound_startValue (containers : List Open) (token : Token) :
    (startValue containers token).Sound := by
  cases token
  case null | bool | number | string => exact sound_give rfl containers
  case openBracket | openBrace => trivial
  all_goals exact complete_abandon containers

theorem sound_startKey (members : List (Option String × Node)) (containers : List Open)
    (token : Token) : (startKey members containers token).Sound := by
  cases token
  case string => trivial
  all_goals exact complete_abandon _

theorem Progress.Sound.advance {progress : Progress} (sound : progress.Sound) (token : Token) :
    (advance progress token).Sound := by
  match progress with
  | .stopped node trailing => exact sound
  | .done node => exact sound
  | .within [] => exact sound_startValue [] token
  | .within (.array items .afterComma :: outer) => exact sound_startValue (_ :: outer) token
  | .within (.object members (.afterColon key) :: outer) =>
      exact sound_startValue (_ :: outer) token
  | .within (.object members .afterComma :: outer) => exact sound_startKey members outer token
  | .within (.array items .start :: outer) =>
      rw [Node.advance]
      split_ifs
      · exact sound_give rfl outer
      · exact sound_startValue (_ :: outer) token
  | .within (.object members .start :: outer) =>
      rw [Node.advance]
      split_ifs
      · exact sound_give rfl outer
      · exact sound_startKey members outer token
  | .within (.object members (.afterKey key) :: outer) =>
      rw [Node.advance]
      split_ifs
      · trivial
      · exact complete_abandon _
  | .within (.array items .afterItem :: outer)
  | .within (.object members .afterMember :: outer) =>
      rw [Node.advance]
      split_ifs
      · trivial
      · exact sound_give rfl outer
      · exact complete_abandon _

theorem Progress.Sound.foldl {progress : Progress} (sound : progress.Sound)
    (tokens : List Token) : (tokens.foldl Node.advance progress).Sound := by
  induction tokens generalizing progress with
  | nil => exact sound
  | cons token rest ih => exact ih (sound.advance token)

/-- Tokens spell one complete value and nothing behind it exactly if the walk over them is
done with that value. -/
theorem foldl_eq_done_iff {tokens : List Token} {node : Node} :
    tokens.foldl advance (.within []) = .done node ↔
      ofTokens tokens = (node, false) ∧ node.complete = true := by
  have start : (Progress.within []).Sound := trivial
  have sound := start.foldl tokens
  rw [ofTokens]
  cases walk : tokens.foldl advance (.within []) with
  | within containers =>
      constructor
      · intro impossible
        cases impossible
      · rintro ⟨same, complete⟩
        cases same
        rw [complete_abandon] at complete
        cases complete
  | done found =>
      rw [walk] at sound
      constructor
      · intro same
        cases same
        exact ⟨rfl, sound⟩
      · rintro ⟨same, -⟩
        cases same
        rfl
  | stopped found trailing =>
      rw [walk] at sound
      constructor
      · intro impossible
        cases impossible
      · rintro ⟨same, complete⟩
        cases same
        rw [Progress.Sound, complete] at sound
        cases sound

end Workbench.Json.Node
