/-
# First launches that race

Several first launches may be under way in one store. Whoever comes late in creating the client
takes the client of the other, so there is one client. But each launch that finds the client
without windows makes a window, also if another launch is about to list one. So in the end the
client lists one window for each launch that found it without windows: at least one window, and
perhaps as many as there are launches.

Every launch answers after twelve moves at the latest. The windows that it answers with are
listed from then on.
-/

import Mathlib.Algebra.BigOperators.Group.Finset.Piecewise
import Mathlib.Algebra.Order.BigOperators.Group.Finset
import Workbench.Proofs.Request.LaunchMoves

namespace Workbench

open LaunchStage

namespace Crowd

variable {count : Nat} {α : Type}

/-- Whether a move finds the client without windows. -/
def findsNoWindow (crowd : Crowd count α) (move : Move count) : Bool :=
  match (crowd.members move.member).rest with
  | .done _ => false
  | .step effect _ =>
      effect.findsNoWindow
        (effect.perform move.tick (crowd.members move.member).context crowd.world).answer

/-- How many moves find the client without windows. -/
def finds (crowd : Crowd count α) : List (Move count) → Nat
  | [] => 0
  | move :: rest => (crowd.findsNoWindow move).toNat + (crowd.step move).finds rest

end Crowd

/-- Launches that have not done anything yet. -/
def launches {count : Nat} (contexts : Fin count → Context) (world : World) :
    Crowd count Client :=
  ⟨fun member => .start (contexts member) Request.ensureInitialData, world⟩

/-- A sum over the launches, one of which has gone on to another stage. -/
theorem LaunchStage.sum_update {count : Nat} (measure : LaunchStage → Nat)
    (stages : Fin count → LaunchStage) (member : Fin count) (next : LaunchStage) :
    ∑ other, measure (Function.update stages member next other) =
      ∑ other ∈ Finset.univ.erase member, measure (stages other) + measure next := by
  rw [← Finset.sum_erase_add _ _ (Finset.mem_univ member), Function.update_self]
  refine congrArg (· + measure next) (Finset.sum_congr rfl fun other there => ?_)
  rw [Function.update_of_ne (Finset.ne_of_mem_erase there)]

/-- No two launches need the same identifier. -/
def LaunchStage.Apart {count : Nat} (stages : Fin count → LaunchStage) : Prop :=
  ∀ member other, member ≠ other → ∀ oid, (stages member).drawn = some oid →
    (stages other).drawn ≠ some oid

/-- A launch may go on to a stage at which it needs an identifier that no other launch needs. -/
theorem LaunchStage.Apart.update {count : Nat} {stages : Fin count → LaunchStage}
    (apart : Apart stages) {mover : Fin count} {next : LaunchStage}
    (unneeded : ∀ other, other ≠ mover → ∀ oid, next.drawn = some oid →
      (stages other).drawn ≠ some oid) : Apart (Function.update stages mover next) := by
  intro member other different oid needs
  by_cases first : member = mover
  · subst first
    rw [Function.update_self] at needs
    rw [Function.update_of_ne different.symm]
    exact unneeded other different.symm oid needs
  · rw [Function.update_of_ne first] at needs
    by_cases second : other = mover
    · subst second
      rw [Function.update_self]
      exact fun same => unneeded member first oid same needs
    · rw [Function.update_of_ne second]
      exact apart member other different oid needs

/-! ## The race -/

/-- Each launch is at a stage, and what its stage relies on holds. Identifiers that are needed by
a launch are needed by no other, and those that are still to be drawn are not in use. The client,
if it is there, lists one window for each launch that listed one. -/
structure LaunchesRace {count : Nat} (contexts : Fin count → Context)
    (stages : Fin count → LaunchStage) (fresh : List String) (crowd : Crowd count Client) :
    Prop where
  holds : crowd.world.table.HoldsObjects
  rests : ∀ member, (crowd.members member).rest = (stages member).request.run
  deadlines : ∀ member, (crowd.members member).context.deadline = (contexts member).deadline
  sound : ∀ member, (stages member).Sound crowd.world.table
  apart : Apart stages
  distinct : fresh.Nodup
  unused : ∀ oid ∈ fresh, ¬ crowd.world.table.Has oid ∧ ¬ crowd.world.table.Lists oid ∧
    ∀ member, (stages member).drawn ≠ some oid
  stands : crowd.world.table.ClientStands (∑ member, (stages member).listed)

namespace LaunchesRace

variable {count : Nat} {contexts : Fin count → Context} {stages : Fin count → LaunchStage}
  {fresh : List String} {crowd : Crowd count Client} {move : Move count}

/-- Identifiers that are not drawn in the end do no harm. -/
theorem skip {oid : String} (race : LaunchesRace contexts stages (oid :: fresh) crowd) :
    LaunchesRace contexts stages fresh crowd :=
  { race with
    distinct := (List.nodup_cons.1 race.distinct).2
    unused := fun other later => race.unused other (List.mem_cons_of_mem oid later) }

/-- One move of a launch that has not answered. -/
theorem advances (race : LaunchesRace contexts stages (move.tick.freshOid :: fresh) crowd)
    {effect : Effect} {next : effect.Answer → LaunchStage}
    (goes : (stages move.member).step? = some ⟨effect, next⟩)
    (unhindered : move.tick.moment.Unhindered (contexts move.member)) :
    ∃ stage,
      LaunchesRace contexts (Function.update stages move.member stage) fresh (crowd.step move) ∧
      stage.left < (stages move.member).left ∧
      stage.making = (stages move.member).making + (crowd.findsNoWindow move).toNat := by
  have rest := (race.rests move.member).trans (run_request goes)
  obtain ⟨unused, unlisted, undrawn⟩ := race.unused _ List.mem_cons_self
  have advanced := advance goes race.holds (race.sound move.member) ⟨_, race.stands⟩
    (unhindered.congr (race.deadlines move.member)) unused unlisted
  have deadline := deadline_perform goes move.tick (crowd.members move.member).context crowd.world
  have holds := Effect.holdsObjects_perform move.tick (crowd.members move.member).context
    race.holds effect
  have finds : crowd.findsNoWindow move = effect.findsNoWindow
      (effect.perform move.tick (crowd.members move.member).context crowd.world).answer := by
    rw [Crowd.findsNoWindow, rest]
  rw [Crowd.step_of_step rest, finds]
  generalize effect.perform move.tick (crowd.members move.member).context crowd.world = reply
    at advanced deadline holds ⊢
  -- The identifiers that the mover needs now are the fresh one or one that it needed before.
  have unneeded : ∀ other, other ≠ move.member → ∀ oid, (next reply.answer).drawn = some oid →
      (stages other).drawn ≠ some oid := by
    intro other different oid needs
    rcases advanced.of_drawn needs with old | rfl
    · exact race.apart move.member other different.symm oid old
    · exact undrawn other
  have later := List.nodup_cons.1 race.distinct
  refine ⟨next reply.answer, ⟨holds, ?_, ?_, ?_, race.apart.update unneeded, later.2, ?_, ?_⟩,
    advanced.left, advanced.making⟩
  · intro member
    by_cases same : member = move.member
    · subst same
      simp only [Function.update_self]
    · simp only [Function.update_of_ne same]
      exact race.rests member
  · exact (Function.forall_update_iff crowd.members fun member underway =>
      underway.context.deadline = (contexts member).deadline).2
      ⟨deadline.trans (race.deadlines move.member), fun member _ => race.deadlines member⟩
  · refine (Function.forall_update_iff stages fun _ stage => stage.Sound reply.world.table).2
      ⟨advanced.sound, fun member other => ?_⟩
    exact (race.sound member).grows advanced.grows (race.apart member move.member other)
  · intro oid there
    obtain ⟨free, absent, needless⟩ := race.unused oid (List.mem_cons_of_mem _ there)
    refine ⟨fun used => ?_, fun listed => ?_,
      (Function.forall_update_iff stages fun _ stage => stage.drawn ≠ some oid).2
        ⟨fun needs => ?_, fun member _ => needless member⟩⟩
    · exact (advanced.grows.has oid used).elim free (needless move.member)
    · exact (advanced.grows.lists oid listed).elim absent (needless move.member)
    · rcases advanced.of_drawn needs with old | rfl
      · exact needless move.member old
      · exact later.1 there
  · rw [sum_update listed]
    apply advanced.client
    rw [Finset.sum_erase_add _ _ (Finset.mem_univ move.member)]
    exact race.stands

/-- One move. A launch that has answered does nothing more. -/
theorem step (race : LaunchesRace contexts stages (move.tick.freshOid :: fresh) crowd)
    (unhindered : move.tick.moment.Unhindered (contexts move.member)) :
    ∃ stage,
      LaunchesRace contexts (Function.update stages move.member stage) fresh (crowd.step move) ∧
      stage.left ≤ (stages move.member).left - 1 ∧
      stage.making = (stages move.member).making + (crowd.findsNoWindow move).toNat := by
  cases goes : (stages move.member).step? with
  | some transition =>
      obtain ⟨stage, after, fewer, making⟩ := race.advances goes unhindered
      exact ⟨stage, after, Nat.le_sub_one_of_lt fewer, making⟩
  | none =>
      obtain ⟨made, client, ended⟩ := eq_ended (race.sound move.member) goes
      have done : (crowd.members move.member).rest = .done (.ok client) := by
        rw [race.rests, ended]
        rfl
      refine ⟨stages move.member, ?_, ?_, ?_⟩
      · rw [Crowd.step_of_done done, Function.update_eq_self]
        exact race.skip
      · rw [ended]
        exact Nat.le_refl 0
      · rw [Crowd.findsNoWindow, done]
        rfl

/-- Several moves, which draw the identifiers that were fresh. -/
theorem run {moves : List (Move count)}
    (race : LaunchesRace contexts stages (moves.map (·.tick.freshOid)) crowd)
    (unhindered : ∀ move ∈ moves, move.tick.moment.Unhindered (contexts move.member)) :
    ∃ later, LaunchesRace contexts later [] (crowd.run moves) ∧
      (∀ member, (later member).left ≤ (stages member).left - moves.countP (·.member = member)) ∧
      ∑ member, (later member).making = ∑ member, (stages member).making + crowd.finds moves := by
  induction moves generalizing stages crowd with
  | nil => exact ⟨stages, race, fun _ => Nat.le_refl _, rfl⟩
  | cons move rest ih =>
      obtain ⟨stage, moved, fewer, making⟩ := race.step (unhindered move List.mem_cons_self)
      obtain ⟨later, ended, left, total⟩ :=
        ih moved fun move there => unhindered move (List.mem_cons_of_mem _ there)
      refine ⟨later, ended, fun member => ?_, ?_⟩
      · refine (left member).trans ?_
        -- Only its own moves bring a launch closer to its end.
        by_cases same : move.member = member
        · subst same
          rw [Function.update_self, List.countP_cons, if_pos (decide_eq_true rfl)]
          omega
        · rw [Function.update_of_ne (Ne.symm same), List.countP_cons,
            if_neg (mt of_decide_eq_true same), Nat.add_zero]
      · have before := Finset.sum_erase_add Finset.univ (fun member => (stages member).making)
          (Finset.mem_univ move.member)
        rw [sum_update LaunchStage.making] at total
        rw [Crowd.finds]
        omega

/-- Before anything was done. -/
theorem start {world : World} (holds : world.table.HoldsObjects) (distinct : fresh.Nodup)
    (without : world.table.ofKind Kind.client.name = [] ∨
      ∃ client, world.table.client? = some client ∧ client.windowIds = [])
    (unused : ∀ oid ∈ fresh, ¬ world.table.Has oid) :
    LaunchesRace contexts (fun _ => look) fresh (launches contexts world) where
  holds
  rests _ := rfl
  deadlines _ := rfl
  sound _ := trivial
  apart _ _ _ _ needs := by cases needs
  distinct
  unused oid there := by
    refine ⟨unused oid there, ?_, fun _ needs => by cases needs⟩
    rintro ⟨client, stored, lists⟩
    rcases without with none | ⟨bare, same, empty⟩
    · rw [launches, Table.client?, none] at stored
      cases stored
    · cases same.symm.trans stored
      rw [empty] at lists
      cases lists
  stands := by
    have unlisted : ∑ _member : Fin count, look.listed = 0 := Finset.sum_eq_zero fun _ _ => rfl
    rw [unlisted]
    rcases without with none | ⟨bare, stored, empty⟩
    · exact .inl ⟨none, rfl⟩
    · exact .inr ⟨bare, stored, empty ▸ List.nodup_nil, empty ▸ rfl⟩

section Answers

variable (race : LaunchesRace contexts stages fresh crowd) {member : Fin count}

include race

/-- A launch without moves left has answered. -/
theorem isSome_answer? (spent : (stages member).left = 0) : (crowd.answer? member).isSome := by
  obtain ⟨made, client, ended⟩ := eq_ended (race.sound member) (step?_eq_none_of_left spent)
  have done : (crowd.members member).rest = .done (.ok client) := by
    rw [race.rests, ended]
    rfl
  rw [Crowd.answer?, Underway.answer?_eq_some_iff.2 done]
  rfl

/-- A launch that has answered is at its end. -/
theorem eq_ended_of_answer? {answer : Except RequestError Client}
    (answered : crowd.answer? member = some answer) :
    ∃ made client, stages member = ended made client ∧ answer = .ok client := by
  have done := (race.rests member).symm.trans (Underway.answer?_eq_some_iff.1 answered)
  cases goes : (stages member).step? with
  | some transition =>
      rw [run_request goes] at done
      cases done
  | none =>
      obtain ⟨made, client, ended⟩ := eq_ended (race.sound member) goes
      rw [ended] at done
      cases done
      exact ⟨made, client, ended, rfl⟩

/-- What a launch answered is listed. -/
theorem listed_of_answer? {answer : Except RequestError Client}
    (answered : crowd.answer? member = some answer) :
    ∃ found client, answer = .ok found ∧ crowd.world.table.client? = some client ∧
      found.windowIds ≠ [] ∧ found.windowIds ⊆ client.windowIds := by
  obtain ⟨made, found, ended, rfl⟩ := race.eq_ended_of_answer? answered
  have sound := race.sound member
  rw [ended] at sound
  obtain ⟨some, client, stored, listed⟩ := sound
  exact ⟨found, client, rfl, stored, some, listed⟩

/-- Once all launches have answered, the client lists a window for each that found none. -/
theorem client_of_answered (answered : ∀ member, (crowd.answer? member).isSome)
    (member : Fin count) :
    ∃ client, crowd.world.table.client? = some client ∧ client.windowIds.Nodup ∧
      client.windowIds.length = ∑ member, (stages member).making ∧
      1 ≤ client.windowIds.length ∧ client.windowIds.length ≤ count := by
  have ended : ∀ member, (stages member).listed = (stages member).making ∧
      (stages member).listed ≤ 1 := by
    intro member
    obtain ⟨answer, there⟩ := Option.isSome_iff_exists.1 (answered member)
    obtain ⟨made, client, ended, -⟩ := race.eq_ended_of_answer? there
    exact listed_eq_making ended
  obtain ⟨answer, there⟩ := Option.isSome_iff_exists.1 (answered member)
  obtain ⟨found, client, -, stored, some, listed⟩ := race.listed_of_answer? there
  have nonempty : client.windowIds ≠ [] := fun none => some (List.subset_nil.1 (none ▸ listed))
  rcases race.stands with ⟨none, -⟩ | ⟨held, same, distinct, length⟩
  · rw [Table.client?, none] at stored
    cases stored
  · cases stored.symm.trans same
    refine ⟨client, stored, distinct, ?_, List.length_pos_iff.2 nonempty, ?_⟩
    · rw [length]
      exact Finset.sum_congr rfl fun member _ => (ended member).1
    · calc client.windowIds.length = ∑ member, (stages member).listed := length
        _ ≤ ∑ _member : Fin count, 1 := Finset.sum_le_sum fun member _ => (ended member).2
        _ = count := (Finset.card_eq_sum_ones _).symm.trans (Finset.card_fin count)

end Answers

end LaunchesRace

/-- When nothing stands in the way of launches that race, each answers after twelve moves at the
latest, with a client that lists a window, and what it answered with is listed from then on. Once
all have answered there is one client, and it lists as many windows as there were launches that
found it without windows. -/
theorem racing_launches_list_a_window_each_that_finds_none {count : Nat}
    (contexts : Fin count → Context) (world : World) (moves : List (Move count))
    (reached : world.table.Reached)
    (without : world.table.ofKind Kind.client.name = [] ∨
      ∃ client, world.table.client? = some client ∧ client.windowIds = [])
    (unhindered : ∀ move ∈ moves, move.tick.moment.Unhindered (contexts move.member))
    (distinct : (moves.map (·.tick.freshOid)).Nodup)
    (unused : ∀ move ∈ moves, ∀ row ∈ world.table.rows, row.oid ≠ move.tick.freshOid) :
    let start := launches contexts world
    let ended := start.run moves
    (∀ member, 12 ≤ moves.countP (·.member = member) → (ended.answer? member).isSome) ∧
    (∀ member answer, ended.answer? member = some answer →
      ∃ found client, answer = .ok found ∧ ended.world.table.client? = some client ∧
        found.windowIds ≠ [] ∧ found.windowIds ⊆ client.windowIds) ∧
    ((∀ member, (ended.answer? member).isSome) → 0 < count →
      ∃ client, ended.world.table.client? = some client ∧ client.windowIds.Nodup ∧
        client.windowIds.length = start.finds moves ∧
        1 ≤ client.windowIds.length ∧ client.windowIds.length ≤ count) := by
  intro start ended
  have free : ∀ oid ∈ moves.map (·.tick.freshOid), ¬ world.table.Has oid := by
    rintro oid drawn ⟨row, there, same⟩
    obtain ⟨move, moved, rfl⟩ := List.mem_map.1 drawn
    exact unused move moved row there same
  obtain ⟨stages, race, left, making⟩ :=
    (LaunchesRace.start reached.holdsObjects distinct without free).run
      unhindered
  refine ⟨fun member enough => ?_, fun member answer => race.listed_of_answer?, ?_⟩
  · refine race.isSome_answer? (Nat.le_zero.1 ((left member).trans ?_))
    exact Nat.le_of_eq (Nat.sub_eq_zero_of_le enough)
  · intro answered some
    have before : ∑ _member : Fin count, look.making = 0 := Finset.sum_eq_zero fun _ _ => rfl
    rw [before, Nat.zero_add] at making
    rw [← making]
    exact race.client_of_answered answered ⟨0, some⟩

/-! ### Two launches of an empty store -/

/-- Two launches of an empty store. -/
def twoLaunches : Crowd 2 Client := launches (fun _ => ⟨1, none⟩) ⟨.empty, .empty⟩

/-- Turns of two launches, each with the identifier that is drawn if the turn is to draw one. -/
def launchMoves (turns : List (Fin 2 × String)) : List (Move 2) :=
  turns.map fun (member, freshOid) => ⟨member, .quiet 0, freshOid, 0⟩

theorem unhindered_launchMoves (turns : List (Fin 2 × String)) :
    ∀ move ∈ launchMoves turns, move.tick.moment.Unhindered ⟨1, none⟩ := by
  intro move there
  obtain ⟨turn, -, rfl⟩ := List.mem_map.1 there
  exact ⟨rfl, rfl, fun _ _ => rfl⟩

/-- Both launches look for the client. The second is slow: when it comes to create the client, the
first has made its window. -/
def slowSecond : List (Move 2) :=
  launchMoves [(0, "0"), (1, "1"), (0, "c"), (0, "3"), (1, "d"), (0, "t"), (0, "6"), (0, "s"),
    (0, "8"), (0, "w"), (0, "10"), (0, "11"), (0, "12"), (1, "13"), (1, "14")]

/-- A launch that is late in creating the client takes the client and the window of the other. -/
theorem a_slow_launch_takes_the_window_of_the_other :
    Table.empty.Reached ∧ Table.empty.ofKind Kind.client.name = [] ∧
      (∀ move ∈ slowSecond, move.tick.moment.Unhindered ⟨1, none⟩) ∧
      (slowSecond.map (·.tick.freshOid)).Nodup ∧
      (∀ member, ((twoLaunches.run slowSecond).answer? member).isSome) ∧
      ∃ client, (twoLaunches.run slowSecond).world.table.client? = some client ∧
        client.windowIds.length = 1 := by
  have unhindered : ∀ move ∈ slowSecond, move.tick.moment.Unhindered ⟨1, none⟩ :=
    unhindered_launchMoves _
  obtain ⟨distinct, answered, finds⟩ : (slowSecond.map (·.tick.freshOid)).Nodup ∧
      (∀ member, ((twoLaunches.run slowSecond).answer? member).isSome) ∧
      twoLaunches.finds slowSecond = 1 := by
    decide +kernel
  refine ⟨.empty, rfl, unhindered, distinct, answered, ?_⟩
  obtain ⟨-, -, together⟩ := racing_launches_list_a_window_each_that_finds_none
    (fun _ => ⟨1, none⟩) ⟨.empty, .empty⟩ slowSecond .empty (.inl rfl) unhindered distinct
    fun _ _ _ there => absurd there List.not_mem_nil
  obtain ⟨client, stored, -, length, -⟩ := together answered (by decide)
  exact ⟨client, stored, length.trans finds⟩

/-- The first launch creates the client. Before it makes a window, the second looks at the client;
then the first goes on to its end, and then the second. -/
def earlySecond : List (Move 2) :=
  launchMoves [(0, "0"), (0, "c"), (0, "2"), (1, "3"), (0, "t"), (0, "5"), (0, "s"), (0, "7"),
    (0, "v"), (0, "9"), (0, "10"), (0, "11"), (1, "u"), (1, "13"), (1, "r"), (1, "15"), (1, "w"),
    (1, "17"), (1, "18"), (1, "19")]

/-- The windows that a member answered with. -/
def answeredWindows (crowd : Crowd 2 Client) (member : Fin 2) : Option (List String) :=
  match crowd.answer? member with
  | some (.ok client) => some client.windowIds
  | _ => none

theorem answer?_of_answeredWindows {crowd : Crowd 2 Client} {member : Fin 2}
    {windows : List String} (answered : answeredWindows crowd member = some windows) :
    ∃ client, crowd.answer? member = some (.ok client) ∧ client.windowIds = windows := by
  rw [answeredWindows] at answered
  split at answered
  · rename_i client found
    exact ⟨client, found, Option.some.inj answered⟩
  · cases answered

/-- A launch that looks at the client before the other has listed its window makes a window too.
The windows are two, and the first launch answers with one of them. -/
theorem two_launches_can_make_two_windows :
    (∀ move ∈ earlySecond, move.tick.moment.Unhindered ⟨1, none⟩) ∧
      (earlySecond.map (·.tick.freshOid)).Nodup ∧
      (∃ client, (twoLaunches.run earlySecond).answer? 0 = some (.ok client) ∧
        client.windowIds = ["v"]) ∧
      (∃ client, (twoLaunches.run earlySecond).answer? 1 = some (.ok client) ∧
        client.windowIds = ["v", "w"]) ∧
      ∃ client, (twoLaunches.run earlySecond).world.table.client? = some client ∧
        client.windowIds = ["v", "w"] := by
  obtain ⟨distinct, first, second, windows⟩ : (earlySecond.map (·.tick.freshOid)).Nodup ∧
      answeredWindows (twoLaunches.run earlySecond) 0 = some ["v"] ∧
      answeredWindows (twoLaunches.run earlySecond) 1 = some ["v", "w"] ∧
      (twoLaunches.run earlySecond).world.table.client?.map Client.windowIds =
        some ["v", "w"] := by
    decide +kernel
  exact ⟨unhindered_launchMoves _, distinct, answer?_of_answeredWindows first,
    answer?_of_answeredWindows second, Option.map_eq_some_iff.1 windows⟩

end Workbench
