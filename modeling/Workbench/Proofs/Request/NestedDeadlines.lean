/-
# Nested deadlines

A part of a program may be given less time, and parts of that part less still. Whoever makes a store
call deep inside has the least of all the times that were given around it, and of the time of the
whole program. How the parts are nested shows in the effects of a run alone, as each part begins and
ends with an effect of its own. So the parts that are open at any moment are read off the effects so
far, and with them the deadline in force. When a part ends, however it ends, the deadline is what it
was when the part began.

The journal has no share in this. It belongs to the whole program, and the records of a run are
those of its store calls, whatever the parts in which they were made.
-/

import Workbench.Proofs.Request.Journal
import Workbench.Proofs.Request.OutOfTime
import Workbench.Proofs.Store.Unhindered

namespace Workbench

/-! ## Store calls that are turned away -/

namespace StoreCall

variable {moment : Moment} {context : Context} {call : StoreCall}

/-- A call for the object of a singleton kind is for a singleton kind. -/
def FitsKind : StoreCall → Prop
  | getSingleton kind | modifySingleton kind _ => kind.isSingleton = true
  | _ => True

/-- A call is turned away: it fails in the same way whatever the table holds, whatever function it
has to edit objects, and whatever the engine would answer. -/
def IsTurnedAway (call : StoreCall) (moment : Moment) (context : Context) : Prop :=
  ∀ failure, call.IsRefused { moment with failure } context

theorem refusal_of_fitsKind (fits : call.FitsKind) : call.refusal = .deadlineExceeded := by
  cases call with
  | getSingleton kind => exact if_pos fits
  | modifySingleton kind edit => exact if_pos fits
  | _ => rfl

/-- The kind is looked at before the deadline is. -/
theorem run_of_not_fitsKind (unfit : ¬ call.FitsKind) (table : Table) :
    call.run moment context table = ⟨.error call.refusal, context, table⟩ := by
  cases call with
  | getSingleton kind =>
      have several : ¬ kind.isSingleton = true := unfit
      rw [run, Store.getSingleton, Kind.ensureSingleton, refusal, if_neg several, if_neg several]
      rfl
  | modifySingleton kind edit =>
      have several : ¬ kind.isSingleton = true := unfit
      rw [run, Store.modifySingleton, Kind.ensureSingleton, refusal, if_neg several,
        if_neg several]
      rfl
  | _ => exact absurd trivial unfit

theorem AgreesButEdit.fitsKind_iff {other : StoreCall} (agrees : call.AgreesButEdit other) :
    other.FitsKind ↔ call.FitsKind := by
  cases agrees <;> rfl

theorem isRefused_of_not_fitsKind (unfit : ¬ call.FitsKind) : call.IsRefused moment context := by
  intro other agrees table
  rw [← agrees.refusal_eq]
  exact run_of_not_fitsKind (mt agrees.fitsKind_iff.1 unfit) table

/-- A call that enters the store asks the engine something. If the engine lets no statement through,
this is what the call fails with. -/
theorem run_of_all_fail {table : Table} {failure : EngineFailure}
    (entered : moment.enter context = .ok ())
    (fails : ∀ statement table, moment.attempt statement table = .error (.ofFailure failure))
    (fits : call.FitsKind) :
    (call.run moment context table).result = .error (.ofFailure failure) := by
  cases call with
  | get kind oid =>
      rw [run, Store.get, Store.reading, entered, Store.readObject, fails]
      rfl
  | mustGet kind oid =>
      rw [run, Store.mustGet, Store.reading, entered, Store.demandObject, Store.readObject, fails]
      rfl
  | getSingleton kind =>
      have single : kind.isSingleton = true := fits
      rw [run, Store.getSingleton, Kind.ensureSingleton, if_pos single, Store.reading, entered,
        Store.demandSingleton, Store.readSingleton, fails]
      rfl
  | getAll kind =>
      rw [run, Store.getAll, Store.reading, entered]
      simp only [fails]
      rfl
  | create kind object =>
      have refused : Store.insertNew moment kind object table = .error (.ofFailure failure) := by
        rw [Store.insertNew, Store.ensureNoSingleton, Store.readSingleton, fails]
        cases kind.isSingleton with
        | false =>
            rw [fails]
            rfl
        | true => rfl
      rw [run, Store.create, entered, refused]
      rfl
  | createAttached child parent object parentOid edit =>
      rw [run, Store.createAttached, Store.attach, entered, fails]
      rfl
  | update kind object =>
      rw [run, Store.update, entered, Store.writeExisting]
      simp only [fails]
      rfl
  | modify kind oid edit =>
      rw [run, Store.modify, Store.modifyWith, entered, Store.demandObject, Store.readObject, fails]
      rfl
  | modifySingleton kind edit =>
      have single : kind.isSingleton = true := fits
      rw [run, Store.modifySingleton, Kind.ensureSingleton, if_pos single, Store.modifyWith,
        entered, Store.demandSingleton, Store.readSingleton, fails]
      rfl

theorem isTurnedAway_iff :
    call.IsTurnedAway moment context ↔
      context.deadline ≤ moment.now ∨ moment.lockedOut = true ∨ ¬ call.FitsKind := by
  constructor
  · intro away
    by_contra admitted
    push Not at admitted
    obtain ⟨live, free, fits⟩ := admitted
    -- an engine that fails at once, for a reason that has nothing to do with time
    let failure : EngineFailure := ⟨1, ""⟩
    let failing : Moment := { moment with failure := fun _ _ => some failure }
    have entered : failing.enter context = .ok () :=
      Moment.enter_eq_ok (decide_eq_false (Nat.not_le.2 live)) (Bool.eq_false_iff.2 free)
    have asked : (call.run failing context .empty).result = .error (.ofFailure failure) :=
      run_of_all_fail entered (fun _ _ => rfl) fits
    rw [away _ call (.same call) .empty, refusal_of_fitsKind fits] at asked
    cases asked
  · rintro (expired | locked | unfit) failure
    · refine call.isRefused_of_expired ?_
      exact decide_eq_true expired
    · refine call.isRefused_of_barred ?_
      rw [Moment.enter, locked, Bool.or_true, if_pos rfl]
    · exact isRefused_of_not_fitsKind unfit

end StoreCall

/-! ## Effects of a run -/

/-- An effect as a program makes it, with the tick, the context and the world that it meets. -/
structure EffectMade where
  effect : Effect
  tick : Tick
  context : Context
  world : World

namespace EffectMade

/-- What an effect leaves behind. -/
def reply (made : EffectMade) : Reply made.effect.Answer :=
  made.effect.perform made.tick made.context made.world

/-- The records of the rows that an effect writes: those of a store call that succeeds, and no
others. -/
def records (made : EffectMade) : List UpdateRecord :=
  (made.effect.written made.tick made.context made.world).map RowWrite.record

end EffectMade

namespace Program

variable {α β : Type}

/-- The effects that a program makes, in order. -/
def effectsMade (ticks : Nat → Tick) (time : Nat) (context : Context) (world : World) :
    Program α → List EffectMade
  | .done _ => []
  | .step effect next =>
      let reply := effect.perform (ticks time) context world
      ⟨effect, ticks time, context, world⟩ ::
        (next reply.answer).effectsMade ticks (time + 1) reply.context reply.world

variable (ticks : Nat → Tick) (time : Nat) (context : Context) (world : World)

theorem effectsMade_bind (program : Program α) (rest : α → Program β) :
    (program.bind rest).effectsMade ticks time context world =
      let first := program.run ticks time context world
      program.effectsMade ticks time context world ++
        (rest first.answer).effectsMade ticks first.time first.context first.world := by
  induction program generalizing time context world with
  | done value => rfl
  | step effect next ih => exact congrArg (_ :: ·) (ih _ _ _ _)

/-- What a program writes is what its effects write, one after another. -/
theorem map_record_written (program : Program α) :
    (program.written ticks time context world).map RowWrite.record =
      (program.effectsMade ticks time context world).flatMap EffectMade.records := by
  induction program generalizing time context world with
  | done value => rfl
  | step effect next ih =>
      rw [written, List.map_append, ih, effectsMade, List.flatMap_cons]
      rfl

/-- A part with less time begins with one effect and ends with another. -/
theorem limited_bind (timeout : UInt64) (body : Program α) (next : α → Program β) :
    (limited timeout body).bind next =
      .step (.narrow timeout) fun outer =>
        body.bind fun value => .step (.restore outer) fun _ => next value := by
  refine congrArg (step (.narrow timeout)) (funext fun outer => ?_)
  exact bind_assoc body (fun value => .step (.restore outer) fun _ => .done value) next

end Program

/-! ## Parts with less time -/

/-- An effect that leaves the context in place, with its deadline and its journal. -/
def Effect.StaysInContext : Effect → Prop
  | .openContext _ | .openJournal | .narrow _ | .restore _ => False
  | _ => True

namespace Effect.StaysInContext

variable {effect : Effect}

theorem deadline_perform (stays : effect.StaysInContext) (tick : Tick) (context : Context)
    (world : World) : (effect.perform tick context world).context.deadline = context.deadline := by
  cases effect with
  | storeCall call => exact call.deadline_run tick.moment context world.table
  | openContext timeout => exact stays.elim
  | openJournal => exact stays.elim
  | narrow timeout => exact stays.elim
  | restore deadline => exact stays.elim
  | _ => rfl

theorem keepsJournal (stays : effect.StaysInContext) : effect.KeepsJournal := by
  cases effect with
  | openContext timeout => exact stays
  | openJournal => exact stays
  | _ => trivial

end Effect.StaysInContext

/-- A program made of effects, store calls above all, and of parts that have less time, nested in
any way. A part may end with any value, be it a success or a failure, and what comes next may depend
on it. -/
inductive Program.Nested : {α : Type} → Program α → Prop where
  | done {α : Type} (value : α) : Nested (.done value)
  | step {α : Type} {effect : Effect} {next : effect.Answer → Program α} :
      effect.StaysInContext → (∀ answer, Nested (next answer)) → Nested (.step effect next)
  | limited {α β : Type} (timeout : UInt64) {body : Program β} {next : β → Program α} :
      Nested body → (∀ value, Nested (next value)) →
      Nested ((Program.limited timeout body).bind next)

/-- A part with less time that has begun and not ended: the latest time that it was given, and the
deadline before it began. -/
structure OpenPart where
  limit : Instant
  outer : Instant

/-- The parts that are open after an effect, the innermost first. -/
def EffectMade.partsAfter (parts : List OpenPart) (made : EffectMade) : List OpenPart :=
  match made.effect with
  | .narrow timeout => ⟨made.tick.moment.now + timeout.toNat, made.context.deadline⟩ :: parts
  | .restore _ => parts.tail
  | _ => parts

theorem Effect.StaysInContext.partsAfter_eq {effect : Effect} (stays : effect.StaysInContext)
    (tick : Tick) (context : Context) (world : World) (parts : List OpenPart) :
    EffectMade.partsAfter parts ⟨effect, tick, context, world⟩ = parts := by
  cases effect with
  | narrow timeout => exact stays.elim
  | restore deadline => exact stays.elim
  | _ => rfl

/-- The parts that are open after all these effects. -/
def openParts (made : List EffectMade) : List OpenPart := made.foldl EffectMade.partsAfter []

/-- The least of the time of the whole and the times of the open parts. -/
def leastTime (own : Instant) (parts : List OpenPart) : Instant :=
  (parts.map OpenPart.limit).foldr min own

/-- An effect is made while parts are open: the deadline is the least of their times, and an effect
that ends a part puts the deadline back in force from before that part. -/
structure EffectMade.Timely (own : Instant) (parts : List OpenPart) (made : EffectMade) : Prop where
  deadline : made.context.deadline = leastTime own parts
  restores : ∀ deadline, made.effect = .restore deadline →
    ∃ part others, parts = part :: others ∧ made.reply.context.deadline = part.outer

/-- Effects are timely one after another, from some open parts to others. -/
inductive AllTimely (own : Instant) :
    List OpenPart → List EffectMade → List OpenPart → Prop where
  | none (parts : List OpenPart) : AllTimely own parts [] parts
  | more {parts later : List OpenPart} {made : EffectMade} {rest : List EffectMade} :
      made.Timely own parts → AllTimely own (made.partsAfter parts) rest later →
      AllTimely own parts (made :: rest) later

namespace AllTimely

variable {own : Instant} {parts between later : List OpenPart} {first second : List EffectMade}

theorem append (early : AllTimely own parts first between)
    (late : AllTimely own between second later) : AllTimely own parts (first ++ second) later := by
  induction early with
  | none parts => exact late
  | more timely _ ih => exact .more timely (ih late)

theorem foldl_eq (timely : AllTimely own parts first later) :
    first.foldl EffectMade.partsAfter parts = later := by
  induction timely with
  | none parts => rfl
  | more _ _ ih => exact ih

theorem timely {made : EffectMade} {rest : List EffectMade}
    (all : AllTimely own parts (first ++ made :: rest) later) :
    made.Timely own (first.foldl EffectMade.partsAfter parts) := by
  induction first generalizing parts with
  | nil =>
      cases all with
      | more timely _ => exact timely
  | cons head tail ih =>
      cases all with
      | more _ others => exact ih others

end AllTimely

namespace Program.Nested

variable {α : Type} {program : Program α}

theorem perform {effect : Effect} (stays : effect.StaysInContext) :
    (Program.perform effect).Nested :=
  .step stays fun answer => .done answer

theorem bind {β : Type} {rest : α → Program β} (nested : program.Nested)
    (later : ∀ value, (rest value).Nested) : (program >>= rest).Nested := by
  induction nested with
  | done value => exact later value
  | step stays _ ih => exact .step stays fun answer => ih answer later
  | @limited α β timeout body next inside _ _ behind =>
      show (((Program.limited timeout body).bind next).bind rest).Nested
      rw [bind_assoc]
      exact .limited timeout inside fun value => behind value later

/-- A part with less time may be all there is. -/
theorem limited_alone (timeout : UInt64) (nested : program.Nested) :
    (Program.limited timeout program).Nested := by
  have whole := Nested.limited timeout nested fun value => .done value
  rwa [bind_done] at whole

/-- Every effect of a nested program is timely, and in the end the same parts are open as in the
beginning, under the same deadline. -/
theorem allTimely (nested : program.Nested) (ticks : Nat → Tick) (time : Nat) (context : Context)
    (world : World) {own : Instant} {parts : List OpenPart}
    (start : context.deadline = leastTime own parts) :
    AllTimely own parts (program.effectsMade ticks time context world) parts ∧
      (program.run ticks time context world).context.deadline = context.deadline := by
  induction nested generalizing time context world parts with
  | done value => exact ⟨.none parts, rfl⟩
  | @step α effect next stays _ ih =>
      have kept := stays.deadline_perform (ticks time) context world
      obtain ⟨rest, finish⟩ := ih (effect.perform (ticks time) context world).answer (time + 1)
        (effect.perform (ticks time) context world).context
        (effect.perform (ticks time) context world).world (kept.trans start)
      refine ⟨.more ⟨start, ?_⟩ ?_, finish.trans kept⟩
      · rintro deadline ⟨⟩
        exact stays.elim
      · rw [stays.partsAfter_eq]
        exact rest
  | @limited α β timeout body next _ _ inside behind =>
      let now := (ticks time).moment.now
      let part : OpenPart := ⟨now + timeout.toNat, context.deadline⟩
      have less : (context.narrow now timeout).deadline = leastTime own (part :: parts) := by
        show min context.deadline part.limit = min part.limit (leastTime own parts)
        rw [start, Nat.min_comm]
      obtain ⟨middle, kept⟩ := inside (time + 1) (context.narrow now timeout) world less
      let inner := body.run ticks (time + 1) (context.narrow now timeout) world
      obtain ⟨last, finish⟩ := behind inner.answer (inner.time + 1)
        (inner.context.withDeadline context.deadline) inner.world start
      rw [limited_bind]
      constructor
      · rw [effectsMade, effectsMade_bind]
        refine .more ⟨start, nofun⟩ (middle.append (.more ⟨kept.trans less, ?_⟩ last))
        rintro deadline ⟨⟩
        exact ⟨part, parts, rfl, rfl⟩
      · rw [run, run_bind]
        exact finish

theorem keepsJournal (nested : program.Nested) : program.KeepsJournal := by
  induction nested with
  | done value => exact .done value
  | step stays _ ih => exact .step stays.keepsJournal ih
  | @limited α β timeout body next _ _ inside behind =>
      rw [limited_bind]
      exact .step trivial fun outer => .bind inside fun value =>
        .step trivial fun _ => behind value

end Program.Nested

/-- Deadlines of nested parts narrow and are restored. Before every effect of a run the deadline in
force is the least of the time of the whole program and the times of the parts that are open, so a
part that begins never puts a deadline off. A store call is turned away exactly if the clock has
come to that time, or the lock is not to be had, or the call is for a kind that it does not fit.
When a part ends, the deadline is the one from before it began. In the end no part is open, the
deadline is what it was, and the journal has grown by the records of the store calls that succeeded,
however deep inside, in the order in which they were made. -/
theorem nested_deadlines_narrow_and_restore {α : Type} {program : Program α}
    (nested : program.Nested) (ticks : Nat → Tick) (time : Nat) (context : Context)
    (world : World) :
    let finish := program.run ticks time context world
    let effects := program.effectsMade ticks time context world
    (∀ before made after, effects = before ++ made :: after →
      let parts := openParts before
      let least := leastTime context.deadline parts
      made.context.deadline = least ∧
        (∀ call, made.effect = .storeCall call →
          (call.IsTurnedAway made.tick.moment made.context ↔
            least ≤ made.tick.moment.now ∨ made.tick.moment.lockedOut = true ∨
              ¬ call.FitsKind)) ∧
        (∀ timeout, made.effect = .narrow timeout → made.reply.context.deadline ≤ least) ∧
        ∀ deadline, made.effect = .restore deadline →
          ∃ part others, parts = part :: others ∧ made.reply.context.deadline = part.outer) ∧
      openParts effects = [] ∧
      finish.context.deadline = context.deadline ∧
      finish.context.journal =
        context.journal.map (· ++ effects.flatMap EffectMade.records) := by
  intro finish effects
  have start : context.deadline = leastTime context.deadline [] := rfl
  obtain ⟨all, kept⟩ := nested.allTimely ticks time context world start
  refine ⟨fun before made after cut => ?_, all.foldl_eq, kept, ?_⟩
  · intro parts least
    rw [show program.effectsMade ticks time context world = before ++ made :: after from cut]
      at all
    have timely := all.timely
    refine ⟨timely.deadline, fun call _ => ?_, fun timeout isNarrow => ?_, timely.restores⟩
    · rw [StoreCall.isTurnedAway_iff, timely.deadline]
      rfl
    · obtain ⟨effect, tick, here, there⟩ := made
      cases isNarrow
      have narrowed := Nat.min_le_left here.deadline (tick.moment.now + timeout.toNat)
      exact narrowed.trans_eq timely.deadline
  · rw [← Program.map_record_written]
    exact (Program.run_written nested.keepsJournal ticks time context world).1

/-- A part has fifty milliseconds, and inside of it a part asks for a thousand. The clock shows
sixty when the inner part stores its tab, and that is too late. When both have ended, there is time
for another tab, and the journal tells of the first and of this one. -/
theorem an_inner_part_has_no_more_time :
    let ticks : Nat → Tick := fun time => ⟨.quiet (20 * time), "", 0⟩
    let tab : String → Effect := fun oid => .storeCall (.create .tab ⟨oid, 0, "Tab", [], .empty⟩)
    let stored : String → UpdateRecord := fun oid =>
      .ofObject .created .tab ⟨oid, 1, "Tab", [], .empty⟩
    let program : Program Unit := do
      let _ ← Program.limited 50 do
        let _ ← Program.perform (tab "a")
        Program.limited 1000 (Program.perform (tab "b"))
      let _ ← Program.perform (tab "c")
    let finish := program.run ticks 0 ⟨1000, some []⟩ ⟨.empty, .empty⟩
    program.Nested ∧ finish.context.deadline = 1000 ∧
      finish.context.journal = some [stored "a", stored "c"] := by
  intro ticks tab stored program finish
  have nested : program.Nested :=
    .bind (.limited_alone 50 (.bind (.perform trivial) fun _ =>
      .limited_alone 1000 (.perform trivial))) fun _ => .bind (.perform trivial) fun _ => .done ()
  obtain ⟨-, -, deadline, journal⟩ :=
    nested_deadlines_narrow_and_restore nested ticks 0 ⟨1000, some []⟩ ⟨.empty, .empty⟩
  refine ⟨nested, deadline, ?_⟩
  rw [journal]
  rfl

end Workbench
