import Backfill.Proofs.RunReasons

/-!
# The course of a run

The accounts of a run are written and never read: where a transition leads, what it notes and
whether it is possible at all do not depend on them.  So two runs that differ in nothing but their
accounts go on in the same way.  Between two cycles nothing is left of the cycles before but the
accounts, and the stories of the batches that are still ahead have not begun; what comes of these
batches is therefore the same in both runs.

## Main definitions

* `Run.course` — a run apart from its accounts.
* `Run.GoesOnAs` — whatever one run goes on to do, the other one does as well.

## Main results

* `Run.map_course_step?` — **where a transition leads does not depend on the accounts.**
* `Run.execute_of_course` — so two runs on the same course go on in the same way.
* `Run.ends_alike` — slots that are ahead of both come to the same end.
-/

namespace Backfill

namespace Run

/-- A run apart from its accounts. -/
def course (run : Run) : Run := { run with accounts := default }

theorem ahead_course (run : Run) : run.course.ahead = run.ahead := rfl

theorem unsettled_course (run : Run) : run.course.unsettled = run.unsettled := rfl

theorem note?_course (run : Run) (event : Event) : run.course.note? event = run.note? event := by
  cases event <;> rfl

/-- **Where a transition leads does not depend on the accounts.** -/
theorem map_course_step? (run : Run) (event : Event) :
    (run.course.step? event).map course = (run.step? event).map course := by
  obtain ⟨setup, next, stage, fired, accounts⟩ := run
  -- Which events are possible, and where they lead, never depends on the accounts.
  cases event with
  | fire => cases fired <;> rfl
  | openCycle =>
    simp only [step?, openCycle?, course]
    split <;> rfl
  | pool event =>
    cases stage with
    | busy cycle =>
      simp only [step?, pool?, course, Option.map_map]
      rfl
    | _ => rfl
  | intake =>
    cases stage with
    | busy cycle =>
      simp only [step?, intake?, course, Option.map_map]
      rfl
    | _ => rfl
  | deliver position result =>
    cases stage with
    | busy cycle =>
      simp only [step?, deliver?, course]
      split
      · split <;> rfl
      · rfl
    | _ => rfl
  | closeCycle =>
    cases stage with
    | busy cycle =>
      simp only [step?, closeCycle?, course]
      split <;> rfl
    | _ => rfl
  | cancelRest =>
    cases stage with
    | between =>
      cases fired with
      | false => rfl
      | true =>
        by_cases hnext : next < setup.plan.cycleCount <;>
          simp [step?, cancelRest?, course, hnext]
    | _ => rfl
  | conclude =>
    cases stage with
    | between =>
      by_cases hnext : setup.plan.cycleCount ≤ next <;> simp [step?, conclude?, course, hnext]
    | _ => rfl

theorem step?_of_course {run run' next : Run} {event : Event} (h : run.course = run'.course)
    (hstep : run.step? event = some next) : ∃ next', run'.step? event = some next' ∧
      next.course = next'.course ∧ run'.note? event = run.note? event := by
  have hmap : (run'.step? event).map course = some next.course := by
    rw [← map_course_step?, ← h, map_course_step?, hstep]
    rfl
  obtain ⟨next', hnext, hcourse⟩ := Option.map_eq_some_iff.mp hmap
  refine ⟨next', hnext, hcourse.symm, ?_⟩
  rw [← note?_course run', ← h, note?_course]

/-- **Runs on the same course go on in the same way**, with the same history. -/
theorem execute_of_course {run run' final : Run} {events : List Event}
    (h : run.course = run'.course) (hrun : run.execute events = some final) :
    ∃ final', run'.execute events = some final' ∧ final.course = final'.course ∧
      run'.notes events = run.notes events := by
  -- Runs that agree but for the accounts go on in step.
  induction events generalizing run run' with
  | nil =>
    obtain rfl := Option.some.inj hrun
    exact ⟨run', rfl, h, rfl⟩
  | cons event rest ih =>
    obtain ⟨next, hstep, hrest⟩ := Option.bind_eq_some_iff.mp hrun
    obtain ⟨next', hstep', hnext, hnote⟩ := step?_of_course h hstep
    obtain ⟨final', hfinal, hcourse, hnotes⟩ := ih hnext hrest
    refine ⟨final', ?_, hcourse, ?_⟩
    · rw [execute_cons, hstep', Option.bind_some, hfinal]
    · rw [notes_cons hstep, notes_cons hstep', hnote, hnotes]

theorem Explained.execute {run final : Run} {told : List Note} {events : List Event}
    (h : run.Explained told) (hrun : run.execute events = some final) :
    final.Explained (told ++ run.notes events) := by
  refine execute_induct (motive := fun now more => now.Explained (told ++ more)) hrun
    (by rwa [List.append_nil]) fun hnow hstep => ?_
  obtain ⟨failures, hmove⟩ := move_of_step? hstep
  rw [← List.append_assoc]
  exact hnow.move hmove

/-- What the history calls for at a slot whose batch is ahead does not depend on what the run has
done before. -/
theorem Explained.reasonFor_append {run : Run} {told : List Note} (h : run.Explained told)
    {batch : Batch} (hbatch : batch ∈ run.ahead) {slot : Nat} (hslot : slot ∈ batch.slots)
    (policy : RetryPolicy) (more : List Note) :
    reasonFor policy (told ++ more) batch slot = reasonFor policy more batch slot := by
  have hunsettled : slot ∈ run.unsettled :=
    List.mem_append_left _ (List.mem_flatMap.mpr ⟨batch, List.mem_append_left _ hbatch, hslot⟩)
  have hsilent := h.silent slot hunsettled
  have hstory : storyOf batch (told ++ more) = storyOf batch more := by
    rw [storyOf_append, h.ahead batch hbatch]
    rfl
  have hdelivery : deliveryResult? (told ++ more) slot = deliveryResult? more slot := by
    rw [deliveryResult?] at hsilent ⊢
    rw [List.findSome?_append, hsilent, Option.none_or, deliveryResult?]
  rw [reasonFor, reasonFor, hstory, hdelivery]

theorem Explained.reasonOf?_eq {run : Run} {notes : List Note} (h : run.Explained notes)
    {batch : Batch} (hbatch : batch ∈ run.setup.plan.batches) {slot : Nat}
    (hslot : slot ∈ batch.slots) : run.accounts.ledger.reasonOf? slot =
      if slot ∈ run.unsettled then none else reasonFor run.setup.policy notes batch slot := by
  split
  · next hunsettled => exact h.accounted.reasonOf?_of_mem_unsettled hunsettled
  · next hsettled => exact h.settled batch hbatch slot hslot hsettled

/-- Whatever a run goes on to do, the other one does as well: it takes the same transitions with the
same history, and slots whose batches are ahead come to the same end. -/
def GoesOnAs (run run' : Run) : Prop :=
  ∀ events final, run.execute events = some final → ∃ final', run'.execute events = some final' ∧
    final.course = final'.course ∧ run'.notes events = run.notes events ∧
    ∀ batch ∈ run.ahead, ∀ slot ∈ batch.slots,
      final'.accounts.ledger.reasonOf? slot = final.accounts.ledger.reasonOf? slot

/-- **Runs on the same course end alike**, whatever they have done before. -/
theorem ends_alike {run run' : Run} {told told' : List Note} (h : run.course = run'.course)
    (hexplained : run.Explained told) (hexplained' : run'.Explained told') :
    run.GoesOnAs run' := by
  intro events final hrun
  obtain ⟨final', hrun', hcourse, hnotes⟩ := execute_of_course h hrun
  refine ⟨final', hrun', hcourse, hnotes, fun batch hbatch slot hslot => ?_⟩
  have hfinal := hexplained.execute hrun
  have hfinal' := hexplained'.execute hrun'
  rw [hnotes] at hfinal'
  have hsetup : final'.setup = final.setup := (congrArg setup hcourse).symm
  have hunsettled : final'.unsettled = final.unsettled := by
    rw [← unsettled_course, ← hcourse, unsettled_course]
  -- What happens to a batch that lies ahead is told by the events to come, which both runs share.
  have hahead : batch ∈ run'.ahead := by
    rwa [← ahead_course, ← h, ahead_course]
  have hplan : batch ∈ final.setup.plan.batches :=
    setup_eq_of_execute hrun ▸
      hexplained.accounted.orderly.mem_batches (List.mem_append_left _ hbatch)
  rw [hfinal.reasonOf?_eq hplan hslot, hfinal'.reasonOf?_eq (hsetup ▸ hplan) hslot, hsetup,
    hunsettled, hexplained.reasonFor_append hbatch hslot,
    hexplained'.reasonFor_append hahead hslot]

end Run

end Backfill
