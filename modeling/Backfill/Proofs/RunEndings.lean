import Backfill.Proofs.RunReasons
import Backfill.Proofs.RunResults

/-!
# How the attempts for a batch ended

The attempts for a batch end in one of four ways: the client answers, the policy allows no further
request, the token cuts them off, or the worker breaks down.  Each end is noted, and nothing is
noted about the batch behind it, so what is noted once stays true: a batch that was answered has
this answer for good, and one that was cut off has none.  A batch about which nothing is noted at
all belongs to a cycle that was not started.

## Main definitions

* `answersIn`, `NeverAnswers` — what the client has answered, and what it has not.
* `Story.GoesOn`, `Story.EndsOnce` — the attempts have not ended, or have ended once.
* `Run.Traced` — what has come of the batches of a run is in their stories.
* `Run.SettledAs` — the slots of a batch are settled as its outcomes say.

## Main results

* `storyOf_cut`, `storyOf_broke`, `storyOf_opened` — a story knows what was noted.
* `Run.Explained.goesOn` — **something is noted about a batch only while its attempts go on.**
* `Run.Traced.move` — every move keeps a run traced.
* `Run.traced_of_execute` — so does every run.
* `Run.settledAs_of_mem_resultsIn` — **a batch with a result is settled by this result.**
-/

namespace Backfill

/-! ### Answers of the client -/

/-- The batch that the client answers the request for, and the answer. -/
def Note.answer? : Note → Option (Batch × Outcomes)
  | .answered batch outcomes => some (batch, outcomes)
  | _ => none

/-- What the client has answered, batch by batch. -/
def answersIn (notes : List Note) : List (Batch × Outcomes) := notes.filterMap Note.answer?

variable {batch : Batch} {notes : List Note}

theorem mem_answersIn {outcomes : Outcomes} :
    (batch, outcomes) ∈ answersIn notes ↔ .answered batch outcomes ∈ notes := by
  rw [answersIn, List.mem_filterMap]
  constructor
  · rintro ⟨note, hnote, hanswer⟩
    cases note with
    | answered other found =>
      obtain ⟨rfl, rfl⟩ := Prod.mk.inj (Option.some.inj hanswer)
      exact hnote
    | _ => simp [Note.answer?] at hanswer
  · exact fun hnote => ⟨_, hnote, rfl⟩

/-- The client gives no slot this outcome in any of its answers. -/
def NeverAnswers (outcome : Outcome) (notes : List Note) : Prop :=
  ∀ answer ∈ answersIn notes, ∀ entry ∈ answer.2, entry.2 ≠ outcome

instance (outcome : Outcome) (notes : List Note) : Decidable (NeverAnswers outcome notes) :=
  inferInstanceAs (Decidable (∀ answer ∈ answersIn notes, ∀ entry ∈ answer.2, entry.2 ≠ outcome))

/-- An outcome that the client gives no slot is found nowhere in its answers, unless it is the one
of a slot without an outcome. -/
theorem NeverAnswers.outcomeOf_ne {outcome : Outcome} (h : NeverAnswers outcome notes)
    (hresponse : outcome ≠ .failed .noResponse) {outcomes : Outcomes}
    (hanswered : .answered batch outcomes ∈ notes) (slot : Nat) :
    Accounts.outcomeOf outcomes slot ≠ outcome := by
  unfold Accounts.outcomeOf
  cases hfound : outcomes.lookup slot with
  | none => exact hresponse.symm
  | some found =>
    obtain ⟨front, back, rfl, -⟩ := List.lookup_eq_some_iff.mp hfound
    exact h _ (mem_answersIn.mpr hanswered) _ (List.mem_append_right _ List.mem_cons_self)

/-! ### What a story knows -/

namespace Note

/-- Whether a cycle is started. -/
def opens : Note → Bool
  | .opened _ => true
  | _ => false

/-- Whether the attempts for a batch are cut off. -/
def cuts : Note → Bool
  | .cut _ => true
  | _ => false

/-- Whether a worker breaks down. -/
def breaks : Note → Bool
  | .broke _ => true
  | _ => false

end Note

/-- A story knows of one kind of note whether there was one. -/
theorem storyOf_any (knows : Story → Bool) {marks : Note → Bool} (hblank : knows .blank = false)
    (htell : ∀ story note, knows (story.tell note) = (knows story || marks note)) :
    knows (storyOf batch notes) = true ↔
      ∃ note ∈ notes, note.isAbout batch = true ∧ marks note = true := by
  have hfold : ∀ (told : List Note) (story : Story),
      knows (told.foldl Story.tell story) = (knows story || told.any marks) := by
    intro told
    induction told with
    | nil => simp
    | cons note rest ih =>
      intro story
      rw [List.foldl_cons, ih, htell, List.any_cons, Bool.or_assoc]
  rw [storyOf, hfold, hblank, Bool.false_or, List.any_filter, List.any_eq_true]
  simp only [Bool.and_eq_true]

theorem isAbout_of_batch? {note : Note} (h : note.batch? = some batch) :
    note.isAbout batch = true := by
  rw [Note.isAbout_of_batch? h]
  exact decide_eq_true rfl

/-- A story knows whether its cycle was started. -/
theorem storyOf_opened : (storyOf batch notes).opened = true ↔
    ∃ cycle, .opened cycle ∈ notes ∧ batch ∈ cycle.batches := by
  have hany := @storyOf_any batch notes Story.opened Note.opens rfl
    fun story note => by cases note <;> simp [Story.tell, Note.opens]
  rw [hany]
  constructor
  · rintro ⟨note, hnote, habout, hmarks⟩
    cases note with
    | opened cycle => exact ⟨cycle, hnote, of_decide_eq_true habout⟩
    | _ => simp [Note.opens] at hmarks
  · rintro ⟨cycle, hnote, hbatch⟩
    exact ⟨_, hnote, decide_eq_true hbatch, rfl⟩

/-- A story knows whether the attempts were cut off. -/
theorem storyOf_cut : (storyOf batch notes).cut = true ↔ .cut batch ∈ notes := by
  have hany := @storyOf_any batch notes Story.cut Note.cuts rfl
    fun story note => by cases note <;> simp [Story.tell, Note.cuts]
  rw [hany]
  constructor
  · rintro ⟨note, hnote, habout, hmarks⟩
    cases note with
    | cut other =>
      obtain rfl : other = batch := by simpa [Note.isAbout, Note.batch?] using habout
      exact hnote
    | _ => simp [Note.cuts] at hmarks
  · exact fun hnote => ⟨_, hnote, isAbout_of_batch? rfl, rfl⟩

/-- A story knows whether the worker broke down. -/
theorem storyOf_broke : (storyOf batch notes).broke = true ↔ .broke batch ∈ notes := by
  have hany := @storyOf_any batch notes Story.broke Note.breaks rfl
    fun story note => by cases note <;> simp [Story.tell, Note.breaks]
  rw [hany]
  constructor
  · rintro ⟨note, hnote, habout, hmarks⟩
    cases note with
    | broke other =>
      obtain rfl : other = batch := by simpa [Note.isAbout, Note.batch?] using habout
      exact hnote
    | _ => simp [Note.breaks] at hmarks
  · exact fun hnote => ⟨_, hnote, isAbout_of_batch? rfl, rfl⟩

/-- A story knows whether there was an answer. -/
theorem storyOf_answer : (storyOf batch notes).answer.isSome = true ↔
    ∃ outcomes, .answered batch outcomes ∈ notes := by
  have hany := @storyOf_any batch notes (fun story => story.answer.isSome)
    (fun note => note.answer?.isSome) rfl
    fun story note => by cases note <;> simp [Story.tell, Note.answer?]
  -- Only the note of an answer leaves an answer in the story.
  rw [hany]
  constructor
  · rintro ⟨note, hnote, habout, hmarks⟩
    cases note with
    | answered other outcomes =>
      obtain rfl : other = batch := by simpa [Note.isAbout, Note.batch?] using habout
      exact ⟨outcomes, hnote⟩
    | _ => simp [Note.answer?] at hmarks
  · rintro ⟨outcomes, hnote⟩
    exact ⟨_, hnote, isAbout_of_batch? rfl, rfl⟩

/-! ### One end -/

namespace Story

variable {story : Story}

/-- The attempts for a batch have not ended. -/
structure GoesOn (story : Story) : Prop where
  answer : story.answer = none
  cut : story.cut = false
  broke : story.broke = false

/-- The attempts for a batch did not end twice. -/
structure EndsOnce (story : Story) : Prop where
  cut : story.cut = true → story.answer = none
  broke : story.broke = true → story.answer = none ∧ story.cut = false

theorem goesOn_blank : blank.GoesOn := ⟨rfl, rfl, rfl⟩

theorem Underway.goesOn {policy : RetryPolicy} {attempt : Attempt}
    (h : story.Underway policy attempt) : story.GoesOn :=
  ⟨h.answer, h.cut, h.broke⟩

theorem GoesOn.tell (h : story.GoesOn) (note : Note) : (story.tell note).EndsOnce := by
  obtain ⟨hanswer, hcut, hbroke⟩ := h
  constructor <;> cases note <;> simp [Story.tell, hanswer, hcut, hbroke]

/-- What becomes of a batch is an answer just when the client has given it. -/
theorem fate_eq_answered {policy : RetryPolicy} {outcomes : Outcomes} :
    story.fate policy = .answered outcomes ↔ story.answer = some outcomes := by
  unfold fate
  cases story.answer with
  | some answer => simp
  | none =>
    simp only [reduceCtorEq, iff_false]
    split
    · simp
    · split
      · simp
      · split <;> simp

/-- **What becomes of a batch is a cancellation** only if the attempts for it were cut off, or if
nothing is known of it. -/
theorem EndsOnce.fate_eq_cancelled {policy : RetryPolicy} (h : story.EndsOnce)
    (hblank : story.opened = false → story = blank) :
    story.fate policy = .cancelled ↔ story.cut = true ∨ story.opened = false := by
  constructor
  · intro hfate
    -- Any other fate comes first, so what is left is a batch cut off or never opened.
    unfold fate at hfate
    split at hfate
    · simp at hfate
    · split at hfate
      · next hcut => exact .inl hcut
      · split at hfate
        · simp at hfate
        · split at hfate
          · simp at hfate
          · next hopened => exact .inr (Bool.eq_false_iff.mpr hopened)
  · rintro (hcut | hopened)
    · simp [fate, h.cut hcut, hcut]
    · rw [hblank hopened, fate_blank]

end Story

/-- The history calls for the reason in an answer, unless it is one that only the end of a delivery
gives. -/
theorem reasonFor_of_answered {policy : RetryPolicy} {outcomes : Outcomes} {slot : Nat}
    {reason : FailureReason} (hfate : (storyOf batch notes).fate policy = .answered outcomes)
    (hdispatch : ∀ message, reason ≠ .dispatchFailed message) :
    reasonFor policy notes batch slot = some reason ↔
      Accounts.outcomeOf outcomes slot = .failed reason := by
  simp only [reasonFor, hfate]
  cases Accounts.outcomeOf outcomes slot with
  | failed other => simp
  | fetched block =>
    simp only [reduceCtorEq, iff_false]
    split
    · next error _ => exact fun h => hdispatch error.message (Option.some.inj h).symm
    · simp

/-- The history calls for a cancellation or for a lost worker just when this is what becomes of the
batch, or what the client itself has answered for the slot. -/
theorem reasonFor_eq_some_iff {policy : RetryPolicy} {slot : Nat} {fate : Fate}
    {reason : FailureReason}
    (hreason : fate = .cancelled ∧ reason = .cancelled ∨ fate = .lost ∧ reason = .workerLost) :
    reasonFor policy notes batch slot = some reason ↔
      (storyOf batch notes).fate policy = fate ∨ ∃ outcomes,
        (storyOf batch notes).answer = some outcomes ∧
          Accounts.outcomeOf outcomes slot = .failed reason := by
  simp only [← @Story.fate_eq_answered (storyOf batch notes) policy]
  -- An answered batch can still name the reason, if the client itself said so of the slot.
  cases hstory : (storyOf batch notes).fate policy with
  | answered outcomes =>
    rcases hreason with ⟨rfl, rfl⟩ | ⟨rfl, rfl⟩
    · simp [reasonFor_of_answered hstory]
    · simp [reasonFor_of_answered hstory]
  | exhausted | cancelled | lost =>
    rcases hreason with ⟨rfl, rfl⟩ | ⟨rfl, rfl⟩
    · simp [reasonFor, hstory]
    · simp [reasonFor, hstory]

/-! ### Notes of a worker -/

/-- A worker notes something about a batch only while the attempts for it go on. -/
theorem Pool.Shift.goesOn {policy : RetryPolicy} {fired : Bool} {before after : Pool}
    {note : Option Note} (h : before.Shift policy fired after note)
    (hfaithful : before.Faithful policy notes) {told : Note} (htold : told ∈ note.toList)
    (habout : told.isAbout batch = true) : (storyOf batch notes).GoesOn := by
  have hsame : ∀ {other : Batch}, told.batch? = some other → other = batch := fun hother => by
    rwa [Note.isAbout_of_batch? hother, decide_eq_true_iff] at habout
  have htried : ∀ {other attempt} {others : List (Batch × Attempt)},
      before.tried.Perm ((other, attempt) :: others) → (storyOf other notes).GoesOn :=
    fun hperm => (hfaithful.tried _ (hperm.mem_iff.mpr List.mem_cons_self)).goesOn
  -- A batch that is told about is taken up or tried, and neither has ended.
  cases h with
  | still | taken => simp at htold
  | dropped _ huntried =>
    obtain rfl := List.mem_singleton.mp htold
    obtain rfl := hsame rfl
    rw [hfaithful.untried _ (huntried.mem_iff.mpr List.mem_cons_self)]
    exact ⟨rfl, rfl, rfl⟩
  | advanced _ _ hperm => exact hsame (Note.batch?_of_mem_ofAttempt htold) ▸ htried hperm
  | ended _ _ hperm => exact hsame (Note.batch?_of_mem_ofAttempt htold) ▸ htried hperm
  | broken _ hperm =>
    obtain rfl := List.mem_singleton.mp htold
    exact hsame rfl ▸ htried hperm

/-- A worker cuts nothing off before the token has fired. -/
theorem Pool.Shift.fired_of_cut {policy : RetryPolicy} {fired : Bool} {before after : Pool}
    {note : Option Note} (h : before.Shift policy fired after note)
    (hcut : .cut batch ∈ note.toList) : fired = true := by
  -- An attempt notes a cut only when it is cut off, and that takes the token.
  have hevent : ∀ {other : Batch} {event : RetryPolicy.Event Outcomes TransportError},
      .cut batch ∈ (Note.ofAttempt other event).toList → event = .cut := by
    intro other event hnote
    cases event with
    | finish result => cases result <;> simp [Note.ofAttempt] at hnote
    | cut => rfl
    | _ => simp [Note.ofAttempt] at hnote
  have hstep : ∀ {attempt : Attempt} {next : Attempt.Next Outcomes TransportError},
      policy.step? TransportError.isRetryable fired attempt .cut = some next → fired = true := by
    intro attempt next hnext
    cases fired with
    | false => simp [RetryPolicy.step?] at hnext
    | true => rfl
  cases h with
  | dropped hfired => exact hfired
  | advanced hadvanced => exact hstep (hevent hcut ▸ hadvanced)
  | ended hended => exact hstep (hevent hcut ▸ hended)
  | _ => simp at hcut

/-- What is lost with its worker is noted so, and lost. -/
theorem Pool.Shift.fate_of_broke {policy : RetryPolicy} {fired : Bool} {before after : Pool}
    {note : Option Note} (h : before.Shift policy fired after note)
    (hfaithful : before.Faithful policy notes) (hbroke : .broke batch ∈ note.toList) :
    (storyOf batch (notes ++ note.toList)).fate policy = .lost := by
  -- No event of an attempt is a breakdown.
  have hattempt : ∀ {other : Batch} {event : RetryPolicy.Event Outcomes TransportError},
      .broke batch ∉ (Note.ofAttempt other event).toList := by
    intro other event hnote
    cases event with
    | finish result => cases result <;> simp [Note.ofAttempt] at hnote
    | _ => simp [Note.ofAttempt] at hnote
  cases h with
  | advanced | ended => exact absurd hbroke hattempt
  | @broken other n _ hperm =>
    obtain rfl : batch = other := by simpa using hbroke
    have hunderway := hfaithful.tried _ (hperm.mem_iff.mpr List.mem_cons_self)
    rw [storyOf_append_self notes (by simp [Note.batch?])]
    exact @Story.Underway.fate_broke policy _ batch n hunderway
  | _ => simp at hbroke

namespace Run

variable {run next : Run} {note : Option Note} {failures : List (Nat × FailureReason)}

/-- **Something is noted about a batch only while its attempts go on.** -/
theorem Explained.goesOn (h : run.Explained notes) (hmove : run.Move note failures next)
    {told : Note} (htold : told ∈ note.toList) (habout : told.isAbout batch = true) :
    (storyOf batch notes).GoesOn := by
  cases hmove with
  | @openCycle cycle hstage _ hcycle =>
    obtain rfl := List.mem_singleton.mp htold
    -- The batches of a cycle that opens lay ahead, so nothing was told of them.
    have hahead : batch ∈ run.ahead := by
      rw [Run.ahead, hstage]
      exact h.accounted.orderly.sound.batchesFrom_eq_append hcycle ▸
        List.mem_append_left _ (of_decide_eq_true habout)
    rw [h.ahead batch hahead]
    exact Story.goesOn_blank
  | pool hstage hpool =>
    exact (Pool.shift_of_step? hpool).goesOn (h.pooled _ hstage) htold habout
  | intake | deliver =>
    obtain rfl := List.mem_singleton.mp htold
    simp [Note.isAbout, Note.batch?] at habout
  | _ => simp at htold

/-- What has come of the batches of a run is in their stories. -/
structure Traced (run : Run) (notes : List Note) : Prop where
  /-- What workers note is about batches of the plan. -/
  planned : ∀ note ∈ notes, ∀ batch, note.batch? = some batch → batch ∈ run.setup.plan.batches
  endsOnce : ∀ batch, (storyOf batch notes).EndsOnce
  answered : ∀ batch outcomes, .answered batch outcomes ∈ notes →
    (storyOf batch notes).answer = some outcomes
  /-- Nothing is noted about a batch before its cycle is started. -/
  blank : ∀ batch, (storyOf batch notes).opened = false → storyOf batch notes = .blank
  pending : ∀ batch ∈ run.pending, (storyOf batch notes).opened = true
  /-- A batch that is in no place has a result, is lost, or was cancelled before its cycle was
  started. -/
  gone : ∀ batch ∈ run.setup.plan.batches, batch ∉ run.ahead ++ run.pending →
    (storyOf batch notes).opened = true → batch ∈ (resultsIn notes).map (·.batch) ∨
      (storyOf batch notes).fate run.setup.policy = .lost
  /-- Nothing is cut off before the token has fired. -/
  fired : ∀ batch, .cut batch ∈ notes → run.fired = true
  broke : ∀ batch, .broke batch ∈ notes → (storyOf batch notes).fate run.setup.policy = .lost

namespace Traced

theorem start (setup : RunSetup) (telemetry : Telemetry) :
    (Run.start setup telemetry).Traced [] where
  planned := by simp
  endsOnce _ := Story.goesOn_blank.tell (.settled default)
  answered := by simp
  blank _ _ := rfl
  pending := by simp [Run.pending, Run.start]
  gone _ _ _ hopened := by simp [storyOf, Story.blank] at hopened
  fired := by simp
  broke := by simp

/-- The story of a batch stays the same, or its attempts had not ended. -/
theorem storyOf_cases (hexplained : run.Explained notes) (hmove : run.Move note failures next)
    (batch : Batch) : storyOf batch (notes ++ note.toList) = storyOf batch notes ∨
      (storyOf batch notes).GoesOn ∧ ∃ told, note = some told ∧ told.isAbout batch = true ∧
        storyOf batch (notes ++ note.toList) = (storyOf batch notes).tell told := by
  cases note with
  | none => exact .inl (by rw [Option.toList_none, List.append_nil])
  | some told =>
    cases habout : told.isAbout batch with
    | false => exact .inl (by simp [storyOf_append, habout])
    | true =>
      refine .inr ⟨hexplained.goesOn hmove List.mem_cons_self habout, told, rfl, habout, ?_⟩
      simp [storyOf_append, habout]

theorem planned_move (h : run.Traced notes) (hexplained : run.Explained notes)
    (hmove : run.Move note failures next) : ∀ told ∈ notes ++ note.toList, ∀ batch,
      told.batch? = some batch → batch ∈ next.setup.plan.batches := by
  intro told htold batch hbatch
  rw [hmove.setup_eq]
  rcases List.mem_append.mp htold with hold | hnew
  · exact h.planned told hold batch hbatch
  · have horderly := hexplained.accounted.orderly
    rcases hmove.mem_of_isAbout hnew (isAbout_of_batch? hbatch) with hpooled | ⟨hpending, -⟩
    · exact horderly.mem_batches (List.mem_append_right _ (horderly.pooled.subset hpooled))
    · exact horderly.mem_batches
        ((horderly.places_move hmove).subset (List.mem_append_right _ hpending))

theorem answered_move (h : run.Traced notes) (hexplained : run.Explained notes)
    (hmove : run.Move note failures next) : ∀ batch outcomes,
      .answered batch outcomes ∈ notes ++ note.toList →
        (storyOf batch (notes ++ note.toList)).answer = some outcomes := by
  intro batch outcomes hanswered
  rcases List.mem_append.mp hanswered with hold | hnew
  · -- nothing more is noted about a batch that has an answer
    have hanswer := h.answered batch outcomes hold
    rcases storyOf_cases hexplained hmove batch with hsame | ⟨hgoesOn, -⟩
    · rw [hsame, hanswer]
    · simp [hgoesOn.answer] at hanswer
  · obtain rfl := Option.mem_toList.mp hnew
    have habout : (Note.answered batch outcomes).isAbout batch = true := isAbout_of_batch? rfl
    simp [storyOf_append, habout, Story.tell]

theorem pending_move (h : run.Traced notes) (hmove : run.Move note failures next) :
    ∀ batch ∈ next.pending, (storyOf batch (notes ++ note.toList)).opened = true := by
  intro batch hbatch
  cases hmove with
  | openCycle => exact opened_append_opened hbatch
  | fire => exact opened_append (h.pending batch hbatch) _
  | @intake cycle result rest hstage =>
    refine opened_append (h.pending batch ?_) _
    rw [Run.pending, hstage]
    exact List.mem_of_mem_filter hbatch
  | pool hstage | deliver hstage =>
    refine opened_append (h.pending batch ?_) _
    rwa [Run.pending, hstage]
  | closeCycle | cancelRest | conclude => simp [Run.pending] at hbatch

theorem blank_move (h : run.Traced notes) (hexplained : run.Explained notes)
    (hmove : run.Move note failures next) : ∀ batch,
      (storyOf batch (notes ++ note.toList)).opened = false →
        storyOf batch (notes ++ note.toList) = .blank := by
  intro batch hopened
  have hbefore : (storyOf batch notes).opened = false :=
    Bool.eq_false_iff.mpr fun htrue => by simp [opened_append htrue] at hopened
  rcases storyOf_cases hexplained hmove batch with hsame | ⟨-, told, rfl, habout, -⟩
  · rw [hsame, h.blank batch hbefore]
  · -- a note about the batch comes from the open cycle, or starts its cycle
    rcases hmove.mem_of_isAbout List.mem_cons_self habout with hpooled | ⟨hpending, -⟩
    · have hpending := hexplained.accounted.orderly.pooled.subset hpooled
      simp [h.pending batch hpending] at hbefore
    · have htrue := h.pending_move hmove batch hpending
      rw [hopened] at htrue
      exact absurd htrue Bool.false_ne_true

theorem gone_move (h : run.Traced notes) (hexplained : run.Explained notes)
    (hmove : run.Move note failures next) : ∀ batch ∈ next.setup.plan.batches,
      batch ∉ next.ahead ++ next.pending →
        (storyOf batch (notes ++ note.toList)).opened = true →
          batch ∈ (resultsIn (notes ++ note.toList)).map (·.batch) ∨
            (storyOf batch (notes ++ note.toList)).fate next.setup.policy = .lost := by
  intro batch hbatch hnot hopened
  rw [hmove.setup_eq] at hbatch ⊢
  rw [resultsIn_append, List.map_append, List.mem_append]
  -- A batch that leaves now has its result, was lost, or was never opened; the others left before.
  by_cases hplaces : batch ∈ run.ahead ++ run.pending
  · rcases hexplained.left_move hmove hplaces hnot with hin | hlost | ⟨-, hahead, rfl⟩
    · exact .inl (.inr hin)
    · exact .inr hlost
    · rw [Option.toList_none, List.append_nil, hexplained.ahead batch hahead] at hopened
      simp [Story.blank] at hopened
  · have hstory := hexplained.storyOf_move hmove hplaces
    rw [hstory] at hopened ⊢
    exact (h.gone batch hbatch hplaces hopened).imp_left .inl

theorem fired_move (h : run.Traced notes) (hmove : run.Move note failures next) :
    ∀ batch, .cut batch ∈ notes ++ note.toList → next.fired = true := by
  intro batch hcut
  rcases List.mem_append.mp hcut with hold | hnew
  · have hbefore := h.fired batch hold
    cases hfired : next.fired with
    | true => rfl
    | false => simp [hmove.fired_of_fired hfired] at hbefore
  · cases hmove with
    | pool hstage hpool => exact (Pool.shift_of_step? hpool).fired_of_cut hnew
    | _ => simp at hnew

theorem broke_move (h : run.Traced notes) (hexplained : run.Explained notes)
    (hmove : run.Move note failures next) : ∀ batch, .broke batch ∈ notes ++ note.toList →
      (storyOf batch (notes ++ note.toList)).fate next.setup.policy = .lost := by
  intro batch hbroke
  rw [hmove.setup_eq]
  rcases List.mem_append.mp hbroke with hold | hnew
  · -- nothing more is noted about a batch that was lost with its worker
    rcases storyOf_cases hexplained hmove batch with hsame | ⟨hgoesOn, -⟩
    · rw [hsame, h.broke batch hold]
    · have hbefore := hgoesOn.broke
      simp [storyOf_broke.mpr hold] at hbefore
  · cases hmove with
    | pool hstage hpool =>
      exact (Pool.shift_of_step? hpool).fate_of_broke (hexplained.pooled _ hstage) hnew
    | _ => simp at hnew

theorem answer_eq_some (h : run.Traced notes) {outcomes : Outcomes} :
    (storyOf batch notes).answer = some outcomes ↔ .answered batch outcomes ∈ notes := by
  refine ⟨fun hanswer => ?_, h.answered batch outcomes⟩
  obtain ⟨noted, hnoted⟩ := storyOf_answer.mp (Option.isSome_of_eq_some hanswer)
  obtain rfl := Option.some.inj ((h.answered batch noted hnoted).symm.trans hanswer)
  exact hnoted

theorem opened_of_answered (h : run.Traced notes) {outcomes : Outcomes}
    (hanswered : .answered batch outcomes ∈ notes) : (storyOf batch notes).opened = true := by
  by_contra hnot
  have hanswer := h.answered batch outcomes hanswered
  rw [h.blank batch (Bool.eq_false_iff.mpr hnot)] at hanswer
  simp [Story.blank] at hanswer

/-- **Every move keeps a run traced.** -/
theorem move (h : run.Traced notes) (hexplained : run.Explained notes)
    (hmove : run.Move note failures next) : next.Traced (notes ++ note.toList) where
  planned := h.planned_move hexplained hmove
  endsOnce batch := by
    rcases storyOf_cases hexplained hmove batch with hsame | ⟨hgoesOn, told, -, -, hstory⟩
    · exact hsame ▸ h.endsOnce batch
    · exact hstory ▸ hgoesOn.tell told
  answered := h.answered_move hexplained hmove
  blank := h.blank_move hexplained hmove
  pending := h.pending_move hmove
  gone := h.gone_move hexplained hmove
  fired := h.fired_move hmove
  broke := h.broke_move hexplained hmove

end Traced

/-- **In every run, what has come of the batches is in their stories.** -/
theorem traced_of_execute {setup : RunSetup} (h : setup.plan.Sound) {telemetry : Telemetry}
    {events : List Event} (hrun : (start setup telemetry).execute events = some run) :
    run.Traced ((start setup telemetry).notes events) := by
  refine (execute_induct (motive := fun run notes => run.Explained notes ∧ run.Traced notes) hrun
    ⟨explained_start h telemetry, .start setup telemetry⟩ fun ⟨hexplained, htraced⟩ hstep => ?_).2
  obtain ⟨failures, hmove⟩ := move_of_step? hstep
  exact ⟨hexplained.move hmove, htraced.move hexplained hmove⟩

/-! ### Slots of a batch with a result -/

/-- Every slot of a batch that is settled is so as the outcomes of the batch say: it has failed for
the reason that they give, or it was fetched, its block was handed on, and the end of this delivery
decides whether it counts as fetched. -/
structure SettledAs (run : Run) (notes : List Note) (batch : Batch) (outcomes : Outcomes) :
    Prop where
  failed : ∀ slot ∈ batch.slots, slot ∉ run.unsettled → ∀ reason,
    Accounts.outcomeOf outcomes slot = .failed reason →
      run.accounts.ledger.reasonOf? slot = some reason
  fetched : ∀ slot ∈ batch.slots, slot ∉ run.unsettled → ∀ block,
    Accounts.outcomeOf outcomes slot = .fetched block → ∃ delivery ended,
      .delivered delivery ended ∈ notes ∧ slot ∈ delivery.slots.map (·.1) ∧
        run.accounts.ledger.reasonOf? slot = dispatchReason? ended ∧
        (ended = .ok () → slot ∈ notes.flatMap Note.fetched)

/-- **A batch with a result is settled by this result.** -/
theorem settledAs_of_mem_resultsIn (hexplained : run.Explained notes)
    (hdelivered : run.Delivered notes) (hresulted : run.Resulted notes) {result : BatchResult}
    (hin : result ∈ resultsIn notes) : run.SettledAs notes result.batch result.outcomes := by
  have hsound := hexplained.accounted.orderly.sound
  have hplan : result.batch ∈ run.setup.plan.batches :=
    hdelivered.results.subset (List.mem_append_left _ (List.mem_map_of_mem hin))
  refine ⟨fun slot hslot hsettled reason houtcome => ?_,
    fun slot hslot hsettled block houtcome => ?_⟩
  · rw [hexplained.settled _ hplan slot hslot hsettled]
    exact reasonFor_of_explains (hresulted.explains result hin) hslot houtcome
  · obtain ⟨delivery, hdelivery, hslots⟩ :=
      BatchResult.exists_delivery? run.setup (hsound.nodup_slots_of_mem hplan) hslot houtcome
        result.attempts
    have hmem : delivery ∈ deliveriesOver notes ++ run.deliveries :=
      hdelivered.deliveries.mem_iff.mpr (List.mem_filterMap.mpr ⟨result, hin, hdelivery⟩)
    -- the delivery of the result is over, since the slot is settled
    have hover : delivery ∈ deliveriesOver notes := by
      refine (List.mem_append.mp hmem).resolve_right fun hunderway => hsettled ?_
      exact List.mem_append_right _ (List.mem_flatMap.mpr ⟨delivery, hunderway, hslots⟩)
    obtain ⟨note, hnote, hnoted⟩ := List.mem_filterMap.mp hover
    cases note with
    | delivered found ended =>
      obtain rfl := Option.some.inj hnoted
      refine ⟨found, ended, hnote, hslots, (hdelivered.ends found ended hnote slot hslots).2, ?_⟩
      rintro rfl
      exact List.mem_flatMap.mpr ⟨_, hnote, hslots⟩
    | _ => simp [Note.delivery?] at hnoted

end Run

end Backfill
