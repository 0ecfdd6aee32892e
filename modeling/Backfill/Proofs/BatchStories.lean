import Backfill.Proofs.PoolPlaces

/-!
# What became of a batch

The notes about one batch tell its story: whether its cycle was started, which requests were sent
for it, and how they ended.  The story alone says what should become of the batch, and this is the
reference that the accounts of a run are held against.  Notes about other batches are no part of
the story, so a transition of the pool changes one story at most; and the place where a batch is
in the pool says how far its story has come.

## Main definitions

* `storyOf` — the story of a batch.
* `Fate`, `Story.fate` — what becomes of the batch according to its story.
* `Story.Underway` — the story of a batch that is being tried.
* `Story.Explains` — a result is what the story of its batch says.
* `Pool.Faithful` — every batch in a pool is where its story says.
* `Pool.Without` — the other batches of a pool, each in its place.

## Main results

* `storyOf_append_of_forall` — notes about other batches do not matter.
* `Story.Underway.advance`, `Story.Underway.ended` — **the attempts for a batch keep to its
  story**, and at their end the verdict is the fate.
* `Pool.Faithful.replace` — when one story goes on, the other batches stay.
* `Pool.Shift.faithful` — every transition keeps a pool faithful.
* `Pool.Shift.fate_of_not_mem` — a batch leaves a pool before its result only by being lost.
-/

namespace Backfill

/-! ### Stories -/

/-- Whether a note is about a batch. -/
def Note.isAbout (batch : Batch) : Note → Bool
  | .opened cycle => decide (batch ∈ cycle.batches)
  | note => decide (note.batch? = some batch)

theorem Note.isAbout_of_batch? {note : Note} {batch : Batch} (h : note.batch? = some batch)
    (other : Batch) : note.isAbout other = decide (batch = other) := by
  cases note <;> simp_all [isAbout, batch?]

/-- What has been noted about a batch. -/
structure Story where
  /-- Whether the cycle of the batch was started. -/
  opened : Bool
  /-- How many requests were sent. -/
  requests : Nat
  /-- Why requests failed as a whole, in order. -/
  refusals : List TransportError
  /-- The answer of the client. -/
  answer : Option Outcomes
  /-- Whether the token cut the attempts off. -/
  cut : Bool
  /-- Whether the worker that had the batch broke down. -/
  broke : Bool
deriving DecidableEq

namespace Story

/-- Nothing has been noted. -/
def blank : Story := ⟨false, 0, [], none, false, false⟩

/-- The cycle of the batch was started, and nothing else. -/
def listed : Story := { blank with opened := true }

/-- The story with one more note. -/
def tell (story : Story) : Note → Story
  | .opened _ => { story with opened := true }
  | .requested _ => { story with requests := story.requests + 1 }
  | .answered _ outcomes => { story with answer := some outcomes }
  | .refused _ error => { story with refusals := story.refusals ++ [error] }
  | .cut _ => { story with cut := true }
  | .broke _ => { story with broke := true }
  | .settled _ => story
  | .delivered _ _ => story

end Story

/-- The story of a batch: what the notes about it say. -/
def storyOf (batch : Batch) (notes : List Note) : Story :=
  (notes.filter (·.isAbout batch)).foldl Story.tell .blank

theorem storyOf_append (batch : Batch) (notes more : List Note) :
    storyOf batch (notes ++ more) =
      (more.filter (·.isAbout batch)).foldl Story.tell (storyOf batch notes) := by
  rw [storyOf, List.filter_append, List.foldl_append]
  rfl

/-- Notes about other batches do not matter. -/
theorem storyOf_append_of_forall {batch : Batch} (notes : List Note) {more : List Note}
    (h : ∀ note ∈ more, note.isAbout batch = false) :
    storyOf batch (notes ++ more) = storyOf batch notes := by
  have hnone : more.filter (·.isAbout batch) = [] := by
    rw [List.filter_eq_nil_iff]
    intro note hnote
    simp [h note hnote]
  rw [storyOf_append, hnone, List.foldl_nil]

theorem storyOf_append_outside (batch : Batch) (notes : List Note) (note : Note)
    (h : note.batch? = none) (hopened : ∀ cycle, note ≠ .opened cycle) :
    storyOf batch (notes ++ [note]) = storyOf batch notes := by
  refine storyOf_append_of_forall notes fun told htold => ?_
  obtain rfl := List.mem_singleton.mp htold
  cases told <;> simp_all [Note.isAbout, Note.batch?]

theorem storyOf_append_of_ne {batch other : Batch} (h : other ≠ batch) (notes : List Note)
    {more : List Note} (hmore : ∀ note ∈ more, note.batch? = some batch) :
    storyOf other (notes ++ more) = storyOf other notes :=
  storyOf_append_of_forall notes fun note hnote => by
    rw [Note.isAbout_of_batch? (hmore note hnote)]
    exact decide_eq_false (Ne.symm h)

theorem storyOf_append_self {batch : Batch} (notes : List Note) {more : List Note}
    (hmore : ∀ note ∈ more, note.batch? = some batch) :
    storyOf batch (notes ++ more) = more.foldl Story.tell (storyOf batch notes) := by
  have hall : more.filter (·.isAbout batch) = more := by
    refine List.filter_eq_self.mpr fun note hnote => ?_
    rw [Note.isAbout_of_batch? (hmore note hnote), decide_eq_true rfl]
  rw [storyOf_append, hall]

/-- What becomes of a batch. -/
inductive Fate
  /-- The client answered. -/
  | answered (outcomes : Outcomes)
  /-- Every attempt failed. -/
  | exhausted (attempts : Nat) (lastError : String)
  /-- The token cut the attempts off, or the cycle of the batch was never started. -/
  | cancelled
  /-- There was no worker left to end the attempts. -/
  | lost
deriving DecidableEq

namespace Story

/-- **What becomes of a batch according to its story.**  Its attempts are used up when as many
requests have failed as the policy allows. -/
def fate (policy : RetryPolicy) (story : Story) : Fate :=
  match story.answer with
  | some outcomes => .answered outcomes
  | none =>
    if story.cut then .cancelled
    else if story.refusals.length = policy.maxAttempts then
      .exhausted story.requests ((story.refusals.getLast?.map (·.message)).getD "")
    else if story.opened then .lost
    else .cancelled

variable {policy : RetryPolicy} {story : Story}

theorem fate_blank (policy : RetryPolicy) : blank.fate policy = .cancelled := by
  have hmax := policy.one_le_maxAttempts
  have hne : ¬0 = policy.maxAttempts := by omega
  simp [fate, blank, hne]

theorem fate_listed (policy : RetryPolicy) : listed.fate policy = .lost := by
  have hmax := policy.one_le_maxAttempts
  have hne : ¬0 = policy.maxAttempts := by omega
  simp [fate, listed, blank, hne]

end Story

/-! ### Batches that are tried -/

namespace RetryPolicy

variable {policy : RetryPolicy} {fired : Bool} {attempt next : Attempt}
  {event : Event Outcomes TransportError} {verdict : Verdict Outcomes TransportError}

/-- How an operation goes on. -/
theorem cases_of_inl
    (h : policy.step? TransportError.isRetryable fired attempt event = some (.inl next)) :
    (∃ n, event = .start ∧ attempt = .waiting n ∧ next = .running n) ∨
      (∃ n error, event = .finish (.error error) ∧ attempt = .running n ∧
        n < policy.maxAttempts ∧ (next = .waiting (n + 1) ∨ next = .pausing n)) ∨
      ∃ n, event = .resume ∧ attempt = .pausing n ∧ next = .waiting (n + 1) := by
  -- one case for each line of the machine; those that end the attempts drop out
  unfold step? at h
  split at h
  · simp at h
  · next n => exact .inl ⟨n, rfl, rfl, (Sum.inl.inj (Option.some.inj h)).symm⟩
  · simp at h
  · next error n =>
    refine .inr (.inl ⟨n, error, rfl, rfl, ?_⟩)
    -- after a failure the attempts go on only below the limit, with or without a delay
    by_cases hlast : policy.maxAttempts ≤ n
    · simp [afterFailure, TransportError.isRetryable, hlast] at h
    · refine ⟨by omega, ?_⟩
      by_cases hdelay : policy.retryDelay = 0 <;>
        simp [afterFailure, TransportError.isRetryable, hlast, hdelay] at h <;> simp [h]
  · next n => exact .inr (.inr ⟨n, rfl, rfl, (Sum.inl.inj (Option.some.inj h)).symm⟩)
  · simp at h

/-- How an operation ends. -/
theorem cases_of_inr
    (h : policy.step? TransportError.isRetryable fired attempt event = some (.inr verdict)) :
    (event = .cut ∧ verdict = .cancelled attempt.number) ∨
      (∃ n outcomes, event = .finish (.ok outcomes) ∧ attempt = .running n ∧
        verdict = .answered outcomes n) ∨
      ∃ n error, event = .finish (.error error) ∧ attempt = .running n ∧
        policy.maxAttempts ≤ n ∧ verdict = .failed error n := by
  unfold step? at h
  split at h
  · exact .inl ⟨rfl, (Sum.inr.inj (Option.some.inj h)).symm⟩
  · simp at h
  · next outcomes n =>
    exact .inr (.inl ⟨n, outcomes, rfl, rfl, (Sum.inr.inj (Option.some.inj h)).symm⟩)
  · next error n =>
    refine .inr (.inr ⟨n, error, rfl, rfl, ?_⟩)
    -- a failure is the end exactly at the limit, since every transport error may be retried
    by_cases hlast : policy.maxAttempts ≤ n
    · simp [afterFailure, TransportError.isRetryable, hlast] at h
      exact ⟨hlast, h.symm⟩
    · by_cases hdelay : policy.retryDelay = 0 <;>
        simp [afterFailure, TransportError.isRetryable, hlast, hdelay] at h
  · simp at h
  · simp at h

end RetryPolicy

/-- How many requests have been sent when an operation stands there. -/
def Attempt.sent : Attempt → Nat
  | .waiting n => n - 1
  | .running n => n
  | .pausing n => n

/-- How many of these requests have failed. -/
def Attempt.refused : Attempt → Nat
  | .waiting n => n - 1
  | .running n => n - 1
  | .pausing n => n

namespace Story

/-- The story of a batch that is being tried: the requests are counted, as many have failed as the
count says, and there is an attempt left. -/
structure Underway (policy : RetryPolicy) (attempt : Attempt) (story : Story) : Prop where
  opened : story.opened = true
  answer : story.answer = none
  cut : story.cut = false
  broke : story.broke = false
  one_le : 1 ≤ attempt.number
  requests : story.requests = attempt.sent
  refusals : story.refusals.length = attempt.refused
  remains : attempt.refused < policy.maxAttempts

/-- A result is what the story of its batch says. -/
def Explains (policy : RetryPolicy) (story : Story) (result : BatchResult) : Prop :=
  match story.fate policy with
  | .answered outcomes => result.outcomes = outcomes
  | .exhausted attempts lastError =>
    result.outcomes = .uniform result.batch.slots (.exhaustedRetries attempts lastError)
  | .cancelled => result.outcomes = .uniform result.batch.slots .cancelled
  | .lost => False

variable {policy : RetryPolicy} {story : Story} {fired : Bool} {attempt next : Attempt}
  {batch : Batch} {event : RetryPolicy.Event Outcomes TransportError}
  {verdict : Verdict Outcomes TransportError}

theorem underway_listed (policy : RetryPolicy) : listed.Underway policy (.waiting 1) :=
  ⟨rfl, rfl, rfl, rfl, Nat.le_refl _, rfl, rfl, policy.one_le_maxAttempts⟩

theorem fate_cut (h : story.answer = none) :
    (story.tell (.cut batch)).fate policy = .cancelled := by
  simp [fate, tell, h]

theorem Underway.fate_broke {n : Nat} (h : story.Underway policy (.running n)) :
    (story.tell (.broke batch)).fate policy = .lost := by
  have hrefusals := h.refusals
  have hremains := h.remains
  have hne : ¬story.refusals.length = policy.maxAttempts := by omega
  simp [fate, tell, h.answer, h.cut, h.opened, hne]

/-- **While the attempts for a batch go on, they keep to its story.** -/
theorem Underway.advance (h : story.Underway policy attempt)
    (hstep : policy.step? TransportError.isRetryable fired attempt event = some (.inl next)) :
    ((Note.ofAttempt batch event).toList.foldl tell story).Underway policy next := by
  obtain ⟨hopened, hanswer, hcut, hbroke, hone, hrequests, hrefusals, hremains⟩ := h
  rcases RetryPolicy.cases_of_inl hstep with ⟨n, rfl, rfl, rfl⟩ |
    ⟨n, error, rfl, rfl, hless, rfl | rfl⟩ | ⟨n, rfl, rfl, rfl⟩ <;>
    simp only [Attempt.number, Attempt.sent, Attempt.refused] at hone hrequests hrefusals hremains
  · -- A request is sent.
    refine ⟨hopened, hanswer, hcut, hbroke, hone, ?_, hrefusals, hremains⟩
    simp only [Note.ofAttempt, Option.toList_some, List.foldl_cons, List.foldl_nil, tell,
      Attempt.sent]
    omega
  -- A request has failed, and it is repeated at once or after a delay.
  · refine ⟨hopened, hanswer, hcut, hbroke, Nat.le_add_left _ _, hrequests, ?_, hless⟩
    simp only [Note.ofAttempt, Option.toList_some, List.foldl_cons, List.foldl_nil, tell,
      List.length_append, List.length_singleton, Attempt.refused]
    omega
  · refine ⟨hopened, hanswer, hcut, hbroke, hone, hrequests, ?_, hless⟩
    simp only [Note.ofAttempt, Option.toList_some, List.foldl_cons, List.foldl_nil, tell,
      List.length_append, List.length_singleton, Attempt.refused]
    omega
  · -- The delay has ended.
    exact ⟨hopened, hanswer, hcut, hbroke, Nat.le_add_left _ _, hrequests, hrefusals, hremains⟩

/-- **When the attempts for a batch end, the verdict is the fate.** -/
theorem Underway.ended (h : story.Underway policy attempt)
    (hstep : policy.step? TransportError.isRetryable fired attempt event = some (.inr verdict)) :
    ((Note.ofAttempt batch event).toList.foldl tell story).Explains policy
      (.ofVerdict batch verdict) := by
  obtain ⟨hopened, hanswer, hcut, hbroke, hone, hrequests, hrefusals, hremains⟩ := h
  rcases RetryPolicy.cases_of_inr hstep with ⟨rfl, rfl⟩ | ⟨n, outcomes, rfl, rfl, rfl⟩ |
    ⟨n, error, rfl, rfl, hlast, rfl⟩
  · have hfate := @fate_cut policy story batch hanswer
    simp [Explains, Note.ofAttempt, hfate, BatchResult.ofVerdict, BatchResult.cancelled,
      BatchResult.uniform]
  · simp [Explains, Note.ofAttempt, fate, tell, BatchResult.ofVerdict]
  · simp only [Attempt.number, Attempt.sent, Attempt.refused] at hone hrequests hrefusals hremains
    -- with this refusal the attempts are used up, which is what the fate counts
    have hall : story.refusals.length + 1 = policy.maxAttempts := by omega
    simp [Explains, Note.ofAttempt, fate, tell, hanswer, hcut, hall, hrequests,
      BatchResult.ofVerdict, BatchResult.uniform]

end Story

/-! ### Batches in a pool -/

namespace Pool

/-- Every batch in a pool is where its story says. -/
structure Faithful (policy : RetryPolicy) (notes : List Note) (pool : Pool) : Prop where
  untried : ∀ batch ∈ pool.untried, storyOf batch notes = .listed
  tried : ∀ entry ∈ pool.tried, (storyOf entry.1 notes).Underway policy entry.2
  finished : ∀ result ∈ pool.finished, (storyOf result.batch notes).Explains policy result

variable {policy : RetryPolicy} {fired : Bool} {before after : Pool} {notes : List Note}
  {note : Option Note} {batch : Batch}

/-- Lists in which the other batches of a pool stand, each in the place that it has in the pool. -/
structure Without (pool : Pool) (batch : Batch) (untried : List Batch)
    (tried : List (Batch × Attempt)) (finished : List BatchResult) : Prop where
  untried : ∀ other ∈ untried, other ∈ pool.untried ∧ other ≠ batch
  tried : ∀ entry ∈ tried, entry ∈ pool.tried ∧ entry.1 ≠ batch
  finished : ∀ result ∈ finished, result ∈ pool.finished ∧ result.batch ≠ batch

/-- A batch that no worker has taken is nowhere else in the pool. -/
theorem without_of_untried (hnodup : before.batches.Nodup) {rest : List Batch}
    (h : before.untried.Perm (batch :: rest)) :
    before.Without batch rest before.tried before.finished := by
  have hbatches : before.batches.Perm
      (batch :: (rest ++ before.tried.map (·.1) ++ before.finished.map (·.batch))) :=
    (h.append_right _).append_right _
  obtain ⟨hnew, -⟩ := List.nodup_cons.mp (hbatches.nodup_iff.mp hnodup)
  simp only [List.mem_append, List.mem_map, not_or, not_exists, not_and] at hnew
  exact ⟨fun other hother =>
      ⟨h.mem_iff.mpr (List.mem_cons_of_mem _ hother), fun heq => hnew.1.1 (heq ▸ hother)⟩,
    fun entry hentry => ⟨hentry, hnew.1.2 entry hentry⟩,
    fun result hresult => ⟨hresult, hnew.2 result hresult⟩⟩

theorem without_of_tried (hnodup : before.batches.Nodup) {attempt : Attempt}
    {others : List (Batch × Attempt)} (h : before.tried.Perm ((batch, attempt) :: others)) :
    before.Without batch before.untried others before.finished := by
  have hbatches : before.batches.Perm
      (batch :: (before.untried ++ others.map (·.1) ++ before.finished.map (·.batch))) :=
    (((h.map _).append_left _).trans List.perm_middle).append_right _
  obtain ⟨hnew, -⟩ := List.nodup_cons.mp (hbatches.nodup_iff.mp hnodup)
  simp only [List.mem_append, List.mem_map, not_or, not_exists, not_and] at hnew
  exact ⟨fun other hother => ⟨hother, fun heq => hnew.1.1 (heq ▸ hother)⟩,
    fun entry hentry => ⟨h.mem_iff.mpr (List.mem_cons_of_mem _ hentry), hnew.1.2 entry hentry⟩,
    fun result hresult => ⟨hresult, hnew.2 result hresult⟩⟩

theorem Shift.mem_of_isAbout (h : Shift policy fired before after note) {told : Note}
    (htold : told ∈ note.toList) (habout : told.isAbout batch = true) : batch ∈ before.batches := by
  obtain ⟨other, hother, hbatch⟩ := h.exists_batch htold
  rw [Note.isAbout_of_batch? hbatch, decide_eq_true_iff] at habout
  exact habout ▸ hother

theorem Shift.storyOf_of_not_mem (h : Shift policy fired before after note)
    (hbatch : batch ∉ before.batches) :
    storyOf batch (notes ++ note.toList) = storyOf batch notes :=
  storyOf_append_of_forall notes fun _ hnote =>
    Bool.eq_false_iff.mpr fun habout => hbatch (h.mem_of_isAbout hnote habout)

theorem Faithful.congr {pool : Pool} {notes more : List Note} (h : pool.Faithful policy notes)
    (hsame : ∀ batch, storyOf batch more = storyOf batch notes) : pool.Faithful policy more where
  untried batch hbatch := by rw [hsame, h.untried batch hbatch]
  tried entry hentry := by
    rw [hsame]
    exact h.tried entry hentry
  finished result hresult := by
    rw [hsame]
    exact h.finished result hresult

/-- **The other batches stay.**  When only the story of one batch goes on, a pool stays faithful as
long as that batch is where its story says afterwards. -/
theorem Faithful.replace (h : before.Faithful policy notes) {untried : List Batch}
    {tried : List (Batch × Attempt)} {finished : List BatchResult}
    (hwithout : before.Without batch untried tried finished) {more : List Note}
    (hmore : ∀ note ∈ more, note.batch? = some batch)
    (huntried : after.untried ⊆ untried)
    (htried : ∀ entry ∈ after.tried,
      (storyOf entry.1 (notes ++ more)).Underway policy entry.2 ∨ entry ∈ tried)
    (hfinished : ∀ result ∈ after.finished,
      (storyOf result.batch (notes ++ more)).Explains policy result ∨ result ∈ finished) :
    after.Faithful policy (notes ++ more) where
  untried other hother := by
    obtain ⟨hold, hne⟩ := hwithout.untried other (huntried hother)
    -- the notes are about another batch, so the story is the old one
    rw [storyOf_append_of_ne hne notes hmore]
    exact h.untried other hold
  tried entry hentry := by
    refine (htried entry hentry).elim id fun hkept => ?_
    obtain ⟨hold, hne⟩ := hwithout.tried entry hkept
    rw [storyOf_append_of_ne hne notes hmore]
    exact h.tried entry hold
  finished result hresult := by
    refine (hfinished result hresult).elim id fun hkept => ?_
    obtain ⟨hold, hne⟩ := hwithout.finished result hkept
    rw [storyOf_append_of_ne hne notes hmore]
    exact h.finished result hold

/-- **Every transition keeps a pool faithful.** -/
theorem Shift.faithful (h : Shift policy fired before after note) (hnodup : before.batches.Nodup)
    (hfaithful : before.Faithful policy notes) : after.Faithful policy (notes ++ note.toList) := by
  cases h with
  | still huntried htried hfinished =>
    rw [Option.toList_none, List.append_nil]
    exact ⟨fun batch hbatch => hfaithful.untried batch (huntried.mem_iff.mpr hbatch),
      fun entry hentry => hfaithful.tried entry (htried.mem_iff.mpr hentry),
      fun result hresult => hfaithful.finished result (hfinished.mem_iff.mpr hresult)⟩
  | @taken batch _ huntried htried hfinished =>
    -- nothing is noted, but the batch is in another place
    have hstory := hfaithful.untried batch (huntried.mem_iff.mpr List.mem_cons_self)
    refine hfaithful.replace (without_of_untried hnodup huntried) nofun (fun _ => id)
      (fun entry hentry => ?_) (fun result hresult => .inr (hfinished.mem_iff.mpr hresult))
    refine (List.mem_cons.mp (htried.mem_iff.mp hentry)).imp_left ?_
    rintro rfl
    rw [Option.toList_none, List.append_nil, hstory]
    exact Story.underway_listed policy
  | @dropped batch _ huntried htried hfinished =>
    -- the batch was only listed, and is cut off before a request for it is sent
    have hstory := hfaithful.untried batch (huntried.mem_iff.mpr List.mem_cons_self)
    have hcut : ∀ note ∈ [Note.cut batch], note.batch? = some batch := by simp [Note.batch?]
    refine hfaithful.replace (without_of_untried hnodup huntried) hcut (fun _ => id)
      (fun entry hentry => .inr (htried.mem_iff.mpr hentry)) (fun result hresult => ?_)
    refine (List.mem_cons.mp (hfinished.mem_iff.mp hresult)).imp_left ?_
    rintro rfl
    have hfate : (Story.listed.tell (.cut batch)).fate policy = .cancelled := Story.fate_cut rfl
    simp only [BatchResult.cancelled, BatchResult.uniform, Option.toList_some]
    rw [storyOf_append_self notes hcut, hstory, Story.Explains]
    simp [hfate]
  | @advanced batch attempt next others event hstep huntried htried htriedAfter hfinished =>
    -- one story goes on, and its attempt with it
    have hunderway := hfaithful.tried _ (htried.mem_iff.mpr List.mem_cons_self)
    have hnoted : ∀ note ∈ (Note.ofAttempt batch event).toList, note.batch? = some batch :=
      fun _ => Note.batch?_of_mem_ofAttempt
    refine hfaithful.replace (without_of_tried hnodup htried) hnoted huntried.symm.subset
      (fun entry hentry => ?_) (fun result hresult => .inr (hfinished.mem_iff.mpr hresult))
    refine (List.mem_cons.mp (htriedAfter.mem_iff.mp hentry)).imp_left ?_
    rintro rfl
    rw [storyOf_append_self notes hnoted]
    exact hunderway.advance hstep
  | @ended batch attempt verdict event hstep huntried htried hfinished =>
    -- one story comes to its end, and the verdict is its fate
    have hunderway := hfaithful.tried _ (htried.mem_iff.mpr List.mem_cons_self)
    have hnoted : ∀ note ∈ (Note.ofAttempt batch event).toList, note.batch? = some batch :=
      fun _ => Note.batch?_of_mem_ofAttempt
    refine hfaithful.replace (without_of_tried hnodup htried) hnoted huntried.symm.subset
      (fun entry hentry => .inr hentry) (fun result hresult => ?_)
    refine (List.mem_cons.mp (hfinished.mem_iff.mp hresult)).imp_left ?_
    rintro rfl
    rw [BatchResult.batch_ofVerdict, storyOf_append_self notes hnoted]
    exact hunderway.ended hstep
  | @broken batch n huntried htried hfinished =>
    -- the story ends, and the batch is in no place of the pool
    have hbroke : ∀ note ∈ [Note.broke batch], note.batch? = some batch := by simp [Note.batch?]
    exact hfaithful.replace (without_of_tried hnodup htried) hbroke huntried.symm.subset
      (fun entry hentry => .inr hentry) (fun result hresult => .inr (hfinished.mem_iff.mpr hresult))

/-- **A batch leaves a pool before its result only by being lost.** -/
theorem Shift.fate_of_not_mem (h : Shift policy fired before after note)
    (hfaithful : before.Faithful policy notes) (hbefore : batch ∈ before.batches)
    (hafter : batch ∉ after.batches) :
    (storyOf batch (notes ++ note.toList)).fate policy = .lost ∧
      (storyOf batch (notes ++ note.toList)).broke = true := by
  rcases h.batches_perm with hperm | ⟨lost, n, rfl, hlost, hperm⟩
  · exact absurd (hperm.mem_iff.mp hbefore) hafter
  · rcases List.mem_cons.mp (hperm.mem_iff.mp hbefore) with rfl | hother
    · have hbroke : ∀ note ∈ [Note.broke batch], note.batch? = some batch := by
        simp [Note.batch?]
      rw [Option.toList_some, storyOf_append_self notes hbroke]
      have hfate := @Story.Underway.fate_broke policy _ batch n (hfaithful.tried _ hlost)
      exact ⟨hfate, rfl⟩
    · exact absurd hother hafter

end Pool

end Backfill
