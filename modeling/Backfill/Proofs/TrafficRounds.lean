import Backfill.Traffic
import Backfill.Proofs.RunUnreachable

/-!
# The traffic of a run keeps to the run

What the program does in a run is decided round by round.  A round makes at most one transition of
the run beside that of the token, and tells the run nothing that was not seen; so whatever holds of
all executions holds of the program.  A request is sent only against a token, and tokens come back
one in each interval.  And the program has a reason whenever it waits: a token, a reply or the end
of a delay is missing, or a delivery is on its way.

## Main definitions

* `Sight.Shows` — an event tells a run nothing but what is seen.
* `Run.Prompted` — transitions in a row, each prompted by one of several looks.
* `Traffic.Moves` — what a move does.
* `Traffic.Pays` — what is kept of tokens and time.
* `Traffic.Still`, `Traffic.Waits` — no move is possible, and what the program waits for then.

## Main results

* `Traffic.moves_of_move?` — **all that a move can do.**
* `Traffic.exists_prompted_rounds` — **rounds in a row are an execution of the run.**
* `Traffic.requests_mul_interval_le` — requests are sent at the rate of the limiter.
* `Traffic.waits_of_idle` — without a move, the run is over or waits for something outside.
-/

namespace Backfill

/-! ### What is seen -/

/-- Whether an event tells a run nothing but what is seen.  Nothing shows that a worker breaks
down; and what takes nothing from outside needs nothing to show it. -/
def Sight.Shows (sight : Sight) (run : Run) : Run.Event → Prop
  | .fire => sight.stopped = true
  | .pool (.attempt worker (.finish result)) => ∃ cycle batch attempt reply,
      run.stage = .busy cycle ∧ cycle.pool.workers[worker]? = some (.trying batch attempt) ∧
        sight.replies.lookup worker = some reply ∧ result = Exchange.batch batch.slots reply
  | .pool (.breakDown _) => False
  | .deliver position result => sight.delivered = some result ∨ ∃ cycle delivery,
      run.stage = .busy cycle ∧ cycle.deliveries[position]? = some delivery ∧
        delivery.records = [] ∧ result = .ok ()
  | _ => True

namespace Run

/-- Transitions in a row, each of which is prompted by one of several looks. -/
inductive Prompted (sights : List Sight) : Run → List Event → Run → Prop
  | nil (run : Run) : Prompted sights run [] run
  | cons {run next final : Run} {event : Event} {rest : List Event} {sight : Sight}
    (hsight : sight ∈ sights) (hstep : run.step? event = some next)
    (hshows : sight.Shows run event) (hrest : Prompted sights next rest final) :
    Prompted sights run (event :: rest) final

namespace Prompted

variable {run middle final : Run} {first second : List Event} {sights more : List Sight}

theorem execute (h : Prompted sights run first final) : run.execute first = some final := by
  induction h with
  | nil => rfl
  | cons _ hstep _ _ ih => rw [execute_cons, hstep, Option.bind_some, ih]

theorem mono (h : Prompted sights run first final) (hmore : sights ⊆ more) :
    Prompted more run first final := by
  induction h with
  | nil => exact .nil _
  | cons hsight hstep hshows _ ih => exact .cons (hmore hsight) hstep hshows ih

theorem append (h : Prompted sights run first middle) (hsecond : Prompted sights middle second final) :
    Prompted sights run (first ++ second) final := by
  induction h with
  | nil => exact hsecond
  | cons hsight hstep hshows _ ih => exact .cons hsight hstep hshows (ih hsecond)

end Prompted

end Run

/-- Whether a request is asked for. -/
def Order.isRequest : Order → Bool
  | .request .. => true
  | .deliver _ => false

namespace Traffic

variable {traffic next : Traffic} {sight : Sight} {order : Option Order} {event : Run.Event}
  {cycle : CycleState}

/-! ### What a move does -/

/-- All that a move can do. -/
inductive Moves (sight : Sight) (traffic : Traffic) : Traffic → Option Order → Prop
  /-- The run goes on without asking for anything. -/
  | goesOn {event : Run.Event} {next : Traffic} (hstep : traffic.run.step? event = some next.run)
    (hshows : sight.Shows traffic.run event) (hlimiter : next.limiter = traffic.limiter)
    (hrefill : next.refill = traffic.refill) : Moves sight traffic next none
  /-- An attempt that is due starts, against a token. -/
  | requests {cycle : CycleState} {worker n : Nat} {batch : Batch} {next : Traffic}
    (hstage : traffic.run.stage = .busy cycle)
    (hworker : cycle.pool.workers[worker]? = some (.trying batch (.waiting n)))
    (hstep : traffic.run.step? (.pool (.attempt worker .start)) = some next.run)
    (htoken : traffic.limiter.acquire false = (.granted, next.limiter))
    (hrefill : next.refill = traffic.refill) :
    Moves sight traffic next (some (.request worker batch))
  /-- A delivery that has something to hand on starts; the run stays where it is. -/
  | delivers {cycle : CycleState} {delivery : Delivery} {next : Traffic}
    (hstage : traffic.run.stage = .busy cycle) (hfirst : cycle.deliveries[0]? = some delivery)
    (hrecords : delivery.records ≠ []) (hidle : traffic.sending = false)
    (hrun : next.run = traffic.run) (hlimiter : next.limiter = traffic.limiter)
    (hrefill : next.refill = traffic.refill) :
    Moves sight traffic next (some (.deliver delivery.records))

theorem step?_eq_some (h : traffic.step? event = some next) :
    ∃ run, traffic.run.step? event = some run ∧ next = { traffic with run := run } := by
  obtain ⟨run, hrun, rfl⟩ := Option.map_eq_some_iff.mp h
  exact ⟨run, hrun, rfl⟩

theorem moves_of_quietly? (h : traffic.quietly? event = some (next, order))
    (hshows : sight.Shows traffic.run event) : traffic.Moves sight next order := by
  obtain ⟨stepped, hstep, heq⟩ := Option.map_eq_some_iff.mp h
  obtain ⟨run, hrun, rfl⟩ := step?_eq_some hstep
  cases heq
  exact .goesOn hrun hshows rfl rfl

theorem moves_of_request? {worker n : Nat} {batch : Batch}
    (hstage : traffic.run.stage = .busy cycle)
    (hworker : cycle.pool.workers[worker]? = some (.trying batch (.waiting n)))
    (h : traffic.request? worker batch = some (next, order)) : traffic.Moves sight next order := by
  unfold request? at h
  split at h
  case h_1 limiter htoken =>
    obtain ⟨stepped, hstep, heq⟩ := Option.map_eq_some_iff.mp h
    obtain ⟨run, hrun, rfl⟩ := step?_eq_some hstep
    cases heq
    exact .requests hstage hworker hrun htoken rfl
  case h_2 => cases h

theorem moves_of_answer? {worker : Nat} {batch : Batch} {attempt : Attempt}
    (hstage : traffic.run.stage = .busy cycle)
    (hworker : cycle.pool.workers[worker]? = some (.trying batch attempt))
    (h : traffic.answer? sight worker batch = some (next, order)) :
    traffic.Moves sight next order := by
  obtain ⟨reply, hreply, hmap⟩ := Option.bind_eq_some_iff.mp h
  obtain ⟨stepped, hstep, heq⟩ := Option.map_eq_some_iff.mp hmap
  obtain ⟨run, hrun, rfl⟩ := step?_eq_some hstep
  cases heq
  exact .goesOn hrun ⟨cycle, batch, attempt, reply, hstage, hworker, hreply, rfl⟩ rfl rfl

theorem moves_of_worker? {position : Nat} {worker : Worker}
    (hstage : traffic.run.stage = .busy cycle) (hworker : cycle.pool.workers[position]? = some worker)
    (h : traffic.worker? sight position worker = some (next, order)) :
    traffic.Moves sight next order := by
  cases worker with
  | idle =>
    rcases Option.or_eq_some_iff.mp h with htake | ⟨-, hleave⟩
    · exact moves_of_quietly? htake trivial
    · exact moves_of_quietly? hleave trivial
  | trying batch attempt =>
    simp only [worker?, attempt?] at h
    split at h
    · exact moves_of_quietly? h trivial
    · -- the token has not fired, and the attempt says what the worker waits for
      cases attempt with
      | waiting n => exact moves_of_request? hstage hworker h
      | running n => exact moves_of_answer? hstage hworker h
      | pausing n =>
        dsimp only at h
        split at h
        · exact moves_of_quietly? h trivial
        · cases h
  | reporting result => exact moves_of_quietly? h trivial
  | left | lost => cases h

theorem moves_of_delivery? {delivery : Delivery} (hstage : traffic.run.stage = .busy cycle)
    (hfirst : cycle.deliveries[0]? = some delivery)
    (h : traffic.delivery? sight delivery = some (next, order)) : traffic.Moves sight next order := by
  unfold delivery? at h
  -- A delivery without records ends at once; any other one is first sent, and then answered.
  split at h
  next hempty =>
    exact moves_of_quietly? h
      (.inr ⟨cycle, delivery, hstage, hfirst, List.isEmpty_iff.mp hempty, rfl⟩)
  next hfilled =>
    split at h
    next =>
      obtain ⟨result, hresult, hmap⟩ := Option.bind_eq_some_iff.mp h
      obtain ⟨stepped, hstep, heq⟩ := Option.map_eq_some_iff.mp hmap
      obtain ⟨run, hrun, rfl⟩ := step?_eq_some hstep
      cases heq
      exact .goesOn hrun (.inl hresult) rfl rfl
    next hsending =>
      cases h
      exact .delivers hstage hfirst (fun hnil => hfilled (List.isEmpty_iff.mpr hnil))
        (Bool.eq_false_iff.mpr hsending) rfl rfl rfl

theorem moves_of_cycle? (hstage : traffic.run.stage = .busy cycle)
    (h : traffic.cycle? sight cycle = some (next, order)) : traffic.Moves sight next order := by
  rcases Option.or_eq_some_iff.mp h with hintake | ⟨-, hrest⟩
  · exact moves_of_quietly? hintake trivial
  rcases Option.or_eq_some_iff.mp hrest with hdelivery | ⟨-, hrest⟩
  · obtain ⟨delivery, hfirst, hmove⟩ := Option.bind_eq_some_iff.mp hdelivery
    exact moves_of_delivery? hstage (List.head?_eq_getElem? ▸ hfirst) hmove
  rcases Option.or_eq_some_iff.mp hrest with henqueue | ⟨-, hrest⟩
  · exact moves_of_quietly? henqueue trivial
  rcases Option.or_eq_some_iff.mp hrest with hworker | ⟨-, hclose⟩
  · obtain ⟨worker, hmem, hmove⟩ := List.exists_of_findSome?_eq_some hworker
    exact moves_of_worker? hstage (List.mem_zipIdx_iff_getElem?.mp hmem) hmove
  · exact moves_of_quietly? hclose trivial

@[simp] theorem run_refilled (traffic : Traffic) (now : Nat) :
    (traffic.refilled now).run = traffic.run := by
  unfold refilled
  split <;> rfl

/-- **All that a move can do**, once the tokens that have come back are there. -/
theorem moves_of_move? (h : traffic.move? sight = some (next, order)) :
    traffic.Moves sight next order ∨ (traffic.refilled sight.now).Moves sight next order := by
  unfold move? at h
  split at h
  case h_1 => cases h
  case h_2 cycle hstage => exact .inr (moves_of_cycle? (by rw [run_refilled, hstage]) h)
  case h_3 =>
    rcases Option.or_eq_some_iff.mp h with hconclude | ⟨-, hrest⟩
    · exact .inl (moves_of_quietly? hconclude trivial)
    rcases Option.or_eq_some_iff.mp hrest with hcancel | ⟨-, hopen⟩
    · exact .inl (moves_of_quietly? hcancel trivial)
    · exact .inl (moves_of_quietly? hopen trivial)

/-! ### Rounds are an execution -/

theorem Moves.exists_prompted (h : traffic.Moves sight next order) :
    ∃ events, Run.Prompted [sight] traffic.run events next.run := by
  cases h with
  | goesOn hstep hshows =>
    exact ⟨_, .cons (List.mem_singleton_self _) hstep hshows (.nil _)⟩
  | requests _ _ hstep =>
    exact ⟨_, .cons (List.mem_singleton_self _) hstep trivial (.nil _)⟩
  | delivers _ _ _ _ hrun => exact ⟨[], hrun ▸ .nil _⟩

theorem exists_prompted_noticed (traffic : Traffic) (sight : Sight) :
    ∃ events, Run.Prompted [sight] traffic.run events (traffic.noticed sight).run := by
  unfold noticed
  split
  next hstopped =>
    cases hfire : traffic.step? .fire with
    | none => exact ⟨[], .nil _⟩
    | some fired =>
      obtain ⟨run, hrun, rfl⟩ := step?_eq_some hfire
      exact ⟨_, .cons (List.mem_singleton_self _) hrun hstopped (.nil _)⟩
  next => exact ⟨[], .nil _⟩

/-- A round is an execution that is prompted by its look. -/
theorem exists_prompted_round (traffic : Traffic) (sight : Sight) :
    ∃ events, Run.Prompted [sight] traffic.run events (traffic.round sight).traffic.run := by
  obtain ⟨before, hbefore⟩ := exists_prompted_noticed traffic sight
  simp only [round]
  split
  next next order hmove =>
    obtain ⟨events, hevents⟩ : ∃ events,
        Run.Prompted [sight] (traffic.noticed sight).run events next.run := by
      rcases moves_of_move? hmove with hmoves | hmoves
      · exact hmoves.exists_prompted
      · have hprompted := hmoves.exists_prompted
        rwa [run_refilled] at hprompted
    exact ⟨_, hbefore.append hevents⟩
  next => exact ⟨before, hbefore⟩

/-- **Rounds in a row are an execution of the run**, and each of its events is prompted by what was
seen in one of them. -/
theorem exists_prompted_rounds (traffic : Traffic) (sights : List Sight) :
    ∃ events, Run.Prompted sights traffic.run events (traffic.rounds sights).1.run := by
  induction sights generalizing traffic with
  | nil => exact ⟨[], .nil _⟩
  | cons sight rest ih =>
    obtain ⟨first, hfirst⟩ := exists_prompted_round traffic sight
    obtain ⟨events, hevents⟩ := ih (traffic.round sight).traffic
    exact ⟨first ++ events, (hfirst.mono (by simp)).append (hevents.mono (by simp))⟩

/-! ### Tokens -/

/-- A token more is worth the time until it comes back.  With the tokens there are and the moment at
which the next one comes back, this is kept by every move, and a request costs a token. -/
structure Pays (traffic next : Traffic) (requests : Nat) : Prop where
  interval : next.interval = traffic.interval
  paid : (next.limiter.tokens + requests) * traffic.interval + traffic.refill ≤
    traffic.limiter.tokens * traffic.interval + next.refill

theorem Pays.refl (traffic : Traffic) : traffic.Pays traffic 0 := ⟨rfl, Nat.le_refl _⟩

theorem Pays.trans {middle : Traffic} {first second : Nat} (h : traffic.Pays middle first)
    (hsecond : middle.Pays next second) : traffic.Pays next (first + second) := by
  refine ⟨hsecond.interval.trans h.interval, ?_⟩
  have hpaid := h.paid
  have hmore := hsecond.paid
  rw [h.interval] at hmore
  simp only [Nat.add_mul] at hpaid hmore ⊢
  omega

/-- Tokens that come back are worth the time that has passed. -/
theorem pays_refilled (traffic : Traffic) (now : Nat) : traffic.Pays (traffic.refilled now) 0 := by
  unfold refilled
  split
  · exact .refl traffic
  · refine ⟨rfl, ?_⟩
    have htokens : min (traffic.limiter.tokens + ((now - traffic.refill) / traffic.interval + 1))
        traffic.limiter.burst * traffic.interval ≤
          (traffic.limiter.tokens + ((now - traffic.refill) / traffic.interval + 1)) *
            traffic.interval := Nat.mul_le_mul_right _ (Nat.min_le_left _ _)
    simp only [Limiter.refillBy, Nat.add_zero]
    rw [Nat.add_mul] at htokens
    omega

theorem refill_refilled_le (traffic : Traffic) (now : Nat) :
    (traffic.refilled now).refill ≤ max traffic.refill (now + traffic.interval) := by
  unfold refilled
  split
  · exact Nat.le_max_left _ _
  · have hpassed := Nat.div_mul_le_self (now - traffic.refill) traffic.interval
    dsimp only
    rw [Nat.add_mul, Nat.one_mul]
    omega

/-- A move pays for its request. -/
theorem Moves.pays (h : traffic.Moves sight next order) :
    traffic.Pays next (order.toList.countP Order.isRequest) := by
  cases h with
  | goesOn _ _ hlimiter hrefill | delivers _ _ _ _ _ hlimiter hrefill =>
    refine ⟨by rw [interval, interval, hlimiter], ?_⟩
    simp [hlimiter, hrefill, Order.isRequest]
  | requests _ _ _ htoken hrefill =>
    simp only [Limiter.acquire, Bool.false_eq_true, if_false] at htoken
    split at htoken
    next => cases htoken
    next htokens =>
      obtain ⟨-, hlimiter⟩ := Prod.mk.inj htoken
      -- A request costs one token.
      have hleft : next.limiter.tokens + 1 = traffic.limiter.tokens := by
        rw [← hlimiter]
        exact Nat.sub_add_cancel (Nat.pos_of_ne_zero htokens)
      refine ⟨by rw [interval, interval, ← hlimiter], ?_⟩
      simp [hleft, hrefill, Order.isRequest]

theorem Moves.refill_eq (h : traffic.Moves sight next order) : next.refill = traffic.refill := by
  cases h with
  | goesOn _ _ _ hrefill | requests _ _ _ _ hrefill | delivers _ _ _ _ _ _ hrefill =>
    exact hrefill

theorem noticed_eq (traffic : Traffic) (sight : Sight) :
    ∃ run, traffic.noticed sight = { traffic with run := run } := by
  unfold noticed
  split
  · cases hfire : traffic.step? .fire with
    | none => exact ⟨traffic.run, rfl⟩
    | some fired =>
      obtain ⟨run, -, rfl⟩ := step?_eq_some hfire
      exact ⟨run, rfl⟩
  · exact ⟨traffic.run, rfl⟩

/-- A round pays for its request, and looks no further ahead than an interval. -/
theorem pays_round (traffic : Traffic) (sight : Sight) :
    traffic.Pays (traffic.round sight).traffic
        ((traffic.round sight).order.toList.countP Order.isRequest) ∧
      (traffic.round sight).traffic.refill ≤ max traffic.refill (sight.now + traffic.interval) := by
  obtain ⟨run, hnoticed⟩ := noticed_eq traffic sight
  simp only [round]
  rw [hnoticed]
  split
  next next order hmove =>
    -- A round has one move, and refills once at most, before it.
    rcases moves_of_move? hmove with hmoves | hmoves
    · exact ⟨⟨hmoves.pays.interval, hmoves.pays.paid⟩, by
        rw [hmoves.refill_eq]
        exact Nat.le_max_left _ _⟩
    · have hpaid := (pays_refilled _ _).trans hmoves.pays
      rw [Nat.zero_add] at hpaid
      exact ⟨⟨hpaid.interval, hpaid.paid⟩, by
        rw [hmoves.refill_eq]
        exact refill_refilled_le _ _⟩
  next => exact ⟨⟨rfl, by simp⟩, Nat.le_max_left _ _⟩

/-- Rounds in a row pay for their requests. -/
theorem pays_rounds (traffic : Traffic) {sights : List Sight} {latest : Nat}
    (hlatest : ∀ sight ∈ sights, sight.now ≤ latest) :
    traffic.Pays (traffic.rounds sights).1
        ((traffic.rounds sights).2.countP Order.isRequest) ∧
      (traffic.rounds sights).1.refill ≤ max traffic.refill (latest + traffic.interval) := by
  -- Each round pays for its own requests, and refills an interval behind its sight at most.
  induction sights generalizing traffic with
  | nil => exact ⟨.refl traffic, Nat.le_max_left _ _⟩
  | cons sight rest ih =>
    obtain ⟨hfirst, hahead⟩ := pays_round traffic sight
    obtain ⟨hrest, hlater⟩ := ih (traffic.round sight).traffic
      fun other hother => hlatest other (List.mem_cons_of_mem _ hother)
    have hnow := hlatest sight List.mem_cons_self
    rw [hfirst.interval] at hlater
    refine ⟨?_, by simp only [rounds]; omega⟩
    simp only [rounds, List.countP_append]
    exact hfirst.trans hrest

/-- **Requests are sent at the rate of the limiter**: beyond the tokens that there are, no more than
one for each interval of the time that has passed, and one. -/
theorem requests_mul_interval_le (traffic : Traffic) {sights : List Sight} {latest : Nat}
    (hlatest : ∀ sight ∈ sights, sight.now ≤ latest) (hstart : traffic.refill ≤ latest) :
    (traffic.rounds sights).2.countP Order.isRequest * traffic.interval ≤
      (traffic.limiter.tokens + 1) * traffic.interval + (latest - traffic.refill) := by
  obtain ⟨hpays, hahead⟩ := pays_rounds traffic hlatest
  have hpaid := hpays.paid
  rw [Nat.add_mul] at hpaid ⊢
  rw [Nat.one_mul]
  omega

/-! ### Waiting -/

/-- What the program waits for in an open cycle. -/
inductive Waits (traffic : Traffic) (sight : Sight) (cycle : CycleState) : Prop
  /-- For a token, with which an attempt can start. -/
  | token {worker n : Nat} {batch : Batch}
    (hworker : cycle.pool.workers[worker]? = some (.trying batch (.waiting n)))
    (hempty : traffic.limiter.tokens = 0)
  /-- For the reply to a request. -/
  | reply {worker n : Nat} {batch : Batch}
    (hworker : cycle.pool.workers[worker]? = some (.trying batch (.running n)))
    (hnone : sight.replies.lookup worker = none)
  /-- For the end of a delay. -/
  | delay {worker n ends : Nat} {batch : Batch}
    (hworker : cycle.pool.workers[worker]? = some (.trying batch (.pausing n)))
    (hdelay : traffic.delays.lookup worker = some ends) (hlater : sight.now < ends)
  /-- For the end of a delivery. -/
  | delivery {delivery : Delivery} (hfirst : cycle.deliveries[0]? = some delivery)
    (hsending : traffic.sending = true) (hnone : sight.delivered = none)

theorem step?_eq_none_of_quietly? (h : traffic.quietly? event = none) :
    traffic.run.step? event = none :=
  Option.map_eq_none_iff.mp (Option.map_eq_none_iff.mp h)

/-- No move is possible in an open cycle. -/
structure Still (traffic : Traffic) (sight : Sight) (cycle : CycleState) : Prop where
  intake : traffic.run.step? .intake = none
  delivery : ∀ delivery, cycle.deliveries[0]? = some delivery →
    traffic.delivery? sight delivery = none
  enqueue : traffic.run.step? (.pool .enqueue) = none
  worker : ∀ position worker, cycle.pool.workers[position]? = some worker →
    traffic.worker? sight position worker = none
  closeCycle : traffic.run.step? .closeCycle = none

theorem still_of_cycle? (h : traffic.cycle? sight cycle = none) : traffic.Still sight cycle := by
  obtain ⟨hintake, hrest⟩ := Option.or_eq_none_iff.mp h
  obtain ⟨hdelivery, hrest⟩ := Option.or_eq_none_iff.mp hrest
  obtain ⟨henqueue, hrest⟩ := Option.or_eq_none_iff.mp hrest
  obtain ⟨hworkers, hclose⟩ := Option.or_eq_none_iff.mp hrest
  refine ⟨step?_eq_none_of_quietly? hintake, fun delivery hfirst => ?_,
    step?_eq_none_of_quietly? henqueue, fun position worker hworker => ?_,
    step?_eq_none_of_quietly? hclose⟩
  · rwa [List.head?_eq_getElem?, hfirst, Option.bind_some] at hdelivery
  · exact List.findSome?_eq_none_iff.mp hworkers (worker, position)
      (List.mem_zipIdx_iff_getElem?.mpr hworker)

namespace Still

/-- A worker with a batch waits for something outside, as long as the token has not fired. -/
theorem waits_of_trying (h : traffic.Still sight cycle) (hstage : traffic.run.stage = .busy cycle)
    (hfired : traffic.run.fired = false) {worker : Nat} {batch : Batch} {attempt : Attempt}
    (hworker : cycle.pool.workers[worker]? = some (.trying batch attempt)) :
    traffic.Waits sight cycle := by
  have hnone := h.worker _ _ hworker
  simp only [worker?, attempt?, hfired, Bool.false_eq_true, if_false] at hnone
  -- What the worker waits for is missing, or else it would have moved on.
  cases attempt with
  | waiting n =>
    by_cases htokens : traffic.limiter.tokens = 0
    · exact .token hworker htokens
    · obtain ⟨run, hstep⟩ :=
        (Run.Awaits.worker hstage hfired hworker (.permit n)).exists_step?
      simp [request?, Limiter.acquire, htokens, step?, hstep] at hnone
  | running n =>
    cases hreply : sight.replies.lookup worker with
    | none => exact .reply hworker hreply
    | some reply =>
      obtain ⟨run, hstep⟩ := (Run.Awaits.worker hstage hfired hworker
        (.answer n (Exchange.batch batch.slots reply))).exists_step?
      simp [answer?, hreply, step?, hstep] at hnone
  | pausing n =>
    cases hdelay : traffic.delays.lookup worker with
    | none =>
      obtain ⟨run, hstep⟩ := (Run.Awaits.worker hstage hfired hworker (.delay n)).exists_step?
      simp [hdelay, quietly?, step?, hstep] at hnone
    | some ends =>
      by_cases hpassed : ends ≤ sight.now
      · obtain ⟨run, hstep⟩ := (Run.Awaits.worker hstage hfired hworker (.delay n)).exists_step?
        simp [hdelay, hpassed, quietly?, step?, hstep] at hnone
      · exact .delay hworker hdelay (Nat.lt_of_not_le hpassed)

/-- A delivery that is there is on its way. -/
theorem waits_of_delivery (h : traffic.Still sight cycle) (hstage : traffic.run.stage = .busy cycle)
    {delivery : Delivery} (hfirst : cycle.deliveries[0]? = some delivery) :
    traffic.Waits sight cycle := by
  have hnone := h.delivery _ hfirst
  unfold delivery? at hnone
  split at hnone
  next =>
    obtain ⟨run, hstep⟩ := Run.exists_step?_deliver hstage hfirst
    simp [quietly?, step?, hstep] at hnone
  next hfilled =>
    split at hnone
    next hsending =>
      -- The delivery was sent, so its answer is what is waited for.
      cases hdelivered : sight.delivered with
      | none => exact .delivery hfirst hsending hdelivered
      | some result =>
        have hrecords : delivery.records ≠ [] := fun hnil => hfilled (List.isEmpty_iff.mpr hnil)
        obtain ⟨run, hstep⟩ := (Run.Awaits.delivery hstage hfirst hrecords result).exists_step?
        simp [hdelivered, step?, hstep] at hnone
    next => cases hnone

/-- No party of the pool moves, unless a worker waits for something outside. -/
theorem not_turn (h : traffic.Still sight cycle) (hstage : traffic.run.stage = .busy cycle)
    (hwaits : ¬traffic.Waits sight cycle) {event : Pool.Event} {after : Pool}
    (hturn : cycle.pool.Turn traffic.run.setup.policy traffic.run.fired event after) : False := by
  obtain ⟨run, hstep⟩ := Run.exists_step?_of_turn hstage hturn
  cases hturn with
  | enqueue => exact Option.some_ne_none _ (hstep.symm.trans h.enqueue)
  | take hidle =>
    obtain ⟨htake, -⟩ := Option.or_eq_none_iff.mp (h.worker _ _ hidle)
    exact Option.some_ne_none _ (hstep.symm.trans (step?_eq_none_of_quietly? htake))
  | leave hidle =>
    obtain ⟨-, hleave⟩ := Option.or_eq_none_iff.mp (h.worker _ _ hidle)
    exact Option.some_ne_none _ (hstep.symm.trans (step?_eq_none_of_quietly? hleave))
  | report hreporting =>
    have hnone := step?_eq_none_of_quietly? (h.worker _ _ hreporting)
    exact Option.some_ne_none _ (hstep.symm.trans hnone)
  | breakDown htrying hfired => exact hwaits (h.waits_of_trying hstage hfired htrying)
  | @attempt worker batch attempt _ _ htrying =>
    cases hfired : traffic.run.fired with
    | false => exact hwaits (h.waits_of_trying hstage hfired htrying)
    | true =>
      -- the batch is given up at once
      have hnone := h.worker _ _ htrying
      simp only [worker?, attempt?, hfired, if_true] at hnone
      have hcut : cycle.pool.Turn traffic.run.setup.policy traffic.run.fired
          (.attempt worker .cut) _ := .attempt htrying (hfired ▸ RetryPolicy.step?_cut _ attempt)
      obtain ⟨given, hgiven⟩ := Run.exists_step?_of_turn hstage hcut
      exact Option.some_ne_none _ (hgiven.symm.trans (step?_eq_none_of_quietly? hnone))

/-- **An open cycle in which no move is possible waits for something outside.** -/
theorem waits (h : traffic.Still sight cycle) (hstage : traffic.run.stage = .busy cycle)
    (hcapacity : 1 ≤ cycle.pool.capacity) : traffic.Waits sight cycle := by
  by_contra hwaits
  have hdeliveries : cycle.deliveries = [] := by
    cases hcons : cycle.deliveries with
    | nil => rfl
    | cons delivery rest =>
      exact absurd (h.waits_of_delivery hstage (by rw [hcons]; rfl)) hwaits
  obtain ⟨event, run, hfire, hstep⟩ := Run.exists_step? hstage hcapacity fun event hawaits => by
    cases hawaits with
    | worker hsame hfired htrying =>
      obtain rfl := Stage.busy.inj (hstage.symm.trans hsame)
      exact hwaits (h.waits_of_trying hstage hfired htrying)
    | delivery hsame hdelivery =>
      obtain rfl := Stage.busy.inj (hstage.symm.trans hsame)
      simp [hdeliveries] at hdelivery
  -- some transition is possible, but none of them is
  cases event with
  | fire => exact hfire rfl
  | intake => exact Option.some_ne_none _ (hstep.symm.trans h.intake)
  | closeCycle => exact Option.some_ne_none _ (hstep.symm.trans h.closeCycle)
  | pool event =>
    simp only [Run.step?, Run.pool?, hstage] at hstep
    obtain ⟨⟨after, signal⟩, hpool, -⟩ := Option.map_eq_some_iff.mp hstep
    exact h.not_turn hstage hwaits (Pool.turn_of_step? hpool)
  | deliver => simp [Run.step?, Run.deliver?, hstage, hdeliveries] at hstep
  | openCycle => simp [Run.step?, Run.openCycle?, hstage] at hstep
  | cancelRest => simp [Run.step?, Run.cancelRest?, hstage] at hstep
  | conclude => simp [Run.step?, Run.conclude?, hstage] at hstep

end Still

/-- Between two cycles there is a move. -/
theorem exists_move?_between (sight : Sight) (hsound : traffic.run.setup.plan.Sound)
    (hstage : traffic.run.stage = .between) : traffic.move? sight ≠ none := by
  intro hnone
  simp only [move?, hstage] at hnone
  obtain ⟨hconclude, hrest⟩ := Option.or_eq_none_iff.mp hnone
  obtain ⟨hcancel, hopen⟩ := Option.or_eq_none_iff.mp hrest
  -- One of the three events is possible, and a round tries all of them.
  obtain ⟨event, run, hfire, hstep⟩ := Run.exists_step?_between hsound hstage
  cases event with
  | fire => exact hfire rfl
  | conclude => simp [step?_eq_none_of_quietly? hconclude] at hstep
  | cancelRest => simp [step?_eq_none_of_quietly? hcancel] at hstep
  | openCycle => simp [step?_eq_none_of_quietly? hopen] at hstep
  | pool => simp [Run.step?, Run.pool?, hstage] at hstep
  | intake => simp [Run.step?, Run.intake?, hstage] at hstep
  | deliver => simp [Run.step?, Run.deliver?, hstage] at hstep
  | closeCycle => simp [Run.step?, Run.closeCycle?, hstage] at hstep

/-- **The program has a reason whenever it waits.**  Whatever was seen in the rounds of a run so
far, when a round finds no move, the run is over or waits in an open cycle for a token, for a reply,
for the end of a delay or for the end of a delivery. -/
theorem waits_of_idle {setup : RunSetup} {asked : List Nat} {telemetry : Telemetry}
    (hasks : setup.Asks asked) (hstart : traffic.run = Run.start setup telemetry)
    (sights : List Sight) (hidle : ((traffic.rounds sights).1.round sight).idle = true) :
    (∃ cancelled, ((traffic.rounds sights).1.noticed sight).run.stage = .over cancelled) ∨
      ∃ cycle, ((traffic.rounds sights).1.noticed sight).run.stage = .busy cycle ∧
        (((traffic.rounds sights).1.noticed sight).refilled sight.now).Waits sight cycle := by
  obtain ⟨events, hevents⟩ := exists_prompted_rounds traffic sights
  obtain ⟨fire, hfire⟩ := exists_prompted_noticed (traffic.rounds sights).1 sight
  -- The rounds are a run of the system, so its invariants hold where it stands.
  have hexecute : (Run.start setup telemetry).execute (events ++ fire) =
      some ((traffic.rounds sights).1.noticed sight).run := by
    rw [← hstart, Run.execute_append, hevents.execute, Option.bind_some, hfire.execute]
  have hnone : ((traffic.rounds sights).1.noticed sight).move? sight = none := by
    simp only [round] at hidle
    split at hidle
    next => cases hidle
    next hnone => exact hnone
  generalize (traffic.rounds sights).1.noticed sight = noticed at hexecute hnone ⊢
  match hstage : noticed.run.stage with
  | .over cancelled => exact .inl ⟨cancelled, rfl⟩
  | .between =>
    exact absurd hnone
      (exists_move?_between sight (Run.setup_of_execute hexecute ▸ hasks.sound) hstage)
  | .busy cycle =>
    obtain ⟨hroom, -⟩ := Run.limited_of_execute hexecute cycle hstage
    have hstill : (noticed.refilled sight.now).Still sight cycle :=
      still_of_cycle? (by simpa only [move?, hstage] using hnone)
    exact .inr ⟨cycle, rfl, hstill.waits (by rw [run_refilled, hstage])
      (hroom ▸ Nat.le_max_right _ _)⟩

end Traffic

end Backfill
