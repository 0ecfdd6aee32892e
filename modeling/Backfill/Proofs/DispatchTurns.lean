import Backfill.Proofs.IntegerText
import Backfill.Rpc.Exchange
import Backfill.Settings.Lookup
import Mathlib.Data.Int.CardIntervalMod

/-!
# Parsers take turns

Whoever hands blocks on takes a turn of the rotation first and posts to the parser of this turn.
Turns are taken one at a time, but posts may overlap, end in any order, fail, or never end; none of
that touches the rotation.  So it does not matter who takes a turn, and what a turn is given depends
on its number alone.

## Main definitions

* `Dispatching` — callers that share a rotation; `Dispatching.step?` is what can happen.
* `Dispatching.InTurn` — every turn was given the parser that its number calls for.
* `DispatchSettings.address` — the parser of a turn.
* `Dispatching.GoesRound` — the turns of a run, and what they share out.

## Main results

* `Dispatching.inTurn_of_execute` — turns stay in order, whatever becomes of the posts.
* `DispatchSettings.endpoints_eq` — ports that pass their check are all there.
* `Dispatching.countP_mod_cases` — of numbers that go round, every remainder has its share.
* `Dispatching.turns_go_round` — **the parsers take turns, and none of them is left out.**
-/

namespace Backfill

/-! ### Callers -/

/-- Callers that share a rotation. -/
structure Dispatching where
  rotation : Rotation
  /-- Who took each turn so far, and which parser was given. -/
  taken : List (Nat × Option String)
  /-- The posts on their way, by the number of their turn. -/
  posts : List (Nat × String)
  /-- What came of the posts that are over, by the number of their turn. -/
  ended : List (Nat × Except DispatchError Unit)

namespace Dispatching

/-- What can happen. -/
inductive Event
  /-- A caller takes the next turn and posts. -/
  | call (caller : Nat)
  /-- The reply to the post of a turn comes in. -/
  | reply (turn : Nat) (reply : HttpReply)

/-- Who takes a turn with an event. -/
def Event.caller? : Event → Option Nat
  | .call caller => some caller
  | .reply .. => none

/-- No turn has been taken yet. -/
def start (rotation : Rotation) : Dispatching := ⟨rotation, [], [], []⟩

/-- A caller takes the next turn; without parsers its blocks cannot be handed on. -/
def call (state : Dispatching) (caller : Nat) : Dispatching :=
  match state.rotation.next? with
  | some (endpoint, rotation) =>
    { state with
      rotation := rotation
      taken := state.taken ++ [(caller, some endpoint)]
      posts := (state.taken.length, endpoint) :: state.posts }
  | none =>
    { state with
      taken := state.taken ++ [(caller, none)]
      ended := (state.taken.length, .error .noEndpoints) :: state.ended }

/-- One event; a reply needs a post that is on its way. -/
def step? (state : Dispatching) : Event → Option Dispatching
  | .call caller => some (state.call caller)
  | .reply turn reply => (state.posts.lookup turn).map fun endpoint =>
    { state with
      posts := state.posts.filter (·.1 != turn)
      ended := (turn, Exchange.records endpoint reply) :: state.ended }

/-- Events in a row. -/
def execute (state : Dispatching) : List Event → Option Dispatching
  | [] => some state
  | event :: rest => (state.step? event).bind fun next => next.execute rest

/-! ### Turns in order -/

/-- Every turn was given the parser that its number calls for, and its blocks were posted there. -/
structure InTurn (endpoints : List String) (state : Dispatching) : Prop where
  fixed : state.rotation.endpoints = endpoints
  turn : state.rotation.turn = state.taken.length % endpoints.length
  taken : state.taken.map Prod.snd =
    (List.range state.taken.length).map fun k => endpoints[k % endpoints.length]?
  posts : ∀ post ∈ state.posts, endpoints[post.1 % endpoints.length]? = some post.2
  ended : ∀ entry ∈ state.ended, ∃ endpoint reply,
    endpoints[entry.1 % endpoints.length]? = some endpoint ∧
      entry.2 = Exchange.records endpoint reply

variable {endpoints : List String} {state next : Dispatching} {event : Event} {events : List Event}

theorem inTurn_start (endpoints : List String) : (start (.ofEndpoints endpoints)).InTurn endpoints :=
  ⟨rfl, (Nat.zero_mod _).symm, rfl, nofun, nofun⟩

theorem InTurn.next?_eq (h : state.InTurn endpoints) (hne : endpoints ≠ []) :
    ∃ endpoint, endpoints[state.taken.length % endpoints.length]? = some endpoint ∧
      state.rotation.next? =
        some (endpoint, ⟨endpoints, (state.taken.length + 1) % endpoints.length⟩) := by
  have hlt : state.taken.length % endpoints.length < endpoints.length :=
    Nat.mod_lt _ (List.length_pos_iff.mpr hne)
  refine ⟨_, List.getElem?_eq_getElem hlt, ?_⟩
  rw [Rotation.next?, h.turn, h.fixed, List.getElem?_eq_getElem hlt, Option.map_some,
    Nat.mod_add_mod]

theorem InTurn.call_eq (h : state.InTurn endpoints) (hne : endpoints ≠ []) (caller : Nat) :
    ∃ endpoint, endpoints[state.taken.length % endpoints.length]? = some endpoint ∧
      state.call caller =
        { rotation := ⟨endpoints, (state.taken.length + 1) % endpoints.length⟩
          taken := state.taken ++ [(caller, some endpoint)]
          posts := (state.taken.length, endpoint) :: state.posts
          ended := state.ended } := by
  obtain ⟨endpoint, hgiven, hnext⟩ := h.next?_eq hne
  exact ⟨endpoint, hgiven, by rw [call, hnext]⟩

/-- Turns stay in order with every event. -/
theorem InTurn.step (h : state.InTurn endpoints) (hne : endpoints ≠ [])
    (hstep : state.step? event = some next) : next.InTurn endpoints := by
  -- only a call takes a turn; a reply, good or bad, leaves the turns alone
  cases event with
  | call caller =>
    obtain ⟨endpoint, hgiven, hcall⟩ := h.call_eq hne caller
    obtain rfl : state.call caller = next := Option.some.inj hstep
    rw [hcall]
    refine ⟨rfl, ?_, ?_, List.forall_mem_cons.mpr ⟨hgiven, h.posts⟩, h.ended⟩
    · rw [List.length_append, List.length_singleton]
    · rw [List.map_append, h.taken, List.length_append, List.length_singleton, List.range_succ,
        List.map_append, List.map_singleton, List.map_singleton, hgiven]
  | reply turn reply =>
    obtain ⟨endpoint, hpost, rfl⟩ := Option.map_eq_some_iff.mp hstep
    obtain ⟨before, after, hposts, -⟩ := List.lookup_eq_some_iff.mp hpost
    have hgiven : endpoints[turn % endpoints.length]? = some endpoint :=
      h.posts (turn, endpoint) (by rw [hposts]; simp)
    exact ⟨h.fixed, h.turn, h.taken, fun post hmem => h.posts post (List.mem_of_mem_filter hmem),
      List.forall_mem_cons.mpr ⟨⟨endpoint, reply, hgiven, rfl⟩, h.ended⟩⟩

/-- **Turns stay in order**, whoever takes them and whatever becomes of the posts. -/
theorem inTurn_of_execute (hne : endpoints ≠ []) {first : Dispatching}
    (hfirst : first.InTurn endpoints) (h : first.execute events = some state) :
    state.InTurn endpoints := by
  induction events generalizing first with
  | nil =>
    obtain rfl := Option.some.inj h
    exact hfirst
  | cons event rest ih =>
    obtain ⟨next, hstep, hrest⟩ := Option.bind_eq_some_iff.mp h
    exact ih (hfirst.step hne hstep) hrest

theorem callers_step? (h : state.step? event = some next) :
    next.taken.map Prod.fst = state.taken.map Prod.fst ++ event.caller?.toList := by
  cases event with
  | call caller =>
    obtain rfl : state.call caller = next := Option.some.inj h
    unfold call
    cases state.rotation.next? <;> simp [Event.caller?]
  | reply turn reply =>
    obtain ⟨endpoint, -, rfl⟩ := Option.map_eq_some_iff.mp h
    simp [Event.caller?]

theorem callers_of_execute {first : Dispatching} (h : first.execute events = some state) :
    state.taken.map Prod.fst = first.taken.map Prod.fst ++ events.filterMap Event.caller? := by
  induction events generalizing first with
  | nil =>
    obtain rfl := Option.some.inj h
    simp
  | cons event rest ih =>
    obtain ⟨next, hstep, hrest⟩ := Option.bind_eq_some_iff.mp h
    rw [ih hrest, callers_step? hstep, List.append_assoc, List.filterMap_cons]
    cases event.caller? <;> rfl

/-! ### Shares -/

/-- Of numbers that go round, every remainder has its share: one more if the last round has got so
far. -/
theorem countP_mod_eq {n i : Nat} (hi : i < n) (m : Nat) :
    (List.range m).countP (fun k => k % n = i) = m / n + if i < m % n then 1 else 0 := by
  have hcount := Nat.count_modEq_card m (Nat.zero_lt_of_lt hi) i
  simpa only [Nat.count, Nat.ModEq, Nat.mod_eq_of_lt hi] using hcount

theorem ceil_div_eq {m n : Nat} (h : 0 < m % n) (hn : 0 < n) : (m + n - 1) / n = m / n + 1 := by
  have hsplit : m + n - 1 = n * (m / n + 1) + (m % n - 1) := by
    have := Nat.div_add_mod m n
    rw [Nat.mul_succ]
    omega
  have hlt : m % n - 1 < n := Nat.lt_of_le_of_lt (Nat.sub_le _ _) (Nat.mod_lt m hn)
  rw [hsplit, Nat.mul_add_div hn, Nat.div_eq_of_lt hlt, Nat.add_zero]

/-- That is the number of rounds, down or up. -/
theorem countP_mod_cases {n i : Nat} (hi : i < n) (m : Nat) :
    (List.range m).countP (fun k => k % n = i) = m / n ∨
      (List.range m).countP (fun k => k % n = i) = (m + n - 1) / n := by
  rw [countP_mod_eq hi]
  by_cases hreached : i < m % n
  · right
    rw [if_pos hreached, ceil_div_eq (Nat.zero_lt_of_lt hreached) (Nat.zero_lt_of_lt hi)]
  · left
    rw [if_neg hreached, Nat.add_zero]

end Dispatching

/-! ### The parsers of settings -/

namespace DispatchSettings

variable {dispatch : DispatchSettings}

/-- The parser of a turn. -/
def address (dispatch : DispatchSettings) (turn : Nat) : String :=
  s!"http://{dispatch.host}:{dispatch.portStart + turn % dispatch.portCount}{dispatch.path}"

theorem address_inj {j k : Nat} : dispatch.address j = dispatch.address k ↔
    j % dispatch.portCount = k % dispatch.portCount := by
  refine ⟨fun h => ?_, fun h => by rw [address, address, h]⟩
  have hport : (dispatch.portStart + j % dispatch.portCount).repr =
      (dispatch.portStart + k % dispatch.portCount).repr := by simpa [address, toString] using h
  have hdigits := congrArg String.toList hport
  rw [Nat.toList_repr, Nat.toList_repr] at hdigits
  exact Nat.add_left_cancel (Text.toDigits_injective hdigits)

theorem nodup_addresses (dispatch : DispatchSettings) :
    ((List.range dispatch.portCount).map dispatch.address).Nodup := by
  refine List.Nodup.map_on (fun j hj k hk heq => ?_) List.nodup_range
  have hmod := address_inj.mp heq
  rwa [Nat.mod_eq_of_lt (List.mem_range.mp hj), Nat.mod_eq_of_lt (List.mem_range.mp hk)] at hmod

theorem count_addresses {i : Nat} (hi : i < dispatch.portCount) (m : Nat) :
    ((List.range m).map fun k => some (dispatch.address k)).count (some (dispatch.address i)) =
      (List.range m).countP fun k => k % dispatch.portCount = i := by
  rw [List.count, List.countP_map]
  refine List.countP_congr fun k _ => ?_
  simp [address_inj, Nat.mod_eq_of_lt hi]

/-- Ports that pass their check are all there. -/
theorem endpoints_eq (h : dispatch.portStart + dispatch.portCount ≤ Word.max16 + 1) :
    (Rotation.ofDispatch dispatch).endpoints =
      (List.range dispatch.portCount).map dispatch.address := by
  have hports : min dispatch.portCount (Word.max16 + 1 - dispatch.portStart) =
      dispatch.portCount := Nat.min_eq_left (by omega)
  rw [Rotation.ofDispatch, Rotation.ofEndpoints, Endpoints.ofPorts, hports,
    List.range'_eq_map_range, List.map_map]
  refine List.map_congr_left fun k hk => ?_
  rw [Function.comp, address, Nat.mod_eq_of_lt (List.mem_range.mp hk)]

theorem getElem?_endpoints (hcount : 0 < dispatch.portCount)
    (h : dispatch.portStart + dispatch.portCount ≤ Word.max16 + 1) (turn : Nat) :
    (Rotation.ofDispatch dispatch).endpoints[turn %
      (Rotation.ofDispatch dispatch).endpoints.length]? = some (dispatch.address turn) := by
  rw [endpoints_eq h, List.length_map, List.length_range, List.getElem?_map,
    List.getElem?_range (Nat.mod_lt turn hcount), Option.map_some]
  exact congrArg some (address_inj.mpr (Nat.mod_mod turn _))

end DispatchSettings

/-- Settings that pass their check name at least one port, and none beyond the last one. -/
theorem Settings.ports_of_validate {settings : Settings} (h : settings.validate = .ok ())
    {dispatch : DispatchSettings} (hdispatch : settings.dispatch = some dispatch) :
    0 < dispatch.portCount ∧ dispatch.portStart + dispatch.portCount ≤ Word.max16 + 1 := by
  have hports : checkPorts dispatch = .ok () := by
    -- the checks in front of that of the ports have passed
    unfold validate at h
    split at h
    · cases h
    split at h
    · cases h
    split at h
    · cases h
    split at h
    · cases h
    rw [hdispatch] at h
    exact h
  unfold checkPorts at hports
  split at hports
  · cases hports
  · split at hports
    · cases hports
    · omega

/-! ### All of it together -/

namespace Dispatching

/-- The turns of a run, and what they share out among the parsers. -/
structure GoesRound (dispatch : DispatchSettings) (events : List Event) (state : Dispatching) :
    Prop where
  /-- Every call takes a turn, and nothing else does. -/
  callers : state.taken.map Prod.fst = events.filterMap Event.caller?
  /-- Every turn was given the parser that its number calls for. -/
  given : ∀ k turn, state.taken[k]? = some turn → turn.2 = some (dispatch.address k)
  /-- So will be the next one. -/
  next : ∀ caller, (state.call caller).taken =
    state.taken ++ [(caller, some (dispatch.address state.taken.length))]
  /-- The rotation stands at one of the parsers. -/
  inside : state.rotation.turn < state.rotation.endpoints.length
  /-- No parser is beyond the last port. -/
  ports : ∀ k, dispatch.portStart + k % dispatch.portCount ≤ Word.max16
  distinct : ((List.range dispatch.portCount).map dispatch.address).Nodup
  /-- Each parser has had a turn in every round, except perhaps the one that has begun. -/
  share : ∀ i < dispatch.portCount,
    let count := (state.taken.map Prod.snd).count (some (dispatch.address i))
    count = state.taken.length / dispatch.portCount ∨
      count = (state.taken.length + dispatch.portCount - 1) / dispatch.portCount
  /-- What came of a post came from the parser of its turn. -/
  posted : ∀ entry ∈ state.ended, ∃ reply,
    entry.2 = Exchange.records (dispatch.address entry.1) reply

/-- **The parsers take turns, and none of them is left out.**  If settings that name parsers pass
their check, turn number `k` is given the parser on the port `k` places behind the first one, going
round, whoever takes it and whatever has become of the posts so far; and after any number of turns
each parser has had its share. -/
theorem turns_go_round {settings : Settings} {dispatch : DispatchSettings}
    (hvalid : settings.validate = .ok ()) (hdispatch : settings.dispatch = some dispatch)
    {events : List Event} {state : Dispatching}
    (h : (start (.ofDispatch dispatch)).execute events = some state) :
    state.GoesRound dispatch events := by
  obtain ⟨hcount, hlast⟩ := settings.ports_of_validate hvalid hdispatch
  have hlength : (Rotation.ofDispatch dispatch).endpoints.length = dispatch.portCount := by
    rw [DispatchSettings.endpoints_eq hlast, List.length_map, List.length_range]
  have hne : (Rotation.ofDispatch dispatch).endpoints ≠ [] :=
    List.length_pos_iff.mp (hlength ▸ hcount)
  have hturn : state.InTurn (Rotation.ofDispatch dispatch).endpoints :=
    inTurn_of_execute hne (inTurn_start _) h
  -- a turn names the parser at its remainder, whoever calls
  have haddress := DispatchSettings.getElem?_endpoints hcount hlast
  have htaken : state.taken.map Prod.snd =
      (List.range state.taken.length).map fun k => some (dispatch.address k) := by
    rw [hturn.taken]
    exact List.map_congr_left fun k _ => haddress k
  have hcallers := callers_of_execute h
  refine ⟨hcallers, fun k turn hk => ?_, fun caller => ?_, ?_, fun k => ?_,
    dispatch.nodup_addresses, fun i hi => ?_, fun entry hentry => ?_⟩
  · have hsnd : (state.taken.map Prod.snd)[k]? = some turn.2 := by rw [List.getElem?_map, hk]; rfl
    have hlt : k < state.taken.length := (List.getElem?_eq_some_iff.mp hk).1
    rw [htaken, List.getElem?_map, List.getElem?_range hlt] at hsnd
    exact (Option.some.inj hsnd).symm
  · obtain ⟨endpoint, hgiven, hcall⟩ := hturn.call_eq hne caller
    rw [haddress] at hgiven
    rw [hcall, hgiven]
  · rw [hturn.turn, hturn.fixed, hlength]
    exact Nat.mod_lt _ hcount
  · have := Nat.mod_lt k hcount
    omega
  · rw [htaken, DispatchSettings.count_addresses hi]
    exact countP_mod_cases hi _
  · obtain ⟨endpoint, reply, hgiven, hentry⟩ := hturn.ended entry hentry
    rw [haddress] at hgiven
    exact ⟨reply, by rw [hentry, Option.some.inj hgiven]⟩

/-- Three parsers up to the last port, of which one refuses and one is busy, and a post that never
ends. -/
theorem turns_go_round_past_failures :
    let dispatch : DispatchSettings := ⟨"parser", 65533, 3, "/blocks", 1000⟩
    let settings := { Settings.preset .standard "http://node:8899" with dispatch := some dispatch }
    let events : List Event := [.call 1, .call 2, .reply 1 (.fault .connect "refused"), .call 1,
      .call 3, .reply 3 (.answer 503 (.ok []))]
    settings.validate = .ok () ∧ ∃ state, (start (.ofDispatch dispatch)).execute events =
      some state ∧ state.GoesRound dispatch events ∧ state.taken =
        [(1, some "http://parser:65533/blocks"), (2, some "http://parser:65534/blocks"),
          (1, some "http://parser:65535/blocks"), (3, some "http://parser:65533/blocks")] := by
  intro dispatch settings events
  have hvalid : settings.validate = .ok () := by decide
  obtain ⟨state, hstate⟩ : ∃ state, (start (.ofDispatch dispatch)).execute events = some state :=
    Option.isSome_iff_exists.mp (by decide)
  have htaken : ((start (.ofDispatch dispatch)).execute events).map (·.taken) =
      some [(1, some "http://parser:65533/blocks"), (2, some "http://parser:65534/blocks"),
        (1, some "http://parser:65535/blocks"), (3, some "http://parser:65533/blocks")] := by
    decide
  rw [hstate] at htaken
  exact ⟨hvalid, state, hstate, turns_go_round hvalid rfl hstate, Option.some.inj htaken⟩

end Dispatching

end Backfill
