import Backfill.Limiter
import Backfill.Rpc.Exchange
import Backfill.Run

/-!
# The traffic of a run

A run moves on by itself, with what has come in from outside, and by asking for something outside:
a request for a batch, or a delivery of blocks.  The program looks at its surroundings, decides on
one move, has what it asks for done, and looks again.  What it decides is a function of the run and
of what it sees, so it is all here; only looking and doing are left to the program itself.

Among the moves that are possible, the first one is made: a result is taken in before a delivery is
looked after, deliveries come before batches, the queue is filled before the workers have their
turns, and a worker at an earlier position comes first.

## Main definitions

* `Sight` — what is seen of the surroundings at a moment.
* `Order` — what the surroundings are asked to do.
* `Traffic` — a run with the tokens and delays of its requests.
* `Traffic.refilled` — the tokens that have come back by now are there again.
* `Traffic.move?` — the move that is made.
* `Traffic.round` — one look, and the move that follows from it; `Traffic.rounds` — several.
-/

namespace Backfill

/-- What is seen of the surroundings of a run at a moment. -/
structure Sight where
  /-- The time, in milliseconds. -/
  now : Nat
  /-- Whether the program has been told to stop. -/
  stopped : Bool
  /-- The replies that have come in, each with the position of the worker that asked for it. -/
  replies : List (Nat × HttpReply)
  /-- What came of the delivery that was started last, once it is over. -/
  delivered : Option (Except DispatchError Unit)

/-- What the surroundings are asked to do. -/
inductive Order
  /-- To send the request for a batch, for the worker at this position. -/
  | request (worker : Nat) (batch : Batch)
  /-- To hand these records on. -/
  | deliver (records : List DispatchRecord)

/-- A run with the tokens and delays of its requests. -/
structure Traffic where
  run : Run
  limiter : Limiter
  /-- When the next token comes back, in milliseconds. -/
  refill : Nat
  /-- When the delays of the workers end, by position. -/
  delays : List (Nat × Nat)
  /-- Whether a delivery is on its way. -/
  sending : Bool

namespace Traffic

/-! ### Time -/

/-- The time between two tokens, in milliseconds. -/
def interval (traffic : Traffic) : Nat := max (1000 / traffic.limiter.perSecond) 1

/-- The tokens that have come back by now are there again. -/
def refilled (traffic : Traffic) (now : Nat) : Traffic :=
  if now < traffic.refill then traffic
  else
    let count := (now - traffic.refill) / traffic.interval + 1
    { traffic with
      limiter := traffic.limiter.refillBy count
      refill := traffic.refill + count * traffic.interval }

/-! ### Moves -/

/-- A transition of the run, if it is possible. -/
def step? (traffic : Traffic) (event : Run.Event) : Option Traffic :=
  (traffic.run.step? event).map fun run => { traffic with run := run }

/-- A transition with which nothing is asked for. -/
def quietly? (traffic : Traffic) (event : Run.Event) : Option (Traffic × Option Order) :=
  (traffic.step? event).map (·, none)

/-- A worker whose attempt is due has its request sent, once there is a token. -/
def request? (traffic : Traffic) (worker : Nat) (batch : Batch) :
    Option (Traffic × Option Order) :=
  match traffic.limiter.acquire false with
  | (.granted, limiter) =>
    (traffic.step? (.pool (.attempt worker .start))).map fun next =>
      ({ next with limiter := limiter }, some (.request worker batch))
  | _ => none

/-- A worker takes in the reply to its request; a delay may follow. -/
def answer? (traffic : Traffic) (sight : Sight) (worker : Nat) (batch : Batch) :
    Option (Traffic × Option Order) :=
  (sight.replies.lookup worker).bind fun reply =>
    (traffic.step? (.pool (.attempt worker (.finish (Exchange.batch batch.slots reply))))).map
      fun next =>
        let ends := sight.now + traffic.run.setup.policy.retryDelay
        ({ next with delays := (worker, ends) :: next.delays.filter (·.1 != worker) }, none)

/-- A worker with a batch moves on; when the token has fired, it gives the batch up. -/
def attempt? (traffic : Traffic) (sight : Sight) (worker : Nat) (batch : Batch)
    (attempt : Attempt) : Option (Traffic × Option Order) :=
  if traffic.run.fired then traffic.quietly? (.pool (.attempt worker .cut))
  else match attempt with
    | .waiting _ => traffic.request? worker batch
    | .running _ => traffic.answer? sight worker batch
    | .pausing _ =>
      if (traffic.delays.lookup worker).all (· ≤ sight.now) then
        traffic.quietly? (.pool (.attempt worker .resume))
      else none

/-- The worker at a position moves. -/
def worker? (traffic : Traffic) (sight : Sight) (position : Nat) :
    Worker → Option (Traffic × Option Order)
  | .idle =>
    (traffic.quietly? (.pool (.take position))).or (traffic.quietly? (.pool (.leave position)))
  | .trying batch attempt => traffic.attempt? sight position batch attempt
  | .reporting _ => traffic.quietly? (.pool (.report position))
  | .left | .lost => none

/-- The first delivery moves on: it is over at once if there is nothing to hand on, else it is
started, and over when the surroundings say so. -/
def delivery? (traffic : Traffic) (sight : Sight) (delivery : Delivery) :
    Option (Traffic × Option Order) :=
  if delivery.records.isEmpty then traffic.quietly? (.deliver 0 (.ok ()))
  else if traffic.sending then
    sight.delivered.bind fun result =>
      (traffic.step? (.deliver 0 result)).map fun next => ({ next with sending := false }, none)
  else some ({ traffic with sending := true }, some (.deliver delivery.records))

/-- The move that is made in an open cycle. -/
def cycle? (traffic : Traffic) (sight : Sight) (cycle : CycleState) :
    Option (Traffic × Option Order) :=
  (traffic.quietly? .intake).or <|
  (cycle.deliveries.head?.bind (traffic.delivery? sight)).or <|
  (traffic.quietly? (.pool .enqueue)).or <|
  (cycle.pool.workers.zipIdx.findSome? fun worker =>
    traffic.worker? sight worker.2 worker.1).or <|
  traffic.quietly? .closeCycle

/-- The move that is made, with what is asked for. -/
def move? (traffic : Traffic) (sight : Sight) : Option (Traffic × Option Order) :=
  match traffic.run.stage with
  | .over _ => none
  | .busy cycle => (traffic.refilled sight.now).cycle? sight cycle
  | .between =>
    (traffic.quietly? .conclude).or <| (traffic.quietly? .cancelRest).or <|
    traffic.quietly? .openCycle

/-! ### Rounds -/

/-- What has become of a run after a look at its surroundings. -/
structure Round where
  traffic : Traffic
  order : Option Order
  /-- Whether no move was possible. -/
  idle : Bool

/-- The token fires when the program has been told to stop. -/
def noticed (traffic : Traffic) (sight : Sight) : Traffic :=
  if sight.stopped then (traffic.step? .fire).getD traffic else traffic

/-- One look at the surroundings, and the move that follows from it. -/
def round (traffic : Traffic) (sight : Sight) : Round :=
  let traffic := traffic.noticed sight
  match traffic.move? sight with
  | some (next, order) => ⟨next, order, false⟩
  | none => ⟨traffic, none, true⟩

/-- Several looks in turn, with all that is asked for. -/
def rounds (traffic : Traffic) : List Sight → Traffic × List Order
  | [] => (traffic, [])
  | sight :: rest =>
    let first := traffic.round sight
    let (last, orders) := first.traffic.rounds rest
    (last, first.order.toList ++ orders)

end Traffic

end Backfill
