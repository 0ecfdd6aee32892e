import Backfill.Invocation
import Backfill.Simulation.Rehearsal

/-!
# Invocations during an outage

During an outage every request fails on its way, so no block is ever fetched or handed on.
An invocation of the program then takes a course that is known beforehand.

## Main definitions

* `Outage` — what fails on the way to each address.
* `Outage.reply` — the reply to whatever is posted to an address.
* `Outage.script` — how a provider at an address seems to act.
* `Outage.invoke` — an invocation of the program.
* `Outage.unreachable` — the outage of a machine without a network.
-/

namespace Backfill

/-- What fails on the way to each address, with the words for it. -/
structure Outage where
  fault : String → HttpFault × String

namespace Outage

/-- The reply to whatever is posted to an address. -/
def reply (outage : Outage) (url : String) : HttpReply :=
  .fault (outage.fault url).1 (outage.fault url).2

/-- How a provider at an address seems to act: every request fails. -/
def script (outage : Outage) (url : String) : Script where
  slots := []
  batches := []
  fallback := [.fail ((outage.fault url).1.toTransport (outage.fault url).2)]
  latency := 0

/-- What comes of a run. -/
def run (outage : Outage) (settings : Settings) (target : Target) : Option RunOutcome :=
  (RunRehearsal.play (outage.script settings.url) none none (target.setup settings 0)
    .zero).run.outcome? default

/-- An invocation of the program: the files afterwards, and what it tells. -/
def invoke (outage : Outage) (now : String) (env : Environment) (files : FileTree)
    (command : Command) : FileTree × Transcript :=
  match Errand.ofCommand command env files with
  | .done transcript => (files, transcript)
  | .block settings slot summary =>
    (files, Invocation.closeBlock slot summary
      (Exchange.block slot (outage.reply settings.url)))
  | .run settings target dir =>
    match outage.run settings target with
    | some outcome => Invocation.closeRun files dir now outcome
    | none => (files, .failed .failure "")

/-- A machine without a network: nothing can be connected to, and an address without a host is
none.  The words are those of an error and its causes in a row. -/
def unreachable : Outage where
  fault url :=
    let chained := " | caused_by: ".intercalate
    if url = "http://" ∨ url = "https://" then
      (.other, chained ["builder error: empty host", "empty host"])
    else
      let reason := "Network is unreachable (os error 101)"
      let connect := "tcp connect error: " ++ reason
      let trying := "error trying to connect: " ++ connect
      let sending := "error sending request for url (" ++ url ++ "): " ++ trying
      (.connect, chained [sending, trying, connect, reason])

end Outage

end Backfill
