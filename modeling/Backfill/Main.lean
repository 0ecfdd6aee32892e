import Backfill.Engine
import Backfill.Invocation
import Backfill.Traffic
import Backfill.Web.Message
import Std.Async.DNS
import Std.Async.Signal
import Std.Async.TCP
import Std.Async.Timer

/-!
# The program

Everything that the library leaves to its surroundings is done here: connections, clocks,
files, signals and pages.  For a run the program looks around, lets `Traffic.round` decide, has
done what that asks for, and looks again.
-/

namespace Backfill

open Std.Async

namespace Program

/-! ### Connections -/

/-- All bytes that come in until the other side closes the connection. -/
partial def receive (socket : TCP.Socket.Client) (gathered : ByteArray) : Async ByteArray := do
  match ← socket.recv? 65536 with
  | some bytes => receive socket (gathered ++ bytes)
  | none => return gathered

/-- The first bytes that come in, up to the end of a head. -/
partial def receiveHead (socket : TCP.Socket.Client) (gathered : ByteArray) :
    Async (Option PageRequest) := do
  match PageRequest.ofBytes? gathered.toList with
  | some request => return some request
  | none =>
    match ← socket.recv? 65536 with
    | some bytes =>
      if gathered.size < 65536 then receiveHead socket (gathered ++ bytes) else return none
    | none => return none

/-- A number of an address. -/
def byteAt (bytes : List Nat) (position : Nat) : UInt8 := UInt8.ofNat (bytes[position]?.getD 0)

/-- A group of an address. -/
def groupAt (groups : List Nat) (position : Nat) : UInt16 :=
  UInt16.ofNat (groups[position]?.getD 0)

/-- An address as the system knows it. -/
def systemAddress : SocketAddress → Std.Net.SocketAddress
  | .v4 b port =>
    .v4 ⟨.ofParts (byteAt b 0) (byteAt b 1) (byteAt b 2) (byteAt b 3), UInt16.ofNat port⟩
  | .v6 g _ port =>
    .v6 ⟨.ofParts (groupAt g 0) (groupAt g 1) (groupAt g 2) (groupAt g 3) (groupAt g 4)
      (groupAt g 5) (groupAt g 6) (groupAt g 7), UInt16.ofNat port⟩

/-- A port at an address without one. -/
def withPort (address : Std.Net.IPAddr) (port : Nat) : Std.Net.SocketAddress :=
  match address with
  | .v4 found => .v4 ⟨found, UInt16.ofNat port⟩
  | .v6 found => .v6 ⟨found, UInt16.ofNat port⟩

/-- Connects to the first of several addresses that answers. -/
def connectAny (port : Nat) : List Std.Net.IPAddr → Async TCP.Socket.Client
  | [] => throw (IO.userError "no address")
  | address :: rest => do
    let socket ← TCP.Socket.Client.mk
    try
      socket.connect (withPort address port)
      return socket
    catch error =>
      if rest.isEmpty then throw error else connectAny port rest

/-- What comes back from a server. -/
def exchange (request : HttpRequest) (address : WebAddress) : Async HttpReply := do
  let connected : Except IO.Error TCP.Socket.Client ← try
      let found ← DNS.getAddrInfo address.host s!"{address.port}"
      pure (.ok (← connectAny address.port found.toList))
    catch error => pure (.error error)
  match connected with
  | .error error => return .fault .connect s!"{error}"
  | .ok socket =>
    try
      socket.send (request.toText address).toUTF8
      return .ofBytes (← receive socket .empty).toList
    catch error => return .fault .other s!"{error}"

/-- What comes of a request within its time. -/
def post (request : HttpRequest) : IO HttpReply :=
  match WebAddress.ofUrl? request.url with
  | none => return .fault .other ("unsupported URL: " ++ request.url)
  | some address =>
    Async.block <| Async.race (exchange request address) do
      sleep (.ofNat request.timeout)
      return .fault .timeout "operation timed out"

/-! ### Signals and files -/

/-- The signals that ask the program to stop. -/
def stopSignals : List Signal := [.sigint, .sigterm]

/-- Waits for a signal of each kind. -/
def watchSignals : IO (List (AsyncTask Int)) :=
  stopSignals.mapM fun signal => do (← Signal.Waiter.mk signal false).wait

/-- The bytes of a file, if it can be read. -/
def readFile? (path : String) : IO (Option (List UInt8)) := do
  try
    return some (← IO.FS.readBinFile path).toList
  catch _ => return none

/-- Every setting there is. -/
def settingKeys : List SettingKey :=
  [.profile, .url, .batchSize, .batchesPerCycle, .burst, .retryAttempts, .poolSize,
    .includeRewards, .retryDelay, .batchTimeout, .requestTimeout, .maxRate, .workers,
    .queueCapacity, .scanOrder, .requiredAccount, .portStart, .portCount, .host]

/-- The variables with these names that are set. -/
def readVariables (names : List String) : IO Environment :=
  names.filterMapM fun name => do return (← IO.getEnv name).map (name, ·)

/-- The working directory with what a command needs of the files: variables, and the file of
failed slots. -/
def readFiles (command : Command) : IO (FileTree × Environment) := do
  let here := ((← IO.currentDir).toString.splitOn "/").filter (!·.isEmpty)
  let mut files : FileTree := ⟨here, []⟩
  let mut names := settingKeys.map SettingKey.name
  for length in (List.range (here.length + 1)).reverse do
    let place := here.take length ++ [".env"]
    if let some bytes ← readFile? ("/" ++ "/".intercalate place) then
      let content := Glyph.ofBytes bytes
      files := files.put place (.file content)
      names := names ++ EnvironmentFile.names content
      break
  if let .replay path _ := command then
    if let some bytes ← readFile? path then
      files := files.withFile path (Glyph.ofBytes bytes)
  return (files, ← readVariables names.eraseDups)

/-- Seconds from the start of 1970 up to now. -/
def secondsNow : IO Int := do return (← Std.Time.Timestamp.now).toSecondsSinceUnixEpoch.val

/-- Makes every directory on a path. -/
def makeDirs (path : String) : IO Unit := do
  let here ← IO.currentDir
  for stage in FileTree.stages path do
    try
      IO.FS.createDir stage
    catch error =>
      unless ← (here / stage).isDir do throw error
  unless path.isEmpty || (← (here / path).isDir) do
    throw (IO.userError FileTree.fault)

/-- Writes the failed slots of a run into a directory, if there are any, and tells where. -/
def keepFailures (dir : String) (report : RunReport) :
    IO (Except FileError (Option String)) := do
  if report.ledger.isEmpty then return .ok none
  let made : Except FileError Unit ← try
      makeDirs dir
      pure (.ok ())
    catch error => pure (.error (.io dir s!"{error}"))
  match made with
  | .error error => return .error error
  | .ok () =>
    let path := FileTree.join dir (FailureFile.name report.run)
    let now := (Calendar.Moment.ofSeconds (← secondsNow)).readable
    try
      IO.FS.writeFile path (FailureFile.text report.ledger report.run now)
      return .ok (some path)
    catch error => return .error (.io path s!"{error}")

/-! ### Status pages -/

/-- Answers one request for a page. -/
def answerPage (settings : Settings) (metrics : IO.Ref Metrics) (request : PageRequest) :
    IO PageAnswer := do
  let found : Except BlockError (Option Json) ←
    match StatusPages.wanted? request.method request.target with
    | some slot => pure (Exchange.block slot (← post (.block settings slot)))
    | none => pure (.ok none)
  let lines := (← metrics.get).buildExposition .current "fetcher"
  return StatusPages.answer lines (some fun _ => found) request.method request.target

/-- Answers requests for pages, each in a task of its own. -/
partial def servePages (settings : Settings) (metrics : IO.Ref Metrics)
    (server : TCP.Socket.Server) : Async Unit := do
  let socket ← server.accept
  background (t := AsyncTask) do
    if let some request ← receiveHead socket .empty then
      let answer ← answerPage settings metrics request
      socket.send answer.toText.toUTF8
      socket.shutdown
  servePages settings metrics server

/-- Starts to answer requests at an address. -/
def openPages (settings : Settings) (metrics : IO.Ref Metrics) (address : SocketAddress) :
    IO Unit := do
  let server ← TCP.Socket.Server.mk
  server.bind (systemAddress address)
  server.listen 128
  discard <| (servePages settings metrics server).toIO

/-! ### Runs -/

/-- What a run has on its way, and what is known of its surroundings. -/
structure Surroundings where
  settings : Settings
  signals : List (AsyncTask Int)
  /-- The requests that were sent last, by the positions of their workers. -/
  requests : List (Nat × Task (Except IO.Error HttpReply))
  rotation : Rotation
  /-- The delivery that was started last. -/
  delivery : Option (Task (Except IO.Error (Except DispatchError Unit)))

namespace Surroundings

/-- What comes of a request that ends without a reply. -/
def replyOf : Except IO.Error HttpReply → HttpReply
  | .ok reply => reply
  | .error error => .fault .other s!"{error}"

/-- What comes of a delivery that ends without a result. -/
def resultOf : Except IO.Error (Except DispatchError Unit) → Except DispatchError Unit
  | .ok result => result
  | .error error => .error (.request "" s!"{error}")

/-- The result of a task that has come to its end. -/
def finished? {α : Type} (task : Task α) : IO (Option α) := do
  return if ← IO.hasFinished task then some task.get else none

/-- Looks around. -/
def look (around : Surroundings) : IO Sight := do
  let replies ← around.requests.filterMapM fun (worker, request) => do
    return (← finished? request).map fun found => (worker, replyOf found)
  let delivered ← around.delivery.bindM finished?
  return { now := ← IO.monoMsNow
           stopped := ← around.signals.anyM fun signal => IO.hasFinished signal
           replies := replies
           delivered := delivered.map resultOf }

/-- Starts something in a thread of its own. -/
def launch {α : Type} (action : IO α) : IO (Task (Except IO.Error α)) :=
  IO.asTask action .dedicated

/-- Has done what is asked for: a request is sent, or records go to the parser whose turn it is. -/
def carryOut (around : Surroundings) : Order → IO Surroundings
  | .request worker batch => do
    let request ← launch (post (.batch around.settings batch.slots))
    let others := around.requests.filter (·.1 != worker)
    return { around with requests := (worker, request) :: others }
  | .deliver records => do
    let timeout := (around.settings.dispatch.getD default).timeout
    match around.rotation.next? with
    | none => return { around with delivery := some (← launch (return .error .noEndpoints)) }
    | some (endpoint, rotation) =>
      let sending ← launch do
        return Exchange.records endpoint (← post (.records endpoint timeout records))
      return { around with delivery := some sending, rotation := rotation }

/-- Goes on until the run is over; when there is nothing to do, the program waits for a moment. -/
partial def drive (metrics : IO.Ref Metrics) (around : Surroundings) (traffic : Traffic) :
    IO Run := do
  metrics.set traffic.run.accounts.telemetry.metrics
  if let .over _ := traffic.run.stage then return traffic.run
  let round := traffic.round (← around.look)
  if round.idle then IO.sleep 1
  match round.order with
  | some order => drive metrics (← around.carryOut order) round.traffic
  | none => drive metrics around round.traffic

end Surroundings

/-- Makes a run, with the time that it takes. -/
def makeRun (settings : Settings) (target : Target) (metrics : IO.Ref Metrics) :
    IO (Option RunOutcome) := do
  let setup := target.setup settings (← secondsNow)
  let start ← IO.monoNanosNow
  let rotation := match settings.dispatch with
    | some dispatch => Rotation.ofDispatch dispatch
    | none => .ofEndpoints []
  let run ← Surroundings.drive metrics
    { settings := settings
      signals := ← watchSignals
      requests := []
      rotation := rotation
      delivery := none }
    { run := .start setup .zero
      limiter := .ofRate settings.maxRate settings.burst
      refill := ← IO.monoMsNow
      delays := []
      sending := false }
  let elapsed := (← IO.monoNanosNow) - start
  return run.outcome? ⟨elapsed⟩

/-! ### The command line -/

/-- The address at which a command wants status pages. -/
def pagesAddress? : Command → Option SocketAddress
  | .fetch _ _ options | .replay _ options => options.metricsBind.bind SocketAddress.ofText?
  | .block .. => none

/-- Does what a command says. -/
def perform (command : Command) : IO Transcript := do
  let (files, env) ← readFiles command
  match Errand.ofCommand command env files with
  | .done transcript => return transcript
  | .block settings slot summary =>
    return Invocation.closeBlock slot summary
      (Exchange.block slot (← post (.block settings slot)))
  | .run settings target dir =>
    let metrics ← IO.mkRef Metrics.zero
    let opened : Except IO.Error Unit ← match pagesAddress? command with
      | none => pure (.ok ())
      | some address => try
          openPages settings metrics address
          pure (.ok ())
        catch error => pure (.error error)
    match opened with
    | .error error => return .failedWith "failed to start metrics endpoint" [s!"{error}"]
    | .ok () =>
      match ← makeRun settings target metrics with
      | some outcome => return Invocation.tellOutcome outcome (← keepFailures dir outcome.report)
      | none => return .failed .failure "fetch run failed"

/-- How to call the program. -/
def usageText : String :=
  "Usage: slot_fetcher <fetch|replay|block> [OPTIONS]"

/-- Tells why a command line was not followed. -/
def tellError (error : CommandLineError) : IO Unit :=
  match error with
  | .help => IO.println usageText
  | .version => IO.println (BuildInfo.service ++ " " ++ BuildInfo.current.long)
  | _ => IO.eprintln usageText

end Program

end Backfill

open Backfill in
/-- Does what the command line says. -/
def main (arguments : List String) : IO UInt32 := do
  match CommandLine.parse arguments with
  | .error error =>
    Program.tellError error
    return UInt32.ofNat error.exitCode
  | .ok command =>
    let transcript ← Program.perform command
    for line in transcript.out do IO.println line
    for line in transcript.errors do IO.eprintln line
    return UInt32.ofNat transcript.exit.number
