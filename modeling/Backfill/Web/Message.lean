import Backfill.Rpc.Exchange
import Backfill.Status

/-!
# Messages on the wire

Requests and replies are sent as HTTP/1.1 over connections that serve for one exchange each.
A message has a head, which ends with an empty line, and a body; the head says how long the
body is, or that it comes in chunks, or else the body ends with the connection.

## Main definitions

* `WebAddress` — where a server listens; `WebAddress.ofUrl?` takes it from a URL.
* `HttpRequest.toText` — a request as it is sent.
* `Head` — the head of a message; `Head.ofBytes?` separates it from the body.
* `dechunk` — the body that comes in chunks.
* `HttpReply.ofBytes` — the reply that was received.
* `PageRequest.ofBytes?`, `PageAnswer.toText` — the same from the side of the status pages.
-/

namespace Backfill

/-! ### Addresses -/

/-- Where a server listens, and what it is asked for. -/
structure WebAddress where
  host : String
  port : Nat
  /-- The path with the query. -/
  target : String
deriving DecidableEq, Repr

namespace WebAddress

/-- The host and the port in a URL, the usual port if none is given. -/
def hostPort (text : String) : Option (String × Nat) :=
  match text.splitOn ":" with
  | [host] => some (host, 80)
  | [host, port] => (Text.readInteger Word.max16 port).toOption.map (host, ·)
  | _ => none

/-- The address in a URL for a connection without encryption. -/
def ofUrl? (url : String) : Option WebAddress :=
  match url.splitOn "://" with
  | "http" :: first :: rest =>
    let chars := ("://".intercalate (first :: rest)).toList
    let isHost := fun c => c != '/' && c != '?' && c != '#'
    let target := String.ofList ((chars.dropWhile isHost).takeWhile (· != '#'))
    match hostPort (String.ofList (chars.takeWhile isHost)) with
    | some (host, port) =>
      if host.isEmpty then none
      else some ⟨host, port, if target.startsWith "/" then target else "/" ++ target⟩
    | none => none
  | _ => none

end WebAddress

/-- The end of a line in the head of a message. -/
def lineEnd : String := "\r\n"

/-- A request as it is sent. -/
def HttpRequest.toText (request : HttpRequest) (address : WebAddress) : String :=
  lineEnd.intercalate
    ["POST " ++ address.target ++ " HTTP/1.1", s!"host: {address.host}:{address.port}",
      "content-type: " ++ HttpRequest.contentType, "user-agent: " ++ BuildInfo.current.userAgent,
      "accept: */*", s!"content-length: {request.body.utf8ByteSize}", "connection: close", "",
      request.body]

/-! ### Heads -/

/-- The head of a message: its first line, and its fields with names in lower case. -/
structure Head where
  line : String
  fields : List (String × String)
deriving DecidableEq, Repr

namespace Head

/-- The bytes in front of an empty line and those behind it; `seen` holds the bytes before
these, in reverse. -/
def split? (seen : List UInt8) : List UInt8 → Option (List UInt8 × List UInt8)
  | 13 :: 10 :: 13 :: 10 :: rest => some (seen.reverse, rest)
  | byte :: rest => split? (byte :: seen) rest
  | [] => none

/-- The field in a line. -/
def field? (line : String) : Option (String × String) :=
  match line.splitOn ":" with
  | name :: value :: rest =>
    some (Text.lower (Text.trim name), Text.trim (":".intercalate (value :: rest)))
  | _ => none

/-- The head of a message and the bytes behind it. -/
def ofBytes? (bytes : List UInt8) : Option (Head × List UInt8) :=
  match split? [] bytes with
  | none => none
  | some (head, body) =>
    match (String.ofList (head.map fun byte => Char.ofNat byte.toNat)).splitOn lineEnd with
    | [] => none
    | line :: fields => some (⟨line, fields.filterMap field?⟩, body)

/-- The number in a field, if there is one. -/
def number? (head : Head) (name : String) : Option Nat :=
  (head.fields.lookup name).bind fun value => (Text.readInteger Word.max value).toOption

/-- Whether the body comes in chunks. -/
def isChunked (head : Head) : Bool :=
  (head.fields.lookup "transfer-encoding").any fun value => (Text.lower value).endsWith "chunked"

end Head

/-! ### Bodies -/

/-- The number in front of a chunk, in hexadecimal digits, and the bytes behind its line. -/
def chunkSize? (value : Nat) : List UInt8 → Option (Nat × List UInt8)
  | 13 :: 10 :: rest => some (value, rest)
  | byte :: rest =>
    match Text.hexDigit? (Char.ofNat byte.toNat) with
    | some digit => chunkSize? (value * 16 + digit) rest
    | none => none
  | [] => none

/-- The body that comes in chunks, up to the empty chunk that ends it.  The first list is as
long as there can be chunks. -/
def dechunk : List UInt8 → List UInt8 → Option (List UInt8)
  | [], _ => none
  | _ :: bound, bytes =>
    match chunkSize? 0 bytes with
    | none => none
    | some (0, _) => some []
    | some (size, rest) =>
      if rest.length < size + 2 then none
      else (dechunk bound (rest.drop (size + 2))).map (rest.take size ++ ·)

/-- The body that follows a head, unless it is cut off. -/
def Head.body? (head : Head) (bytes : List UInt8) : Option (List UInt8) :=
  if head.isChunked then dechunk bytes bytes
  else match head.number? "content-length" with
    | some size => if bytes.length < size then none else some (bytes.take size)
    | none => some bytes

/-! ### Replies -/

/-- The status in the first line of a reply. -/
def Head.status? (head : Head) : Option Nat :=
  match head.line.splitOn " " with
  | version :: status :: _ =>
    if version.startsWith "HTTP/" then (Text.readInteger 999 status).toOption else none
  | _ => none

/-- The reply that was received before the connection was closed. -/
def HttpReply.ofBytes (bytes : List UInt8) : HttpReply :=
  match Head.ofBytes? bytes with
  | none => .fault .other "connection closed before message completed"
  | some (head, rest) =>
    match head.status? with
    | none => .fault .other "invalid HTTP version parsed"
    | some status =>
      .answer status (match head.body? rest with
        | some body => .ok (Glyph.ofBytes body)
        | none => .error (.body, "end of file before message length reached"))

/-! ### Pages -/

/-- A request for a page. -/
structure PageRequest where
  method : String
  target : String
deriving DecidableEq, Repr

/-- The request for a page that begins with these bytes, once its head is complete. -/
def PageRequest.ofBytes? (bytes : List UInt8) : Option PageRequest := do
  let (head, _) ← Head.ofBytes? bytes
  match head.line.splitOn " " with
  | method :: target :: _ => return ⟨method, target⟩
  | _ => none

namespace PageBody

/-- The type of the contents. -/
def contentType : PageBody → String
  | .json _ => "application/json"
  | _ => "text/plain; charset=utf-8"

/-- The contents as they are sent. -/
def toText : PageBody → String
  | .empty => ""
  | .text words => words
  | .lines list => String.join (list.map (· ++ "\n"))
  | .json found => found.render

end PageBody

/-- The words that go with a status. -/
def statusWords (status : Nat) : String :=
  match status with
  | 200 => "OK"
  | 400 => "Bad Request"
  | 404 => "Not Found"
  | 405 => "Method Not Allowed"
  | 502 => "Bad Gateway"
  | 503 => "Service Unavailable"
  | _ => "Unknown"

/-- The answer of a page as it is sent. -/
def PageAnswer.toText (answer : PageAnswer) : String :=
  let body := answer.body.toText
  lineEnd.intercalate
    [s!"HTTP/1.1 {answer.status} " ++ statusWords answer.status,
      "content-type: " ++ answer.body.contentType, s!"content-length: {body.utf8ByteSize}",
      "connection: close", "", body]

end Backfill
