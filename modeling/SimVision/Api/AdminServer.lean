import SimVision.Api.CommandHandler

/-! # Requests and replies

What a worker computes from the bytes of a connection: the request line, the
body, the client, the command and the reply. The head arrives in `buf` and the
bytes that `read_body` appends to the body arrive in `more`.
-/

namespace SimVision

open Foundation

/-- The outputs of `parse_request_line`. -/
structure RequestHead where
  method : Bytes
  path : Bytes
  headerEnd : Nat
  contentLength : Nat
  deriving DecidableEq

def crlf : Bytes := [13, 10]

/-- The value of the first `content-length:` in the lower-cased buffer. -/
def parseContentLength (lower : Bytes) : Nat :=
  match find lower (lit "content-length:") 0 with
  | none => 0
  | some pos =>
      let val := match find lower crlf pos with
        | some eol => substr lower (pos + 15) (eol - (pos + 15))
        | none => lower.drop (pos + 15)
      (stoul val).getD 0

def parseRequestLine (buf : Bytes) : RequestHead :=
  let line := match find buf crlf 0 with
    | none => buf
    | some lineEnd => substr buf 0 lineEnd
  let sp1 := find line [32] 0
  -- `npos + 1` is 0, so a line without a space is searched from its start again
  let sp2 := find line [32] ((sp1.map (· + 1)).getD 0)
  let target := match sp1, sp2 with
    | some first, some second => substr line (first + 1) (second - first - 1)
    | _, _ => lit "/"
  { method := (sp1.map (substr line 0 ·)).getD []
    path := match find target (lit "?") 0 with
      | some q => substr target 0 q
      | none => target
    headerEnd := (find buf (crlf ++ crlf) 0).getD buf.length
    contentLength := parseContentLength (toLower buf) }

example : parseRequestLine (lit "POST /api/connect?x=1 HTTP/1.1\r\nContent-Length: 17\r\n\r\n") =
    ⟨lit "POST", lit "/api/connect", 50, 17⟩ := by decide

/-- `body_raw` after `read_body` has appended `more`. -/
def bodyRaw (buf more : Bytes) : Bytes :=
  let head := parseRequestLine buf
  let first := if head.headerEnd + 4 ≤ buf.length then buf.drop (head.headerEnd + 4) else []
  if first.length < head.contentLength then (first ++ more).take head.contentLength else first

variable (lib : JsonLibrary)

/-- The parsed body; an empty or malformed one is an empty object. -/
def requestBody (buf more : Bytes) : Json :=
  if bodyRaw buf more = [] then Json.emptyObject
  else
    match lib.parse (bodyRaw buf more) with
    | .ok body => body
    | .error _ => Json.emptyObject

/-- The client that a body names. A value that is not a string is dumped. -/
def requestClient (body : Json) : Except Bytes Bytes :=
  match body.lookup (lit "client_id") with
  | none => .ok (lit "default")
  | some (.string s) => .ok s
  | some .null => .ok (lit "default")
  | some value => lib.dump value

def requestCommand (buf more : Bytes) : Bytes :=
  CommandHandler.normalizeCommand (parseRequestLine buf).path (requestBody lib buf more)

/-- The clock at the two reads of `unix_sec_nsec`, one for each stamp. -/
structure ReplyClocks where
  recv : Int
  send : Int

/-- The response with the fields that `handle_connection` fills in. -/
def completeResponse (cfg : AdminServerConfig) (clientId : Bytes) (clocks : ReplyClocks)
    (r : Response) : Response :=
  { r with
    serverId := cfg.serverId
    clientId := clientId
    recvSec := nowUnixSec clocks.recv
    recvNsec := nowUnixNsec clocks.recv
    sendSec := nowUnixSec clocks.send
    sendNsec := nowUnixNsec clocks.send }

/-- The reply to a connection, with the service after it. -/
def handleConnection (cfg : AdminServerConfig) (clocks : ReplyClocks) (buf more : Bytes)
    (s : Service) : Except Bytes (Service × Bytes) :=
  match requestClient lib (requestBody lib buf more) with
  | .error what => .error what
  | .ok clientId =>
      match CommandHandler.handle lib (requestCommand lib buf more) (requestBody lib buf more)
          clientId s with
      | .error what => .error what
      | .ok (next, r) =>
          match (completeResponse cfg clientId clocks r).toJson lib with
          | .error what => .error what
          | .ok bodyJson =>
              .ok (next, lit "HTTP/1.1 " ++ signedDecimal (Response.httpStatus r.code) ++
                lit " OK\r\nContent-Type: application/json\r\nContent-Length: " ++
                decimal bodyJson.length ++ lit "\r\nConnection: close\r\n\r\n" ++ bodyJson)

end SimVision
