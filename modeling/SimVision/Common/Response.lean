import SimVision.Foundation.Json

/-! # Responses

A response is answered as one JSON envelope, whose serialisation throws when one
of its strings is not valid UTF-8.
-/

namespace SimVision

open Foundation

inductive Code where
  | success
  | error
  | notReady
  | alreadyInit
  | invalidParam
  | unavailable
  deriving DecidableEq

/-- `static_cast<int>` of a code. -/
def Code.toInt : Code → Int
  | .success => 0
  | .error => 1
  | .notReady => 2
  | .alreadyInit => 3
  | .invalidParam => 4
  | .unavailable => 5

structure Response where
  code : Code := .success
  message : Bytes := []
  detail : Json := Json.emptyObject
  serverId : Bytes := []
  clientId : Bytes := []
  recvSec : Int := 0
  recvNsec : Int := 0
  sendSec : Int := 0
  sendNsec : Int := 0

namespace Response

/-- The JSON value that `to_json` dumps. -/
def envelope (r : Response) : Json :=
  Json.ofAssignments
    [(lit "code", .integer r.code.toInt),
      (lit "message", .string r.message),
      (lit "detail", r.detail),
      (lit "server_id", .string r.serverId),
      (lit "client_id", .string r.clientId),
      (lit "recv_timestamp", Json.ofAssignments
        [(lit "sec", .integer r.recvSec), (lit "nsec", .integer r.recvNsec)]),
      (lit "send_timestamp", Json.ofAssignments
        [(lit "sec", .integer r.sendSec), (lit "nsec", .integer r.sendNsec)])]

def toJson (lib : JsonLibrary) (r : Response) : Except Bytes Bytes := lib.dump r.envelope

def fromError (code : Code) (message : Bytes) : Response := { code := code, message := message }

def httpStatus : Code → Int
  | .success => 200
  | .alreadyInit => 200
  | .error => 500
  | .notReady => 400
  | .invalidParam => 400
  | .unavailable => 404

/-- The envelope is in UTF-8 when the four parts that vary are. -/
theorem envelope_utf8 (r : Response) (hmessage : validUtf8 r.message = true)
    (hdetail : r.detail.utf8 = true) (hserver : validUtf8 r.serverId = true)
    (hclient : validUtf8 r.clientId = true) : r.envelope.utf8 = true := by
  have hstamp : ∀ sec nsec : Int, (Json.ofAssignments
      [(lit "sec", .integer sec), (lit "nsec", .integer nsec)]).utf8 = true := by
    intro sec nsec
    apply Json.utf8_ofAssignments
    simp only [List.forall_mem_cons, List.not_mem_nil, false_imp_iff, implies_true, and_true]
    exact ⟨⟨by decide, rfl⟩, by decide, rfl⟩
  apply Json.utf8_ofAssignments
  simp only [List.forall_mem_cons, List.not_mem_nil, false_imp_iff, implies_true, and_true]
  exact ⟨⟨by decide, rfl⟩, ⟨by decide, hmessage⟩, ⟨by decide, hdetail⟩, ⟨by decide, hserver⟩,
    ⟨by decide, hclient⟩, ⟨by decide, hstamp _ _⟩, by decide, hstamp _ _⟩

/-- An envelope in UTF-8 has its message in UTF-8. -/
theorem message_utf8 (r : Response) (hutf8 : r.envelope.utf8 = true) :
    validUtf8 r.message = true := by
  have hlookup : r.envelope.lookup (lit "message") = some (.string r.message) := by
    unfold envelope Json.ofAssignments
    simp only [List.foldl_cons, List.foldl_nil, Json.lookup_set]
    rfl
  exact Json.utf8_of_lookup hutf8 hlookup

end Response

end SimVision
