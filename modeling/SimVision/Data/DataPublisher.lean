import Mathlib.Data.List.Induction
import SimVision.DataSource.SimDataSource
import SimVision.Foundation.Json

/-! # The publisher

A PUB socket is a stream of parts: a part sent with `ZMQ_SNDMORE` leaves the
current message open, and one sent without closes it. `sendMultipart` sends a
JSON header and one payload a bundle, and gives up at the first failure.
-/

namespace SimVision

open Foundation

/-- One part of a message: the text of a JSON value, or the bytes of a bundle. -/
inductive Part where
  | json (value : Json)
  | payload (bundle : DataBundle)

/-- What a socket has been given: complete messages, and the parts of an open one. -/
structure Socket where
  closed : List (List Part) := []
  opened : List Part := []

/-- A successful `send_frame`, where `more` is `ZMQ_SNDMORE`. -/
def Socket.send (sock : Socket) (part : Part) (more : Bool) : Socket :=
  if more then { sock with opened := sock.opened ++ [part] }
  else { closed := sock.closed ++ [sock.opened ++ [part]], opened := [] }

structure PublisherStats where
  sent2D : Nat := 0
  sent3D : Nat := 0
  sentSensor : Nat := 0
  droppedHwm : Nat := 0
  shutdownSent : Nat := 0
  deriving DecidableEq

namespace PublisherStats

def countSent (stats : PublisherStats) : DataGroup → PublisherStats
  | .visual2D => { stats with sent2D := wordSucc stats.sent2D }
  | .visual3D => { stats with sent3D := wordSucc stats.sent3D }
  | .sensorData => { stats with sentSensor := wordSucc stats.sentSensor }

def countDropped (stats : PublisherStats) : PublisherStats :=
  { stats with droppedHwm := wordSucc stats.droppedHwm }

end PublisherStats

/-! ## The header -/

/-- The entry of `parts[]` for one bundle. -/
def partJson (b : DataBundle) : Json :=
  Json.ofAssignments <|
    [(lit "id", .string b.partId), (lit "size", .unsigned b.data.length),
      (lit "format", .string b.format)] ++
    if 0 < b.width then
      [(lit "is_encoded", .boolean b.isEncoded), (lit "channels", .integer b.channels),
        (lit "channel_layout", .string b.code), (lit "width", .integer b.width),
        (lit "height", .integer b.height)] ++
      (if 0 < b.rightChannels then [(lit "right_channels", .integer b.rightChannels)] else []) ++
      (if b.rightCode ≠ [] then [(lit "right_channel_layout", .string b.rightCode)] else [])
    else []

def headerJson (pubId : Bytes) (frame : ChannelFrame) (pubSec pubNsec : Int) : Json :=
  Json.ofAssignments
    [(lit "group", .string (groupToString frame.group)),
      (lit "ts_sec", .integer frame.tsSec),
      (lit "ts_nsec", .integer frame.tsNsec),
      (lit "pair_id", .unsigned frame.pairId),
      (lit "active", .boolean true),
      (lit "pub_id", .string (if frame.pubId = [] then pubId else frame.pubId)),
      (lit "frame_index", .unsigned frame.frameIndex),
      (lit "source", .string versionTag),
      (lit "pub_ts_sec", .integer pubSec),
      (lit "pub_ts_nsec", .integer pubNsec),
      (lit "parts", .array (frame.bundles.map partJson))]

/-! ## Sending -/

/-- A call of `send_multipart`: the frame, the clock at the two reads for the
publication time, and whether each `send_frame` would succeed (the header is
part 0). -/
structure PublishCall where
  frame : ChannelFrame
  secClock : Int
  nsecClock : Int
  succeeds : Nat → Bool

namespace PublishCall

/-- The header of the call's frame. -/
def header (call : PublishCall) (pubId : Bytes) : Json :=
  headerJson pubId call.frame (nowUnixSec call.secClock) (nowUnixNsec call.nsecClock)

end PublishCall

/-- The loop over the payloads from index `i` on, with its verdict. -/
def sendPayloads (succeeds : Nat → Bool) : Nat → List DataBundle → Socket → Socket × Bool
  | _, [], sock => (sock, true)
  | i, b :: rest, sock =>
      if succeeds (i + 1) then
        -- every payload but the last announces another part
        sendPayloads succeeds (i + 1) rest (sock.send (.payload b) (!rest.isEmpty))
      else (sock, false)

/-- `send_multipart`. The header is dumped before anything is sent, which throws
if it holds a string that is not valid UTF-8. -/
def sendMultipart (lib : JsonLibrary) (pubId : Bytes) (call : PublishCall) (sock : Socket)
    (stats : PublisherStats) : Except Bytes (Socket × PublisherStats × Bool) :=
  match lib.dump (call.header pubId) with
  | .error what => .error what
  | .ok _ =>
      if call.succeeds 0 then
        let started := sock.send (.json (call.header pubId)) (!call.frame.bundles.isEmpty)
        match sendPayloads call.succeeds 0 call.frame.bundles started with
        | (final, true) => .ok (final, stats.countSent call.frame.group, true)
        | (final, false) => .ok (final, stats.countDropped, false)
      else .ok (sock, stats.countDropped, false)

/-- The socket after one call. A call that throws has sent nothing. -/
def Socket.afterCall (lib : JsonLibrary) (pubId : Bytes) (sock : Socket) (call : PublishCall) :
    Socket :=
  match sendMultipart lib pubId call sock {} with
  | .ok (next, _, _) => next
  | .error _ => sock

/-- A fresh socket after a sequence of calls. -/
def sendAll (lib : JsonLibrary) (pubId : Bytes) (calls : List PublishCall) : Socket :=
  calls.foldl (Socket.afterCall lib pubId) {}

/-! ## Well-formed messages -/

/-- A header and exactly the payloads its `parts[]` lists, in order. -/
def WellFormed (message : List Part) : Prop :=
  ∃ (header : Json) (bundles : List DataBundle),
    message = .json header :: bundles.map .payload ∧
      header.lookup (lit "parts") = some (.array (bundles.map partJson))

namespace PublishCall

variable (lib : JsonLibrary) (pubId : Bytes)

/-- The header of the call is sent. -/
def Starts (call : PublishCall) : Prop :=
  (∃ text, lib.dump (call.header pubId) = .ok text) ∧ call.succeeds 0 = true

/-- The call sends its header and fails at a payload. -/
def Abandoned (call : PublishCall) : Prop :=
  call.Starts lib pubId ∧ ∃ i < call.frame.bundles.length, call.succeeds (i + 1) = false

/-- Every send of the call succeeds. -/
def Completes (call : PublishCall) : Prop :=
  call.Starts lib pubId ∧ ∀ i < call.frame.bundles.length, call.succeeds (i + 1) = true

/-- The message of a call whose sends all succeed. -/
def message (call : PublishCall) : List Part :=
  .json (call.header pubId) :: call.frame.bundles.map .payload

end PublishCall

theorem header_parts (pubId : Bytes) (frame : ChannelFrame) (pubSec pubNsec : Int) :
    (headerJson pubId frame pubSec pubNsec).lookup (lit "parts") =
      some (.array (frame.bundles.map partJson)) := by
  unfold headerJson Json.ofAssignments
  simp only [List.foldl_cons, List.foldl_nil]
  rw [Json.lookup_set, if_pos rfl]

/-- A message with a header past its first part is not well formed. -/
theorem not_wellFormed_of_inner {before : List Part} (hbefore : before ≠ []) (header : Json)
    (after : List Part) : ¬ WellFormed (before ++ .json header :: after) := by
  rintro ⟨first, bundles, hmessage, _⟩
  cases before with
  | nil => exact hbefore rfl
  | cons part rest =>
      rw [List.cons_append, List.cons.injEq] at hmessage
      have hinner : Part.json header ∈ bundles.map .payload := by
        rw [← hmessage.2]
        simp
      obtain ⟨bundle, _, hpart⟩ := List.mem_map.mp hinner
      contradiction

/-- What the payload loop leaves: after a failure the message is still open,
otherwise the last payload has closed it. -/
theorem sendPayloads_spec (succeeds : Nat → Bool) (i : Nat) (bundles : List DataBundle)
    (sock : Socket) :
    ((∀ k < bundles.length, succeeds (i + k + 1) = true) → bundles ≠ [] →
      sendPayloads succeeds i bundles sock =
        ({ closed := sock.closed ++ [sock.opened ++ bundles.map .payload], opened := [] }, true)) ∧
    ((∃ k < bundles.length, succeeds (i + k + 1) = false) →
      ∃ sent, sendPayloads succeeds i bundles sock =
        ({ sock with opened := sock.opened ++ sent }, false)) := by
  induction bundles generalizing i sock with
  | nil => simp
  | cons b rest ih =>
      constructor
      · intro hall _
        have hfirst : succeeds (i + 1) = true := hall 0 (by simp)
        unfold sendPayloads
        rw [if_pos hfirst]
        cases rest with
        | nil => simp [Socket.send, sendPayloads]
        | cons next later =>
            have hlater := (ih (i + 1) (sock.send (.payload b) true)).1 (fun k hk => by
              have hshift := hall (k + 1) (by simpa using hk)
              rwa [show i + (k + 1) + 1 = i + 1 + k + 1 by omega] at hshift) (by simp)
            simp only [List.isEmpty_cons, Bool.not_false]
            rw [hlater]
            simp [Socket.send]
      · rintro ⟨k, hk, hfail⟩
        unfold sendPayloads
        split
        next hfirst =>
          cases k with
          | zero =>
              rw [Nat.add_zero, hfirst] at hfail
              contradiction
          | succ k =>
              have hrest : rest ≠ [] := by
                rintro rfl
                simp at hk
              have hmore : (!rest.isEmpty) = true := by simp [hrest]
              rw [hmore]
              obtain ⟨sent, hsent⟩ := (ih (i + 1) (sock.send (.payload b) true)).2
                ⟨k, by simpa using hk, by rwa [show i + 1 + k + 1 = i + (k + 1) + 1 by omega]⟩
              rw [hsent]
              exact ⟨.payload b :: sent, by simp [Socket.send]⟩
        next => exact ⟨[], by simp⟩

namespace Socket

variable {lib : JsonLibrary} {pubId : Bytes} {call : PublishCall}

/-- A complete call closes one message: whatever was open, then its own parts. -/
theorem afterCall_completes (sock : Socket) (hcomplete : call.Completes lib pubId) :
    sock.afterCall lib pubId call =
      { closed := sock.closed ++ [sock.opened ++ call.message pubId], opened := [] } := by
  obtain ⟨⟨⟨text, hdump⟩, hheader⟩, hpayloads⟩ := hcomplete
  unfold afterCall sendMultipart PublishCall.message
  rw [hdump]
  dsimp only
  rw [if_pos hheader]
  by_cases hempty : call.frame.bundles = []
  · simp [hempty, send, sendPayloads]
  · have hloop := (sendPayloads_spec call.succeeds 0 call.frame.bundles
      (sock.send (.json (call.header pubId)) (!call.frame.bundles.isEmpty))).1
      (by simpa using hpayloads) hempty
    rw [hloop]
    simp [send, hempty]

/-- An abandoned call leaves at least its header in the open message. -/
theorem afterCall_abandoned (sock : Socket) (habandoned : call.Abandoned lib pubId) :
    ∃ sent, sent ≠ [] ∧
      sock.afterCall lib pubId call = { sock with opened := sock.opened ++ sent } := by
  obtain ⟨⟨⟨text, hdump⟩, hheader⟩, i, hi, hfail⟩ := habandoned
  have hnonempty : call.frame.bundles ≠ [] := List.ne_nil_of_length_pos (by omega)
  obtain ⟨sent, hloop⟩ := (sendPayloads_spec call.succeeds 0 call.frame.bundles
    (sock.send (.json (call.header pubId)) (!call.frame.bundles.isEmpty))).2
    ⟨i, hi, by simpa using hfail⟩
  refine ⟨.json (call.header pubId) :: sent, by simp, ?_⟩
  unfold afterCall sendMultipart
  rw [hdump]
  dsimp only
  rw [if_pos hheader, hloop]
  simp [send, hnonempty]

/-- A call that neither completes nor is abandoned has sent nothing. -/
theorem afterCall_refused (sock : Socket) (hstart : ¬ call.Starts lib pubId) :
    sock.afterCall lib pubId call = sock := by
  unfold afterCall sendMultipart
  cases hdump : lib.dump (call.header pubId) with
  | error what => rfl
  | ok text =>
      have hheader : call.succeeds 0 ≠ true := fun hsent => hstart ⟨⟨text, hdump⟩, hsent⟩
      dsimp only
      rw [if_neg hheader]

end Socket

theorem PublishCall.wellFormed_message (pubId : Bytes) (call : PublishCall) :
    WellFormed (call.message pubId) :=
  ⟨call.header pubId, call.frame.bundles, rfl, header_parts ..⟩

/-- A call that starts either completes or is abandoned, not both. -/
theorem PublishCall.completes_or_abandoned {lib : JsonLibrary} {pubId : Bytes} {call : PublishCall}
    (hstart : call.Starts lib pubId) :
    (call.Completes lib pubId ∧ ¬ call.Abandoned lib pubId) ∨
      (call.Abandoned lib pubId ∧ ¬ call.Completes lib pubId) := by
  by_cases hall : ∀ i < call.frame.bundles.length, call.succeeds (i + 1) = true
  · refine .inl ⟨⟨hstart, hall⟩, ?_⟩
    rintro ⟨_, i, hi, hfail⟩
    rw [hall i hi] at hfail
    contradiction
  · refine .inr ⟨⟨hstart, ?_⟩, fun hcomplete => hall hcomplete.2⟩
    push Not at hall
    obtain ⟨i, hi, hfail⟩ := hall
    exact ⟨i, hi, by simpa using hfail⟩

/-- An abandoned call before a complete one. -/
def Merges (lib : JsonLibrary) (pubId : Bytes) (earlier later : PublishCall) : Prop :=
  earlier.Abandoned lib pubId ∧ later.Completes lib pubId

/-- The messages closed are well formed exactly when no complete call follows an
abandoned one; until then the message is open exactly after an abandoned call. -/
private theorem framing_invariant (lib : JsonLibrary) (pubId : Bytes) (calls : List PublishCall) :
    ((∀ message ∈ (sendAll lib pubId calls).closed, WellFormed message) ↔
        calls.Pairwise fun earlier later => ¬ Merges lib pubId earlier later) ∧
      (calls.Pairwise (fun earlier later => ¬ Merges lib pubId earlier later) →
        ((sendAll lib pubId calls).opened = [] ↔ ∀ call ∈ calls, ¬ call.Abandoned lib pubId)) := by
  induction calls using List.reverseRecOn with
  | nil => simp [sendAll]
  | append_singleton calls call ih =>
      obtain ⟨hclosed, hopened⟩ := ih
      have hnext : sendAll lib pubId (calls ++ [call]) =
          (sendAll lib pubId calls).afterCall lib pubId call := by
        rw [sendAll, List.foldl_append]
        rfl
      have hpairs : (calls ++ [call]).Pairwise
            (fun earlier later => ¬ Merges lib pubId earlier later) ↔
          calls.Pairwise (fun earlier later => ¬ Merges lib pubId earlier later) ∧
            ∀ earlier ∈ calls, ¬ Merges lib pubId earlier call := by
        simp [List.pairwise_append]
      rw [hnext, hpairs]
      by_cases hstart : call.Starts lib pubId
      · rcases PublishCall.completes_or_abandoned hstart with
          ⟨hcomplete, hkept⟩ | ⟨habandoned, hincomplete⟩
        -- a complete call closes one more message, which is its own only if none was open
        · have hmerges : (∀ earlier ∈ calls, ¬ Merges lib pubId earlier call) ↔
              ∀ earlier ∈ calls, ¬ earlier.Abandoned lib pubId := by
            simp [Merges, hcomplete]
          rw [Socket.afterCall_completes _ hcomplete, hmerges]
          refine ⟨?_, ?_⟩
          · simp only [List.mem_append, List.mem_singleton, or_imp, forall_and, forall_eq]
            rw [hclosed]
            refine and_congr_right fun hbefore => ?_
            rw [← hopened hbefore]
            constructor
            · intro hformed
              by_contra hopen
              exact not_wellFormed_of_inner hopen _ _ hformed
            · intro hnone
              rw [hnone, List.nil_append]
              exact call.wellFormed_message pubId
          · rintro ⟨_, hnone⟩
            simp only [List.mem_append, List.mem_singleton, or_imp, forall_and, forall_eq]
            exact iff_of_true trivial ⟨hnone, hkept⟩
        -- an abandoned call closes nothing and leaves a message open
        · have hmerges : ∀ earlier ∈ calls, ¬ Merges lib pubId earlier call :=
            fun _ _ hmerge => hincomplete hmerge.2
          obtain ⟨sent, hsent, hafter⟩ := Socket.afterCall_abandoned
            (sendAll lib pubId calls) habandoned
          rw [hafter]
          refine ⟨hclosed.trans (and_iff_left hmerges).symm, fun _ => ?_⟩
          refine iff_of_false (by simp [hsent]) fun hnone => ?_
          exact hnone call (by simp) habandoned
      · have hidle : ¬ call.Completes lib pubId := fun hcomplete => hstart hcomplete.1
        have hkept : ¬ call.Abandoned lib pubId := fun habandoned => hstart habandoned.1
        have hmerges : ∀ earlier ∈ calls, ¬ Merges lib pubId earlier call :=
          fun _ _ hmerge => hidle hmerge.2
        rw [Socket.afterCall_refused _ hstart]
        refine ⟨hclosed.trans (and_iff_left hmerges).symm, fun hbefore => ?_⟩
        rw [hopened hbefore.1]
        simp only [List.mem_append, List.mem_singleton, or_imp, forall_and, forall_eq]
        exact (and_iff_left hkept).symm

/-- On one socket, every closed message is a header with exactly the payloads it
lists if and only if no call abandoned after its header is followed by a call
whose sends all succeed. -/
theorem sendAll_wellFormed_iff (lib : JsonLibrary) (pubId : Bytes) (calls : List PublishCall) :
    (∀ message ∈ (sendAll lib pubId calls).closed, WellFormed message) ↔
      calls.Pairwise fun earlier later => ¬ Merges lib pubId earlier later :=
  (framing_invariant lib pubId calls).1

/-- Two frames of one bundle; the payload of the first cannot be sent. -/
def payloadFailure : List PublishCall :=
  [{ frame := { group := .visual2D, bundles := [{ type := .depthMap, partId := lit "depth_map" }] }
     secClock := 0
     nsecClock := 0
     succeeds := fun i => i = 0 },
    { frame := { group := .visual2D, bundles := [{ type := .depthMap, partId := lit "depth_map" }] }
      secClock := 0
      nsecClock := 0
      succeeds := fun _ => true }]

/-- The header of the abandoned frame becomes the first part of the next message. -/
theorem payloadFailure_merges :
    ¬ ∀ (lib : JsonLibrary), lib.Encodes → ∀ (pubId : Bytes) (calls : List PublishCall),
      ∀ message ∈ (sendAll lib pubId calls).closed, WellFormed message := by
  intro hformed
  have hpairs := (framing_invariant .plain [] payloadFailure).1.mp
    (hformed .plain JsonLibrary.plain_encodes [] payloadFailure)
  have hdump : ∀ call ∈ payloadFailure, ∃ text, JsonLibrary.plain.dump (call.header []) =
      .ok text := by
    intro call hcall
    rw [JsonLibrary.plain_encodes.dump_ok]
    simp only [payloadFailure, List.mem_cons, List.not_mem_nil, or_false] at hcall
    rcases hcall with rfl | rfl <;> decide
  have hmerges := List.rel_of_pairwise_cons hpairs (List.mem_singleton_self _)
  apply hmerges
  refine ⟨⟨⟨hdump _ (by simp [payloadFailure]), rfl⟩, 0, by decide, by decide⟩,
    ⟨hdump _ (by simp [payloadFailure]), rfl⟩, fun _ _ => rfl⟩

end SimVision
