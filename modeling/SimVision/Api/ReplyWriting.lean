import SimVision.Api.CommandEffects
import SimVision.Api.RequestReading
import SimVision.Common.ConfigDocument
import SimVision.Foundation.Framing

/-! # Writing a reply

`SSL_write` takes a reply in pieces of its own choosing, may ask to be called again,
and may fail. The loop of the server comes to an end in any case, and a client that
holds a complete reply holds the one that was written for it.
-/

namespace SimVision

open Foundation JsonLibrary

/-! ## The loop -/

/-- How a call of `SSL_write` returns: with some bytes taken, at most as many as are
offered, or without. -/
inductive WriteOutcome where
  | wrote (extra : Nat)
  | wantWrite
  | failed
  deriving DecidableEq

/-- No call fails, and at most 64 in a row ask to be called again, `spins` of them
before the first one listed. -/
def WriteOutcome.patient : Nat → List WriteOutcome → Bool
  | _, [] => true
  | _, .wrote _ :: script => patient 0 script
  | spins, .wantWrite :: script => decide (spins < 64) && patient (spins + 1) script
  | _, .failed :: _ => false

namespace AdminServer

/-- `send_all`: its verdict and what the connection has taken. The size of a call is
the rest of the data as an `int`, and a call with a size that is not positive fails.
There is no result while a call of `SSL_write` is outstanding. -/
def sendAll : List WriteOutcome → Bytes → Bytes → Nat → Option (Bool × Bytes)
  | script, rest, wire, spins =>
      if rest = [] then some (true, wire)
      else
        match script with
        | [] => none
        | .wrote extra :: script =>
            if castInt rest.length ≤ 0 then some (false, wire)
            else
              let n := min (extra + 1) (castInt rest.length).toNat
              sendAll script (rest.drop n) (wire ++ rest.take n) 0
        | .wantWrite :: script =>
            if 64 < spins + 1 then some (false, wire) else sendAll script rest wire (spins + 1)
        | .failed :: _ => some (false, wire)

section Loop

variable {script : List WriteOutcome} {rest wire out : Bytes} {spins : Nat} {sent : Bool}

/-- What is on the wire continues the data in order, and is all of it exactly when
the loop says so. -/
theorem sendAll_wire (hsend : sendAll script rest wire spins = some (sent, out)) :
    out <+: wire ++ rest ∧ (sent = true ↔ out = wire ++ rest) := by
  have hstopped : ∀ wire rest : Bytes, rest ≠ [] → some (false, wire) = some (sent, out) →
      out <+: wire ++ rest ∧ (sent = true ↔ out = wire ++ rest) := by
    intro wire rest hrest heq
    obtain ⟨rfl, rfl⟩ := Prod.mk.inj (Option.some.inj heq)
    refine ⟨List.prefix_append _ _, iff_of_false Bool.false_ne_true fun hwhole => hrest ?_⟩
    exact List.self_eq_append_right.mp hwhole
  have hdone : ∀ wire : Bytes, some (true, wire) = some (sent, out) →
      out <+: wire ++ [] ∧ (sent = true ↔ out = wire ++ []) := by
    intro wire heq
    obtain ⟨rfl, rfl⟩ := Prod.mk.inj (Option.some.inj heq)
    rw [List.append_nil]
    exact ⟨List.prefix_refl _, iff_of_true rfl rfl⟩
  induction script generalizing rest wire spins with
  | nil =>
      unfold sendAll at hsend
      split at hsend
      next hrest =>
        subst hrest
        exact hdone _ hsend
      next => contradiction
  | cons outcome script ih =>
      unfold sendAll at hsend
      split at hsend
      next hrest =>
        subst hrest
        exact hdone _ hsend
      next hrest =>
        cases outcome with
        | wrote extra =>
            dsimp only at hsend
            split at hsend
            next => exact hstopped _ _ hrest hsend
            next =>
              have hlater := ih hsend
              rwa [List.append_assoc, List.take_append_drop] at hlater
        | wantWrite =>
            dsimp only at hsend
            split at hsend
            next => exact hstopped _ _ hrest hsend
            next => exact ih hsend
        | failed => exact hstopped _ _ hrest hsend

/-- Every byte costs one call that takes it and at most 64 that ask to be called
again, so the loop ends. -/
theorem sendAll_returns (hspins : spins ≤ 64)
    (hcalls : 65 * rest.length ≤ script.length + spins) :
    (sendAll script rest wire spins).isSome = true := by
  induction script generalizing rest wire spins with
  | nil =>
      unfold sendAll
      split
      next => rfl
      next hrest =>
        have hlength := List.length_pos_iff.mpr hrest
        rw [List.length_nil] at hcalls
        omega
  | cons outcome script ih =>
      rw [List.length_cons] at hcalls
      unfold sendAll
      split
      next => rfl
      next hrest =>
        cases outcome with
        | wrote extra =>
            dsimp only
            split
            next => rfl
            next hsize =>
              apply ih (Nat.zero_le 64)
              rw [List.length_drop]
              have htaken : 1 ≤ min (extra + 1) (castInt rest.length).toNat := by omega
              omega
        | wantWrite =>
            dsimp only
            split
            next => rfl
            next hmore => exact ih (by omega) (by omega)
        | failed => rfl

theorem sendAll_patient (hpatient : WriteOutcome.patient spins script = true)
    (hsize : rest.length < 2 ^ 31) (hspins : spins ≤ 64)
    (hcalls : 65 * rest.length ≤ script.length + spins) :
    sendAll script rest wire spins = some (true, wire ++ rest) := by
  induction script generalizing rest wire spins with
  | nil =>
      have hrest : rest = [] := by
        rw [List.length_nil] at hcalls
        exact List.length_eq_zero_iff.mp (by omega)
      rw [hrest, List.append_nil, sendAll, if_pos rfl]
  | cons outcome script ih =>
      rw [List.length_cons] at hcalls
      unfold sendAll
      split
      next hrest => rw [hrest, List.append_nil]
      next hrest =>
        have hlength := List.length_pos_iff.mpr hrest
        have hcast : castInt rest.length = rest.length := castInt_of_range (by omega) (by omega)
        cases outcome with
        | wrote extra =>
            dsimp only
            rw [hcast, if_neg (by omega), Int.toNat_natCast, ih hpatient, List.append_assoc,
              List.take_append_drop]
            · rw [List.length_drop]
              omega
            · exact Nat.zero_le 64
            · rw [List.length_drop]
              omega
        | wantWrite =>
            obtain ⟨hagain, hlater⟩ := Bool.and_eq_true_iff.mp hpatient
            have hagain := of_decide_eq_true hagain
            dsimp only
            rw [if_neg (by omega)]
            exact ih hlater hsize (by omega) (by omega)
        | failed => exact absurd hpatient Bool.false_ne_true

end Loop

/-! ## The reply -/

/-- The text of a reply, as `handle_connection` puts it together. -/
def httpReply (code : Code) (bodyJson : Bytes) : Bytes :=
  lit "HTTP/1.1 " ++ signedDecimal (Response.httpStatus code) ++
    lit " OK\r\nContent-Type: application/json\r\nContent-Length: " ++
    decimal bodyJson.length ++ lit "\r\nConnection: close\r\n\r\n" ++ bodyJson

/-- The two numbers of a reply end at separators. -/
theorem httpReply_eq (code : Code) (bodyJson : Bytes) : httpReply code bodyJson =
    lit "HTTP/1.1 " ++ (decimal (Response.httpStatus code).toNat ++ 32 ::
      (lit "OK\r\nContent-Type: application/json\r\nContent-Length: " ++
        (decimal bodyJson.length ++ 13 ::
          (lit "\nConnection: close\r\n\r\n" ++ bodyJson)))) := by
  have hstatus : signedDecimal (Response.httpStatus code) =
      decimal (Response.httpStatus code).toNat := by
    cases code <;> rfl
  have hfirst : lit " OK\r\nContent-Type: application/json\r\nContent-Length: " =
      32 :: lit "OK\r\nContent-Type: application/json\r\nContent-Length: " := by
    decide
  have hsecond : lit "\r\nConnection: close\r\n\r\n" =
      13 :: lit "\nConnection: close\r\n\r\n" := by
    decide
  rw [httpReply, hstatus, hfirst, hsecond]
  simp only [List.append_assoc, List.cons_append]

/-- A reply that begins another one is that reply. -/
theorem httpReply_prefix {code other : Code} {body later : Bytes}
    (hcut : httpReply code body <+: httpReply other later) :
    Response.httpStatus code = Response.httpStatus other ∧ body = later := by
  rw [httpReply_eq, httpReply_eq] at hcut
  obtain ⟨hstatus, hrest⟩ := prefix_of_separated (notMem_decimal (by decide) _)
    (notMem_decimal (by decide) _) (prefix_of_append_left hcut)
  refine ⟨?_, eq_of_framed (by decide) (prefix_of_append_left hrest)⟩
  have hnonneg : ∀ code, 0 ≤ Response.httpStatus code := by
    intro code
    cases code <;> decide
  rw [← Int.toNat_of_nonneg (hnonneg code), decimal_injective hstatus,
    Int.toNat_of_nonneg (hnonneg other)]

/-- However `SSL_write` takes a reply, the loop returns within 65 calls a byte. What
has been written is a prefix of the reply, and it is all of it, or looks like any
complete reply, exactly when the loop reports success. -/
theorem reply_written (code : Code) (bodyJson : Bytes) (writes : Nat → WriteOutcome) {calls : Nat}
    (hcalls : 65 * (httpReply code bodyJson).length ≤ calls) :
    ∃ sent wire, sendAll ((List.range calls).map writes) (httpReply code bodyJson) [] 0 =
        some (sent, wire) ∧
      wire <+: httpReply code bodyJson ∧
      (sent = true ↔ wire = httpReply code bodyJson) ∧
      (sent = true ↔ ∃ other later, wire = httpReply other later) ∧
      ((httpReply code bodyJson).length < 2 ^ 31 →
        WriteOutcome.patient 0 ((List.range calls).map writes) = true → sent = true) := by
  have hlength : ((List.range calls).map writes).length = calls := by
    rw [List.length_map, List.length_range]
  obtain ⟨⟨sent, wire⟩, hsend⟩ := Option.isSome_iff_exists.mp
    (@sendAll_returns _ _ [] 0 (Nat.zero_le 64) (hlength.symm ▸ hcalls))
  obtain ⟨hwire, hwhole⟩ := sendAll_wire hsend
  rw [List.nil_append] at hwire hwhole
  refine ⟨sent, wire, hsend, hwire, hwhole, ?_, fun hsize hpatient => ?_⟩
  · rw [hwhole]
    constructor
    · exact fun heq => ⟨code, bodyJson, heq⟩
    · rintro ⟨other, later, rfl⟩
      obtain ⟨hstatus, rfl⟩ := httpReply_prefix hwire
      rw [httpReply, httpReply, hstatus]
  · have hall := @sendAll_patient _ _ [] 0 hpatient hsize (Nat.zero_le 64)
      (hlength.symm ▸ hcalls)
    rw [hsend] at hall
    exact (Prod.mk.inj (Option.some.inj hall)).1

/-- Single bytes, with a request to be called again before each. -/
def haltingWrites (n : Nat) : WriteOutcome := if n % 2 = 0 then .wantWrite else .wrote 0

theorem emptyReply_written :
    ∃ sent wire, sendAll ((List.range (65 * (httpReply .success (lit "{}")).length)).map
        haltingWrites) (httpReply .success (lit "{}")) [] 0 = some (sent, wire) ∧
      wire <+: httpReply .success (lit "{}") ∧
      (sent = true ↔ wire = httpReply .success (lit "{}")) ∧
      (sent = true ↔ ∃ other later, wire = httpReply other later) ∧
      ((httpReply .success (lit "{}")).length < 2 ^ 31 →
        WriteOutcome.patient 0 ((List.range (65 * (httpReply .success (lit "{}")).length)).map
          haltingWrites) = true → sent = true) :=
  reply_written .success (lit "{}") haltingWrites (Nat.le_refl _)

end AdminServer

/-! ## A whole connection -/

section Connections

open CommandHandler AdminServer

variable (lib : JsonLibrary) (cfg : AdminServerConfig)

/-- The request that a path and a raw body stand for. -/
def requestOf (path raw : Bytes) : Except Bytes Request :=
  let body := if raw = [] then Json.emptyObject
    else
      match lib.parse raw with
      | .ok body => body
      | .error _ => Json.emptyObject
  (requestClient lib body).map fun clientId => ⟨normalizeCommand path body, body, clientId⟩

/-- The reply to a request that is handled where it is, with the service after it. -/
def replyTo (clocks : ReplyClocks) (s : Service) (q : Request) : Except Bytes (Service × Bytes) :=
  match q.outcome lib s with
  | .error what => .error what
  | .ok r => ((completeResponse cfg q.clientId clocks r).toJson lib).map fun bodyJson =>
      (q.after lib s, httpReply r.code bodyJson)

/-- What the peer of an accepted connection sends, and how the calls on it return. -/
structure Connection where
  handshake : Bool := true
  reads : List ReadOutcome
  stream : Bytes
  clocks : ReplyClocks
  writes : List WriteOutcome

/-- `handle_connection` with its reads and writes: the service, and what `send_all`
reports and the peer gets if it comes to a reply. -/
def runConnection (c : Connection) (s : Service) :
    Option (Except Bytes (Service × Option (Bool × Bytes))) :=
  if c.handshake then
    match readRequest c.reads c.stream with
    | none => none
    | some none => some (.ok (s, none))
    | some (some (buf, more)) =>
        match handleConnection lib cfg c.clocks buf more s with
        | .error what => some (.error what)
        | .ok (next, http) =>
            (AdminServer.sendAll c.writes http [] 0).map fun sent => .ok (next, some sent)
  else some (.ok (s, none))

variable {lib : JsonLibrary} {cfg : AdminServerConfig}

/-- The bytes of a connection matter by the request they stand for. -/
theorem handleConnection_eq (clocks : ReplyClocks) (buf more : Bytes) (s : Service) :
    handleConnection lib cfg clocks buf more s =
      (requestOf lib (parseRequestLine buf).path (bodyRaw buf more)).bind
        (replyTo lib cfg clocks s) := by
  have hbody : requestOf lib (parseRequestLine buf).path (bodyRaw buf more) =
      (requestClient lib (requestBody lib buf more)).map fun clientId =>
        ⟨requestCommand lib buf more, requestBody lib buf more, clientId⟩ := rfl
  rw [hbody, handleConnection]
  cases requestClient lib (requestBody lib buf more) with
  | error what => rfl
  | ok clientId =>
      dsimp only
      have hsettles : ((⟨requestCommand lib buf more, requestBody lib buf more, clientId⟩ :
          Request).outcome lib s, (⟨requestCommand lib buf more, requestBody lib buf more,
            clientId⟩ : Request).after lib s) = settle s (handle lib (requestCommand lib buf more)
          (requestBody lib buf more) clientId s) := handleSteps_settles _ _ _ _
      cases hhandle : handle lib (requestCommand lib buf more) (requestBody lib buf more) clientId
          s with
      | error what =>
          rw [hhandle] at hsettles
          obtain ⟨houtcome, -⟩ := Prod.mk.inj hsettles
          simp only [Except.map, Except.bind, replyTo, houtcome]
      | ok result =>
          rw [hhandle] at hsettles
          obtain ⟨houtcome, hafter⟩ := Prod.mk.inj hsettles
          simp only [Except.map, Except.bind, replyTo, houtcome, hafter]
          cases (completeResponse cfg clientId clocks result.2).toJson lib with
          | error what => rfl
          | ok bodyJson => rfl

/-- A request that arrives in any pieces is handled as if the client had called the
handler itself, and the client gets the reply or a prefix of it, whatever the pieces it
is taken in. -/
theorem remote_call {q : HttpRequest} (hwf : q.WellFormed) {reads : Nat → ReadOutcome}
    (hfails : ∀ n, reads n ≠ .failed) (hbytes : ∀ n, ∃ m ≥ n, (reads m).isBytes = true)
    (writes : Nat → WriteOutcome) (clocks : ReplyClocks) (s : Service) :
    ∃ calls, ∀ n ≥ calls,
      let connection : Connection :=
        { reads := (List.range n).map reads, stream := q.text, clocks := clocks
          writes := (List.range n).map writes }
      let reply := (requestOf lib (q.target.takeWhile fun c => c ≠ 63) q.body).bind
        (replyTo lib cfg clocks s)
      (∀ what, reply = .error what → runConnection lib cfg connection s = some (.error what)) ∧
        ∀ next http, reply = .ok (next, http) → ∃ sent wire,
          runConnection lib cfg connection s = some (.ok (next, some (sent, wire))) ∧
            wire <+: http ∧ (sent = true ↔ wire = http) := by
  obtain ⟨calls, hcalls⟩ := exists_calls hbytes q.text.length
  have hread : ∀ n ≥ calls, ∃ buf more,
      readRequest ((List.range n).map reads) q.text = some (some (buf, more)) ∧
        handleConnection lib cfg clocks buf more s =
          (requestOf lib (q.target.takeWhile fun c => c ≠ 63) q.body).bind
            (replyTo lib cfg clocks s) := by
    intro n hn
    have hnever : .failed ∉ (List.range n).map reads := by
      rw [List.mem_map]
      rintro ⟨m, _, hm⟩
      exact hfails m hm
    obtain ⟨buf, more, hread, hparse, hbody⟩ := readRequest_whole hwf hnever (hcalls n hn)
    exact ⟨buf, more, hread, by rw [handleConnection_eq, hparse, hbody]⟩
  cases hreply : (requestOf lib (q.target.takeWhile fun c => c ≠ 63) q.body).bind
      (replyTo lib cfg clocks s) with
  | error what =>
      refine ⟨calls, fun n hn => ⟨fun _ herror => ?_, fun _ _ hok => ?_⟩⟩
      · obtain ⟨buf, more, hread, hhandle⟩ := hread n hn
        rw [runConnection, if_pos rfl, hread]
        dsimp only
        rw [hhandle, hreply, Except.error.inj herror]
      · contradiction
  | ok result =>
      refine ⟨max calls (65 * result.2.length), fun n hn => ⟨fun _ herror => ?_, ?_⟩⟩
      · contradiction
      · rintro next http hok
        obtain rfl := Except.ok.inj hok
        obtain ⟨buf, more, hread, hhandle⟩ := hread n (le_of_max_le_left hn)
        have hlength : ((List.range n).map writes).length = n := by
          rw [List.length_map, List.length_range]
        obtain ⟨⟨sent, wire⟩, hsend⟩ := Option.isSome_iff_exists.mp
          (@sendAll_returns _ _ [] 0 (Nat.zero_le 64)
            (hlength.symm ▸ le_of_max_le_right hn : 65 * http.length ≤ _))
        obtain ⟨hwire, hwhole⟩ := sendAll_wire hsend
        rw [List.nil_append] at hwire hwhole
        refine ⟨sent, wire, ?_, hwire, hwhole⟩
        rw [runConnection, if_pos rfl, hread]
        dsimp only
        rw [hhandle, hreply]
        dsimp only
        rw [hsend]
        rfl

end Connections

/-- A client connects by name. -/
def connectRequest : HttpRequest where
  method := lit "POST"
  target := lit "/api/connect"
  version := lit "HTTP/1.1"
  before := [lit "Host: sim"]
  name := lit "Content-Length:"
  space := lit " "
  digits := lit "17"
  after := []
  body := lit "\x7b\"client_id\":\"A\"\x7d"

theorem connectRequest_wellFormed : connectRequest.WellFormed where
  token := by decide +kernel
  lines := by decide +kernel
  name := by decide +kernel
  space := by decide +kernel
  digits := by decide +kernel
  length := by decide +kernel
  length_lt := by decide +kernel
  first := by decide +kernel
  head_le := by decide +kernel

/-- The library that reads the body of that request. -/
def connectLibrary : JsonLibrary :=
  .reading (.object [(lit "client_id", .string (lit "A"))])

theorem connectRequest_called :
    ∃ calls, ∀ n ≥ calls, ∃ next sent wire,
      runConnection connectLibrary {}
          { reads := (List.range n).map byteByByte, stream := connectRequest.text, clocks := ⟨0, 0⟩
            writes := (List.range n).map AdminServer.haltingWrites }
          (mainService connectLibrary {} none {}) =
        some (.ok (next, some (sent, wire))) := by
  have hok : ((requestOf connectLibrary (connectRequest.target.takeWhile fun c => c ≠ 63)
      connectRequest.body).bind (replyTo connectLibrary {} ⟨0, 0⟩
        (mainService connectLibrary {} none {}))).toOption.isSome = true := by
    decide +kernel
  have hfails : ∀ n, byteByByte n ≠ .failed := by
    intro n
    unfold byteByByte
    split <;> exact ReadOutcome.noConfusion
  have hbytes : ∀ n, ∃ m ≥ n, (byteByByte m).isBytes = true := by
    intro n
    refine ⟨2 * n + 1, by omega, ?_⟩
    rw [byteByByte, if_neg (by omega)]
    rfl
  obtain ⟨calls, hcalls⟩ := @remote_call connectLibrary {} connectRequest
    connectRequest_wellFormed byteByByte hfails hbytes AdminServer.haltingWrites ⟨0, 0⟩
    (mainService connectLibrary {} none {})
  refine ⟨calls, fun n hn => ?_⟩
  obtain ⟨-, hreply⟩ := hcalls n hn
  generalize hresult : (requestOf connectLibrary (connectRequest.target.takeWhile fun c => c ≠ 63)
    connectRequest.body).bind (replyTo connectLibrary {} ⟨0, 0⟩
      (mainService connectLibrary {} none {})) = result at hok hreply
  cases result with
  | error what => contradiction
  | ok done =>
      obtain ⟨sent, wire, hrun, -⟩ := hreply done.1 done.2 rfl
      exact ⟨done.1, sent, wire, hrun⟩

end SimVision
