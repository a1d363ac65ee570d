import Mathlib.Logic.Function.Basic
import SimVision.Foundation.Machine
import SimVision.Data.DataPublisher

/-! # The shutdown broadcast beside the publisher

`main` calls `publishShutdown` while the publisher thread still sends. Each send
is one step on one of the three sockets, and every send succeeds. The messages
stay whole as long as no control send finds its socket with an open message.
-/

namespace SimVision

open Foundation

/-- The event that `publish_shutdown` sends. -/
def shutdownEvent (pubId : Bytes) (tsSec tsNsec : Int) : Json :=
  Json.ofAssignments
    [(lit "event", .string (lit "server_shutdown")), (lit "pub_id", .string pubId),
      (lit "ts_sec", .integer tsSec), (lit "ts_nsec", .integer tsNsec)]

/-- The sockets with the publisher and `main`: the call whose parts are being
sent, and the sockets `main` has still to send to, once it has called. -/
structure BroadcastState where
  sockets : DataGroup → Socket := fun _ => {}
  sending : Option (PublishCall × List Part) := none
  controls : Option (List DataGroup) := none

/-- A thread begins a call or takes its next send. `main` reads the clock twice
before each of its sends. -/
inductive BroadcastAction where
  | callSendMultipart (call : PublishCall)
  | publisher
  | callPublishShutdown
  | main (secClock nsecClock : Int)

namespace BroadcastState

/-- One send on the socket of a group. -/
def sendOn (s : BroadcastState) (group : DataGroup) (part : Part) (more : Bool) : BroadcastState :=
  { s with sockets := Function.update s.sockets group ((s.sockets group).send part more) }

variable (lib : JsonLibrary) (pubId : Bytes)

/-- One step of a thread. A header that cannot be dumped ends the publisher, so
there is no step. -/
def step (s : BroadcastState) : BroadcastAction → Option (BroadcastState × List Unit)
  | .callSendMultipart call =>
      match s.sending, lib.dump (call.header pubId) with
      | none, .ok _ => some ({ s with sending := some (call, call.message pubId) }, [])
      | _, _ => none
  | .publisher =>
      match s.sending with
      | some (call, part :: rest) =>
          some ({ s.sendOn call.frame.group part (!rest.isEmpty) with
            sending := if rest.isEmpty then none else some (call, rest) }, [])
      | _ => none
  | .callPublishShutdown =>
      match s.controls with
      | none => some ({ s with controls := some [.visual2D, .visual3D, .sensorData] }, [])
      | some _ => none
  | .main secClock nsecClock =>
      match s.controls with
      | some (group :: rest) =>
          let event := shutdownEvent pubId (nowUnixSec secClock) (nowUnixNsec nsecClock)
          some ({ s.sendOn group (.json event) false with controls := some rest }, [])
      | _ => none

/-- The condition on a step: a control send finds no message open. -/
def Quiet (s : BroadcastState) : BroadcastAction → Prop
  | .main _ _ => ∀ group rest, s.controls = some (group :: rest) → (s.sockets group).opened = []
  | _ => True

end BroadcastState

/-- Fresh sockets, with the publisher running and `main` waiting for a signal. -/
def broadcast (lib : JsonLibrary) (pubId : Bytes) :
    Machine BroadcastState BroadcastAction Unit where
  init := {}
  step := BroadcastState.step lib pubId

/-- A data message, or a single-part shutdown event. -/
def WholeMessage (message : List Part) : Prop :=
  WellFormed message ∨ ∃ event : Json, message = [.json event] ∧
    event.lookup (lit "event") = some (.string (lit "server_shutdown"))

/-- Closed messages are whole, and a message is open only on the socket of the
call in progress, where it is what has been sent of that call. -/
structure BroadcastInv (pubId : Bytes) (s : BroadcastState) : Prop where
  whole : ∀ group, ∀ message ∈ (s.sockets group).closed, WholeMessage message
  in_progress : ∀ call rest, s.sending = some (call, rest) → rest ≠ [] ∧
    (s.sockets call.frame.group).opened ++ rest = call.message pubId
  others : ∀ group, (∀ call rest, s.sending = some (call, rest) → group ≠ call.frame.group) →
    (s.sockets group).opened = []

namespace BroadcastInv

variable {lib : JsonLibrary} {pubId : Bytes} {s t : BroadcastState}

theorem init : BroadcastInv pubId (broadcast lib pubId).init where
  whole := by simp [broadcast]
  in_progress := by simp [broadcast]
  others := by simp [broadcast]

theorem shutdownEvent_whole (pubId : Bytes) (tsSec tsNsec : Int) :
    WholeMessage [.json (shutdownEvent pubId tsSec tsNsec)] := by
  refine .inr ⟨_, rfl, ?_⟩
  unfold shutdownEvent Json.ofAssignments
  simp only [List.foldl_cons, List.foldl_nil, Json.lookup_set]
  rfl

/-- A send of the publisher extends its message, or closes it when it is whole. -/
private theorem publisher_step {events : List Unit} (hinv : BroadcastInv pubId s)
    (hstep : s.step lib pubId .publisher = some (t, events)) : BroadcastInv pubId t := by
  simp only [BroadcastState.step] at hstep
  split at hstep
  next call part rest hsending =>
    simp only [Option.some.injEq, Prod.mk.injEq] at hstep
    obtain ⟨rfl, _⟩ := hstep
    obtain ⟨_, hparts⟩ := hinv.in_progress call _ hsending
    have hother : ∀ group, group ≠ call.frame.group → (s.sockets group).opened = [] := by
      intro group hgroup
      apply hinv.others
      intro call' rest' hsending'
      rw [hsending] at hsending'
      cases hsending'
      exact hgroup
    cases rest with
    | nil =>
        refine ⟨?_, by simp, ?_⟩
        · intro group message hmessage
          by_cases hgroup : group = call.frame.group
          · subst hgroup
            simp only [BroadcastState.sendOn, Function.update_self, Socket.send, List.isEmpty_nil,
              Bool.not_true, Bool.false_eq_true, if_false, List.mem_append,
              List.mem_singleton] at hmessage
            rcases hmessage with hmessage | rfl
            · exact hinv.whole _ message hmessage
            · rw [hparts]
              exact .inl (call.wellFormed_message pubId)
          · simp only [BroadcastState.sendOn, Function.update_of_ne hgroup] at hmessage
            exact hinv.whole group message hmessage
        · intro group _
          by_cases hgroup : group = call.frame.group
          · subst hgroup
            simp [BroadcastState.sendOn, Socket.send]
          · simp only [BroadcastState.sendOn, Function.update_of_ne hgroup]
            exact hother group hgroup
    | cons next later =>
        refine ⟨?_, ?_, ?_⟩
        · intro group message hmessage
          by_cases hgroup : group = call.frame.group
          · subst hgroup
            simp only [BroadcastState.sendOn, Function.update_self, Socket.send, List.isEmpty_cons,
              Bool.not_false, if_true] at hmessage
            exact hinv.whole _ message hmessage
          · simp only [BroadcastState.sendOn, Function.update_of_ne hgroup] at hmessage
            exact hinv.whole group message hmessage
        · intro call' rest' hsending'
          simp only [List.isEmpty_cons, Bool.false_eq_true, if_false, Option.some.injEq,
            Prod.mk.injEq] at hsending'
          obtain ⟨rfl, rfl⟩ := hsending'
          refine ⟨by simp, ?_⟩
          rw [← hparts]
          simp [BroadcastState.sendOn, Socket.send]
        · intro group hgroup
          have hne := hgroup call (next :: later) (by simp)
          simp only [BroadcastState.sendOn, Function.update_of_ne hne]
          exact hother group hne
  next => contradiction

/-- A control send on a socket with no open message closes a message of its own. -/
private theorem main_step {secClock nsecClock : Int} {events : List Unit}
    (hinv : BroadcastInv pubId s) (hquiet : s.Quiet (.main secClock nsecClock))
    (hstep : s.step lib pubId (.main secClock nsecClock) = some (t, events)) :
    BroadcastInv pubId t := by
  simp only [BroadcastState.step] at hstep
  split at hstep
  next group rest hcontrols =>
    simp only [Option.some.injEq, Prod.mk.injEq] at hstep
    obtain ⟨rfl, _⟩ := hstep
    have hempty := hquiet group rest hcontrols
    -- the event opens and closes its own message, so no socket changes what it has open
    have hopened : ∀ other, ((s.sendOn group (.json (shutdownEvent pubId (nowUnixSec secClock)
        (nowUnixNsec nsecClock))) false).sockets other).opened = (s.sockets other).opened := by
      intro other
      by_cases hother : other = group
      · subst hother
        simp [BroadcastState.sendOn, Socket.send, hempty]
      · simp [BroadcastState.sendOn, hother]
    refine ⟨?_, ?_, ?_⟩
    · intro other message hmessage
      by_cases hother : other = group
      · subst hother
        simp only [BroadcastState.sendOn, Function.update_self, Socket.send, Bool.false_eq_true,
          if_false, List.mem_append, List.mem_singleton, hempty, List.nil_append] at hmessage
        rcases hmessage with hmessage | rfl
        · exact hinv.whole _ message hmessage
        · exact shutdownEvent_whole ..
      · simp only [BroadcastState.sendOn, Function.update_of_ne hother] at hmessage
        exact hinv.whole other message hmessage
    · intro call parts hsending
      rw [hopened]
      exact hinv.in_progress call parts hsending
    · intro other hother
      rw [hopened]
      exact hinv.others other hother
  next => contradiction

/-- Every quiet step keeps the messages whole. -/
theorem step {action : BroadcastAction} {events : List Unit} (hinv : BroadcastInv pubId s)
    (hquiet : s.Quiet action) (hstep : s.step lib pubId action = some (t, events)) :
    BroadcastInv pubId t := by
  cases action with
  | callSendMultipart call =>
      simp only [BroadcastState.step] at hstep
      split at hstep
      next hidle _ =>
        simp only [Option.some.injEq, Prod.mk.injEq] at hstep
        obtain ⟨rfl, _⟩ := hstep
        have hnone : ∀ group, (s.sockets group).opened = [] :=
          fun group => hinv.others group (by simp [hidle])
        refine ⟨hinv.whole, ?_, fun group _ => hnone group⟩
        intro call' rest hsending
        cases hsending
        rw [hnone, List.nil_append]
        exact ⟨by simp [PublishCall.message], rfl⟩
      next => contradiction
  | publisher => exact hinv.publisher_step hstep
  | callPublishShutdown =>
      simp only [BroadcastState.step] at hstep
      split at hstep
      next =>
        simp only [Option.some.injEq, Prod.mk.injEq] at hstep
        obtain ⟨rfl, _⟩ := hstep
        exact ⟨hinv.whole, hinv.in_progress, hinv.others⟩
      next => contradiction
  | main secClock nsecClock => exact hinv.main_step hquiet hstep

end BroadcastInv

/-- Every message closed is whole in every run whose control sends find no
message open on their sockets. -/
theorem broadcast_whole (lib : JsonLibrary) (pubId : Bytes) {history : List Unit}
    {s : BroadcastState}
    (hreach : (broadcast lib pubId).Reaches BroadcastState.Quiet history s) (group : DataGroup) :
    ∀ message ∈ (s.sockets group).closed, WholeMessage message := by
  have hinv : BroadcastInv pubId s := hreach.invariant (fun _ s => BroadcastInv pubId s)
    BroadcastInv.init fun _ _ _ _ _ _ hbefore hquiet hstep => hbefore.step hquiet hstep
  exact hinv.whole group

/-- A frame of one bundle whose sends succeed. -/
def depthCall : PublishCall where
  frame := { group := .visual2D, bundles := [{ type := .depthMap, partId := lit "depth_map" }] }
  secClock := 0
  nsecClock := 0
  succeeds := fun _ => true

theorem depthCall_dump : JsonLibrary.plain.dump (depthCall.header []) =
    .ok (depthCall.header []).text := JsonLibrary.plain_dump (by decide)

/-- `main` sends to the 2D socket before and after frames. -/
def shutdownBetweenFrames : List BroadcastAction :=
  [.callSendMultipart depthCall, .publisher, .publisher, .callPublishShutdown, .main 0 0,
    .callSendMultipart depthCall, .main 0 0, .publisher]

theorem shutdownBetweenFrames_whole :
    ∃ s : BroadcastState,
      (s.sockets .visual2D).closed = [depthCall.message [], [.json (shutdownEvent [] 0 0)]] ∧
      ∀ message ∈ (s.sockets .visual2D).closed, WholeMessage message := by
  have hguarded : (broadcast .plain []).Guarded BroadcastState.Quiet (broadcast .plain []).init
      shutdownBetweenFrames := by
    simp only [broadcast, shutdownBetweenFrames, Machine.Guarded, BroadcastState.step,
      depthCall_dump]
    refine ⟨trivial, trivial, trivial, trivial, ?_, trivial, ?_, trivial, trivial⟩
    · rintro _ _ ⟨⟩
      rfl
    · rintro _ _ ⟨⟩
      rfl
  have hrun : ((broadcast .plain []).runFrom (broadcast .plain []).init shutdownBetweenFrames).map
      (fun final => (final.1.sockets .visual2D).closed) =
        some [depthCall.message [], [.json (shutdownEvent [] 0 0)]] := by
    simp only [broadcast, shutdownBetweenFrames, Machine.runFrom, BroadcastState.step,
      depthCall_dump]
    rfl
  obtain ⟨⟨s, history⟩, hfinal, hclosed⟩ := Option.map_eq_some_iff.mp hrun
  exact ⟨s, hclosed,
    broadcast_whole .plain [] (Machine.Reaches.init.runGuarded hguarded hfinal) .visual2D⟩

/-- `main` sends to the 2D socket between the header and the payload of a frame. -/
def shutdownDuringFrame : List BroadcastAction :=
  [.callSendMultipart depthCall, .publisher, .callPublishShutdown, .main 0 0]

theorem shutdownDuringFrame_merges :
    ¬ ∀ (lib : JsonLibrary), lib.Encodes → ∀ (pubId : Bytes) (history : List Unit)
      (s : BroadcastState), (broadcast lib pubId).Reachable history s →
      ∀ group, ∀ message ∈ (s.sockets group).closed, WholeMessage message := by
  intro hwhole
  have hrun : ((broadcast .plain []).runFrom (broadcast .plain []).init shutdownDuringFrame).map
      (fun final => (final.1.sockets .visual2D).closed) =
        some [[.json (depthCall.header []), .json (shutdownEvent [] 0 0)]] := by
    simp only [broadcast, shutdownDuringFrame, Machine.runFrom, BroadcastState.step, depthCall_dump]
    rfl
  obtain ⟨⟨s, history⟩, hfinal, hclosed⟩ := Option.map_eq_some_iff.mp hrun
  have hmessage := hwhole .plain JsonLibrary.plain_encodes [] history s
    (Machine.reachable_of_runFrom hfinal) .visual2D
    _ (hclosed ▸ List.mem_singleton_self _)
  rcases hmessage with hdata | ⟨event, hsingle, _⟩
  · have hinner := not_wellFormed_of_inner
      (List.cons_ne_nil (Part.json (depthCall.header [])) []) (shutdownEvent [] 0 0) []
    exact hinner hdata
  · simp at hsingle

end SimVision
