import SimVision.Data.FlowAccounting
import SimVision.Data.MessageDecoding

/-! # What a subscriber receives

A subscriber of one group sees what `send_multipart` has given to the socket of that
group. Over a run of ticks, batches and drains, it decodes frames that the capture loop
has pushed to the queue of the group, each once and in the order of their ticks, and
their number is the counter that `check_status` reports.
-/

namespace SimVision

open Foundation

/-! ## One call -/

/-- The counter of the messages of a group. -/
def PublisherStats.sentOn (stats : PublisherStats) : DataGroup → Nat
  | .visual2D => stats.sent2D
  | .visual3D => stats.sent3D
  | .sensorData => stats.sentSensor

@[simp] theorem PublisherStats.sentOn_countSent (stats : PublisherStats) (group g : DataGroup) :
    (stats.countSent group).sentOn g =
      if group = g then wordSucc (stats.sentOn g) else stats.sentOn g := by
  cases group <;> cases g <;> rfl

@[simp] theorem PublisherStats.sentOn_countDropped (stats : PublisherStats) (g : DataGroup) :
    stats.countDropped.sentOn g = stats.sentOn g := by
  cases g <;> rfl

section Call

variable {lib : JsonLibrary} {pubId : Bytes} {call : PublishCall} {sock final : Socket}
  {stats counted : PublisherStats} {ok : Bool}

/-- A call whose payloads are all sent leaves its message on the socket and counts it,
or leaves the socket alone. -/
theorem sendMultipart_whole (hwhole : ∀ i, call.succeeds (i + 1) = true)
    (hsent : sendMultipart lib pubId call sock stats = .ok (final, counted, ok)) :
    (call.Completes lib pubId ∧
      final = { closed := sock.closed ++ [sock.opened ++ call.message pubId], opened := [] } ∧
      counted = stats.countSent call.frame.group) ∨
    (¬ call.succeeds 0 = true ∧ final = sock ∧ counted = stats.countDropped) := by
  unfold sendMultipart at hsent
  cases hdump : lib.dump (call.header pubId) with
  | error what =>
      rw [hdump] at hsent
      contradiction
  | ok text =>
      rw [hdump] at hsent
      dsimp only at hsent
      split at hsent
      next hheader =>
        have hloop : sendPayloads call.succeeds 0 call.frame.bundles
            (sock.send (.json (call.header pubId)) (!call.frame.bundles.isEmpty)) =
              ({ closed := sock.closed ++ [sock.opened ++ call.message pubId], opened := [] },
                true) := by
          by_cases hempty : call.frame.bundles = []
          · simp [hempty, Socket.send, sendPayloads, PublishCall.message]
          · rw [(sendPayloads_spec call.succeeds 0 call.frame.bundles _).1
              (fun k _ => by simpa using hwhole k) hempty]
            simp [Socket.send, hempty, PublishCall.message]
        rw [hloop] at hsent
        obtain ⟨rfl, hcounted⟩ := Prod.mk.inj (Except.ok.inj hsent)
        exact .inl ⟨⟨⟨⟨text, hdump⟩, hheader⟩, fun i _ => hwhole i⟩, rfl,
          (Prod.mk.inj hcounted).1.symm⟩
      next hrefused =>
        obtain ⟨rfl, hcounted⟩ := Prod.mk.inj (Except.ok.inj hsent)
        exact .inr ⟨hrefused, rfl, (Prod.mk.inj hcounted).1.symm⟩

end Call

/-! ## One socket -/

/-- The socket of a group holds the messages of calls that completed, and the counter
of the group counts them. -/
structure Streams (lib : JsonLibrary) (pubId : Bytes) (g : DataGroup) (handed : List ChannelFrame)
    (p : Publisher) (calls : List PublishCall) : Prop where
  complete : ∀ call ∈ calls, call.Completes lib pubId
  socket : p.sockets g = { closed := calls.map fun call => call.message pubId, opened := [] }
  handed : (calls.map PublishCall.frame).Sublist handed
  counter : p.stats.sentOn g = calls.length % wordSize

namespace Streams

variable {lib : JsonLibrary} {pubId : Bytes} {g : DataGroup} {handed : List ChannelFrame}
  {p sent : Publisher} {calls : List PublishCall}

/-- A frame that is handed over and not sent. -/
theorem skip (hstreams : Streams lib pubId g handed p calls) (frames : List ChannelFrame)
    (hsocket : sent.sockets g = p.sockets g) (hcounter : sent.stats.sentOn g = p.stats.sentOn g) :
    Streams lib pubId g (handed ++ frames) sent calls where
  complete := hstreams.complete
  socket := hsocket.trans hstreams.socket
  handed := hstreams.handed.trans (List.sublist_append_left _ _)
  counter := hcounter.trans hstreams.counter

theorem sendGroup (hstreams : Streams lib pubId g handed p calls) {frame : ChannelFrame}
    {reads : SendReads} (hwhole : ∀ i, reads.succeeds (i + 1) = true)
    (hsent : p.sendGroup lib pubId frame reads = .ok sent) :
    ∃ calls, Streams lib pubId g (handed ++ [frame].filter fun frame => frame.group = g) sent
      calls := by
  obtain ⟨⟨final, counted, ok⟩, hcall, rfl⟩ := map_eq_ok.mp hsent
  by_cases hgroup : frame.group = g
  swap
  · refine ⟨calls, hstreams.skip _ (Function.update_of_ne (Ne.symm hgroup) _ _) ?_⟩
    rcases sendMultipart_whole hwhole hcall with ⟨-, -, hcounted⟩ | ⟨-, -, hcounted⟩
    · simp only [hcounted, PublisherStats.sentOn_countSent, if_neg hgroup]
    · simp only [hcounted, PublisherStats.sentOn_countDropped]
  · subst hgroup
    rcases sendMultipart_whole hwhole hcall with
      ⟨hcomplete, hfinal, hcounted⟩ | ⟨-, hfinal, hcounted⟩
    · refine ⟨calls ++ [⟨frame, reads.secClock, reads.nsecClock, reads.succeeds⟩], ?_, ?_, ?_, ?_⟩
      · exact List.forall_mem_append.mpr
          ⟨hstreams.complete, List.forall_mem_singleton.mpr hcomplete⟩
      · simp only [Function.update_self, hfinal, hstreams.socket, List.map_append, List.map_cons,
          List.map_nil, List.nil_append]
      · rw [List.map_append, List.filter_singleton, decide_eq_true rfl]
        exact hstreams.handed.append (.refl _)
      · have hcount : counted.sentOn frame.group = wordSucc (p.stats.sentOn frame.group) := by
          rw [hcounted, PublisherStats.sentOn_countSent, if_pos rfl]
        refine hcount.trans ?_
        rw [hstreams.counter, wordSucc, Nat.mod_add_mod, List.length_append, List.length_singleton]
    · refine ⟨calls, hstreams.skip _ ?_ ?_⟩
      · simp only [Function.update_self, hfinal]
      · simp only [hcounted, PublisherStats.sentOn_countDropped]

theorem sendFrames {sends : Nat → SendReads} (hwhole : ∀ k i, (sends k).succeeds (i + 1) = true)
    {frames : List (Option ChannelFrame)} (hstreams : Streams lib pubId g handed p calls)
    (hsent : p.sendFrames lib pubId sends frames = .ok sent) :
    ∃ calls, Streams lib pubId g
      (handed ++ frames.reduceOption.filter fun frame => frame.group = g) sent calls := by
  induction frames generalizing p sends handed calls with
  | nil =>
      obtain rfl := Except.ok.inj hsent
      exact ⟨calls, hstreams.skip _ rfl rfl⟩
  | cons frame rest ih =>
      cases frame with
      | none =>
          rw [List.reduceOption_cons_of_none]
          exact ih hwhole hstreams hsent
      | some frame =>
          rw [List.reduceOption_cons_of_some]
          unfold Publisher.sendFrames at hsent
          split at hsent
          next => contradiction
          next next hfirst =>
            obtain ⟨calls, hnext⟩ := hstreams.sendGroup (hwhole 0) hfirst
            have hrest := ih (fun k => hwhole (k + 1)) hnext hsent
            rwa [List.append_assoc, ← List.filter_append] at hrest

theorem runOnce {sends : Nat → SendReads} (hwhole : ∀ k i, (sends k).succeeds (i + 1) = true)
    {pipeline left : DataPipeline ChannelFrame} (hstreams : Streams lib pubId g handed p calls)
    (hrun : p.runOnce lib pubId sends pipeline = .ok (left, sent)) :
    ∃ calls, Streams lib pubId g
      (handed ++ pipeline.popAll.2.1.reduceOption.filter fun frame => frame.group = g) sent
        calls := by
  unfold Publisher.runOnce at hrun
  generalize pipeline.popAll = popped at hrun ⊢
  obtain ⟨rest, frames, got⟩ := popped
  simp only [Publisher.sendPopped] at hrun
  split at hrun
  next =>
    obtain ⟨result, hframes, hresult⟩ := map_eq_ok.mp hrun
    obtain ⟨-, rfl⟩ := Prod.mk.inj hresult
    exact hstreams.sendFrames hwhole hframes
  next =>
    obtain ⟨-, rfl⟩ := Prod.mk.inj (Except.ok.inj hrun)
    exact ⟨calls, hstreams.skip _ rfl rfl⟩

end Streams

/-! ## Runs -/

/-- The condition on a step: once the header of a frame is sent, so are its payloads. -/
def FlowState.SendsWhole : FlowState → FlowAction → Prop
  | _, .publish sends => ∀ k i, (sends k).succeeds (i + 1) = true
  | _, _ => True

/-- The headers of the messages that are closed. -/
def Socket.headers (sock : Socket) : List Json :=
  sock.closed.filterMap fun message => message.head?.bind fun part =>
    match part with
    | .json header => some header
    | .payload _ => none

section Runs

variable {lib : JsonLibrary} {pubId : Bytes} {samples : Samples} {source : SimDataSource}
  {queueCapacity : Nat} {history : List FlowEvent} {s : FlowState} {g : DataGroup}

theorem discards_unhanded (p : DataPipeline ChannelFrame) (group : DataGroup) :
    ∀ event ∈ p.discards group, event.handed? = none := by
  intro event hevent
  obtain ⟨frame, -, rfl⟩ := List.mem_map.mp hevent
  rfl

theorem streams_of_reaches (g : DataGroup)
    (hreach : (frameFlow lib pubId samples source queueCapacity).Reaches FlowState.SendsWhole
      history s) :
    ∃ calls, Streams lib pubId g (framesOn FlowEvent.handed? g history) s.publisher calls := by
  apply hreach.invariant fun history s =>
    ∃ calls, Streams lib pubId g (framesOn FlowEvent.handed? g history) s.publisher calls
  · refine ⟨[], fun _ hnone => absurd hnone List.not_mem_nil, rfl, .refl _, ?_⟩
    rw [List.length_nil, Nat.zero_mod]
    cases g <;> rfl
  · rintro history before action after events - ⟨calls, hstreams⟩ hwhole hstep
    -- only an iteration of the publisher hands frames over
    have hquiet : after.publisher = before.publisher →
        (∀ event ∈ events, event.handed? = none) → ∃ calls,
          Streams lib pubId g (framesOn FlowEvent.handed? g (history ++ events)) after.publisher
            calls := by
      intro hpublisher hnone
      rw [framesOn_append, framesOn_eq_nil hnone, List.append_nil, hpublisher]
      exact ⟨calls, hstreams⟩
    have hflow := FlowStep.of_flowStep hstep
    cases action with
    | publish sends =>
        change FlowState.published _ _ (before.publisher.runOnce lib pubId sends before.pipeline) =
          some (after, events) at hstep
        cases hrun : before.publisher.runOnce lib pubId sends before.pipeline with
        | error what =>
            rw [hrun] at hstep
            contradiction
        | ok result =>
            obtain ⟨left, sent⟩ := result
            rw [hrun] at hstep
            obtain ⟨rfl, rfl⟩ := Prod.mk.inj (Option.some.inj hstep)
            rw [framesOn_append, framesOn_map fun _ => rfl]
            exact hstreams.runOnce hwhole hrun
    | tick reads =>
        cases hflow with
        | tick _ _ _ _ _ hpublisher hevents =>
            apply hquiet hpublisher
            intro event hevent
            rw [hevents] at hevent
            obtain ⟨push, -, rfl⟩ := List.mem_map.mp hevent
            rfl
    | drain =>
        cases hflow with
        | drain _ _ _ hpublisher hevents =>
            apply hquiet hpublisher
            intro event hevent
            rw [hevents] at hevent
            obtain ⟨group, -, hmem⟩ := List.mem_flatMap.mp hevent
            exact discards_unhanded _ group event hmem
    | drainGroup group =>
        cases hflow with
        | drainGroup _ _ _ hpublisher hevents =>
            exact hquiet hpublisher (hevents ▸ discards_unhanded _ group)

/-- What is handed over of a group has been accepted by its queue. -/
theorem FlowInv.handed_sublist (hinv : FlowInv history s) (g : DataGroup) :
    (framesOn FlowEvent.handed? g history).Sublist (framesOn FlowEvent.accepted? g history) := by
  apply (handedOn_sublist history).trans
  rw [(hinv.account g).holds.removed_eq]
  exact List.take_sublist _ _

/-- In every run in which no message is abandoned, a subscriber of a group decodes its
messages to frames that the queue of the group has accepted, each once and in the order
of their ticks, and the counter of the group is their number. -/
theorem stream_decodes (g : DataGroup)
    (hreach : (frameFlow lib pubId samples source queueCapacity).Reaches FlowState.SendsWhole
      history s) (hticks : s.ticks < wordSize)
    (hprints : ∀ header ∈ (s.publisher.sockets g).headers,
      JsonLibrary.PrintsBack lib.dump lib.parse header) :
    (s.publisher.sockets g).opened = [] ∧
      ∃ frames : List ChannelFrame,
        List.Forall₂ (Recovers lib) (s.publisher.sockets g).closed frames ∧
        frames.Sublist (framesOn FlowEvent.accepted? g history) ∧
        frames.Pairwise (fun first second => first.frameIndex < second.frameIndex) ∧
        s.publisher.stats.sentOn g = frames.length % wordSize := by
  obtain ⟨calls, hstreams⟩ := streams_of_reaches g hreach
  have hinv := flowInv_of_reaches hreach.reachable hticks
  have hsub := hstreams.handed.trans (hinv.handed_sublist g)
  rw [hstreams.socket] at hprints ⊢
  refine ⟨rfl, calls.map PublishCall.frame, ?_, hsub, (hinv.account g).increasing.sublist hsub, ?_⟩
  · rw [List.forall₂_map_left_iff, List.forall₂_map_right_iff, List.forall₂_same]
    intro call hcall
    refine PublishCall.message_recovers (hstreams.complete call hcall) (hprints _ ?_)
    exact List.mem_filterMap.mpr ⟨_, List.mem_map_of_mem hcall, rfl⟩
  · rw [List.length_map]
    exact hstreams.counter

end Runs

/-- A frame is sent, and the next is discarded. -/
def sendAroundDrain : List FlowAction :=
  [.tick (readsOf .imu), publishAll, .tick (readsOf .imu), .drain]

/-- The header of the message that is sent. -/
def sentHeader : Json :=
  (((smallFlow.runFrom smallFlow.init sendAroundDrain).map fun result =>
    (result.1.publisher.sockets .sensorData).headers).getD []).headD .null

/-- The flow whose library reads that header again. -/
def rereadFlow : Machine FlowState FlowAction FlowEvent :=
  frameFlow (.rereading sentHeader) (lit "pub") zeroSamples {} 1

theorem sendAroundDrain_decodes :
    ∃ s history, rereadFlow.runFrom rereadFlow.init sendAroundDrain = some (s, history) ∧
      (s.publisher.sockets .sensorData).opened = [] ∧
        ∃ frames : List ChannelFrame,
          List.Forall₂ (Recovers (.rereading sentHeader))
            (s.publisher.sockets .sensorData).closed frames ∧
          frames.Sublist (framesOn FlowEvent.accepted? .sensorData history) ∧
          frames.Pairwise (fun first second => first.frameIndex < second.frameIndex) ∧
          s.publisher.stats.sentOn .sensorData = frames.length % wordSize := by
  have hruns : (rereadFlow.runFrom rereadFlow.init sendAroundDrain).map (fun result =>
      (result.1.ticks, (result.1.publisher.sockets .sensorData).headers)) =
        some (2, [sentHeader]) :=
    rfl
  obtain ⟨⟨s, history⟩, hrun, hview⟩ := Option.map_eq_some_iff.mp hruns
  obtain ⟨hticks, hheaders⟩ := Prod.mk.inj hview
  have hguarded : rereadFlow.Guarded FlowState.SendsWhole rereadFlow.init sendAroundDrain := by
    apply rereadFlow.guarded_of_mem
    refine List.forall_mem_cons.mpr ⟨fun _ => trivial, ?_⟩
    refine List.forall_mem_cons.mpr ⟨fun _ _ _ => rfl, ?_⟩
    exact List.forall_mem_cons.mpr ⟨fun _ => trivial,
      List.forall_mem_singleton.mpr fun _ => trivial⟩
  refine ⟨s, history, hrun,
    stream_decodes .sensorData (Machine.Reaches.init.runGuarded hguarded hrun) ?_ ?_⟩
  · dsimp only at hticks
    rw [hticks]
    decide
  · intro header hheader
    dsimp only at hheaders
    rw [hheaders, List.mem_singleton] at hheader
    rw [hheader]
    exact JsonLibrary.rereading_printsBack sentHeader

end SimVision
