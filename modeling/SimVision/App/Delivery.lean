import Mathlib.Data.Nat.ModEq
import SimVision.App.SerialService
import SimVision.Capture.TickContents
import SimVision.Data.SubscriberStream

/-! # From a subscription to a message

Run serially, the service is a flow of frames whose drains are those of its commands.
While a client stays subscribed to a type, no command of anybody discards a frame of its
group: every tick builds a frame with the type, and the frame is sent unless it found the
queue full or still waits there.
-/

namespace SimVision

open Foundation CommandHandler CaptureEngine

/-! ## The service as a flow -/

/-- The capture loop, the queues and the publisher of the service, after a number of
ticks. -/
def SerialState.flow (s : SerialState) (ticks : Nat) : FlowState where
  capture := s.capture
  pipeline := s.service.pipeline
  publisher := ⟨s.sockets, s.service.publisher⟩
  ticks := ticks

/-- The clock that a tick reads. -/
def SerialAction.clock? : SerialAction → Option (Int × Int)
  | .tick secClock nsecClock => some (secClock, nsecClock)
  | _ => none

/-- The clocks of the ticks of a schedule. -/
def clocks (actions : List SerialAction) : List (Int × Int) :=
  actions.filterMap SerialAction.clock?

theorem clocks_append (first second : List SerialAction) :
    clocks (first ++ second) = clocks first ++ clocks second :=
  List.filterMap_append

/-- Commands count no messages. -/
theorem Handled.keeps_publisher {lib : JsonLibrary} {body : Json} {clientId command : Bytes}
    {s next : Service} {r : Response} (hhandled : Handled lib body clientId s command next r) :
    next.publisher = s.publisher := by
  cases hhandled with
  | connect hcmd =>
      unfold cmdConnect at hcmd
      split at hcmd <;> exact (Prod.mk.inj hcmd).1 ▸ rfl
  | disconnect hcmd =>
      unfold cmdDisconnect at hcmd
      dsimp only at hcmd
      split_ifs at hcmd <;> exact (Prod.mk.inj hcmd).1 ▸ rfl
  | startCapture hcmd =>
      unfold cmdStartCapture at hcmd
      dsimp only at hcmd
      split_ifs at hcmd <;> exact (Prod.mk.inj hcmd).1 ▸ rfl
  | stopCapture hcmd =>
      unfold cmdStopCapture at hcmd
      dsimp only at hcmd
      split_ifs at hcmd <;> exact (Prod.mk.inj hcmd).1 ▸ rfl
  | activateChannel hcmd =>
      unfold cmdActivateChannel at hcmd
      split at hcmd
      next => contradiction
      next => exact (Prod.mk.inj (Except.ok.inj hcmd)).1 ▸ rfl
      next => exact (Prod.mk.inj (Except.ok.inj hcmd)).1 ▸ rfl
  | deactivateChannel hcmd =>
      unfold cmdDeactivateChannel at hcmd
      split at hcmd
      next => contradiction
      next => exact (Prod.mk.inj (Except.ok.inj hcmd)).1 ▸ rfl
      next =>
        obtain ⟨rfl, _⟩ := Prod.mk.inj (Except.ok.inj hcmd)
        split <;> rfl
  | setParameter hcmd =>
      cases cmdSetParameter_returns hcmd with
      | _ => rfl
  | _ => rfl

/-- A command drains no group that it leaves active while somebody stays subscribed. -/
structure DrainsIdle (s next : Service) (events : List FlowEvent) : Prop where
  queues : ∀ g, next.channels.groupActive g = true → next.channels.anySubscriber = true →
    next.pipeline.queues g = s.pipeline.queues g
  discards : ∀ g, next.channels.groupActive g = true → next.channels.anySubscriber = true →
    ∀ event ∈ events, ∃ other, other ≠ g ∧ event ∈ s.pipeline.discards other

theorem DrainsIdle.of_kept {s next : Service} (hpipeline : next.pipeline = s.pipeline) :
    DrainsIdle s next [] where
  queues g _ _ := by rw [hpipeline]
  discards g _ _ event hevent := absurd hevent List.not_mem_nil

section Simulation

variable {lib : JsonLibrary} {samples : Samples} {cfg : Config} {s next : SerialState}
  {responses : List Response} {start : SimDataSource} {queueCapacity : Nat}

/-- A command leaves the capture loop, the sockets and the counters alone. -/
theorem command_flow {q : Request}
    (hstep : serialStep lib samples cfg s (.command q) = some (next, responses)) (ticks : Nat) :
    next.flow ticks = { s.flow ticks with pipeline := next.service.pipeline } := by
  unfold serialStep at hstep
  dsimp only at hstep
  cases houtcome : q.outcome lib s.service with
  | error what =>
      rw [houtcome] at hstep
      contradiction
  | ok r =>
      rw [houtcome] at hstep
      obtain ⟨rfl, -⟩ := Prod.mk.inj (Option.some.inj hstep)
      have hpublisher := Handled.keeps_publisher (Request.handled_of_outcome houtcome)
      simp only [SerialState.flow, hpublisher]

/-- A command is matched by its drains. -/
theorem command_simulated {q : Request}
    (hstep : serialStep lib samples cfg s (.command q) = some (next, responses)) (ticks : Nat) :
    ∃ steps events, (frameFlow lib cfg.zmq.pubId samples start queueCapacity).runFrom
        (s.flow ticks) steps = some (next.flow ticks, events) ∧
      DrainsIdle s.service next.service events := by
  obtain ⟨-, heffect⟩ := command_effect hstep
  rw [command_flow hstep]
  have hquiet : next.service.pipeline = s.service.pipeline →
      ∃ steps events, (frameFlow lib cfg.zmq.pubId samples start queueCapacity).runFrom
          (s.flow ticks) steps =
            some ({ s.flow ticks with pipeline := next.service.pipeline }, events) ∧
        DrainsIdle s.service next.service events := by
    intro hpipeline
    refine ⟨[], [], ?_, .of_kept hpipeline⟩
    rw [hpipeline]
    rfl
  cases heffect with
  | quiet _ hpipeline => exact hquiet hpipeline
  | subscribes _ hpipeline => exact hquiet hpipeline
  | forces _ _ hpipeline => exact hquiet hpipeline
  | departs hdeparture =>
      have hpipeline := hdeparture.pipeline
      by_cases hany : next.service.channels.anySubscriber = true
      · rw [if_pos hany] at hpipeline
        exact hquiet hpipeline
      · rw [if_neg hany] at hpipeline
        refine ⟨[.drain, .drain], popOrder.flatMap s.service.pipeline.discards ++
          (popOrder.flatMap s.service.pipeline.drain.discards ++ []), ?_, ?_⟩
        · rw [hpipeline]
          rfl
        · exact ⟨fun g _ hsome => absurd hsome hany, fun g _ hsome => absurd hsome hany⟩
  | unforces t hchannels hpipeline =>
      by_cases hactive : next.service.channels.groupActive (dataTypeToGroup t) = true
      · rw [if_pos hactive] at hpipeline
        exact hquiet hpipeline
      · rw [if_neg hactive] at hpipeline
        have hne : ∀ g, next.service.channels.groupActive g = true → dataTypeToGroup t ≠ g := by
          rintro g hgroup rfl
          exact hactive hgroup
        refine ⟨[.drainGroup (dataTypeToGroup t)],
          s.service.pipeline.discards (dataTypeToGroup t) ++ [], ?_, ?_, ?_⟩
        · rw [hpipeline]
          rfl
        · intro g hgroup _
          rw [hpipeline, DataPipeline.drainGroup_queues, if_neg (hne g hgroup).symm]
        · intro g hgroup _ event hevent
          exact ⟨_, hne g hgroup, by simpa using hevent⟩

/-- The events of the flow that match a step of the service. -/
inductive Matches (lib : JsonLibrary) (samples : Samples) (cfg : Config) (s next : SerialState)
    (events : List FlowEvent) : SerialAction → Prop where
  | command {q : Request} (hdrains : DrainsIdle s.service next.service events)
      (hsockets : next.sockets = s.sockets) : Matches lib samples cfg s next events (.command q)
  | tick {secClock nsecClock : Int} {capture : CaptureState}
      (hok : (CaptureEngine.tick samples (s.reads secClock nsecClock) s.capture).2 = .ok capture)
      (hnext : next = { s with
        service := { s.service with
          pipeline := (s.service.pipeline.pushFrames
            (CaptureEngine.tick samples (s.reads secClock nsecClock) s.capture).1).1
          framesProduced := capture.framesProduced }
        capture := capture })
      (ticks : Nat)
      (hevents : events = DataPipeline.pushEvents ticks (s.service.pipeline.pushFrames
        (CaptureEngine.tick samples (s.reads secClock nsecClock) s.capture).1).2) :
      Matches lib samples cfg s next events (.tick secClock nsecClock)
  | publish {sends : Nat → SendReads}
      (hrun : Publisher.runOnce lib cfg.zmq.pubId ⟨s.sockets, s.service.publisher⟩ sends
        s.service.pipeline =
          .ok (next.service.pipeline, ⟨next.sockets, next.service.publisher⟩))
      (hservice : next.service = { s.service with
        pipeline := next.service.pipeline
        publisher := next.service.publisher })
      (hcapture : next.capture = s.capture)
      (hevents : events = s.service.pipeline.popAll.2.1.reduceOption.map .handed) :
      Matches lib samples cfg s next events (.publish sends)

/-- One step of the flow. -/
theorem flow_step {pubId : Bytes} {f following : FlowState} {action : FlowAction}
    {events : List FlowEvent}
    (hstep : flowStep lib pubId samples f action = some (following, events)) :
    (frameFlow lib pubId samples start queueCapacity).runFrom f [action] =
      some (following, events ++ []) := by
  have hmachine : (frameFlow lib pubId samples start queueCapacity).step f action =
      some (following, events) := hstep
  rw [Machine.runFrom, hmachine]
  rfl

/-- A tick of the service is a tick of the flow. -/
theorem tick_simulated {secClock nsecClock : Int}
    (hstep : serialStep lib samples cfg s (.tick secClock nsecClock) = some (next, responses))
    (ticks : Nat) :
    ∃ events, flowStep lib cfg.zmq.pubId samples (s.flow ticks)
        (.tick (s.reads secClock nsecClock)) = some (next.flow (ticks + 1), events) ∧
      Matches lib samples cfg s next events (.tick secClock nsecClock) := by
  cases hticked : CaptureEngine.tick samples (s.reads secClock nsecClock) s.capture with
  | mk frames outcome =>
      simp only [serialStep, hticked] at hstep
      cases outcome with
      | error what => contradiction
      | ok capture =>
          obtain ⟨rfl, -⟩ := Prod.mk.inj (Option.some.inj hstep)
          refine ⟨DataPipeline.pushEvents ticks (s.service.pipeline.pushFrames frames).2, ?_,
            .tick (congrArg Prod.snd hticked) ?_ ticks ?_⟩
          · simp only [flowStep, SerialState.flow, hticked, DataPipeline.pushEvents]
          · rw [hticked]
          · rw [hticked]

/-- An iteration of the publisher is one of the flow. -/
theorem publish_simulated {sends : Nat → SendReads}
    (hstep : serialStep lib samples cfg s (.publish sends) = some (next, responses))
    (ticks : Nat) :
    ∃ events, flowStep lib cfg.zmq.pubId samples (s.flow ticks) (.publish sends) =
        some (next.flow ticks, events) ∧
      Matches lib samples cfg s next events (.publish sends) := by
  refine ⟨s.service.pipeline.popAll.2.1.reduceOption.map .handed, ?_, ?_⟩
  · simp only [serialStep] at hstep
    simp only [flowStep, SerialState.flow]
    generalize Publisher.runOnce lib cfg.zmq.pubId ⟨s.sockets, s.service.publisher⟩ sends
      s.service.pipeline = sent at hstep ⊢
    cases sent with
    | error what => contradiction
    | ok result =>
        obtain ⟨rfl, -⟩ := Prod.mk.inj (Option.some.inj hstep)
        rfl
  · simp only [serialStep] at hstep
    generalize hrun : Publisher.runOnce lib cfg.zmq.pubId ⟨s.sockets, s.service.publisher⟩ sends
      s.service.pipeline = sent at hstep
    cases sent with
    | error what => contradiction
    | ok result =>
        obtain ⟨left, publisher⟩ := result
        obtain ⟨rfl, -⟩ := Prod.mk.inj (Option.some.inj hstep)
        exact .publish hrun rfl rfl rfl

/-- Every step of the service is matched by steps of the flow. -/
theorem serialStep_simulated {action : SerialAction}
    (hstep : serialStep lib samples cfg s action = some (next, responses)) (ticks : Nat) :
    ∃ steps events, (frameFlow lib cfg.zmq.pubId samples start queueCapacity).runFrom
        (s.flow ticks) steps = some (next.flow (ticks + (clocks [action]).length), events) ∧
      Matches lib samples cfg s next events action := by
  cases action with
  | command q =>
      obtain ⟨steps, events, hsteps, hdrains⟩ := command_simulated hstep ticks
      have hsockets : next.sockets = s.sockets :=
        congrArg (fun f : FlowState => f.publisher.sockets) (command_flow hstep ticks)
      exact ⟨steps, events, hsteps, .command hdrains hsockets⟩
  | tick secClock nsecClock =>
      obtain ⟨events, htick, hmatches⟩ := tick_simulated hstep ticks
      refine ⟨[.tick (s.reads secClock nsecClock)], events, ?_, hmatches⟩
      rw [flow_step htick, List.append_nil]
      rfl
  | publish sends =>
      obtain ⟨events, hpublish, hmatches⟩ := publish_simulated hstep ticks
      refine ⟨[.publish sends], events, ?_, hmatches⟩
      rw [flow_step hpublish, List.append_nil]
      rfl

/-- Every run of the service is a run of the flow. -/
theorem flow_reachable {cameraFile : Option Bytes} {source : SimDataSource}
    {actions : List SerialAction}
    (hrun : (serialService lib samples cfg cameraFile source).runFrom
      (serialService lib samples cfg cameraFile source).init actions = some (s, responses)) :
    ∃ history, (frameFlow lib cfg.zmq.pubId samples source
      (sizeOfInt cfg.spsc.queueSize)).Reachable history (s.flow (clocks actions).length) := by
  let flow := frameFlow lib cfg.zmq.pubId samples source (sizeOfInt cfg.spsc.queueSize)
  let follows (actions : List SerialAction) (state : SerialState) (_ : List FlowEvent)
      (matched : FlowState) : Prop := matched = state.flow (clocks actions).length
  obtain ⟨history, matched, hreach, rfl⟩ : ∃ history matched, flow.Reachable history matched ∧
      follows actions s history matched := by
    apply Machine.reachable_simulated follows rfl _ hrun
    rintro actions state history matched action next events rfl hstep
    obtain ⟨steps, later, hsteps, -⟩ := serialStep_simulated hstep (clocks actions).length
    refine ⟨steps, later, _, hsteps, ?_⟩
    change _ = next.flow (clocks (actions ++ [action])).length
    rw [clocks_append, List.length_append]
  exact ⟨history, hreach⟩

end Simulation

/-! ## A client that stays subscribed -/

/-- No command takes the type from the client, and the sockets take every part. -/
def SerialAction.Retains (client : Bytes) (t : DataType) : SerialAction → Prop
  | .command q => q.clientId = client → q.command ∈ [lit "stop_capture", lit "disconnect"] →
      t ∉ q.removes
  | .tick _ _ => True
  | .publish sends => ∀ k i, (sends k).succeeds i = true

/-- The client is subscribed to the type, and there is data of the type to capture. -/
structure Subscribed (client : Bytes) (t : DataType) (s : SerialState) : Prop where
  sound : Sound s.service
  subscribed : t ∈ s.service.channels.subscriptions client
  supplied : s.capture.source.supplies t = true

namespace Subscribed

variable {client : Bytes} {t : DataType} {s next : SerialState}

theorem anySubscriber (hsub : Subscribed client t s) : s.service.channels.anySubscriber = true :=
  hsub.sound.exact.anySubscriber_iff.mpr ⟨client, Finset.ne_empty_of_mem hsub.subscribed⟩

theorem isActive (hsub : Subscribed client t s) : s.service.channels.isActive t = true := by
  rw [ChannelManager.isActive_eq, decide_eq_true (hsub.sound.exact.count_pos hsub.subscribed)]
  rfl

theorem groupActive (hsub : Subscribed client t s) :
    s.service.channels.groupActive (dataTypeToGroup t) = true :=
  ChannelManager.groupActive_iff.mpr ⟨t, rfl, hsub.isActive⟩

end Subscribed

/-- A command that takes nothing from the client leaves it subscribed. -/
theorem CommandEffect.retains {q : Request} {s next : Service} {client : Bytes} {t : DataType}
    (heffect : CommandEffect q s next) (hsub : t ∈ s.channels.subscriptions client)
    (hretains : q.clientId = client → q.command ∈ [lit "stop_capture", lit "disconnect"] →
      t ∉ q.removes) : t ∈ next.channels.subscriptions client := by
  cases heffect with
  | quiet hchannels _ => rwa [hchannels]
  | subscribes hchannels _ =>
      rw [hchannels, ChannelManager.subscriptions_startCapture]
      split
      next heq => exact Finset.mem_union_left _ (heq ▸ hsub)
      next => exact hsub
  | forces u hchannels _ =>
      rw [hchannels]
      exact hsub
  | unforces u hchannels _ =>
      rw [hchannels]
      exact hsub
  | departs hdeparture =>
      refine (hdeparture.subscriptions client t).mpr ⟨hsub, fun ⟨hclient, hmem⟩ => ?_⟩
      refine hretains hclient.symm ?_ hmem
      rcases hdeparture.departs with ⟨hstop, _⟩ | ⟨hdisconnect, _⟩
      · exact hstop ▸ List.mem_cons_self
      · exact hdisconnect ▸ List.mem_cons_of_mem _ List.mem_cons_self

/-! ## The capture of a tick -/

/-- A tick that returns has no active raster type for which the size does not fit. -/
theorem CaptureEngine.fits_of_tick {samples : Samples} {reads : TickReads}
    {s capture : CaptureState}
    (hgroups : ∀ g, reads.groupActive g = (groupMembers g).any reads.isActive)
    (hok : (tick samples reads s).2 = .ok capture) :
    ∀ g ∈ tickOrder, ∀ t ∈ groupMembers g, reads.isActive t = true → t ∈ rasterTypes →
      s.source.RastersFit := by
  intro g hg t ht hactive hraster
  by_contra hunfit
  obtain ⟨what, hthrows⟩ := @tickGroups_throws samples s.frameIndex s.source t reads tickOrder
    hgroups g hg ht hactive hraster hunfit
  rw [tick, Prod.map_snd, hthrows] at hok
  contradiction

/-- What a tick that returns has captured, and the source it leaves. -/
theorem CaptureEngine.tick_captures {samples : Samples} {m : ChannelManager} {reads : TickReads}
    {s capture : CaptureState} (hreads : reads.isActive = m.isActive)
    (hgroups : ∀ g, reads.groupActive g = (groupMembers g).any reads.isActive)
    (hok : (tick samples reads s).2 = .ok capture) :
    ProducesSubscribed samples m reads s ∧ capture.source.pairs = s.source.pairs := by
  obtain ⟨hsource, hcontents⟩ := @tickGroups_contents samples s.frameIndex s.source reads tickOrder
    hgroups (fits_of_tick hgroups hok)
  refine ⟨.of_contents hreads hsource hcontents, ?_⟩
  rw [tick, Prod.map_snd, hsource] at hok
  obtain rfl := Except.ok.inj hok
  exact SimDataSource.advance_pairs

/-- A frame with a bundle of the type, stamped with the clock of its tick, and whether its
queue accepted it. -/
structure Captures (t : DataType) (clock : Int × Int) (push : ChannelFrame × Bool) : Prop where
  group : push.1.group = dataTypeToGroup t
  bundle : t ∈ push.1.bundles.map DataBundle.type
  stamped : push.1.Stamped (nowUnixSec clock.1) (nowUnixNsec clock.2)

/-- Of frames of different groups, one is of the group of each. -/
theorem filter_group {frames : List ChannelFrame} (hone : (frames.map ChannelFrame.group).Nodup)
    {frame : ChannelFrame} (hframe : frame ∈ frames) :
    (frames.filter fun other => other.group = frame.group) = [frame] := by
  induction frames with
  | nil => contradiction
  | cons first rest ih =>
      obtain ⟨hfresh, hrest⟩ := List.nodup_cons.mp hone
      rcases List.mem_cons.mp hframe with rfl | hframe
      · rw [List.filter_cons_of_pos (by simp), List.filter_eq_nil_iff.mpr]
        intro other hother hsame
        exact hfresh (of_decide_eq_true hsame ▸ List.mem_map_of_mem hother)
      · rw [List.filter_cons_of_neg, ih hrest hframe]
        intro hsame
        exact hfresh (of_decide_eq_true hsame ▸ List.mem_map_of_mem hframe)

/-! ## Pushes -/

/-- The frame of a push with its answer. -/
def FlowEvent.pushed? : FlowEvent → Option (ChannelFrame × Bool)
  | .pushed _ frame ok => some (frame, ok)
  | _ => none

/-- The pushes to the queue of a group. -/
def pushesOn (g : DataGroup) (history : List FlowEvent) : List (ChannelFrame × Bool) :=
  (history.filterMap FlowEvent.pushed?).filter fun push => push.1.group = g

section PushesOn

variable {g : DataGroup} {history : List FlowEvent}

theorem pushesOn_append (first second : List FlowEvent) :
    pushesOn g (first ++ second) = pushesOn g first ++ pushesOn g second := by
  simp only [pushesOn, List.filterMap_append, List.filter_append]

theorem pushesOn_eq_nil (hnone : ∀ event ∈ history, event.pushed? = none) :
    pushesOn g history = [] := by
  rw [pushesOn, List.filterMap_eq_nil_iff.mpr hnone, List.filter_nil]

theorem pushesOn_pushEvents (tick : Nat) (pushes : List (ChannelFrame × Bool)) :
    pushesOn g (DataPipeline.pushEvents tick pushes) =
      pushes.filter fun push => push.1.group = g := by
  rw [pushesOn, DataPipeline.pushEvents, List.filterMap_map]
  congr 1
  exact List.filterMap_some

/-- The frames accepted are those of the pushes that returned true. -/
theorem acceptedOn_eq (g : DataGroup) (history : List FlowEvent) :
    framesOn FlowEvent.accepted? g history =
      ((pushesOn g history).filter Prod.snd).map Prod.fst := by
  induction history with
  | nil => rfl
  | cons event rest ih =>
      rw [framesOn_cons, ih, ← List.singleton_append, pushesOn_append, List.filter_append,
        List.map_append]
      congr 1
      cases event with
      | pushed tick frame ok =>
          by_cases hgroup : frame.group = g
          · cases ok <;> simp [pushesOn, FlowEvent.pushed?, FlowEvent.accepted?, hgroup]
          · cases ok <;> simp [pushesOn, FlowEvent.pushed?, FlowEvent.accepted?, hgroup]
      | handed frame => rfl
      | discarded frame => rfl

/-- Without discards, what has left the queue was handed over. -/
theorem removedOn_eq (hkept : framesOn FlowEvent.discarded? g history = []) :
    framesOn FlowEvent.handed? g history = framesOn FlowEvent.removed? g history := by
  apply (handedOn_sublist history).eq_of_length
  rw [removedOn_length, hkept]
  rfl

end PushesOn

/-- What is queued before and accepted during a run is taken out during it or queued after
it, in the same order. -/
theorem queuedOn_balance {g : DataGroup} {history events : List FlowEvent} {s next : FlowState}
    (hbefore : Account g history s) (hafter : Account g (history ++ events) next) :
    framesOn FlowEvent.removed? g events ++ queuedOn g (history ++ events) =
      queuedOn g history ++ framesOn FlowEvent.accepted? g events := by
  have hle := hbefore.holds.length_le
  have hremoved := hafter.holds.removed_eq
  have hold := hbefore.holds.removed_eq
  unfold queuedOn
  rw [framesOn_append, framesOn_append] at hremoved ⊢
  rw [List.length_append] at hremoved ⊢
  generalize framesOn FlowEvent.accepted? g history = accepted at *
  generalize framesOn FlowEvent.accepted? g events = fresh at *
  generalize framesOn FlowEvent.removed? g history = removed at *
  generalize framesOn FlowEvent.removed? g events = taken at *
  rw [← List.drop_append_of_le_length hle, ← List.drop_drop]
  have htaken : taken = ((accepted ++ fresh).drop removed.length).take taken.length := by
    have hdrop := congrArg (List.drop removed.length) hremoved
    rwa [List.drop_left, List.drop_take, Nat.add_sub_cancel_left] at hdrop
  conv_lhs =>
    enter [1]
    rw [htaken]
  exact List.take_append_drop _ _

namespace ChannelFrameQueue

variable {α : Type} {q : ChannelFrameQueue α}

theorem popRounds_dropped (rounds : Nat) : (q.popRounds rounds).1.dropped = q.dropped := by
  induction rounds generalizing q with
  | zero => rfl
  | succ rounds ih =>
      have hpop : q.tryPop.1.dropped = q.dropped := by
        unfold tryPop
        split <;> rfl
      rw [popRounds]
      generalize q.tryPop = popped at hpop
      obtain ⟨next, out⟩ := popped
      cases out with
      | none => exact hpop
      | some out => exact (ih (q := next)).trans hpop

/-- A push that is refused is counted. -/
theorem tryPush_dropped (frame : α) :
    (q.tryPush frame).1.dropped ≡
      q.dropped + if (q.tryPush frame).2 = false then 1 else 0 [MOD wordSize] := by
  unfold tryPush
  split
  next => exact Nat.mod_modEq _ _
  next => exact .refl _

/-- Taking everything out counts nothing as dropped. -/
theorem popAll_dropped : q.popAll.1.dropped = q.dropped := popRounds_dropped q.size

end ChannelFrameQueue

namespace DataPipeline

/-- The frames of the pushes are those pushed. -/
theorem pushFrames_frames (p : DataPipeline ChannelFrame) (frames : List ChannelFrame) :
    (p.pushFrames frames).2.map Prod.fst = frames := by
  induction frames generalizing p with
  | nil => rfl
  | cons frame rest ih =>
      simp only [pushFrames, List.map_cons]
      rw [ih]

/-- A queue counts as dropped what it refuses. -/
theorem pushFrames_dropped (p : DataPipeline ChannelFrame) (g : DataGroup)
    (frames : List ChannelFrame) :
    ((p.pushFrames frames).1.queues g).dropped ≡ (p.queues g).dropped +
      ((p.pushFrames frames).2.filter fun push => push.1.group = g).countP
        (fun push => push.2 = false) [MOD wordSize] := by
  induction frames generalizing p with
  | nil => rfl
  | cons frame rest ih =>
      have hrest := ih (p.push frame.group frame).1
      simp only [pushFrames]
      by_cases hgroup : frame.group = g
      · have hfirst : ((p.push frame.group frame).1.queues g).dropped ≡ (p.queues g).dropped +
            if (p.push frame.group frame).2 = false then 1 else 0 [MOD wordSize] := by
          rw [push_queues, if_pos hgroup.symm, ← hgroup]
          exact ChannelFrameQueue.tryPush_dropped frame
        rw [List.filter_cons_of_pos (by simpa using hgroup), List.countP_cons,
          Nat.add_comm (List.countP _ _), ← Nat.add_assoc]
        refine hrest.trans (.add_right _ ?_)
        simpa using hfirst
      · rw [List.filter_cons_of_neg (by simpa using hgroup)]
        rw [push_queues, if_neg (Ne.symm hgroup)] at hrest
        exact hrest

end DataPipeline

/-! ## Sending -/

/-- The socket after a message that is sent whole. -/
def Socket.receive (sock : Socket) (message : List Part) : Socket where
  closed := sock.closed ++ [sock.opened ++ message]
  opened := []

namespace Publisher

variable {lib : JsonLibrary} {pubId : Bytes} {p sent : Publisher} {g : DataGroup}

/-- When every part is sent, the socket of the group receives the message of the frame. -/
theorem sendGroup_receive {frame : ChannelFrame} {reads : SendReads}
    (hsends : ∀ i, reads.succeeds i = true) (hsent : p.sendGroup lib pubId frame reads = .ok sent) :
    ∃ call : PublishCall, call.frame = frame ∧
      sent.sockets = Function.update p.sockets frame.group
        ((p.sockets frame.group).receive (call.message pubId)) := by
  obtain ⟨⟨final, counted, ok⟩, hcall, rfl⟩ := map_eq_ok.mp hsent
  refine ⟨⟨frame, reads.secClock, reads.nsecClock, reads.succeeds⟩, rfl, ?_⟩
  rcases sendMultipart_whole (fun i => hsends (i + 1)) hcall with ⟨-, hfinal, -⟩ | ⟨hrefused, -, -⟩
  · exact congrArg (Function.update p.sockets frame.group) hfinal
  · exact absurd (hsends 0) hrefused

/-- When every part is sent, the socket of a group receives the messages of its frames in
order. -/
theorem sendFrames_receive {sends : Nat → SendReads} (hsends : ∀ k i, (sends k).succeeds i = true)
    {frames : List (Option ChannelFrame)}
    (hsent : p.sendFrames lib pubId sends frames = .ok sent) :
    ∃ calls : List PublishCall,
      calls.map PublishCall.frame = (frames.reduceOption.filter fun frame => frame.group = g) ∧
        sent.sockets g = (calls.map fun call => call.message pubId).foldl Socket.receive
          (p.sockets g) := by
  induction frames generalizing p sends with
  | nil =>
      obtain rfl := Except.ok.inj hsent
      exact ⟨[], rfl, rfl⟩
  | cons frame rest ih =>
      cases frame with
      | none =>
          rw [List.reduceOption_cons_of_none]
          exact ih hsends hsent
      | some frame =>
          rw [List.reduceOption_cons_of_some]
          unfold Publisher.sendFrames at hsent
          cases hfirst : p.sendGroup lib pubId frame (sends 0) with
          | error what =>
              rw [hfirst] at hsent
              contradiction
          | ok next =>
              rw [hfirst] at hsent
              obtain ⟨calls, hcalls, hsocket⟩ := ih (fun k => hsends (k + 1)) hsent
              obtain ⟨call, hcall, hsockets⟩ := sendGroup_receive (hsends 0) hfirst
              rw [hsockets] at hsocket
              by_cases hgroup : frame.group = g
              · refine ⟨call :: calls, ?_, ?_⟩
                · rw [List.map_cons, hcalls, hcall, List.filter_cons_of_pos (by simpa using hgroup)]
                · rw [hsocket, ← hgroup, Function.update_self]
                  rfl
              · refine ⟨calls, ?_, ?_⟩
                · rw [hcalls, List.filter_cons_of_neg (by simpa using hgroup)]
                · rw [hsocket, Function.update_of_ne (Ne.symm hgroup)]

theorem runOnce_receive {sends : Nat → SendReads} (hsends : ∀ k i, (sends k).succeeds i = true)
    {pipeline left : DataPipeline ChannelFrame}
    (hrun : p.runOnce lib pubId sends pipeline = .ok (left, sent)) :
    left = pipeline.popAll.1 ∧ ∃ calls : List PublishCall,
      calls.map PublishCall.frame =
        (pipeline.popAll.2.1.reduceOption.filter fun frame => frame.group = g) ∧
      sent.sockets g = (calls.map fun call => call.message pubId).foldl Socket.receive
        (p.sockets g) := by
  refine ⟨sendPopped_left hrun, ?_⟩
  obtain ⟨-, -, hgot⟩ := pipeline.popAll_once
  unfold Publisher.runOnce at hrun
  generalize pipeline.popAll = popped at hrun hgot ⊢
  obtain ⟨rest, frames, got⟩ := popped
  simp only [Publisher.sendPopped] at hrun
  split at hrun
  next =>
    obtain ⟨result, hframes, hresult⟩ := map_eq_ok.mp hrun
    obtain ⟨-, rfl⟩ := Prod.mk.inj hresult
    exact sendFrames_receive hsends hframes
  next hnothing =>
    obtain ⟨-, rfl⟩ := Prod.mk.inj (Except.ok.inj hrun)
    have hempty : frames = [] := by
      have hsome : got = !frames.isEmpty := hgot
      simpa [hsome] using hnothing
    exact ⟨[], by rw [hempty]; rfl, rfl⟩

end Publisher

/-! ## A step -/

/-- What a run makes of the frames of the group of a type: each tick captures the type,
nothing is discarded, what is handed over is sent whole, and what is refused is counted. -/
structure Serves (pubId : Bytes) (t : DataType) (ticked : List (Int × Int))
    (s next : SerialState) (events : List FlowEvent) : Prop where
  captured : List.Forall₂ (Captures t) ticked (pushesOn (dataTypeToGroup t) events)
  kept : framesOn FlowEvent.discarded? (dataTypeToGroup t) events = []
  sent : ∃ calls : List PublishCall,
    calls.map PublishCall.frame = framesOn FlowEvent.handed? (dataTypeToGroup t) events ∧
      next.sockets (dataTypeToGroup t) = (calls.map fun call => call.message pubId).foldl
        Socket.receive (s.sockets (dataTypeToGroup t))
  refused : (next.service.pipeline.queues (dataTypeToGroup t)).dropped ≡
    (s.service.pipeline.queues (dataTypeToGroup t)).dropped +
      (pushesOn (dataTypeToGroup t) events).countP (fun push => push.2 = false) [MOD wordSize]

namespace Serves

variable {lib : JsonLibrary} {samples : Samples} {cfg : Config} {client pubId : Bytes}
  {t : DataType} {s middle next : SerialState}

theorem refl (pubId : Bytes) (t : DataType) (s : SerialState) : Serves pubId t [] s s [] where
  captured := .nil
  kept := rfl
  sent := ⟨[], rfl, rfl⟩
  refused := .refl _

theorem trans {first second : List (Int × Int)} {earlier later : List FlowEvent}
    (hfirst : Serves pubId t first s middle earlier)
    (hsecond : Serves pubId t second middle next later) :
    Serves pubId t (first ++ second) s next (earlier ++ later) where
  captured := by
    rw [pushesOn_append]
    exact List.rel_append hfirst.captured hsecond.captured
  kept := by rw [framesOn_append, hfirst.kept, hsecond.kept, List.append_nil]
  sent := by
    obtain ⟨calls, hcalls, hsocket⟩ := hfirst.sent
    obtain ⟨more, hmore, hfinal⟩ := hsecond.sent
    refine ⟨calls ++ more, ?_, ?_⟩
    · rw [List.map_append, hcalls, hmore, framesOn_append]
    · rw [hfinal, hsocket, List.map_append, List.foldl_append]
  refused := by
    rw [pushesOn_append, List.countP_append, ← Nat.add_assoc]
    exact hsecond.refused.trans (hfirst.refused.add_right _)

/-- A command touches nothing of a group that it leaves subscribed. -/
theorem of_command {events history : List FlowEvent} {ticks : Nat}
    (hdrains : DrainsIdle s.service next.service events) (hsockets : next.sockets = s.sockets)
    (hsub : Subscribed client t next) (hinv : FlowInv history (s.flow ticks)) :
    Serves pubId t [] s next events := by
  have hother := hdrains.discards _ hsub.groupActive hsub.anySubscriber
  have hdiscard : ∀ event ∈ events, ∃ frame, event = .discarded frame ∧
      frame.group ≠ dataTypeToGroup t := by
    intro event hevent
    obtain ⟨other, hne, hmem⟩ := hother event hevent
    obtain ⟨frame, hframe, rfl⟩ := List.mem_map.mp hmem
    refine ⟨frame, rfl, fun hsame => hne ?_⟩
    have hqueue : (s.service.pipeline.queues other).popAll.2 = (queuedOn other history).map some :=
      (hinv.account other).popAll
    rw [hqueue, List.reduceOption_mem_iff, List.mem_map] at hframe
    obtain ⟨queued, hqueued, heq⟩ := hframe
    rw [← group_of_mem_queuedOn hqueued, Option.some.inj heq, hsame]
  have hpushes : pushesOn (dataTypeToGroup t) events = [] := by
    apply pushesOn_eq_nil
    intro event hevent
    obtain ⟨frame, rfl, -⟩ := hdiscard event hevent
    rfl
  constructor
  case captured =>
    rw [hpushes]
    exact .nil
  case kept =>
    rw [framesOn, List.filter_eq_nil_iff]
    intro frame hframe
    obtain ⟨event, hevent, hselect⟩ := List.mem_filterMap.mp hframe
    obtain ⟨other, rfl, hne⟩ := hdiscard event hevent
    obtain rfl := Option.some.inj hselect
    simpa using hne
  case sent =>
    refine ⟨[], ?_, by rw [hsockets]; rfl⟩
    symm
    apply framesOn_eq_nil
    intro event hevent
    obtain ⟨frame, rfl, -⟩ := hdiscard event hevent
    rfl
  case refused =>
    rw [hpushes, hdrains.queues _ hsub.groupActive hsub.anySubscriber]
    exact .refl _

/-- A tick pushes one frame of the group, with the type. -/
theorem of_tick {secClock nsecClock : Int} {events : List FlowEvent}
    (hmatches : Matches lib samples cfg s next events (.tick secClock nsecClock))
    (hsub : Subscribed client t s) : Serves pubId t [(secClock, nsecClock)] s next events := by
  cases hmatches with
  | @tick _ _ capture hok hnext ticks hevents =>
      obtain ⟨hproduces, -⟩ := tick_captures (m := s.service.channels) rfl (fun _ => rfl) hok
      obtain ⟨hone, htypes, -, -, hcomplete, hstamped, -⟩ := hproduces
      generalize (CaptureEngine.tick samples (s.reads secClock nsecClock) s.capture).1 = frames
        at *
      have hsupplied : t = .stereoImage → s.capture.source.pairs ≠ [] := by
        intro hstereo
        have hsupplied := hsub.supplied
        rw [SimDataSource.supplies] at hsupplied
        simpa [hstereo] using hsupplied
      have hmember : t ∈ groupMembers (dataTypeToGroup t) := (mem_groupMembers t _).mpr rfl
      obtain ⟨frame, hframe, hgroup⟩ := hcomplete _ t hmember hsub.isActive hsupplied
      have hpushes : pushesOn (dataTypeToGroup t) events =
          (s.service.pipeline.pushFrames frames).2.filter
            fun push => push.1.group = dataTypeToGroup t := by
        rw [hevents, pushesOn_pushEvents]
      have hnone : ∀ event ∈ events, event.discarded? = none ∧ event.handed? = none := by
        intro event hevent
        rw [hevents] at hevent
        obtain ⟨push, -, rfl⟩ := List.mem_map.mp hevent
        exact ⟨rfl, rfl⟩
      constructor
      case captured =>
        obtain ⟨push, hpush, heq⟩ : ∃ push, pushesOn (dataTypeToGroup t) events = [push] ∧
            push.1 = frame := by
          apply List.map_eq_singleton_iff.mp
          have hframes := s.service.pipeline.pushFrames_frames frames
          rw [hpushes, ← hgroup, ← filter_group hone hframe]
          conv_rhs => rw [← hframes]
          rw [List.filter_map]
          rfl
        rw [hpush]
        refine .cons ⟨?_, ?_, ?_⟩ .nil
        · rw [heq, hgroup]
        · rw [heq, htypes frame hframe, hgroup, List.mem_filter]
          refine ⟨hmember, ?_⟩
          have hactive : s.service.channels.isActive t = true := hsub.isActive
          by_cases hstereo : t = .stereoImage
          · simp [hactive, hsupplied hstereo]
          · simp [hactive, hstereo]
        · rw [heq]
          exact (hstamped frame hframe).1
      case kept => exact framesOn_eq_nil fun event hevent => (hnone event hevent).1
      case sent =>
        refine ⟨[], (framesOn_eq_nil fun event hevent => (hnone event hevent).2).symm, ?_⟩
        rw [hnext]
        rfl
      case refused =>
        rw [hpushes, hnext]
        exact s.service.pipeline.pushFrames_dropped _ frames

/-- An iteration of the publisher hands over what is queued. -/
theorem of_publish {sends : Nat → SendReads} {events : List FlowEvent}
    (hmatches : Matches lib samples cfg s next events (.publish sends))
    (hsends : ∀ k i, (sends k).succeeds i = true) : Serves cfg.zmq.pubId t [] s next events := by
  cases hmatches with
  | publish hrun hservice hcapture hevents =>
      obtain ⟨hleft, calls, hcalls, hsocket⟩ :=
        Publisher.runOnce_receive (g := dataTypeToGroup t) hsends hrun
      have hpushes : pushesOn (dataTypeToGroup t) events = [] := by
        apply pushesOn_eq_nil
        intro event hevent
        rw [hevents] at hevent
        obtain ⟨frame, -, rfl⟩ := List.mem_map.mp hevent
        rfl
      constructor
      case captured =>
        rw [hpushes]
        exact .nil
      case kept =>
        apply framesOn_eq_nil
        intro event hevent
        rw [hevents] at hevent
        obtain ⟨frame, -, rfl⟩ := List.mem_map.mp hevent
        rfl
      case sent =>
        refine ⟨calls, ?_, hsocket⟩
        rw [hcalls, hevents, framesOn_map fun _ => rfl]
      case refused =>
        rw [hpushes, hleft, (DataPipeline.popAll_once _).1, ChannelFrameQueue.popAll_dropped]
        exact .refl _

end Serves

section Steps

variable {lib : JsonLibrary} {samples : Samples} {cfg : Config} {client : Bytes} {t : DataType}
  {s next : SerialState} {responses : List Response} {action : SerialAction}

/-- The client stays subscribed when nobody takes the type from it. -/
theorem Subscribed.step (hsub : Subscribed client t s) (hretains : action.Retains client t)
    (hstep : serialStep lib samples cfg s action = some (next, responses)) :
    Subscribed client t next := by
  refine ⟨serialStep_sound hsub.sound hstep, ?_, ?_⟩
  · cases action with
    | command q => exact (command_effect hstep).2.retains hsub.subscribed hretains
    | tick secClock nsecClock =>
        obtain ⟨-, -, hchannels, -⟩ := tick_pipeline hstep
        rw [hchannels]
        exact hsub.subscribed
    | publish sends =>
        rw [(publish_pipeline hstep).1]
        exact hsub.subscribed
  · cases action with
    | command q =>
        have hcapture : next.capture = s.capture :=
          congrArg FlowState.capture (command_flow hstep 0)
        rw [hcapture]
        exact hsub.supplied
    | tick secClock nsecClock =>
        obtain ⟨events, -, hmatches⟩ := tick_simulated hstep 0
        cases hmatches with
        | @tick _ _ capture hok hnext ticks hevents =>
            obtain ⟨-, hpairs⟩ := tick_captures (m := s.service.channels) rfl (fun _ => rfl) hok
            have hsupplied := hsub.supplied
            rw [hnext]
            rw [SimDataSource.supplies] at hsupplied ⊢
            rw [hpairs]
            exact hsupplied
    | publish sends =>
        obtain ⟨events, -, hmatches⟩ := publish_simulated hstep 0
        cases hmatches with
        | publish hrun hservice hcapture hevents =>
            rw [hcapture]
            exact hsub.supplied

/-- A step that leaves the client subscribed serves it. -/
theorem Serves.step {events history : List FlowEvent} {ticks : Nat}
    (hsub : Subscribed client t s) (hretains : action.Retains client t)
    (hstep : serialStep lib samples cfg s action = some (next, responses))
    (hmatches : Matches lib samples cfg s next events action)
    (hinv : FlowInv history (s.flow ticks)) :
    Serves cfg.zmq.pubId t (clocks [action]) s next events := by
  cases action with
  | command q =>
      cases hmatches with
      | command hdrains hsockets =>
          exact .of_command hdrains hsockets (hsub.step hretains hstep) hinv
  | tick secClock nsecClock => exact .of_tick hmatches hsub
  | publish sends => exact .of_publish hmatches hretains

end Steps

/-! ## Runs -/

/-- The frames in the queue of a group. -/
def SerialState.queued (s : SerialState) (g : DataGroup) : List ChannelFrame :=
  (s.service.pipeline.queues g).popAll.2.reduceOption

section Runs

variable {lib : JsonLibrary} {samples : Samples} {cfg : Config} {cameraFile : Option Bytes}
  {source : SimDataSource} {client : Bytes} {t : DataType} {s next : SerialState}
  {past recent : List SerialAction} {before responses : List Response}

theorem queued_eq {g : DataGroup} {history : List FlowEvent} {ticks : Nat}
    (haccount : Account g history (s.flow ticks)) : s.queued g = queuedOn g history := by
  have hpopped : (s.service.pipeline.queues g).popAll.2 = (queuedOn g history).map some :=
    haccount.popAll
  rw [SerialState.queued, hpopped]
  simp [List.reduceOption]

/-- In every run in which nobody takes the type from a subscribed client, each tick captures
it, and what was queued and what the queue accepts is sent in order, one message a frame,
or still queued. Only a full queue refuses a frame, and the counter says so. -/
theorem subscriber_served
    (hpast : (serialService lib samples cfg cameraFile source).runFrom
      (serialService lib samples cfg cameraFile source).init past = some (s, before))
    (hsubscribed : t ∈ s.service.channels.subscriptions client)
    (hsupplied : s.capture.source.supplies t = true)
    (hretains : ∀ action ∈ recent, action.Retains client t)
    (hrun : (serialService lib samples cfg cameraFile source).runFrom s recent =
      some (next, responses))
    (hticks : (clocks past).length + (clocks recent).length < wordSize) :
    ∃ (pushes : List (ChannelFrame × Bool)) (calls : List PublishCall),
      List.Forall₂ (Captures t) (clocks recent) pushes ∧
      calls.map PublishCall.frame ++ next.queued (dataTypeToGroup t) =
        s.queued (dataTypeToGroup t) ++ (pushes.filter Prod.snd).map Prod.fst ∧
      next.sockets (dataTypeToGroup t) = (calls.map fun call => call.message cfg.zmq.pubId).foldl
        Socket.receive (s.sockets (dataTypeToGroup t)) ∧
      (next.service.pipeline.queues (dataTypeToGroup t)).totalDropped ≡
        (s.service.pipeline.queues (dataTypeToGroup t)).totalDropped +
          pushes.countP (fun push => push.2 = false) [MOD wordSize] := by
  let flow := frameFlow lib cfg.zmq.pubId samples source (sizeOfInt cfg.spsc.queueSize)
  obtain ⟨history, hreach⟩ := flow_reachable hpast
  have hsound : Sound s.service := sound_of_reaches (Machine.reachable_of_runFrom hpast)
  -- the run of the flow that matches the recent steps
  let follows (actions : List SerialAction) (state : SerialState) (later : List FlowEvent)
      (matched : FlowState) : Prop :=
    matched = state.flow ((clocks past).length + (clocks actions).length) ∧
      flow.Reachable (history ++ later) matched ∧ Subscribed client t state ∧
        ((clocks past).length + (clocks actions).length < wordSize →
          Serves cfg.zmq.pubId t (clocks actions) s state later)
  have hstep : ∀ actions state later matched action next events,
      follows actions state later matched → action.Retains client t →
      serialStep lib samples cfg state action = some (next, events) →
      ∃ steps more following, flow.runFrom matched steps = some (following, more) ∧
        follows (actions ++ [action]) next (later ++ more) following := by
    rintro actions state later matched action next events ⟨rfl, hmatched, hsub, hserves⟩ hretains
      hstep
    obtain ⟨steps, more, hsteps, hmatches⟩ := serialStep_simulated hstep
      ((clocks past).length + (clocks actions).length)
    refine ⟨steps, more, _, hsteps, ?_, ?_, hsub.step hretains hstep, fun hbound => ?_⟩
    · rw [clocks_append, List.length_append, Nat.add_assoc]
    · rw [← List.append_assoc]
      exact hmatched.runGuarded (flow.guarded_of_forall (fun _ _ => trivial) _ _) hsteps
    · rw [clocks_append, List.length_append] at hbound
      have hearlier : (clocks past).length + (clocks actions).length < wordSize := by omega
      rw [clocks_append]
      exact (hserves hearlier).trans
        (.step hsub hretains hstep hmatches (flowInv_of_reaches hmatched hearlier))
  have hinit : follows [] s [] (s.flow (clocks past).length) :=
    ⟨rfl, by rwa [List.append_nil], ⟨hsound, hsubscribed, hsupplied⟩, fun _ => .refl _ _ _⟩
  obtain ⟨steps, later, matched, hsteps, rfl, hmatched, -, hserves⟩ :=
    Machine.runFrom_simulated follows hstep hretains hinit hrun
  have hserves := hserves hticks
  have hbefore : (clocks past).length < wordSize := by omega
  have haccount := (flowInv_of_reaches hreach hbefore).account (dataTypeToGroup t)
  have hfinal := (flowInv_of_reaches hmatched hticks).account (dataTypeToGroup t)
  obtain ⟨calls, hcalls, hsocket⟩ := hserves.sent
  refine ⟨pushesOn (dataTypeToGroup t) later, calls, hserves.captured, ?_, hsocket, hserves.refused⟩
  rw [hcalls, removedOn_eq hserves.kept, queued_eq haccount, queued_eq hfinal, ← acceptedOn_eq]
  exact queuedOn_balance haccount hfinal

end Runs

/-- Client `A` captures. -/
def captureByA : List SerialAction := [.command (connectBy "A"), .command (startBy "A" "imu")]

/-- Client `B` captures a type of the same group and stops before anything is published. -/
def stopByOther : List SerialAction :=
  [.tick 0 0, .command (connectBy "B"), .command (startBy "B" "temperature"), .tick 1 0,
    .command (stopBy "B" "temperature"), .publish fun _ => ⟨0, 0, fun _ => true⟩, .tick 2 0]

theorem stopByOther_served :
    ∃ s next before responses,
      defaultService.runFrom defaultService.init captureByA = some (s, before) ∧
      defaultService.runFrom s stopByOther = some (next, responses) ∧
      ∃ (pushes : List (ChannelFrame × Bool)) (calls : List PublishCall),
        List.Forall₂ (Captures .imu) (clocks stopByOther) pushes ∧
        calls.map PublishCall.frame ++ next.queued .sensorData =
          s.queued .sensorData ++ (pushes.filter Prod.snd).map Prod.fst ∧
        next.sockets .sensorData = (calls.map fun call => call.message
          ({} : Config).zmq.pubId).foldl Socket.receive (s.sockets .sensorData) ∧
        (next.service.pipeline.queues .sensorData).totalDropped ≡
          (s.service.pipeline.queues .sensorData).totalDropped +
            pushes.countP (fun push => push.2 = false) [MOD wordSize] := by
  have hruns : ((defaultService.runFrom defaultService.init captureByA).bind fun first =>
      (defaultService.runFrom first.1 stopByOther).map fun _ =>
        (decide (DataType.imu ∈ first.1.service.channels.subscriptions (lit "A")),
          first.1.capture.source.supplies .imu)) = some (true, true) := by
    decide +kernel
  obtain ⟨⟨s, before⟩, hpast, hlater⟩ := Option.bind_eq_some_iff.mp hruns
  obtain ⟨⟨next, responses⟩, hrun, hview⟩ := Option.map_eq_some_iff.mp hlater
  obtain ⟨hsub, hsupplied⟩ := Prod.mk.inj hview
  have hother : ∀ q : Request, q.clientId = lit "B" →
      SerialAction.Retains (lit "A") .imu (.command q) := by
    intro q hclient hsame
    rw [hclient] at hsame
    exact absurd hsame (by decide)
  have hretains : ∀ action ∈ stopByOther, action.Retains (lit "A") .imu := by
    simp only [stopByOther, List.forall_mem_cons]
    exact ⟨trivial, hother _ rfl, hother _ rfl, trivial, hother _ rfl, fun _ _ => rfl, trivial,
      fun _ hnone => absurd hnone List.not_mem_nil⟩
  exact ⟨s, next, before, responses, hpast, hrun,
    subscriber_served hpast (of_decide_eq_true hsub) hsupplied hretains hrun (by decide)⟩

end SimVision
