import SimVision.Api.CommandEffects
import SimVision.Capture.Timestamps
import SimVision.Data.FrameFlow

/-! # The service run serially

Commands, capture ticks and publisher iterations as atomic steps of one machine.
Commands decide what to drain by the subscriptions that are left; ticks push to
the groups that are active. The results say what is in the queue of a group by
the activity of the group.
-/

namespace SimVision

open Foundation CommandHandler

/-- The stores, the capture loop and the sockets of the publisher. -/
structure SerialState where
  service : Service
  capture : CaptureState
  sockets : DataGroup → Socket := fun _ => {}

inductive SerialAction where
  | command (request : Request)
  | tick (secClock nsecClock : Int)
  | publish (sends : Nat → SendReads)

/-- What a tick reads of the clock and of the stores. -/
def SerialState.reads (s : SerialState) (secClock nsecClock : Int) : TickReads where
  secClock := secClock
  nsecClock := nsecClock
  groupActive := s.service.channels.groupActive
  isActive := s.service.channels.isActive
  depthMode := fun _ => s.service.params.get (lit "depth_mode")

/-- The state after an iteration of the publisher that leaves a pipeline and a
publisher, or throws. -/
def SerialState.published (s : SerialState) :
    Except Bytes (DataPipeline ChannelFrame × Publisher) → Option (SerialState × List Response)
  | .error _ => none
  | .ok (pipeline, publisher) =>
      some ({ s with
        service := { s.service with pipeline := pipeline, publisher := publisher.stats }
        sockets := publisher.sockets }, [])

variable (lib : JsonLibrary) (samples : Samples) (cfg : Config)

/-- One step. An exception ends the process, whichever thread throws it. -/
def serialStep (s : SerialState) : SerialAction → Option (SerialState × List Response)
  | .command request =>
      match request.outcome lib s.service with
      | .error _ => none
      | .ok r => some ({ s with service := request.after lib s.service }, [r])
  | .tick secClock nsecClock =>
      match CaptureEngine.tick samples (s.reads secClock nsecClock) s.capture with
      | (_, .error _) => none
      | (frames, .ok capture) =>
          some ({ s with
            service := { s.service with
              pipeline := (s.service.pipeline.pushFrames frames).1
              framesProduced := capture.framesProduced }
            capture := capture }, [])
  | .publish sends =>
      s.published (Publisher.runOnce lib cfg.zmq.pubId ⟨s.sockets, s.service.publisher⟩ sends
        s.service.pipeline)

def serialService (cameraFile : Option Bytes) (source : SimDataSource) :
    Machine SerialState SerialAction Response where
  init := { service := mainService lib cfg cameraFile source, capture := { source := source } }
  step := serialStep lib samples cfg

/-! ## What a command does to channels and queues -/

namespace CommandHandler.Request

/-- The types a departing command takes from its client. -/
def removes (q : Request) : Finset DataType :=
  if q.command = lit "disconnect" then allDataTypes.toFinset else (expandTypes q.body).toFinset

/-- A `stop_capture` or a `disconnect` that will not be refused. -/
def Departs (q : Request) (s : Service) : Prop :=
  q.command = lit "stop_capture" ∧ expandTypes q.body ≠ [] ∨
    q.command = lit "disconnect" ∧ s.sessions.isConnected q.clientId = true

/-- A subscription of `other` to `t` that a departing command leaves in place. -/
def Survives (q : Request) (s : Service) (other : Bytes) (t : DataType) : Prop :=
  t ∈ s.channels.subscriptions other ∧ ¬ (other = q.clientId ∧ t ∈ q.removes)

end CommandHandler.Request

/-- A departing command takes the subscriptions of its client and drains
everything when nobody is left. -/
structure Departure (q : Request) (s next : Service) : Prop where
  departs : q.Departs s
  exact : s.channels.Exact → next.channels.Exact
  subscriptions : ∀ other t, t ∈ next.channels.subscriptions other ↔ q.Survives s other t
  force : ∀ t, (next.channels.states.entry t).forceActive =
    (s.channels.states.entry t).forceActive
  pipeline : next.pipeline =
    if next.channels.anySubscriber then s.pipeline else s.pipeline.drain.drain

/-- What a command that returns does to the channels and the queues. -/
inductive CommandEffect (q : Request) (s next : Service) : Prop where
  | quiet (hchannels : next.channels = s.channels) (hpipeline : next.pipeline = s.pipeline)
  | subscribes (hchannels : next.channels = s.channels.startCapture q.clientId (expandTypes q.body))
      (hpipeline : next.pipeline = s.pipeline)
  | departs (hdeparture : Departure q s next)
  | forces (t : DataType) (hchannels : next.channels = (s.channels.activateChannel t).1)
      (hpipeline : next.pipeline = s.pipeline)
  | unforces (t : DataType) (hchannels : next.channels = (s.channels.deactivateChannel t).1)
      (hpipeline : next.pipeline =
        if next.channels.groupActive (dataTypeToGroup t) then s.pipeline
        else s.pipeline.drainGroup (dataTypeToGroup t))

theorem Departure.of_disconnect (body : Json) {clientId : Bytes} {s : Service}
    (hconnected : s.sessions.isConnected clientId = true) :
    Departure ⟨lit "disconnect", body, clientId⟩ s (cmdDisconnect s clientId).1 := by
  have hchannels : (cmdDisconnect s clientId).1.channels =
      (s.channels.disconnectClient clientId).1 := by
    unfold cmdDisconnect
    rw [if_pos hconnected]
    dsimp only
    split <;> rfl
  constructor
  · exact .inr ⟨rfl, hconnected⟩
  · intro hexact
    rw [hchannels]
    exact (hexact.disconnectClient clientId).2
  · intro other t
    have hremoves : (⟨lit "disconnect", body, clientId⟩ : Request).removes =
        allDataTypes.toFinset := if_pos rfl
    rw [hchannels, ChannelManager.subscriptions_disconnectClient, Request.Survives, hremoves]
    split
    next heq => simp [heq]
    next hne => simp [hne]
  · intro t
    rw [hchannels]
    exact ChannelManager.applyWith_force s.channels (.disconnectClient clientId) t
  · unfold cmdDisconnect
    rw [if_pos hconnected]
    dsimp only
    split
    next => rfl
    next hany => exact (if_neg hany).symm

theorem Departure.of_stopCapture (s : Service) (clientId : Bytes) {body : Json}
    (htypes : expandTypes body ≠ []) :
    Departure ⟨lit "stop_capture", body, clientId⟩ s (cmdStopCapture s body clientId).1 := by
  have hchannels : (cmdStopCapture s body clientId).1.channels =
      s.channels.stopCapture clientId (expandTypes body) := by
    unfold cmdStopCapture
    dsimp only
    rw [if_neg htypes]
    dsimp only
    split <;> rfl
  constructor
  · exact .inl ⟨rfl, htypes⟩
  · intro hexact
    rw [hchannels]
    exact (hexact.stopCapture clientId (expandTypes body)).2
  · intro other t
    have hremoves : (⟨lit "stop_capture", body, clientId⟩ : Request).removes =
        (expandTypes body).toFinset := if_neg (by change ¬ lit "stop_capture" = _; decide)
    rw [hchannels, ChannelManager.subscriptions_stopCapture, Request.Survives, hremoves]
    split
    next heq => simp [heq]
    next hne => simp [hne]
  · intro t
    rw [hchannels]
    exact ChannelManager.applyWith_force s.channels (.stopCapture clientId (expandTypes body)) t
  · unfold cmdStopCapture
    dsimp only
    rw [if_neg htypes]
    dsimp only
    split
    next => rfl
    next hany => exact (if_neg hany).symm

theorem CommandEffect.of_handled {lib : JsonLibrary} {q : Request} {s next : Service}
    {r : Response} (hhandled : Handled lib q.body q.clientId s q.command next r) :
    CommandEffect q s next := by
  obtain ⟨command, body, clientId⟩ := q
  dsimp only at hhandled
  cases hhandled with
  | connect hcmd =>
      unfold cmdConnect at hcmd
      split at hcmd
      next => exact (Prod.mk.inj hcmd).1 ▸ .quiet rfl rfl
      next => exact (Prod.mk.inj hcmd).1 ▸ .quiet rfl rfl
  | disconnect hcmd =>
      by_cases hconnected : s.sessions.isConnected clientId = true
      · have hdeparture := Departure.of_disconnect body hconnected
        rw [hcmd] at hdeparture
        exact .departs hdeparture
      · unfold cmdDisconnect at hcmd
        rw [if_neg hconnected] at hcmd
        exact (Prod.mk.inj hcmd).1 ▸ .quiet rfl rfl
  | startCapture hcmd =>
      unfold cmdStartCapture at hcmd
      dsimp only at hcmd
      split_ifs at hcmd
      · exact (Prod.mk.inj hcmd).1 ▸ .quiet rfl rfl
      · exact (Prod.mk.inj hcmd).1 ▸ .subscribes rfl rfl
      · exact (Prod.mk.inj hcmd).1 ▸ .quiet rfl rfl
  | stopCapture hcmd =>
      by_cases htypes : expandTypes body = []
      · unfold cmdStopCapture at hcmd
        dsimp only at hcmd
        rw [if_pos htypes] at hcmd
        exact (Prod.mk.inj hcmd).1 ▸ .quiet rfl rfl
      · have hdeparture := Departure.of_stopCapture s clientId htypes
        rw [hcmd] at hdeparture
        exact .departs hdeparture
  | activateChannel hcmd =>
      unfold cmdActivateChannel at hcmd
      split at hcmd
      next => contradiction
      next => exact (Prod.mk.inj (Except.ok.inj hcmd)).1 ▸ .quiet rfl rfl
      next t _ => exact (Prod.mk.inj (Except.ok.inj hcmd)).1 ▸ .forces t rfl rfl
  | deactivateChannel hcmd =>
      unfold cmdDeactivateChannel at hcmd
      split at hcmd
      next => contradiction
      next => exact (Prod.mk.inj (Except.ok.inj hcmd)).1 ▸ .quiet rfl rfl
      next t _ =>
        obtain ⟨rfl, _⟩ := Prod.mk.inj (Except.ok.inj hcmd)
        apply CommandEffect.unforces t
        · split <;> rfl
        · dsimp only
          split
          next => rfl
          next => rfl
  | setParameter hcmd =>
      cases cmdSetParameter_returns hcmd with
      | _ => exact .quiet rfl rfl
  | _ => exact .quiet rfl rfl

/-! ## Groups and their queues -/

/-- A group without an active type has an empty queue. -/
def Flushed (s : Service) : Prop :=
  ∀ g, s.channels.groupActive g = false → (s.pipeline.queues g).isEmpty = true

/-- The counts of the channels are exact and the queue counters are words. -/
structure Sound (s : Service) : Prop where
  exact : s.channels.Exact
  words : s.pipeline.Words

/-- A type of the group stays subscribed or forced when the command departs. -/
def CommandHandler.Request.Spares (q : Request) (s : Service) (g : DataGroup) : Prop :=
  ∃ t, dataTypeToGroup t = g ∧
    ((∃ other, q.Survives s other t) ∨ (s.channels.states.entry t).forceActive = true)

namespace Departure

variable {q : Request} {s next : Service}

theorem groupActive_iff (hdeparture : Departure q s next) (hexact : s.channels.Exact)
    (g : DataGroup) : next.channels.groupActive g = true ↔ q.Spares s g := by
  rw [(hdeparture.exact hexact).groupActive_iff]
  unfold Request.Spares
  simp only [hdeparture.subscriptions, hdeparture.force]

theorem anySubscriber_iff (hdeparture : Departure q s next) (hexact : s.channels.Exact) :
    next.channels.anySubscriber = true ↔ ∃ other t, q.Survives s other t := by
  rw [(hdeparture.exact hexact).anySubscriber_iff]
  constructor
  · rintro ⟨other, hsome⟩
    obtain ⟨t, ht⟩ := Finset.nonempty_iff_ne_empty.mpr hsome
    exact ⟨other, t, (hdeparture.subscriptions other t).mp ht⟩
  · rintro ⟨other, t, hsurvives⟩
    exact ⟨other, Finset.ne_empty_of_mem ((hdeparture.subscriptions other t).mpr hsurvives)⟩

theorem isEmpty_of_drained (hdeparture : Departure q s next) (hwords : s.pipeline.Words)
    (hnone : next.channels.anySubscriber = false) (g : DataGroup) :
    (next.pipeline.queues g).isEmpty = true := by
  rw [hdeparture.pipeline, hnone]
  exact DataPipeline.drain_isEmpty hwords.drain g

/-- A departing command leaves inactive groups empty exactly when it leaves
nobody subscribed, or spares every group that has a frame queued. -/
theorem flushed_iff (hdeparture : Departure q s next) (hsound : Sound s) :
    Flushed next ↔ ((∃ other t, q.Survives s other t) →
      ∀ g, q.Spares s g ∨ (s.pipeline.queues g).isEmpty = true) := by
  cases hany : next.channels.anySubscriber with
  | false =>
      have hnone : ¬ ∃ other t, q.Survives s other t := by
        rw [← hdeparture.anySubscriber_iff hsound.exact, hany]
        exact Bool.false_ne_true
      exact iff_of_true (fun g _ => hdeparture.isEmpty_of_drained hsound.words hany g)
        fun hsome => absurd hsome hnone
  | true =>
      have hsome := (hdeparture.anySubscriber_iff hsound.exact).mp hany
      have hpipeline : next.pipeline = s.pipeline := by
        rw [hdeparture.pipeline, hany]
        rfl
      unfold Flushed
      rw [hpipeline]
      constructor
      · intro hflushed _ g
        by_cases hspares : q.Spares s g
        · exact .inl hspares
        · apply Or.inr
          apply hflushed
          rwa [← hdeparture.groupActive_iff hsound.exact, Bool.not_eq_true] at hspares
      · intro hkeeps g hinactive
        rcases hkeeps hsome g with hspares | hempty
        · rw [(hdeparture.groupActive_iff hsound.exact g).mpr hspares] at hinactive
          contradiction
        · exact hempty

end Departure

namespace CommandEffect

variable {q : Request} {s next : Service}

theorem sound (heffect : CommandEffect q s next) (hsound : Sound s) : Sound next := by
  obtain ⟨hexact, hwords⟩ := hsound
  cases heffect with
  | quiet hchannels hpipeline => exact ⟨hchannels ▸ hexact, hpipeline ▸ hwords⟩
  | subscribes hchannels hpipeline =>
      exact ⟨hchannels ▸ hexact.startCapture _ _, hpipeline ▸ hwords⟩
  | departs hdeparture =>
      refine ⟨hdeparture.exact hexact, ?_⟩
      rw [hdeparture.pipeline]
      split
      next => exact hwords
      next => exact hwords.drain.drain
  | forces t hchannels hpipeline => exact ⟨hchannels ▸ hexact.set_force t true, hpipeline ▸ hwords⟩
  | unforces t hchannels hpipeline =>
      refine ⟨hchannels ▸ hexact.set_force t false, ?_⟩
      rw [hpipeline]
      split
      next => exact hwords
      next => exact hwords.drainGroup _

/-- A group that activity can only have reached was inactive before. -/
private theorem inactive_of_grown {before after : Bool} (hgrown : before = true → after = true)
    (hinactive : after = false) : before = false := by
  cases before with
  | false => rfl
  | true => rw [hgrown rfl] at hinactive; contradiction

/-- Commands that depart aside, no command leaves a frame in an inactive group. -/
theorem flushed (heffect : CommandEffect q s next) (hsound : Sound s) (hflushed : Flushed s)
    (hdeparts : q.Departs s → (∃ other t, q.Survives s other t) →
      ∀ g, q.Spares s g ∨ (s.pipeline.queues g).isEmpty = true) : Flushed next := by
  have hnext := heffect.sound hsound
  cases heffect with
  | quiet hchannels hpipeline =>
      unfold Flushed
      rwa [hchannels, hpipeline]
  | departs hdeparture =>
      exact (hdeparture.flushed_iff hsound).mpr (hdeparts hdeparture.departs)
  | subscribes hchannels hpipeline =>
      intro g hinactive
      rw [hpipeline]
      apply hflushed
      rw [hchannels] at hinactive
      exact inactive_of_grown (fun hactive => hsound.exact.groupActive_startCapture hactive)
        hinactive
  | forces t hchannels hpipeline =>
      intro g hinactive
      rw [hpipeline]
      apply hflushed
      rw [hchannels] at hinactive
      exact inactive_of_grown ChannelManager.groupActive_activateChannel hinactive
  | unforces t hchannels hpipeline =>
      intro g hinactive
      rw [hpipeline]
      by_cases hgroup : g = dataTypeToGroup t
      · rw [← hgroup, if_neg (by rw [hinactive]; exact Bool.false_ne_true),
          DataPipeline.drainGroup_queues, if_pos rfl]
        exact ChannelFrameQueue.clear_isEmpty (hsound.words g)
      · have hempty : (s.pipeline.queues g).isEmpty = true := by
          apply hflushed
          rw [hchannels, ChannelManager.groupActive_deactivateChannel_of_ne hgroup] at hinactive
          exact hinactive
        split
        next => exact hempty
        next =>
          rw [DataPipeline.drainGroup_queues, if_neg hgroup]
          exact hempty

end CommandEffect

/-! ## Flushes along a run -/

/-- A departing command that leaves somebody subscribed spares every group that
has a frame queued. -/
def SparesQueued (s : SerialState) : SerialAction → Prop
  | .command q => q.Departs s.service → (∃ other t, q.Survives s.service other t) →
      ∀ g, q.Spares s.service g ∨ (s.service.pipeline.queues g).isEmpty = true
  | _ => True

section Steps

variable {lib : JsonLibrary} {samples : Samples} {cfg : Config} {s next : SerialState}
  {responses : List Response}

theorem tick_pipeline {secClock nsecClock : Int}
    (hstep : serialStep lib samples cfg s (.tick secClock nsecClock) = some (next, responses)) :
    ∃ frames : List ChannelFrame,
      (∀ frame ∈ frames, s.service.channels.groupActive frame.group = true) ∧
        next.service.channels = s.service.channels ∧
        next.service.pipeline = (s.service.pipeline.pushFrames frames).1 := by
  obtain ⟨hframes, _⟩ :=
    CaptureEngine.tick_frames samples (s.reads secClock nsecClock) s.capture
  unfold serialStep at hstep
  dsimp only at hstep
  generalize CaptureEngine.tick samples (s.reads secClock nsecClock) s.capture = ticked
    at hstep hframes
  obtain ⟨frames, outcome⟩ := ticked
  cases outcome with
  | error what => contradiction
  | ok capture =>
      cases hstep
      exact ⟨frames, fun frame hframe => (hframes frame hframe).active, rfl, rfl⟩

theorem publish_pipeline {sends : Nat → SendReads}
    (hstep : serialStep lib samples cfg s (.publish sends) = some (next, responses)) :
    next.service.channels = s.service.channels ∧
      next.service.pipeline = s.service.pipeline.popAll.1 := by
  simp only [serialStep] at hstep
  generalize hrun : Publisher.runOnce lib cfg.zmq.pubId ⟨s.sockets, s.service.publisher⟩ sends
    s.service.pipeline = sent at hstep
  cases sent with
  | error what => contradiction
  | ok result =>
      cases hstep
      exact ⟨rfl, Publisher.sendPopped_left hrun⟩

theorem command_effect {q : Request}
    (hstep : serialStep lib samples cfg s (.command q) = some (next, responses)) :
    next.service = q.after lib s.service ∧ CommandEffect q s.service next.service := by
  unfold serialStep at hstep
  dsimp only at hstep
  cases houtcome : q.outcome lib s.service with
  | error what =>
      rw [houtcome] at hstep
      contradiction
  | ok r =>
      rw [houtcome] at hstep
      cases hstep
      exact ⟨rfl, .of_handled (Request.handled_of_outcome houtcome)⟩

theorem serialStep_sound {action : SerialAction} (hsound : Sound s.service)
    (hstep : serialStep lib samples cfg s action = some (next, responses)) :
    Sound next.service := by
  cases action with
  | command q => exact (command_effect hstep).2.sound hsound
  | tick secClock nsecClock =>
      obtain ⟨frames, _, hchannels, hpipeline⟩ := tick_pipeline hstep
      exact ⟨hchannels ▸ hsound.exact, hpipeline ▸ hsound.words.pushFrames frames⟩
  | publish sends =>
      obtain ⟨hchannels, hpipeline⟩ := publish_pipeline hstep
      exact ⟨hchannels ▸ hsound.exact, hpipeline ▸ (DataPipeline.popAll_isEmpty hsound.words).1⟩

theorem serialStep_flushed {action : SerialAction} (hsound : Sound s.service)
    (hflushed : Flushed s.service) (hspares : SparesQueued s action)
    (hstep : serialStep lib samples cfg s action = some (next, responses)) :
    Flushed next.service := by
  cases action with
  | command q => exact (command_effect hstep).2.flushed hsound hflushed hspares
  | tick secClock nsecClock =>
      obtain ⟨frames, hactive, hchannels, hpipeline⟩ := tick_pipeline hstep
      intro g hinactive
      rw [hchannels] at hinactive
      rw [hpipeline, DataPipeline.pushFrames_queues_of_ne]
      · exact hflushed g hinactive
      · rintro frame hframe rfl
        rw [hactive frame hframe] at hinactive
        contradiction
  | publish sends =>
      intro g _
      rw [(publish_pipeline hstep).2]
      exact (DataPipeline.popAll_isEmpty hsound.words).2 g

end Steps

section Runs

variable {lib : JsonLibrary} {samples : Samples} {cfg : Config} {cameraFile : Option Bytes}
  {source : SimDataSource} {history : List Response} {state : SerialState}

theorem sound_of_reaches {guard : SerialState → SerialAction → Prop}
    (hreach : (serialService lib samples cfg cameraFile source).Reaches guard history state) :
    Sound state.service := by
  apply hreach.invariant fun _ state => Sound state.service
  · exact ⟨(ChannelManager.run_exact []).2, .create _⟩
  · intro _ before action after responses _ hbefore _ hstep
    exact serialStep_sound hbefore hstep

/-- When every departing command that leaves somebody subscribed spares the
groups that have frames queued, a group without an active type has an empty
queue in every state of the run. -/
theorem inactive_queue_empty
    (hreach : (serialService lib samples cfg cameraFile source).Reaches SparesQueued history state)
    (g : DataGroup) (hinactive : state.service.channels.groupActive g = false) :
    (state.service.pipeline.queues g).isEmpty = true := by
  have hflushed : Flushed state.service := by
    apply hreach.invariant fun _ state => Flushed state.service
    · intro g _
      rfl
    · intro _ before action after responses hbefore hflushed hspares hstep
      exact serialStep_flushed (sound_of_reaches hbefore) hflushed hspares hstep
  exact hflushed g hinactive

end Runs

/-! ## Frames left behind by a stop -/

/-- The service with its default configuration and no images. -/
def defaultService : Machine SerialState SerialAction Response :=
  serialService .plain zeroSamples {} none {}

def typeBody (name : String) : Json := .object [(lit "data_type", .string (lit name))]

def connectBy (client : String) : Request := ⟨lit "connect", .emptyObject, lit client⟩

def startBy (client name : String) : Request := ⟨lit "start_capture", typeBody name, lit client⟩

def stopBy (client name : String) : Request := ⟨lit "stop_capture", typeBody name, lit client⟩

/-- Client `A` captures until its frame is published, then stops. -/
def stopAfterPublish : List SerialAction :=
  [.command (connectBy "A"), .command (startBy "A" "imu"), .tick 0 0,
    .publish fun _ => ⟨0, 0, fun _ => true⟩, .command (stopBy "A" "imu")]

theorem stopAfterPublish_flushed :
    ∃ state history, defaultService.runFrom defaultService.init stopAfterPublish =
        some (state, history) ∧
      state.service.channels.groupActive .sensorData = false ∧
      (state.service.pipeline.queues .sensorData).isEmpty = true := by
  have hruns : (defaultService.runFrom defaultService.init stopAfterPublish).map
      (fun result => result.1.service.channels.groupActive .sensorData) = some false := by
    decide +kernel
  obtain ⟨⟨state, history⟩, hrun, hinactive⟩ := Option.map_eq_some_iff.mp hruns
  have hother : ∀ (s : SerialState) (client : String),
      SparesQueued s (.command (connectBy client)) ∧
      ∀ name, SparesQueued s (.command (startBy client name)) := by
    intro s client
    refine ⟨?_, fun name => ?_⟩
    · rintro (⟨hstop, _⟩ | ⟨hdisconnect, _⟩)
      · exact absurd hstop (by change ¬ lit "connect" = lit "stop_capture"; decide)
      · exact absurd hdisconnect (by change ¬ lit "connect" = lit "disconnect"; decide)
    · rintro (⟨hstop, _⟩ | ⟨hdisconnect, _⟩)
      · exact absurd hstop (by change ¬ lit "start_capture" = lit "stop_capture"; decide)
      · exact absurd hdisconnect (by change ¬ lit "start_capture" = lit "disconnect"; decide)
  have hguarded : defaultService.Guarded SparesQueued defaultService.init stopAfterPublish := by
    refine ⟨(hother _ _).1, (hother _ _).2 _, trivial, trivial, ?_, trivial⟩
    intro _ _ g
    right
    cases g <;> decide +kernel
  exact ⟨state, history, hrun, hinactive,
    inactive_queue_empty (Machine.Reaches.init.runGuarded hguarded hrun) .sensorData hinactive⟩

/-- Client `A` stops with its frame still queued, while client `B` has subscribed
to another group. -/
def stopBeforePublish : List SerialAction :=
  [.command (connectBy "A"), .command (startBy "A" "imu"), .tick 0 0, .command (connectBy "B"),
    .command (startBy "B" "depth_map"), .command (stopBy "A" "imu")]

/-- The frame of a group that has gone inactive stays queued. -/
theorem stopBeforePublish_stale :
    ¬ ∀ (lib : JsonLibrary), lib.ConvertsStrings →
      ∀ (samples : Samples) (cfg : Config) (cameraFile : Option Bytes) (source : SimDataSource)
        (history : List Response) (state next : SerialState) (q : Request) (r : Response),
        (serialService lib samples cfg cameraFile source).Reachable history state →
        serialStep lib samples cfg state (.command q) = some (next, [r]) → r.code = .success →
        q.command ∈ [lit "stop_capture", lit "disconnect", lit "deactivate_channel"] →
        ∀ g, next.service.channels.groupActive g = false →
          (next.service.pipeline.queues g).isEmpty = true := by
  intro hclaim
  have hruns : (defaultService.runFrom defaultService.init (stopBeforePublish.take 5)).isSome =
      true := by
    decide +kernel
  obtain ⟨⟨state, history⟩, hrun⟩ := Option.isSome_iff_exists.mp hruns
  have hstop : ((defaultService.runFrom defaultService.init (stopBeforePublish.take 5)).bind
      fun before => (serialStep .plain zeroSamples {} before.1 (.command (stopBy "A" "imu"))).map
        fun result =>
          (result.2.map Response.code, result.1.service.channels.groupActive .sensorData,
          (result.1.service.pipeline.queues .sensorData).isEmpty)) =
      some ([.success], false, false) := by
    decide +kernel
  rw [hrun, Option.bind_some] at hstop
  obtain ⟨⟨next, responses⟩, hstep, hview⟩ := Option.map_eq_some_iff.mp hstop
  simp only [Prod.mk.injEq] at hview
  obtain ⟨hcodes, hinactive, hqueued⟩ := hview
  cases responses with
  | nil => contradiction
  | cons r rest =>
      obtain ⟨hcode, hrest⟩ := List.cons.inj hcodes
      obtain rfl := List.map_eq_nil_iff.mp hrest
      have hempty := hclaim .plain JsonLibrary.plain_convertsStrings zeroSamples {} none {} history
        state next (stopBy "A" "imu") r (Machine.reachable_of_runFrom hrun) hstep hcode
        (List.mem_cons_self ..) .sensorData hinactive
      rw [hqueued] at hempty
      contradiction

/-! ## Frames of active groups -/

section Kept

variable {lib : JsonLibrary} {samples : Samples} {cfg : Config} {cameraFile : Option Bytes}
  {source : SimDataSource} {history : List Response} {state : SerialState}

/-- A command keeps the queue of a group that is active after it, unless it is a
departure that leaves nobody subscribed and drains all queues. -/
theorem active_queue_kept
    (hreach : (serialService lib samples cfg cameraFile source).Reachable history state)
    (q : Request) (g : DataGroup)
    (hactive : (q.after lib state.service).channels.groupActive g = true) :
    (q.after lib state.service).pipeline.queues g = state.service.pipeline.queues g ∨
      q.Departs state.service ∧
        (∀ client, (q.after lib state.service).channels.subscriptions client = ∅) ∧
        ∀ other, ((q.after lib state.service).pipeline.queues other).isEmpty = true := by
  have hsound := sound_of_reaches hreach
  cases houtcome : q.outcome lib state.service with
  | error what => exact .inl (by rw [Request.after_of_thrown houtcome])
  | ok r =>
      cases CommandEffect.of_handled (Request.handled_of_outcome houtcome) with
      | quiet _ hpipeline => exact .inl (by rw [hpipeline])
      | subscribes _ hpipeline => exact .inl (by rw [hpipeline])
      | forces _ _ hpipeline => exact .inl (by rw [hpipeline])
      | unforces t hchannels hpipeline =>
          left
          rw [hpipeline]
          split
          next => rfl
          next hgroup =>
            have hne : g ≠ dataTypeToGroup t := by
              rintro rfl
              exact hgroup hactive
            rw [DataPipeline.drainGroup_queues, if_neg hne]
      | departs hdeparture =>
          cases hany : (q.after lib state.service).channels.anySubscriber with
          | true =>
              left
              rw [hdeparture.pipeline, hany]
              rfl
          | false =>
              refine .inr ⟨hdeparture.departs, fun client => ?_,
                hdeparture.isEmpty_of_drained hsound.words hany⟩
              by_contra hsome
              have htrue := (hdeparture.exact hsound.exact).anySubscriber_iff.mpr ⟨client, hsome⟩
              rw [hany] at htrue
              contradiction

end Kept

/-- A type is forced active, and a client that captures another type of its group
stops. -/
def stopWhileForced : List SerialAction :=
  [.command ⟨lit "activate_channel", typeBody "temperature", lit "B"⟩, .command (connectBy "A"),
    .command (startBy "A" "imu"), .tick 0 0]

theorem startMagnetometer_keeps :
    ∃ state history, defaultService.runFrom defaultService.init stopWhileForced =
        some (state, history) ∧
      (((startBy "A" "magnetometer").after .plain state.service).pipeline.queues .sensorData =
          state.service.pipeline.queues .sensorData ∨
        (startBy "A" "magnetometer").Departs state.service ∧
          (∀ client, ((startBy "A" "magnetometer").after .plain
            state.service).channels.subscriptions client = ∅) ∧
          ∀ other, (((startBy "A" "magnetometer").after .plain
            state.service).pipeline.queues other).isEmpty = true) := by
  have hruns : (defaultService.runFrom defaultService.init stopWhileForced).map
      (fun result => ((startBy "A" "magnetometer").after .plain
        result.1.service).channels.groupActive .sensorData) = some true := by
    decide +kernel
  obtain ⟨⟨state, history⟩, hrun, hactive⟩ := Option.map_eq_some_iff.mp hruns
  exact ⟨state, history, hrun, active_queue_kept (Machine.reachable_of_runFrom hrun)
    (startBy "A" "magnetometer") .sensorData hactive⟩

/-- The last subscriber's stop discards the frame of a group that a force flag
keeps active. -/
theorem stopWhileForced_discards :
    ¬ ∀ (lib : JsonLibrary), lib.ConvertsStrings →
      ∀ (samples : Samples) (cfg : Config) (cameraFile : Option Bytes) (source : SimDataSource)
        (history : List Response) (state : SerialState) (q : Request) (g : DataGroup),
        (serialService lib samples cfg cameraFile source).Reachable history state →
        (q.after lib state.service).channels.groupActive g = true →
        (q.after lib state.service).pipeline.queues g = state.service.pipeline.queues g := by
  intro hclaim
  have hruns : (defaultService.runFrom defaultService.init stopWhileForced).map
      (fun result => (((stopBy "A" "imu").after .plain result.1.service).channels.groupActive
          .sensorData,
        (((stopBy "A" "imu").after .plain result.1.service).pipeline.queues .sensorData).tail,
        (result.1.service.pipeline.queues .sensorData).tail)) = some (true, 1, 0) := by
    decide +kernel
  obtain ⟨⟨state, history⟩, hrun, hview⟩ := Option.map_eq_some_iff.mp hruns
  simp only [Prod.mk.injEq] at hview
  obtain ⟨hactive, hafter, hbefore⟩ := hview
  have hsame := hclaim .plain JsonLibrary.plain_convertsStrings zeroSamples {} none {} history state
    (stopBy "A" "imu") .sensorData (Machine.reachable_of_runFrom hrun) hactive
  rw [hsame, hbefore] at hafter
  contradiction

end SimVision
