import SimVision.Capture.CaptureEngine
import SimVision.Data.DataPipeline
import SimVision.Data.DataPublisher
import SimVision.Foundation.Machine

/-! # The way of a frame

The capture loop pushes, one iteration of the publisher takes everything that is
queued and sends it, and drains discard. Each of these is one step here. An
exception in either thread ends the process, so it ends the run.
-/

namespace SimVision

open Foundation

/-! ## The publisher thread -/

/-- What a call of `send_multipart` reads of the clock, and whether each of its
sends would succeed. -/
structure SendReads where
  secClock : Int
  nsecClock : Int
  succeeds : Nat → Bool

/-- The three PUB sockets and the counters. -/
structure Publisher where
  sockets : DataGroup → Socket := fun _ => {}
  stats : PublisherStats := {}

namespace Publisher

variable (lib : JsonLibrary) (pubId : Bytes)

/-- `send_group`: the socket is that of the frame's group. -/
def sendGroup (p : Publisher) (frame : ChannelFrame) (reads : SendReads) :
    Except Bytes Publisher :=
  (sendMultipart lib pubId
    { frame := frame
      secClock := reads.secClock
      nsecClock := reads.nsecClock
      succeeds := reads.succeeds } (p.sockets frame.group) p.stats).map fun result =>
    { sockets := Function.update p.sockets frame.group result.1, stats := result.2.1 }

/-- The loop over the frames of one batch, which skips null pointers. -/
def sendFrames : Publisher → (Nat → SendReads) → List (Option ChannelFrame) →
    Except Bytes Publisher
  | p, _, [] => .ok p
  | p, sends, none :: rest => sendFrames p sends rest
  | p, sends, some frame :: rest =>
      match sendGroup lib pubId p frame (sends 0) with
      | .error what => .error what
      | .ok next => sendFrames next (fun k => sends (k + 1)) rest

/-- The body of the loop after `pop_all` has returned. -/
def sendPopped (p : Publisher) (sends : Nat → SendReads) :
    DataPipeline ChannelFrame × List (Option ChannelFrame) × Bool →
      Except Bytes (DataPipeline ChannelFrame × Publisher)
  | (left, frames, got) =>
      if got then (sendFrames lib pubId p sends frames).map (Prod.mk left) else .ok (left, p)

/-- One iteration of `run`. -/
def runOnce (p : Publisher) (sends : Nat → SendReads) (pipeline : DataPipeline ChannelFrame) :
    Except Bytes (DataPipeline ChannelFrame × Publisher) :=
  p.sendPopped lib pubId sends pipeline.popAll

theorem sendPopped_left {lib : JsonLibrary} {pubId : Bytes} {p sent : Publisher}
    {sends : Nat → SendReads}
    {popped : DataPipeline ChannelFrame × List (Option ChannelFrame) × Bool}
    {left : DataPipeline ChannelFrame}
    (hrun : p.sendPopped lib pubId sends popped = .ok (left, sent)) : left = popped.1 := by
  obtain ⟨rest, frames, got⟩ := popped
  simp only [sendPopped] at hrun
  split at hrun
  next =>
    cases hsent : p.sendFrames lib pubId sends frames with
    | error what =>
        rw [hsent] at hrun
        contradiction
    | ok result =>
        rw [hsent] at hrun
        exact (Prod.mk.inj (Except.ok.inj hrun)).1.symm
  next => exact (Prod.mk.inj (Except.ok.inj hrun)).1.symm

end Publisher

/-! ## The pushes of a tick -/

/-- The pushes of one tick in order, with what each returned. `build_frame` has
set the group of a frame to the group whose queue it is pushed to. -/
def DataPipeline.pushFrames (p : DataPipeline ChannelFrame) :
    List ChannelFrame → DataPipeline ChannelFrame × List (ChannelFrame × Bool)
  | [] => (p, [])
  | frame :: rest =>
      let (next, ok) := p.push frame.group frame
      let (final, later) := next.pushFrames rest
      (final, (frame, ok) :: later)

theorem CaptureEngine.buildFrame_ok {samples : Samples} {group : DataGroup} {tsSec tsNsec : Int}
    {frameIndex : Nat} {pubId : Bytes} {isActive : DataType → Bool} {depthMode : Option Parameter}
    {source : SimDataSource} {frame : ChannelFrame}
    (hbuild : (buildFrame samples group tsSec tsNsec frameIndex pubId isActive depthMode source).2 =
      .ok frame) :
    frame.group = group ∧ frame.frameIndex = frameIndex ∧ frame.pairId = frameIndex := by
  unfold buildFrame at hbuild
  cases hbundles : (buildBundles samples tsSec tsNsec frameIndex (depthModeOf depthMode) isActive
      source (groupMembers group)).2 with
  | error what =>
      simp only [Prod.map_snd, hbundles] at hbuild
      contradiction
  | ok bundles =>
      simp only [Prod.map_snd, hbundles] at hbuild
      obtain rfl := Except.ok.inj hbuild
      exact ⟨rfl, rfl, rfl⟩

/-- A frame as a tick builds it. -/
structure ChannelFrame.BuiltBy (frame : ChannelFrame) (reads : TickReads) (frameIndex : Nat) :
    Prop where
  active : reads.groupActive frame.group = true
  frameIndex_eq : frame.frameIndex = frameIndex
  pairId_eq : frame.pairId = frameIndex

/-- The frames of a tick are of active groups, at most one for each group and in
the order of the groups. -/
theorem CaptureEngine.tick_frames (samples : Samples) (reads : TickReads) (s : CaptureState) :
    (∀ frame ∈ (tick samples reads s).1, frame.BuiltBy reads s.frameIndex) ∧
      ((tick samples reads s).1.map ChannelFrame.group).Sublist tickOrder := by
  have hgroups : ∀ (groups : List DataGroup) (source : SimDataSource),
      (∀ frame ∈ (tickGroups samples reads s.frameIndex source groups).1,
        frame.BuiltBy reads s.frameIndex) ∧
      ((tickGroups samples reads s.frameIndex source groups).1.map ChannelFrame.group).Sublist
        groups := by
    intro groups
    induction groups with
    | nil => exact fun _ => ⟨by simp [tickGroups], List.nil_sublist _⟩
    | cons g rest ih =>
        intro source
        unfold tickGroups
        split
        next hactive =>
          split
          next => exact ⟨by simp, List.nil_sublist _⟩
          next next frame hbuild =>
            obtain ⟨hrest, hsub⟩ := ih next
            obtain ⟨hgroup, hindex, hpair⟩ := buildFrame_ok (congrArg Prod.snd hbuild)
            have hframe : frame.BuiltBy reads s.frameIndex := ⟨hgroup ▸ hactive, hindex, hpair⟩
            rw [Prod.map_fst]
            split
            next => exact ⟨hrest, hsub.cons g⟩
            next =>
              refine ⟨List.forall_mem_cons.mpr ⟨hframe, hrest⟩, ?_⟩
              rw [List.map_cons, hgroup]
              exact hsub.cons_cons g
        next =>
          obtain ⟨hrest, hsub⟩ := ih source
          exact ⟨hrest, hsub.cons g⟩
  exact hgroups tickOrder s.source

namespace DataPipeline

theorem Words.pushFrames {p : DataPipeline ChannelFrame} (hwords : p.Words)
    (frames : List ChannelFrame) : (p.pushFrames frames).1.Words := by
  induction frames generalizing p with
  | nil => exact hwords
  | cons frame rest ih => exact ih (hwords.push frame.group frame)

/-- Pushing frames of other groups leaves a queue alone. -/
theorem pushFrames_queues_of_ne (p : DataPipeline ChannelFrame) {frames : List ChannelFrame}
    {g : DataGroup} (hother : ∀ frame ∈ frames, frame.group ≠ g) :
    (p.pushFrames frames).1.queues g = p.queues g := by
  induction frames generalizing p with
  | nil => rfl
  | cons frame rest ih =>
      obtain ⟨hframe, hrest⟩ := List.forall_mem_cons.mp hother
      calc
        (p.pushFrames (frame :: rest)).1.queues g =
            (p.push frame.group frame).1.queues g := ih _ hrest
        _ = p.queues g := by rw [push_queues, if_neg hframe.symm]

end DataPipeline

/-! ## The machine -/

/-- The capture loop, the pipeline and the publisher. `ticks` counts the ticks
without wrapping; nothing reads it. -/
structure FlowState where
  capture : CaptureState
  pipeline : DataPipeline ChannelFrame
  publisher : Publisher := {}
  ticks : Nat := 0

inductive FlowAction where
  | tick (reads : TickReads)
  | publish (sends : Nat → SendReads)
  | drain
  | drainGroup (group : DataGroup)

/-- What happens to a frame: the tick that builds it pushes it, and later it is
handed to `send_multipart` or discarded. -/
inductive FlowEvent where
  | pushed (tick : Nat) (frame : ChannelFrame) (ok : Bool)
  | handed (frame : ChannelFrame)
  | discarded (frame : ChannelFrame)

/-- The frames that draining a group discards. -/
def DataPipeline.discards (p : DataPipeline ChannelFrame) (group : DataGroup) : List FlowEvent :=
  (p.queues group).popAll.2.reduceOption.map .discarded

/-- The state after an iteration of the publisher over the frames of a batch. -/
def FlowState.published (s : FlowState) (frames : List (Option ChannelFrame)) :
    Except Bytes (DataPipeline ChannelFrame × Publisher) → Option (FlowState × List FlowEvent)
  | .error _ => none
  | .ok (pipeline, publisher) =>
      some ({ s with pipeline := pipeline, publisher := publisher },
        frames.reduceOption.map .handed)

section Step

variable (lib : JsonLibrary) (pubId : Bytes) (samples : Samples)

def flowStep (s : FlowState) : FlowAction → Option (FlowState × List FlowEvent)
  | .tick reads =>
      match CaptureEngine.tick samples reads s.capture with
      | (_, .error _) => none
      | (frames, .ok capture) =>
          let (pipeline, pushes) := s.pipeline.pushFrames frames
          some ({ s with capture := capture, pipeline := pipeline, ticks := s.ticks + 1 },
            pushes.map fun push => .pushed s.ticks push.1 push.2)
  | .publish sends =>
      s.published s.pipeline.popAll.2.1 (s.publisher.runOnce lib pubId sends s.pipeline)
  | .drain =>
      some ({ s with pipeline := s.pipeline.drain }, popOrder.flatMap s.pipeline.discards)
  | .drainGroup group =>
      some ({ s with pipeline := s.pipeline.drainGroup group }, s.pipeline.discards group)

/-- One start of the engine over a source, with queues of the given capacity. -/
def frameFlow (source : SimDataSource) (queueCapacity : Nat) :
    Machine FlowState FlowAction FlowEvent where
  init := { capture := { source := source }, pipeline := .create queueCapacity }
  step := flowStep lib pubId samples

end Step

end SimVision
