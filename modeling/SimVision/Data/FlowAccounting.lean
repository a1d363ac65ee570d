import Mathlib.Data.List.Pairwise
import Mathlib.Data.List.ReduceOption
import SimVision.Capture.Timestamps
import SimVision.Data.FrameFlow
import SimVision.Foundation.Effect

/-! # Accounting for frames

Every frame that a queue accepts is handed to `send_multipart`, discarded by a
drain, or still queued, in the order of the ticks. A queue at rest is a window of
the frames it has accepted.
-/

namespace SimVision

open Foundation

/-! ## A queue at rest -/

namespace ChannelFrameQueue

variable {α : Type} {q : ChannelFrameQueue α} {accepted removed : List α}

/-- No call is in progress, and the slots between the counters hold what has been
accepted and not yet removed. -/
structure Holds (q : ChannelFrameQueue α) (accepted removed : List α) : Prop where
  capacity_pos : 0 < q.capacity
  head_eq : q.head = accepted.length
  head_lt : q.head < wordSize
  tail_eq : q.tail = removed.length
  removed_eq : removed = accepted.take removed.length
  head_le : q.head ≤ q.tail + q.capacity
  slots : ∀ k, q.tail ≤ k → k < q.head → q.load k = accepted[k]?

namespace Holds

theorem create (c : Nat) : (ChannelFrameQueue.create c : ChannelFrameQueue α).Holds [] [] where
  capacity_pos := create_capacity_pos c
  head_eq := rfl
  head_lt := by simp [wordSize]
  tail_eq := rfl
  removed_eq := rfl
  head_le := Nat.zero_le _
  slots := by simp

theorem length_le (hholds : q.Holds accepted removed) : removed.length ≤ accepted.length := by
  rw [hholds.removed_eq]
  exact List.length_take_le' _ _

theorem tail_le (hholds : q.Holds accepted removed) : q.tail ≤ q.head := by
  rw [hholds.tail_eq, hholds.head_eq]
  exact hholds.length_le

theorem size_eq (hholds : q.Holds accepted removed) :
    q.size = accepted.length - removed.length := by
  rw [size, wordSub_eq hholds.tail_le hholds.head_lt, hholds.tail_eq, hholds.head_eq]

/-- An accepted frame is the newest one. -/
theorem push (hholds : q.Holds accepted removed) (hroom : accepted.length + 1 < wordSize)
    {frame : α} (hok : (q.tryPush frame).2 = true) :
    (q.tryPush frame).1.Holds (accepted ++ [frame]) removed := by
  have hdistance := wordSub_eq hholds.tail_le hholds.head_lt
  unfold tryPush at hok ⊢
  split at hok
  next => contradiction
  next hfull =>
    rw [if_neg hfull]
    rw [hdistance] at hfull
    have htail := hholds.tail_le
    have hsucc : wordSucc q.head = q.head + 1 := by
      apply wordSucc_eq
      rw [hholds.head_eq]
      exact hroom
    refine ⟨hholds.capacity_pos, ?_, ?_, hholds.tail_eq, ?_, ?_, ?_⟩
    · dsimp only
      rw [hsucc, hholds.head_eq, List.length_append, List.length_singleton]
    · dsimp only
      rw [hsucc, hholds.head_eq]
      exact hroom
    · rw [List.take_append_of_le_length hholds.length_le]
      exact hholds.removed_eq
    · dsimp only [store_tail, store_capacity]
      omega
    · intro k hlow hhigh
      dsimp only [store_tail] at hlow hhigh
      rw [hsucc] at hhigh
      change (q.store q.head (some frame)).load k = _
      rcases Nat.lt_succ_iff_lt_or_eq.mp hhigh with hlt | rfl
      · have hslot : k % q.capacity ≠ q.head % q.capacity := by
          apply ringSlot_ne q.tail (Nat.ne_of_lt hlt)
          · omega
          · omega
        rw [load_store_of_ne _ _ hslot, hholds.slots k hlow hlt,
          List.getElem?_append_left (by rw [← hholds.head_eq]; exact hlt)]
      · rw [load_store_self, hholds.head_eq, List.getElem?_concat_length]

/-- A refused frame leaves the queue as it was. -/
theorem refuse (hholds : q.Holds accepted removed) {frame : α}
    (hok : (q.tryPush frame).2 = false) : (q.tryPush frame).1.Holds accepted removed := by
  unfold tryPush at hok ⊢
  split at hok
  next hfull =>
    rw [if_pos hfull]
    exact ⟨hholds.capacity_pos, hholds.head_eq, hholds.head_lt, hholds.tail_eq,
      hholds.removed_eq, hholds.head_le, hholds.slots⟩
  next => contradiction

/-- A pop takes the oldest frame. -/
theorem pop (hholds : q.Holds accepted removed) {frame : α} {rest : List α}
    (hqueued : accepted.drop removed.length = frame :: rest) :
    q.tryPop.2 = some (some frame) ∧ q.tryPop.1.Holds accepted (removed ++ [frame]) := by
  have hlength := congrArg List.length hqueued
  rw [List.length_drop, List.length_cons] at hlength
  have hframe : accepted[removed.length]? = some frame := by
    rw [← List.head?_drop, hqueued]
    rfl
  have hlt : q.tail < q.head := by
    rw [hholds.tail_eq, hholds.head_eq]
    omega
  have hload : q.load q.tail = some frame := by
    rw [hholds.slots q.tail (Nat.le_refl _) hlt, hholds.tail_eq]
    exact hframe
  have hsucc : wordSucc q.tail = q.tail + 1 :=
    wordSucc_eq (Nat.lt_of_le_of_lt hlt hholds.head_lt)
  have hpop : q.tryPop =
      ({ q.store q.tail none with tail := q.tail + 1 }, some (some frame)) := by
    rw [tryPop, if_neg (Nat.ne_of_gt hlt), hload, hsucc]
  rw [hpop]
  refine ⟨rfl, hholds.capacity_pos, hholds.head_eq, hholds.head_lt, ?_, ?_, ?_, ?_⟩
  · simp [hholds.tail_eq]
  · rw [List.length_append, List.length_singleton, List.take_add_one, hframe,
      ← hholds.removed_eq]
    rfl
  · have hbound := hholds.head_le
    dsimp only [store_head, store_capacity]
    omega
  · intro k hlow hhigh
    dsimp only [store_head] at hlow hhigh
    change (q.store q.tail none).load k = _
    have hbound := hholds.head_le
    have hslot : k % q.capacity ≠ q.tail % q.capacity := by
      apply ringSlot_ne q.tail (Nat.ne_of_gt hlow)
      · omega
      · omega
    rw [load_store_of_ne _ _ hslot]
    exact hholds.slots k (by omega) hhigh

theorem popRounds {rounds : Nat} (hholds : q.Holds accepted removed)
    (hrounds : rounds ≤ accepted.length - removed.length) :
    (q.popRounds rounds).2 = ((accepted.drop removed.length).take rounds).map some ∧
      (q.popRounds rounds).1.Holds accepted
        (removed ++ (accepted.drop removed.length).take rounds) := by
  induction rounds generalizing q removed with
  | zero =>
      rw [ChannelFrameQueue.popRounds, List.take_zero, List.append_nil]
      exact ⟨rfl, hholds⟩
  | succ rounds ih =>
      cases hqueued : accepted.drop removed.length with
      | nil =>
          have hnone := List.drop_eq_nil_iff.mp hqueued
          omega
      | cons frame rest =>
          obtain ⟨hout, hnext⟩ := hholds.pop hqueued
          have hrest : accepted.drop (removed ++ [frame]).length = rest := by
            rw [List.length_append, List.length_singleton, ← List.drop_drop, hqueued]
            rfl
          have hbound : rounds ≤ accepted.length - (removed ++ [frame]).length := by
            rw [List.length_append, List.length_singleton]
            omega
          obtain ⟨hlater, hfinal⟩ := ih hnext hbound
          rw [hrest] at hlater hfinal
          have hpop : q.tryPop = (q.tryPop.1, some (some frame)) := Prod.ext rfl hout
          unfold ChannelFrameQueue.popRounds
          rw [hpop]
          dsimp only
          rw [hlater]
          refine ⟨rfl, ?_⟩
          rw [List.append_assoc] at hfinal
          exact hfinal

/-- Popping until `try_pop` returns false takes everything that is queued. -/
theorem popAll (hholds : q.Holds accepted removed) :
    q.popAll.2 = (accepted.drop removed.length).map some ∧ q.popAll.1.Holds accepted accepted := by
  have hsize : q.size = (accepted.drop removed.length).length := by
    rw [hholds.size_eq, List.length_drop]
  obtain ⟨hout, hfinal⟩ := hholds.popRounds (Nat.le_of_eq hholds.size_eq)
  have hall : removed ++ accepted.drop removed.length = accepted := by
    conv_lhs => rw [hholds.removed_eq]
    rw [List.length_take, Nat.min_eq_left hholds.length_le]
    exact List.take_append_drop _ _
  rw [hsize, List.take_length] at hout hfinal
  rw [hall] at hfinal
  rw [ChannelFrameQueue.popAll, hsize]
  exact ⟨hout, hfinal⟩

theorem words (hholds : q.Holds accepted removed) : q.Words where
  head_lt := hholds.head_lt
  tail_lt := Nat.lt_of_le_of_lt hholds.tail_le hholds.head_lt

end Holds

end ChannelFrameQueue

/-! ## What a history says of a group -/

namespace FlowEvent

/-- The frame of an accepted push. -/
def accepted? : FlowEvent → Option ChannelFrame
  | .pushed _ frame true => some frame
  | _ => none

def handed? : FlowEvent → Option ChannelFrame
  | .handed frame => some frame
  | _ => none

def discarded? : FlowEvent → Option ChannelFrame
  | .discarded frame => some frame
  | _ => none

/-- The frame taken out of its queue, whichever way. -/
def removed? : FlowEvent → Option ChannelFrame
  | .handed frame => some frame
  | .discarded frame => some frame
  | .pushed _ _ _ => none

end FlowEvent

/-- The frames of a group among those that the events select. -/
def framesOn (select : FlowEvent → Option ChannelFrame) (g : DataGroup)
    (history : List FlowEvent) : List ChannelFrame :=
  (history.filterMap select).filter fun frame => frame.group = g

section FramesOn

variable {select : FlowEvent → Option ChannelFrame} {g : DataGroup}

@[simp] theorem framesOn_nil : framesOn select g [] = [] := rfl

@[simp] theorem framesOn_append (first second : List FlowEvent) :
    framesOn select g (first ++ second) = framesOn select g first ++ framesOn select g second := by
  simp only [framesOn, List.filterMap_append, List.filter_append]

theorem framesOn_cons (event : FlowEvent) (rest : List FlowEvent) :
    framesOn select g (event :: rest) =
      ((select event).toList.filter fun frame => frame.group = g) ++ framesOn select g rest := by
  rw [← List.singleton_append, framesOn_append]
  congr 1

theorem framesOn_eq_nil {history : List FlowEvent}
    (hnone : ∀ event ∈ history, select event = none) :
    framesOn select g history = [] := by
  rw [framesOn, List.filterMap_eq_nil_iff.mpr hnone, List.filter_nil]

/-- Events made of frames, each of which is selected. -/
theorem framesOn_map {make : ChannelFrame → FlowEvent}
    (hmake : ∀ frame, select (make frame) = some frame)
    (frames : List ChannelFrame) :
    framesOn select g (frames.map make) = frames.filter fun frame => frame.group = g := by
  rw [framesOn, List.filterMap_map]
  congr 1
  have hsome : select ∘ make = some := funext hmake
  rw [hsome, List.filterMap_some]

theorem handedOn_sublist (history : List FlowEvent) :
    (framesOn FlowEvent.handed? g history).Sublist (framesOn FlowEvent.removed? g history) := by
  induction history with
  | nil => exact .slnil
  | cons event rest ih =>
      rw [framesOn_cons, framesOn_cons]
      apply List.Sublist.append _ ih
      cases event with
      | discarded frame => exact List.nil_sublist _
      | _ => exact .refl _

/-- A frame that has left its queue was handed over or discarded. -/
theorem removedOn_length (history : List FlowEvent) :
    (framesOn FlowEvent.removed? g history).length =
      (framesOn FlowEvent.handed? g history).length +
        (framesOn FlowEvent.discarded? g history).length := by
  induction history with
  | nil => rfl
  | cons event rest ih =>
      simp only [framesOn_cons, List.length_append, ih]
      cases event with
      | pushed tick frame ok =>
          simp only [FlowEvent.removed?, FlowEvent.handed?, FlowEvent.discarded?,
            Option.toList_none, List.filter_nil, List.length_nil]
          omega
      | handed frame =>
          simp only [FlowEvent.removed?, FlowEvent.handed?, FlowEvent.discarded?,
            Option.toList_none, List.filter_nil, List.length_nil]
          omega
      | discarded frame =>
          simp only [FlowEvent.removed?, FlowEvent.handed?, FlowEvent.discarded?,
            Option.toList_none, List.filter_nil, List.length_nil]
          omega

end FramesOn

/-! ## The pushes of a tick -/

namespace DataPipeline

/-- The events of the pushes of a tick. -/
def pushEvents (tick : Nat) (pushes : List (ChannelFrame × Bool)) : List FlowEvent :=
  pushes.map fun push => .pushed tick push.1 push.2

theorem pushEvents_cons (tick : Nat) (push : ChannelFrame × Bool)
    (rest : List (ChannelFrame × Bool)) :
    pushEvents tick (push :: rest) = .pushed tick push.1 push.2 :: pushEvents tick rest := rfl

/-- A queue takes in what is accepted of the frames of its group. -/
theorem pushFrames_holds {p : DataPipeline ChannelFrame} {g : DataGroup}
    {accepted removed : List ChannelFrame} (hholds : (p.queues g).Holds accepted removed)
    (tick : Nat) {frames : List ChannelFrame}
    (hroom : accepted.length + frames.countP (fun frame => frame.group = g) < wordSize) :
    ((p.pushFrames frames).1.queues g).Holds
      (accepted ++ framesOn FlowEvent.accepted? g (pushEvents tick (p.pushFrames frames).2))
        removed := by
  induction frames generalizing p accepted with
  | nil => simpa [pushFrames, pushEvents] using hholds
  | cons frame rest ih =>
      rw [List.countP_cons] at hroom
      simp only [pushFrames, pushEvents_cons, framesOn_cons]
      cases hok : (p.push frame.group frame).2 with
      | false =>
          have hkept : ((p.push frame.group frame).1.queues g).Holds accepted removed := by
            rw [push_queues]
            split
            next hgroup =>
              subst hgroup
              exact hholds.refuse hok
            next => exact hholds
          exact ih hkept (by omega)
      | true =>
          by_cases hgroup : g = frame.group
          · have hnext : ((p.push frame.group frame).1.queues g).Holds (accepted ++ [frame])
                removed := by
              rw [push_queues, if_pos hgroup]
              subst hgroup
              apply hholds.push _ hok
              simp only [decide_true, if_true] at hroom
              omega
            have hlength : (accepted ++ [frame]).length = accepted.length + 1 := by
              rw [List.length_append, List.length_singleton]
            simp only [hgroup, decide_true, if_true] at hroom
            have hfinal := ih hnext (by rw [hlength, hgroup]; omega)
            rw [List.append_assoc] at hfinal
            simpa [FlowEvent.accepted?, hgroup] using hfinal
          · have hkept : ((p.push frame.group frame).1.queues g).Holds accepted removed := by
              rw [push_queues, if_neg hgroup]
              exact hholds
            have hfinal := ih hkept (by omega)
            simpa [FlowEvent.accepted?, Ne.symm hgroup] using hfinal

theorem mem_of_pushFrames (p : DataPipeline ChannelFrame) {frames : List ChannelFrame}
    {push : ChannelFrame × Bool} (hpush : push ∈ (p.pushFrames frames).2) : push.1 ∈ frames := by
  induction frames generalizing p with
  | nil => simp [pushFrames] at hpush
  | cons frame rest ih =>
      simp only [pushFrames] at hpush
      rcases List.mem_cons.mp hpush with rfl | hpush
      · exact List.mem_cons_self
      · exact List.mem_cons_of_mem _ (ih _ hpush)

theorem acceptedOn_sublist (p : DataPipeline ChannelFrame) (g : DataGroup) (tick : Nat)
    (frames : List ChannelFrame) :
    (framesOn FlowEvent.accepted? g (pushEvents tick (p.pushFrames frames).2)).Sublist
      (frames.filter fun frame => frame.group = g) := by
  induction frames generalizing p with
  | nil => exact .slnil
  | cons frame rest ih =>
      simp only [pushFrames, pushEvents_cons, framesOn_cons]
      have hfirst : [frame].filter (fun frame => frame.group = g) ++
          rest.filter (fun frame => frame.group = g) =
            (frame :: rest).filter fun frame => frame.group = g := by
        rw [← List.filter_append]
        rfl
      rw [← hfirst]
      apply List.Sublist.append _ (ih _)
      cases (p.push frame.group frame).2 with
      | false => exact List.nil_sublist _
      | true => exact .refl _

end DataPipeline

/-! ## Counting what is sent -/

/-- The frames that the counters of the publisher account for. -/
def PublisherStats.total (stats : PublisherStats) : Nat :=
  stats.sent2D + stats.sent3D + stats.sentSensor + stats.droppedHwm

theorem PublisherStats.countSent_total {stats : PublisherStats} (g : DataGroup)
    (hroom : stats.total + 1 < wordSize) : (stats.countSent g).total = stats.total + 1 := by
  unfold total at hroom ⊢
  cases g with
  | visual2D =>
      simp only [countSent]
      rw [wordSucc_eq (by omega)]
      omega
  | visual3D =>
      simp only [countSent]
      rw [wordSucc_eq (by omega)]
      omega
  | sensorData =>
      simp only [countSent]
      rw [wordSucc_eq (by omega)]
      omega

theorem PublisherStats.countDropped_total {stats : PublisherStats}
    (hroom : stats.total + 1 < wordSize) : stats.countDropped.total = stats.total + 1 := by
  unfold total at hroom ⊢
  simp only [countDropped]
  rw [wordSucc_eq (by omega)]
  omega

/-- Every call that returns counts its frame once. -/
theorem sendMultipart_total {lib : JsonLibrary} {pubId : Bytes} {call : PublishCall}
    {sock final : Socket} {stats counted : PublisherStats} {ok : Bool}
    (hsent : sendMultipart lib pubId call sock stats = .ok (final, counted, ok))
    (hroom : stats.total + 1 < wordSize) : counted.total = stats.total + 1 := by
  unfold sendMultipart at hsent
  split at hsent
  next => contradiction
  next =>
    split at hsent
    next =>
      dsimp only at hsent
      split at hsent
      next =>
        cases hsent
        exact PublisherStats.countSent_total _ hroom
      next =>
        cases hsent
        exact PublisherStats.countDropped_total hroom
    next =>
      cases hsent
      exact PublisherStats.countDropped_total hroom

namespace Publisher

variable {lib : JsonLibrary} {pubId : Bytes} {p sent : Publisher}

theorem sendGroup_total {frame : ChannelFrame} {reads : SendReads}
    (hsent : p.sendGroup lib pubId frame reads = .ok sent)
    (hroom : p.stats.total + 1 < wordSize) : sent.stats.total = p.stats.total + 1 := by
  unfold sendGroup at hsent
  obtain ⟨⟨final, counted, ok⟩, hcall, heq⟩ := map_eq_ok.mp hsent
  cases heq
  exact sendMultipart_total hcall hroom

theorem sendFrames_total {sends : Nat → SendReads} {frames : List (Option ChannelFrame)}
    (hsent : p.sendFrames lib pubId sends frames = .ok sent)
    (hroom : p.stats.total + frames.reduceOption.length < wordSize) :
    sent.stats.total = p.stats.total + frames.reduceOption.length := by
  induction frames generalizing p sends with
  | nil =>
      cases hsent
      rfl
  | cons frame rest ih =>
      cases frame with
      | none =>
          rw [List.reduceOption_cons_of_none] at hroom ⊢
          exact ih hsent hroom
      | some frame =>
          rw [List.reduceOption_cons_of_some, List.length_cons] at hroom ⊢
          unfold sendFrames at hsent
          split at hsent
          next => contradiction
          next next hfirst =>
            have hnext := sendGroup_total hfirst (by omega)
            rw [ih hsent (by omega), hnext]
            omega

/-- An iteration counts every frame of its batch once. -/
theorem sendPopped_total {sends : Nat → SendReads}
    {popped : DataPipeline ChannelFrame × List (Option ChannelFrame) × Bool}
    {left : DataPipeline ChannelFrame} (hgot : popped.2.2 = !popped.2.1.isEmpty)
    (hrun : p.sendPopped lib pubId sends popped = .ok (left, sent))
    (hroom : p.stats.total + popped.2.1.reduceOption.length < wordSize) :
    sent.stats.total = p.stats.total + popped.2.1.reduceOption.length := by
  obtain ⟨rest, frames, got⟩ := popped
  simp only [sendPopped] at hrun
  split at hrun
  next =>
    obtain ⟨result, hframes, heq⟩ := map_eq_ok.mp hrun
    cases heq
    exact sendFrames_total hframes hroom
  next hnothing =>
    cases hrun
    have hempty : frames = [] := by
      dsimp only at hgot
      rw [hgot, Bool.not_eq_true, Bool.not_eq_false'] at hnothing
      exact List.isEmpty_iff.mp hnothing
    rw [hempty]
    rfl

end Publisher

theorem CaptureEngine.tick_frameIndex (samples : Samples) (reads : TickReads) (s : CaptureState) :
    ∀ next, (tick samples reads s).2 = .ok next → next.frameIndex = wordSucc s.frameIndex := by
  intro next hnext
  simp only [tick, Prod.map_snd] at hnext
  obtain ⟨source, _, rfl⟩ := map_eq_ok.mp hnext
  rfl

/-! ## Steps of the flow -/

/-- What a step of the flow does. -/
inductive FlowStep (s next : FlowState) (events : List FlowEvent) : FlowAction → Prop where
  | tick {reads : TickReads} {frames : List ChannelFrame}
      (hframes : ∀ frame ∈ frames, frame.BuiltBy reads s.capture.frameIndex)
      (hgroups : (frames.map ChannelFrame.group).Sublist CaptureEngine.tickOrder)
      (hindex : next.capture.frameIndex = wordSucc s.capture.frameIndex)
      (hticks : next.ticks = s.ticks + 1)
      (hpipeline : next.pipeline = (s.pipeline.pushFrames frames).1)
      (hpublisher : next.publisher = s.publisher)
      (hevents : events = DataPipeline.pushEvents s.ticks (s.pipeline.pushFrames frames).2) :
      FlowStep s next events (.tick reads)
  | publish {sends : Nat → SendReads}
      (hcapture : next.capture = s.capture) (hticks : next.ticks = s.ticks)
      (hpipeline : next.pipeline = s.pipeline.popAll.1)
      (hevents : events = s.pipeline.popAll.2.1.reduceOption.map .handed)
      (hcount : s.publisher.stats.total + events.length < wordSize →
        next.publisher.stats.total = s.publisher.stats.total + events.length) :
      FlowStep s next events (.publish sends)
  | drain (hcapture : next.capture = s.capture) (hticks : next.ticks = s.ticks)
      (hpipeline : next.pipeline = s.pipeline.drain) (hpublisher : next.publisher = s.publisher)
      (hevents : events = popOrder.flatMap s.pipeline.discards) : FlowStep s next events .drain
  | drainGroup {group : DataGroup} (hcapture : next.capture = s.capture)
      (hticks : next.ticks = s.ticks) (hpipeline : next.pipeline = s.pipeline.drainGroup group)
      (hpublisher : next.publisher = s.publisher) (hevents : events = s.pipeline.discards group) :
      FlowStep s next events (.drainGroup group)

theorem FlowStep.of_flowStep {lib : JsonLibrary} {pubId : Bytes} {samples : Samples}
    {s next : FlowState} {action : FlowAction} {events : List FlowEvent}
    (hstep : flowStep lib pubId samples s action = some (next, events)) :
    FlowStep s next events action := by
  cases action with
  | tick reads =>
      obtain ⟨hframes, hgroups⟩ := CaptureEngine.tick_frames samples reads s.capture
      have hindex := CaptureEngine.tick_frameIndex samples reads s.capture
      simp only [flowStep] at hstep
      generalize CaptureEngine.tick samples reads s.capture = ticked at hstep hframes hgroups hindex
      obtain ⟨frames, outcome⟩ := ticked
      cases outcome with
      | error what => contradiction
      | ok capture =>
          cases hstep
          exact .tick hframes hgroups (hindex capture rfl) rfl rfl rfl rfl
  | publish sends =>
      obtain ⟨_, _, hgot⟩ := s.pipeline.popAll_once
      simp only [flowStep] at hstep
      generalize hrun : s.publisher.runOnce lib pubId sends s.pipeline = result at hstep
      cases result with
      | error what => contradiction
      | ok sent =>
          obtain ⟨left, publisher⟩ := sent
          cases hstep
          refine .publish rfl rfl (Publisher.sendPopped_left hrun) rfl ?_
          rw [List.length_map]
          exact Publisher.sendPopped_total hgot hrun
  | drain =>
      cases hstep
      exact .drain rfl rfl rfl rfl rfl
  | drainGroup group =>
      cases hstep
      exact .drainGroup rfl rfl rfl rfl rfl

/-! ## The account of a group -/

/-- What has become of the frames of a group: the queue is a window of those it
has accepted, which come from different ticks. -/
structure Account (g : DataGroup) (history : List FlowEvent) (s : FlowState) : Prop where
  holds : (s.pipeline.queues g).Holds (framesOn FlowEvent.accepted? g history)
    (framesOn FlowEvent.removed? g history)
  increasing : (framesOn FlowEvent.accepted? g history).Pairwise fun first second =>
    first.frameIndex < second.frameIndex
  length_le : (framesOn FlowEvent.accepted? g history).length ≤ s.ticks

/-- The frames of a group that are still queued. -/
def queuedOn (g : DataGroup) (history : List FlowEvent) : List ChannelFrame :=
  (framesOn FlowEvent.accepted? g history).drop (framesOn FlowEvent.removed? g history).length

theorem group_of_mem_queuedOn {g : DataGroup} {history : List FlowEvent} {frame : ChannelFrame}
    (hframe : frame ∈ queuedOn g history) : frame.group = g :=
  of_decide_eq_true (List.mem_filter.mp (List.mem_of_mem_drop hframe)).2

/-- The frames of one group among those of several, one after another. -/
theorem filter_groups {queued : DataGroup → List ChannelFrame}
    (hgroup : ∀ g, ∀ frame ∈ queued g, frame.group = g) {groups : List DataGroup}
    (hnodup : groups.Nodup) (g : DataGroup) :
    ((groups.flatMap queued).filter fun frame => frame.group = g) =
      if g ∈ groups then queued g else [] := by
  induction groups with
  | nil => rfl
  | cons first rest ih =>
      obtain ⟨hfresh, hrest⟩ := List.nodup_cons.mp hnodup
      rw [List.flatMap_cons, List.filter_append, ih hrest]
      by_cases heq : first = g
      · subst heq
        have hall : ((queued first).filter fun frame => frame.group = first) = queued first := by
          rw [List.filter_eq_self]
          exact fun frame hframe => decide_eq_true (hgroup _ frame hframe)
        rw [hall, if_neg hfresh, if_pos List.mem_cons_self, List.append_nil]
      · have hnone : ((queued first).filter fun frame => frame.group = g) = [] := by
          rw [List.filter_eq_nil_iff]
          intro frame hframe hsame
          exact heq ((hgroup _ frame hframe).symm.trans (of_decide_eq_true hsame))
        rw [hnone, List.nil_append]
        congr 1
        rw [List.mem_cons, eq_iff_iff]
        constructor
        · exact .inr
        · exact fun hmem => hmem.resolve_left (Ne.symm heq)

namespace Account

variable {g : DataGroup} {history events : List FlowEvent} {s next : FlowState}

theorem popAll (haccount : Account g history s) :
    (s.pipeline.queues g).popAll.2 = (queuedOn g history).map some :=
  haccount.holds.popAll.1

/-- A step that takes out everything that is queued. -/
theorem emptied (haccount : Account g history s) (hticks : next.ticks = s.ticks)
    (hqueue : next.pipeline.queues g = (s.pipeline.queues g).popAll.1)
    (haccepted : framesOn FlowEvent.accepted? g events = [])
    (hremoved : framesOn FlowEvent.removed? g events = queuedOn g history) :
    Account g (history ++ events) next := by
  have hall : framesOn FlowEvent.removed? g history ++ queuedOn g history =
      framesOn FlowEvent.accepted? g history := by
    have hholds := haccount.holds
    rw [queuedOn]
    conv_lhs => rw [hholds.removed_eq]
    rw [List.length_take, Nat.min_eq_left hholds.length_le]
    exact List.take_append_drop _ _
  refine ⟨?_, ?_, ?_⟩
  · rw [framesOn_append, framesOn_append, haccepted, hremoved, List.append_nil, hall, hqueue]
    exact haccount.holds.popAll.2
  · rw [framesOn_append, haccepted, List.append_nil]
    exact haccount.increasing
  · rw [framesOn_append, haccepted, List.append_nil, hticks]
    exact haccount.length_le

/-- A step that does not touch the group. -/
theorem untouched (haccount : Account g history s) (hticks : next.ticks = s.ticks)
    (hqueue : next.pipeline.queues g = s.pipeline.queues g)
    (haccepted : framesOn FlowEvent.accepted? g events = [])
    (hremoved : framesOn FlowEvent.removed? g events = []) :
    Account g (history ++ events) next := by
  refine ⟨?_, ?_, ?_⟩
  · rw [framesOn_append, framesOn_append, haccepted, hremoved, List.append_nil, List.append_nil,
      hqueue]
    exact haccount.holds
  · rw [framesOn_append, haccepted, List.append_nil]
    exact haccount.increasing
  · rw [framesOn_append, haccepted, List.append_nil, hticks]
    exact haccount.length_le

/-- The pushes of a tick whose frames are younger than everything accepted. -/
theorem pushed (haccount : Account g history s) {frames : List ChannelFrame}
    (hgroups : (frames.map ChannelFrame.group).Sublist CaptureEngine.tickOrder)
    (hyoung : ∀ old ∈ framesOn FlowEvent.accepted? g history, ∀ frame ∈ frames,
      old.frameIndex < frame.frameIndex)
    (hticks : next.ticks = s.ticks + 1) (hbound : next.ticks < wordSize)
    (hpipeline : next.pipeline = (s.pipeline.pushFrames frames).1)
    (hevents : events = DataPipeline.pushEvents s.ticks (s.pipeline.pushFrames frames).2) :
    Account g (history ++ events) next := by
  have hone : frames.countP (fun frame => frame.group = g) ≤ 1 := by
    have hnodup : (frames.map ChannelFrame.group).Nodup := hgroups.nodup (by decide)
    have hcount := List.nodup_iff_count_le_one.mp hnodup g
    rw [List.count_eq_countP, List.countP_map] at hcount
    exact hcount
  have hsub := s.pipeline.acceptedOn_sublist g s.ticks frames
  have hremoved : framesOn FlowEvent.removed? g events = [] := by
    apply framesOn_eq_nil
    intro event hevent
    rw [hevents] at hevent
    obtain ⟨push, _, rfl⟩ := List.mem_map.mp hevent
    rfl
  have hlength := haccount.length_le
  rw [← hevents] at hsub
  have hnew : (framesOn FlowEvent.accepted? g events).length ≤ 1 := by
    rw [List.countP_eq_length_filter] at hone
    exact hsub.length_le.trans hone
  refine ⟨?_, ?_, ?_⟩
  · rw [framesOn_append, framesOn_append, hremoved, List.append_nil, hpipeline, hevents]
    exact DataPipeline.pushFrames_holds haccount.holds s.ticks (by omega)
  · rw [framesOn_append, List.pairwise_append]
    refine ⟨haccount.increasing, ?_, ?_⟩
    · generalize framesOn FlowEvent.accepted? g events = new at hnew
      cases new with
      | nil => exact .nil
      | cons frame rest =>
          cases rest with
          | nil => exact List.pairwise_singleton _ _
          | cons => simp at hnew
    · intro old hold frame hframe
      exact hyoung old hold frame (List.mem_filter.mp (hsub.subset hframe)).1
  · rw [framesOn_append, List.length_append]
    omega

end Account

/-! ## Accounts along a run -/

/-- The accounts of all groups, with the ticks that the pushed frames name. -/
structure FlowInv (history : List FlowEvent) (s : FlowState) : Prop where
  frameIndex : s.capture.frameIndex = s.ticks
  pushed : ∀ tick frame ok, FlowEvent.pushed tick frame ok ∈ history →
    tick < s.ticks ∧ frame.frameIndex = tick ∧ frame.pairId = tick
  account : ∀ g, Account g history s

theorem mem_acceptedOn {g : DataGroup} {history : List FlowEvent} {frame : ChannelFrame}
    (hframe : frame ∈ framesOn FlowEvent.accepted? g history) :
    ∃ tick, FlowEvent.pushed tick frame true ∈ history := by
  obtain ⟨event, hevent, hselect⟩ := List.mem_filterMap.mp (List.mem_filter.mp hframe).1
  cases event with
  | pushed tick pushed ok =>
      cases ok with
      | false => contradiction
      | true =>
          obtain rfl := Option.some.inj hselect
          exact ⟨tick, hevent⟩
  | handed frame => contradiction
  | discarded frame => contradiction

namespace FlowInv

variable {history events : List FlowEvent} {s next : FlowState} {action : FlowAction}

/-- A step that takes out everything queued in some groups. -/
private theorem taking (hinv : FlowInv history s) (hcapture : next.capture = s.capture)
    (hticks : next.ticks = s.ticks) {groups : List DataGroup} (hnodup : groups.Nodup)
    (hqueues : ∀ g, next.pipeline.queues g =
      if g ∈ groups then (s.pipeline.queues g).popAll.1 else s.pipeline.queues g)
    {make : ChannelFrame → FlowEvent}
    (hmake : ∀ frame, (make frame).removed? = some frame ∧ (make frame).accepted? = none)
    (hevents : events = (groups.flatMap fun g => queuedOn g history).map make) :
    FlowInv (history ++ events) next := by
  have haccepted : ∀ g, framesOn FlowEvent.accepted? g events = [] := by
    intro g
    apply framesOn_eq_nil
    intro event hevent
    rw [hevents] at hevent
    obtain ⟨frame, _, rfl⟩ := List.mem_map.mp hevent
    exact (hmake frame).2
  have hremoved : ∀ g, framesOn FlowEvent.removed? g events =
      if g ∈ groups then queuedOn g history else [] := by
    intro g
    rw [hevents, framesOn_map fun frame => (hmake frame).1]
    exact filter_groups (fun _ _ => group_of_mem_queuedOn) hnodup g
  refine ⟨?_, ?_, fun g => ?_⟩
  · rw [hcapture, hticks]
    exact hinv.frameIndex
  · intro tick frame ok hmem
    rcases List.mem_append.mp hmem with hmem | hmem
    · rw [hticks]
      exact hinv.pushed tick frame ok hmem
    · rw [hevents] at hmem
      obtain ⟨taken, _, heq⟩ := List.mem_map.mp hmem
      have hpushed := (hmake taken).1
      rw [heq] at hpushed
      contradiction
  · by_cases hmem : g ∈ groups
    · apply (hinv.account g).emptied hticks
      · rw [hqueues, if_pos hmem]
      · exact haccepted g
      · rw [hremoved, if_pos hmem]
    · apply (hinv.account g).untouched hticks
      · rw [hqueues, if_neg hmem]
      · exact haccepted g
      · rw [hremoved, if_neg hmem]

private theorem discards_eq (hinv : FlowInv history s) (g : DataGroup) :
    s.pipeline.discards g = (queuedOn g history).map .discarded := by
  rw [DataPipeline.discards, (hinv.account g).popAll]
  simp [List.reduceOption]

theorem step (hinv : FlowInv history s) (hstep : FlowStep s next events action)
    (hbound : next.ticks < wordSize) : FlowInv (history ++ events) next := by
  cases hstep with
  | @tick reads frames hframes hgroups hindex hticks hpipeline hpublisher hevents =>
      refine ⟨?_, ?_, fun g => ?_⟩
      · rw [hindex, hinv.frameIndex, hticks]
        exact wordSucc_eq (by omega)
      · intro tick frame ok hmem
        rcases List.mem_append.mp hmem with hmem | hmem
        · obtain ⟨htick, hframe⟩ := hinv.pushed tick frame ok hmem
          exact ⟨by omega, hframe⟩
        · rw [hevents] at hmem
          obtain ⟨push, hpush, heq⟩ := List.mem_map.mp hmem
          cases heq
          have hbuilt := hframes push.1 (s.pipeline.mem_of_pushFrames hpush)
          rw [hbuilt.pairId_eq, hbuilt.frameIndex_eq, hinv.frameIndex]
          exact ⟨by omega, rfl, rfl⟩
      · apply (hinv.account g).pushed hgroups _ hticks hbound hpipeline hevents
        intro old hold frame hframe
        obtain ⟨tick, htick⟩ := mem_acceptedOn hold
        obtain ⟨hlt, hindex, _⟩ := hinv.pushed tick old true htick
        rw [hindex, (hframes frame hframe).frameIndex_eq, hinv.frameIndex]
        exact hlt
  | publish hcapture hticks hpipeline hevents hcount =>
      obtain ⟨hqueues, hframes, _⟩ := s.pipeline.popAll_once
      have hqueued : s.pipeline.popAll.2.1.reduceOption =
          popOrder.flatMap fun g => queuedOn g history := by
        rw [hframes, List.flatMap_congr fun g _ => (hinv.account g).popAll, ← List.map_flatMap]
        simp [List.reduceOption]
      rw [hqueued] at hevents
      apply hinv.taking hcapture hticks DataPipeline.popOrder_nodup _ _ hevents
      · intro g
        rw [hpipeline, if_pos (DataPipeline.mem_popOrder g)]
        exact hqueues g
      · exact fun frame => ⟨rfl, rfl⟩
  | drain hcapture hticks hpipeline hpublisher hevents =>
      rw [List.flatMap_congr fun g _ => hinv.discards_eq g, ← List.map_flatMap] at hevents
      apply hinv.taking hcapture hticks DataPipeline.popOrder_nodup _ _ hevents
      · intro g
        rw [hpipeline, if_pos (DataPipeline.mem_popOrder g), DataPipeline.drain_queues,
          ChannelFrameQueue.clear_def]
      · exact fun frame => ⟨rfl, rfl⟩
  | @drainGroup group hcapture hticks hpipeline hpublisher hevents =>
      rw [hinv.discards_eq] at hevents
      apply hinv.taking hcapture hticks (List.nodup_singleton group) _ _ (by simpa using hevents)
      · intro g
        rw [hpipeline, DataPipeline.drainGroup_queues, ChannelFrameQueue.clear_def]
        simp only [List.mem_singleton]
        split
        next heq => rw [heq]
        next => rfl
      · exact fun frame => ⟨rfl, rfl⟩

end FlowInv

section Runs

variable {lib : JsonLibrary} {pubId : Bytes} {samples : Samples} {source : SimDataSource}
  {queueCapacity : Nat} {history : List FlowEvent} {s : FlowState}

theorem flowInv_of_reaches
    (hreach : (frameFlow lib pubId samples source queueCapacity).Reachable history s)
    (hticks : s.ticks < wordSize) : FlowInv history s := by
  have hinv : s.ticks < wordSize → FlowInv history s := by
    apply hreach.invariant fun history s => s.ticks < wordSize → FlowInv history s
    · intro _
      refine ⟨rfl, nofun, fun g => ⟨?_, .nil, Nat.zero_le _⟩⟩
      exact ChannelFrameQueue.Holds.create queueCapacity
    · intro history before action after events _ hbefore _ hstep hbound
      have hflow := FlowStep.of_flowStep hstep
      refine (hbefore ?_).step hflow hbound
      cases hflow with
      | tick _ _ _ hticks => omega
      | publish _ hticks => omega
      | drain _ hticks => omega
      | drainGroup _ hticks => omega
  exact hinv hticks

/-- The counters of the publisher count every frame handed over, as long as that
number is a value of their type. -/
theorem stats_total
    (hreach : (frameFlow lib pubId samples source queueCapacity).Reachable history s)
    (hroom : (history.filterMap FlowEvent.handed?).length < wordSize) :
    s.publisher.stats.total = (history.filterMap FlowEvent.handed?).length := by
  have hinv : (history.filterMap FlowEvent.handed?).length < wordSize →
      s.publisher.stats.total = (history.filterMap FlowEvent.handed?).length := by
    apply hreach.invariant fun history s =>
      (history.filterMap FlowEvent.handed?).length < wordSize →
      s.publisher.stats.total = (history.filterMap FlowEvent.handed?).length
    · exact fun _ => rfl
    · intro history before action after events _ hbefore _ hstep hroom
      rw [List.filterMap_append, List.length_append] at hroom ⊢
      have htotal := hbefore (by omega)
      have hdiscards : ∀ g, (before.pipeline.discards g).filterMap FlowEvent.handed? = [] := by
        intro g
        rw [List.filterMap_eq_nil_iff]
        intro event hevent
        obtain ⟨frame, _, rfl⟩ := List.mem_map.mp hevent
        rfl
      cases FlowStep.of_flowStep hstep with
      | tick _ _ _ _ _ hpublisher hevents =>
          have hnone : events.filterMap FlowEvent.handed? = [] := by
            rw [List.filterMap_eq_nil_iff]
            intro event hevent
            rw [hevents] at hevent
            obtain ⟨push, _, rfl⟩ := List.mem_map.mp hevent
            rfl
          rw [hpublisher, hnone, htotal, List.length_nil]
          rfl
      | publish _ _ _ hevents hcount =>
          have hall : (events.filterMap FlowEvent.handed?).length = events.length := by
            rw [hevents, List.filterMap_map, List.length_map]
            have hsome : FlowEvent.handed? ∘ FlowEvent.handed = some := rfl
            rw [hsome, List.filterMap_some]
          rw [hall] at hroom ⊢
          rw [hcount (by omega), htotal]
      | drain _ _ _ hpublisher hevents =>
          have hnone : events.filterMap FlowEvent.handed? = [] := by
            rw [hevents, List.filterMap_flatMap, List.flatMap_eq_nil_iff]
            exact fun g _ => hdiscards g
          rw [hpublisher, hnone, htotal, List.length_nil]
          rfl
      | drainGroup _ _ _ hpublisher hevents =>
          have hnone : events.filterMap FlowEvent.handed? = [] := by
            rw [hevents]
            exact hdiscards _
          rw [hpublisher, hnone, htotal, List.length_nil]
          rfl
  exact hinv hroom

/-- Frames of one group come in the order of their ticks, so no two are the same. -/
theorem nodup_of_increasing {frames : List ChannelFrame}
    (hincreasing : ∀ g, (frames.filter fun frame => frame.group = g).Pairwise fun first second =>
      first.frameIndex < second.frameIndex) :
    (frames.map fun frame => (frame.group, frame.frameIndex)).Nodup := by
  rw [List.Nodup, List.pairwise_map, List.pairwise_iff_forall_sublist]
  intro first second hsub heq
  obtain ⟨hgroup, hindex⟩ := Prod.mk.inj heq
  have hfiltered : [first, second].Sublist
      (frames.filter fun frame => frame.group = first.group) := by
    simpa [hgroup] using hsub.filter fun frame => frame.group = first.group
  have hlt := List.pairwise_iff_forall_sublist.mp (hincreasing first.group) hfiltered
  omega

/-- As long as `frame_index` has not wrapped, frames leave their queue in the order
of their ticks, each once, and every accepted frame is accounted for. -/
theorem frames_accounted
    (hreach : (frameFlow lib pubId samples source queueCapacity).Reachable history s)
    (hticks : s.ticks < wordSize) :
    (∀ tick frame ok, FlowEvent.pushed tick frame ok ∈ history →
      frame.frameIndex = tick ∧ frame.pairId = tick) ∧
    (∀ g, (framesOn FlowEvent.handed? g history).Sublist (framesOn FlowEvent.accepted? g history) ∧
      (framesOn FlowEvent.handed? g history).Pairwise fun first second =>
        first.frameIndex < second.frameIndex) ∧
    (∀ frame, FlowEvent.handed frame ∈ history → frame.pairId = frame.frameIndex) ∧
    ((history.filterMap FlowEvent.handed?).map fun frame => (frame.group, frame.frameIndex)).Nodup ∧
    (∀ g, (framesOn FlowEvent.accepted? g history).length =
      (framesOn FlowEvent.handed? g history).length +
        (framesOn FlowEvent.discarded? g history).length + (s.pipeline.queues g).size) ∧
    ((history.filterMap FlowEvent.handed?).length < wordSize →
      s.publisher.stats.sent2D + s.publisher.stats.sent3D + s.publisher.stats.sentSensor +
        s.publisher.stats.droppedHwm = (history.filterMap FlowEvent.handed?).length) := by
  obtain ⟨_, hpushed, haccount⟩ := flowInv_of_reaches hreach hticks
  have hsub : ∀ g, (framesOn FlowEvent.handed? g history).Sublist
      (framesOn FlowEvent.accepted? g history) := by
    intro g
    apply (handedOn_sublist history).trans
    rw [(haccount g).holds.removed_eq]
    exact List.take_sublist _ _
  have hincreasing : ∀ g, (framesOn FlowEvent.handed? g history).Pairwise fun first second =>
      first.frameIndex < second.frameIndex :=
    fun g => (haccount g).increasing.sublist (hsub g)
  refine ⟨?_, fun g => ⟨hsub g, hincreasing g⟩, ?_, nodup_of_increasing hincreasing, ?_,
    stats_total hreach⟩
  · exact fun tick frame ok hmem => (hpushed tick frame ok hmem).2
  · intro frame hframe
    have hmem : frame ∈ framesOn FlowEvent.handed? frame.group history :=
      List.mem_filter.mpr ⟨List.mem_filterMap.mpr ⟨_, hframe, rfl⟩, decide_eq_true rfl⟩
    obtain ⟨tick, htick⟩ := mem_acceptedOn ((hsub frame.group).subset hmem)
    obtain ⟨_, hindex, hpair⟩ := hpushed tick frame true htick
    rw [hpair, hindex]
  · intro g
    have hholds := (haccount g).holds
    have hle := hholds.length_le
    rw [hholds.size_eq, ← removedOn_length]
    omega

end Runs

/-! ## Short runs and a very long one -/

/-- What a tick reads when only one type is active. -/
def readsOf (t : DataType) : TickReads where
  secClock := 0
  nsecClock := 0
  groupActive := fun g => g = dataTypeToGroup t
  isActive := fun other => other = t
  depthMode := fun _ => none

/-- What a tick reads when nothing is active. -/
def idleReads : TickReads where
  secClock := 0
  nsecClock := 0
  groupActive := fun _ => false
  isActive := fun _ => false
  depthMode := fun _ => none

/-- A flow through queues of one frame, without images. -/
def smallFlow : Machine FlowState FlowAction FlowEvent :=
  frameFlow .plain (lit "pub") zeroSamples {} 1

def publishAll : FlowAction := .publish fun _ => ⟨0, 0, fun _ => true⟩

/-- One frame is sent, the next discarded, and of two more the second finds the
queue full. -/
def sendThenDrain : List FlowAction :=
  [.tick (readsOf .imu), publishAll, .tick (readsOf .imu), .drain, .tick (readsOf .imu),
    .tick (readsOf .imu)]

theorem sendThenDrain_accounted :
    ∃ s history, smallFlow.runFrom smallFlow.init sendThenDrain = some (s, history) ∧
      (framesOn FlowEvent.accepted? .sensorData history).length =
        (framesOn FlowEvent.handed? .sensorData history).length +
          (framesOn FlowEvent.discarded? .sensorData history).length +
          (s.pipeline.queues .sensorData).size ∧
      s.publisher.stats.sent2D + s.publisher.stats.sent3D + s.publisher.stats.sentSensor +
        s.publisher.stats.droppedHwm = (history.filterMap FlowEvent.handed?).length := by
  have hruns : (smallFlow.runFrom smallFlow.init sendThenDrain).map (fun result =>
      (result.1.ticks, (result.2.filterMap FlowEvent.handed?).length)) = some (4, 1) := by
    decide +kernel
  obtain ⟨⟨s, history⟩, hrun, hview⟩ := Option.map_eq_some_iff.mp hruns
  obtain ⟨hticks, hhanded⟩ := Prod.mk.inj hview
  obtain ⟨_, _, _, _, hcounts, hstats⟩ := frames_accounted (Machine.reachable_of_runFrom hrun)
    (show s.ticks < wordSize by rw [hticks]; decide)
  exact ⟨s, history, hrun, hcounts .sensorData, hstats (by rw [hhanded]; decide)⟩

/-- The state after a number of ticks without an active group. -/
def FlowState.idle (s : FlowState) (ticks : Nat) : FlowState :=
  { s with
    capture := { s.capture with
      frameIndex := (s.capture.frameIndex + ticks) % wordSize
      framesProduced := (s.capture.framesProduced + ticks) % wordSize }
    ticks := s.ticks + ticks }

theorem idle_reachable {history : List FlowEvent} {s : FlowState}
    (hreach : smallFlow.Reachable history s) (hindex : s.capture.frameIndex < wordSize)
    (hproduced : s.capture.framesProduced < wordSize) (ticks : Nat) :
    smallFlow.Reachable history (s.idle ticks) := by
  induction ticks with
  | zero =>
      have hsame : s.idle 0 = s := by
        simp only [FlowState.idle, Nat.add_zero, Nat.mod_eq_of_lt hindex,
          Nat.mod_eq_of_lt hproduced]
      rw [hsame]
      exact hreach
  | succ ticks ih =>
      have hstep : smallFlow.step (s.idle ticks) (.tick idleReads) =
          some (s.idle (ticks + 1), []) := by
        have hword : ∀ x, wordSucc ((x + ticks) % wordSize) = (x + (ticks + 1)) % wordSize :=
          fun x => Nat.mod_add_mod (x + ticks) wordSize 1
        have hcapture : (s.idle (ticks + 1)).capture =
            { source := (s.idle ticks).capture.source
              frameIndex := wordSucc (s.idle ticks).capture.frameIndex
              framesProduced := wordSucc (s.idle ticks).capture.framesProduced } := by
          simp only [FlowState.idle, hword]
        have htick : CaptureEngine.tick zeroSamples idleReads (s.idle ticks).capture =
            ([], .ok (s.idle (ticks + 1)).capture) := by
          rw [hcapture]
          rfl
        change flowStep .plain (lit "pub") zeroSamples (s.idle ticks) (.tick idleReads) = _
        simp only [flowStep, htick]
        rfl
      have hnext := Machine.Reaches.step ih trivial hstep
      rwa [List.append_nil] at hnext

/-- The first frame is sent, then `frame_index` runs once around. -/
theorem indexWraps_repeats :
    ¬ ∀ (lib : JsonLibrary) (pubId : Bytes) (samples : Samples) (source : SimDataSource)
      (queueCapacity : Nat) (history : List FlowEvent) (s : FlowState),
      (frameFlow lib pubId samples source queueCapacity).Reachable history s →
        ∀ g, (framesOn FlowEvent.handed? g history).Pairwise fun first second =>
          first.frameIndex < second.frameIndex := by
  intro hclaim
  have hfirst : (smallFlow.runFrom smallFlow.init [.tick (readsOf .imu), publishAll]).map
      (fun result => (decide (result.1.capture.frameIndex < wordSize ∧
        result.1.capture.framesProduced < wordSize),
        (framesOn FlowEvent.handed? .sensorData result.2).map ChannelFrame.frameIndex)) =
      some (true, [0]) := by
    decide +kernel
  have hsecond : ((smallFlow.runFrom smallFlow.init [.tick (readsOf .imu), publishAll]).bind
      fun result => (smallFlow.runFrom (result.1.idle (wordSize - 1))
        [.tick (readsOf .imu), publishAll]).map fun later =>
          (framesOn FlowEvent.handed? .sensorData later.2).map ChannelFrame.frameIndex) =
      some [0] := by
    decide +kernel
  obtain ⟨⟨s, history⟩, hrun, hview⟩ := Option.map_eq_some_iff.mp hfirst
  obtain ⟨hwords, hindices⟩ := Prod.mk.inj hview
  rw [hrun, Option.bind_some] at hsecond
  obtain ⟨⟨final, later⟩, hrest, hlater⟩ := Option.map_eq_some_iff.mp hsecond
  obtain ⟨hindex, hproduced⟩ := of_decide_eq_true hwords
  have hreach := idle_reachable (Machine.reachable_of_runFrom hrun) hindex hproduced (wordSize - 1)
  have hfinal := hreach.runGuarded (smallFlow.guarded_of_forall (fun _ _ => trivial) _ _) hrest
  have hincreasing := hclaim .plain (lit "pub") zeroSamples {} 1 _ _ hfinal .sensorData
  rw [framesOn_append, ← List.pairwise_map (f := ChannelFrame.frameIndex) (R := (· < ·)),
    List.map_append, hindices, hlater] at hincreasing
  exact absurd hincreasing (by decide)

end SimVision
