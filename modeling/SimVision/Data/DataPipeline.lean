import SimVision.Common.Types
import SimVision.Data.SPSCInvariant

/-! # The data pipeline

Three frame queues, one a group, and the flag its consumer waits on. The capture
thread pushes, the publisher pops all queues, and command workers drain them.
The operations are given first as functions of the pipeline, then as threads
whose shared accesses interleave.
-/

namespace SimVision

open Foundation

variable {α : Type}

structure PipelineStats where
  pushed2D : Nat := 0
  pushed3D : Nat := 0
  pushedSensor : Nat := 0
  dropped2D : Nat := 0
  dropped3D : Nat := 0
  droppedSensor : Nat := 0
  queue2D : Nat := 0
  queue3D : Nat := 0
  queueSensor : Nat := 0
  deriving DecidableEq

/-- The queues `q2d_`, `q3d_`, `qsensor_` by group, and `notified_`. -/
structure DataPipeline (α : Type) where
  queues : DataGroup → ChannelFrameQueue α
  notified : Bool

/-- The order in which `pop_all` and `drain` visit the queues. -/
def popOrder : List DataGroup := [.visual2D, .visual3D, .sensorData]

namespace DataPipeline

def create (queueCapacity : Nat) : DataPipeline α where
  queues := fun _ => ChannelFrameQueue.create queueCapacity
  notified := false

def setQueue (p : DataPipeline α) (group : DataGroup) (queue : ChannelFrameQueue α) :
    DataPipeline α :=
  { p with queues := Function.update p.queues group queue }

def push (p : DataPipeline α) (group : DataGroup) (frame : α) : DataPipeline α × Bool :=
  let (queue, ok) := (p.queues group).tryPush frame
  ({ p.setQueue group queue with notified := true }, ok)

/-- The loops `while (try_pop(f))` over the given queues, collecting the pointers. -/
def popGroups (p : DataPipeline α) : List DataGroup → DataPipeline α × List (Option α)
  | [] => (p, [])
  | group :: rest =>
      let (queue, out) := (p.queues group).popAll
      let (final, later) := popGroups (p.setQueue group queue) rest
      (final, out ++ later)

/-- `pop_all` with no other thread: nothing arrives during the wait. -/
def popAll (p : DataPipeline α) : DataPipeline α × List (Option α) × Bool :=
  let (first, out) := p.popGroups popOrder
  if out.isEmpty then
    let (second, later) := { first with notified := false }.popGroups popOrder
    (second, later, !later.isEmpty)
  else (first, out, true)

def drainGroup (p : DataPipeline α) (group : DataGroup) : DataPipeline α :=
  p.setQueue group (p.queues group).clear

def drain (p : DataPipeline α) : DataPipeline α :=
  ((p.drainGroup .visual2D).drainGroup .visual3D).drainGroup .sensorData

def stats (p : DataPipeline α) : PipelineStats where
  pushed2D := (p.queues .visual2D).totalPushed
  pushed3D := (p.queues .visual3D).totalPushed
  pushedSensor := (p.queues .sensorData).totalPushed
  dropped2D := (p.queues .visual2D).totalDropped
  dropped3D := (p.queues .visual3D).totalDropped
  droppedSensor := (p.queues .sensorData).totalDropped
  queue2D := (p.queues .visual2D).size
  queue3D := (p.queues .visual3D).size
  queueSensor := (p.queues .sensorData).size

def capacity (p : DataPipeline α) : Nat := (p.queues .visual2D).capacity

/-- The counters of every queue are values of their type. -/
def Words (p : DataPipeline α) : Prop := ∀ group, (p.queues group).Words

theorem Words.create (queueCapacity : Nat) : (create queueCapacity : DataPipeline α).Words :=
  fun _ => ChannelFrameQueue.Words.create queueCapacity

theorem setQueue_queues (p : DataPipeline α) (group other : DataGroup)
    (queue : ChannelFrameQueue α) :
    (p.setQueue group queue).queues other = if other = group then queue else p.queues other :=
  Function.update_apply p.queues group queue other

theorem Words.setQueue {p : DataPipeline α} (hwords : p.Words) {group : DataGroup}
    {queue : ChannelFrameQueue α} (hqueue : queue.Words) : (p.setQueue group queue).Words := by
  intro other
  rw [setQueue_queues]
  split
  next => exact hqueue
  next => exact hwords other

theorem push_queues (p : DataPipeline α) (group other : DataGroup) (frame : α) :
    (p.push group frame).1.queues other =
      if other = group then ((p.queues group).tryPush frame).1 else p.queues other :=
  setQueue_queues p group other _

theorem Words.push {p : DataPipeline α} (hwords : p.Words) (group : DataGroup) (frame : α) :
    (p.push group frame).1.Words :=
  hwords.setQueue ((hwords group).tryPush frame)

theorem drainGroup_queues (p : DataPipeline α) (group other : DataGroup) :
    (p.drainGroup group).queues other =
      if other = group then (p.queues group).clear else p.queues other :=
  setQueue_queues p group other _

theorem drain_queues (p : DataPipeline α) (group : DataGroup) :
    p.drain.queues group = (p.queues group).clear := by
  have hkeep : ∀ (p : DataPipeline α) {first second : DataGroup}, second ≠ first →
      (p.drainGroup first).queues second = p.queues second := by
    intro p first second hne
    rw [drainGroup_queues, if_neg hne]
  have hclear : ∀ (p : DataPipeline α) (group : DataGroup),
      (p.drainGroup group).queues group = (p.queues group).clear := by
    intro p group
    rw [drainGroup_queues, if_pos rfl]
  unfold drain
  cases group with
  | visual2D => rw [hkeep _ (by decide), hkeep _ (by decide), hclear]
  | visual3D => rw [hkeep _ (by decide), hclear, hkeep _ (by decide)]
  | sensorData => rw [hclear, hkeep _ (by decide), hkeep _ (by decide)]

/-- The loops of `popGroups` with any operation on one queue. -/
def visitGroups (visit : ChannelFrameQueue α → ChannelFrameQueue α × List (Option α))
    (p : DataPipeline α) : List DataGroup → DataPipeline α × List (Option α)
  | [] => (p, [])
  | group :: rest =>
      let (queue, out) := visit (p.queues group)
      let (final, later) := visitGroups visit (p.setQueue group queue) rest
      (final, out ++ later)

/-- `popAll` with any operation on one queue. -/
def visitAll (visit : ChannelFrameQueue α → ChannelFrameQueue α × List (Option α))
    (p : DataPipeline α) : DataPipeline α × List (Option α) × Bool :=
  let (first, out) := p.visitGroups visit popOrder
  if out.isEmpty then
    let (second, later) := { first with notified := false }.visitGroups visit popOrder
    (second, later, !later.isEmpty)
  else (first, out, true)

-- with the operation a variable, unfolding a round does not evaluate a queue's `popAll`
theorem popGroups_eq_visit : @popGroups α = visitGroups ChannelFrameQueue.popAll := by
  delta popGroups visitGroups
  rfl

theorem popAll_eq_visit : @popAll α = visitAll ChannelFrameQueue.popAll := by
  delta popAll visitAll
  rw [popGroups_eq_visit]

section Visit

variable {visit : ChannelFrameQueue α → ChannelFrameQueue α × List (Option α)}

/-- The loops leave the queues of other groups alone. -/
theorem visitGroups_queues_of_notMem (p : DataPipeline α) {groups : List DataGroup}
    {group : DataGroup} (hgroup : group ∉ groups) :
    (p.visitGroups visit groups).1.queues group = p.queues group := by
  induction groups generalizing p with
  | nil => rfl
  | cons first rest ih =>
      rw [List.mem_cons, not_or] at hgroup
      simp only [visitGroups]
      rw [ih _ hgroup.2, setQueue_queues, if_neg hgroup.1]

/-- The loops over distinct groups visit each of their queues once. -/
theorem visitGroups_queues (p : DataPipeline α) {groups : List DataGroup} (hnodup : groups.Nodup)
    {group : DataGroup} (hgroup : group ∈ groups) :
    (p.visitGroups visit groups).1.queues group = (visit (p.queues group)).1 := by
  induction groups generalizing p with
  | nil => simp at hgroup
  | cons first rest ih =>
      obtain ⟨hfresh, hrest⟩ := List.nodup_cons.mp hnodup
      simp only [visitGroups]
      rcases List.mem_cons.mp hgroup with rfl | hgroup
      · rw [visitGroups_queues_of_notMem _ hfresh, setQueue_queues, if_pos rfl]
      · have hne : group ≠ first := fun heq => hfresh (heq ▸ hgroup)
        rw [ih _ hrest hgroup, setQueue_queues, if_neg hne]

/-- What the loops over distinct groups collect. -/
theorem visitGroups_out (p : DataPipeline α) {groups : List DataGroup} (hnodup : groups.Nodup) :
    (p.visitGroups visit groups).2 = groups.flatMap fun group => (visit (p.queues group)).2 := by
  induction groups generalizing p with
  | nil => rfl
  | cons first rest ih =>
      obtain ⟨hfresh, hrest⟩ := List.nodup_cons.mp hnodup
      simp only [visitGroups, List.flatMap_cons]
      rw [ih _ hrest]
      congr 1
      apply List.flatMap_congr
      intro group hgroup
      have hne : group ≠ first := fun heq => hfresh (heq ▸ hgroup)
      rw [setQueue_queues, if_neg hne]

end Visit

theorem mem_popOrder (group : DataGroup) : group ∈ popOrder := by
  cases group <;> decide

theorem popOrder_nodup : popOrder.Nodup := by decide

theorem Words.drainGroup {p : DataPipeline α} (hwords : p.Words) (group : DataGroup) :
    (p.drainGroup group).Words :=
  hwords.setQueue (hwords group).clear

theorem Words.drain {p : DataPipeline α} (hwords : p.Words) : p.drain.Words :=
  ((hwords.drainGroup .visual2D).drainGroup .visual3D).drainGroup .sensorData

/-- When every visit empties its queue, so do the rounds over all queues. -/
theorem visitAll_isEmpty {visit : ChannelFrameQueue α → ChannelFrameQueue α × List (Option α)}
    (hvisit : ∀ q : ChannelFrameQueue α, q.Words → (visit q).1.Words ∧ (visit q).1.isEmpty = true)
    {p : DataPipeline α} (hwords : p.Words) :
    (p.visitAll visit).1.Words ∧ ∀ group, ((p.visitAll visit).1.queues group).isEmpty = true := by
  have hround : ∀ p : DataPipeline α, p.Words → (p.visitGroups visit popOrder).1.Words ∧
      ∀ group, ((p.visitGroups visit popOrder).1.queues group).isEmpty = true := by
    intro p hwords
    constructor
    · intro group
      rw [visitGroups_queues p popOrder_nodup (mem_popOrder group)]
      exact (hvisit _ (hwords group)).1
    · intro group
      rw [visitGroups_queues p popOrder_nodup (mem_popOrder group)]
      exact (hvisit _ (hwords group)).2
  have hfirst := hround p hwords
  unfold visitAll
  dsimp only
  split
  next =>
    have hflag : ({ (p.visitGroups visit popOrder).1 with notified := false } :
        DataPipeline α).Words := hfirst.1
    exact hround _ hflag
  next => exact hfirst

/-- When a visit that takes nothing changes nothing, a second round after an empty
first one changes nothing either. -/
theorem visitAll_once {visit : ChannelFrameQueue α → ChannelFrameQueue α × List (Option α)}
    (hidle : ∀ q : ChannelFrameQueue α, (visit q).2 = [] → (visit q).1 = q) (p : DataPipeline α) :
    (∀ group, (p.visitAll visit).1.queues group = (visit (p.queues group)).1) ∧
      (p.visitAll visit).2.1 = popOrder.flatMap (fun group => (visit (p.queues group)).2) ∧
      (p.visitAll visit).2.2 = !(p.visitAll visit).2.1.isEmpty := by
  have hqueues : ∀ p : DataPipeline α, ∀ group,
      (p.visitGroups visit popOrder).1.queues group = (visit (p.queues group)).1 :=
    fun p group => visitGroups_queues p popOrder_nodup (mem_popOrder group)
  have hout : ∀ p : DataPipeline α, (p.visitGroups visit popOrder).2 =
      popOrder.flatMap fun group => (visit (p.queues group)).2 :=
    fun p => visitGroups_out p popOrder_nodup
  unfold visitAll
  dsimp only
  split
  next hnothing =>
    rw [List.isEmpty_iff, hout, List.flatMap_eq_nil_iff] at hnothing
    have hsame : (p.visitGroups visit popOrder).1.queues = p.queues := by
      funext group
      rw [hqueues]
      exact hidle _ (hnothing group (mem_popOrder group))
    refine ⟨fun group => ?_, ?_, rfl⟩
    · rw [hqueues]
      dsimp only
      rw [hsame]
    · rw [hout]
      dsimp only
      rw [hsame]
  next hsome =>
    refine ⟨hqueues p, hout p, ?_⟩
    rw [Bool.not_eq_true] at hsome
    rw [hsome]
    rfl

/-- `pop_all` pops each queue until it is empty and returns everything it popped. -/
theorem popAll_once (p : DataPipeline α) :
    (∀ group, p.popAll.1.queues group = (p.queues group).popAll.1) ∧
      p.popAll.2.1 = popOrder.flatMap (fun group => (p.queues group).popAll.2) ∧
      p.popAll.2.2 = !p.popAll.2.1.isEmpty := by
  rw [popAll_eq_visit]
  exact @visitAll_once α ChannelFrameQueue.popAll
    (fun _ hnone => ChannelFrameQueue.popAll_idle hnone) p

/-- `pop_all` leaves every queue empty. -/
theorem popAll_isEmpty {p : DataPipeline α} (hwords : p.Words) :
    p.popAll.1.Words ∧ ∀ group, (p.popAll.1.queues group).isEmpty = true := by
  rw [popAll_eq_visit]
  exact visitAll_isEmpty (fun _ => ChannelFrameQueue.popAll_isEmpty) hwords

theorem drain_isEmpty {p : DataPipeline α} (hwords : p.Words) (group : DataGroup) :
    (p.drain.queues group).isEmpty = true := by
  rw [drain_queues]
  exact ChannelFrameQueue.clear_isEmpty (hwords group)

theorem drainGroup_of_isEmpty {p : DataPipeline α} {group : DataGroup}
    (hempty : (p.queues group).isEmpty = true) : p.drainGroup group = p := by
  rw [drainGroup, setQueue, ChannelFrameQueue.clear_of_isEmpty hempty, Function.update_eq_self]

theorem drain_of_isEmpty {p : DataPipeline α} (hempty : ∀ group, (p.queues group).isEmpty = true) :
    p.drain = p := by
  rw [drain, drainGroup_of_isEmpty (hempty _), drainGroup_of_isEmpty (hempty _),
    drainGroup_of_isEmpty (hempty _)]

end DataPipeline

/-! ## Threads -/

/-- A thread that pops. -/
inductive Consumer where
  | publisher
  | worker (n : Nat)
  deriving DecidableEq

/-- The loops `while (try_pop(f))` in progress: the queue being popped, the
queues still to come, and the pointers taken so far. -/
structure PopLoop (α : Type) where
  group : DataGroup
  rest : List DataGroup
  pc : PopPc α
  out : List (Option α)

namespace PopLoop

def start (group : DataGroup) (rest : List DataGroup) : PopLoop α :=
  ⟨group, rest, .loadTail, []⟩

/-- A successful pop is followed by another of the same queue, an unsuccessful
one by the next queue. -/
def resume (loop : PopLoop α) :
    Progress (PopPc α) (Option (Option α)) → Progress (PopLoop α) (List (Option α))
  | .running pc => .running { loop with pc := pc }
  | .returned (some out) => .running { loop with pc := .loadTail, out := loop.out ++ [out] }
  | .returned none =>
      match loop.rest with
      | [] => .returned loop.out
      | group :: rest => .running ⟨group, rest, .loadTail, loop.out⟩

end PopLoop

/-- Where a call of `pop_all` or of a drain stands. -/
inductive ConsumerPc (α : Type) where
  | popAllFirst (loop : PopLoop α)
  | waiting
  | popAllSecond (loop : PopLoop α)
  | draining (loop : PopLoop α)

namespace ConsumerPc

def loop? : ConsumerPc α → Option (PopLoop α)
  | .popAllFirst loop => some loop
  | .waiting => none
  | .popAllSecond loop => some loop
  | .draining loop => some loop

/-- Where the call stands after its pop loop made progress; `none` is a return. -/
def resume : ConsumerPc α → Progress (PopLoop α) (List (Option α)) → Option (ConsumerPc α)
  | .popAllFirst _, .running loop => some (.popAllFirst loop)
  -- only a first round that found nothing waits for the flag
  | .popAllFirst _, .returned out => if out.isEmpty then some .waiting else none
  | .waiting, _ => some .waiting
  | .popAllSecond _, .running loop => some (.popAllSecond loop)
  | .popAllSecond _, .returned _ => none
  | .draining _, .running loop => some (.draining loop)
  | .draining _, .returned _ => none

/-- The pop in progress on the queue of a group. -/
def popOn (group : DataGroup) (pc : Option (ConsumerPc α)) : Option (PopPc α) :=
  match pc.bind loop? with
  | some loop => if loop.group = group then some loop.pc else none
  | none => none

end ConsumerPc

/-- Where a call of `push` stands. -/
inductive CapturePc (α : Type) where
  | pushing (group : DataGroup) (pc : PushPc α)
  | notifying

/-- Where `push` stands after its `try_push` made progress. -/
def CapturePc.resume (group : DataGroup) : Progress (PushPc α) Bool → CapturePc α
  | .running pc => .pushing group pc
  | .returned _ => .notifying

/-- The push in progress on the queue of a group. -/
def CapturePc.pushOn (group : DataGroup) : Option (CapturePc α) → Option (PushPc α)
  | some (.pushing target pc) => if target = group then some pc else none
  | _ => none

/-- The pipeline with the capture thread, the publisher and the workers. -/
structure PipelineState (α : Type) where
  pipeline : DataPipeline α
  capture : Option (CapturePc α)
  consumers : Consumer → Option (ConsumerPc α)

inductive PipelineAction (α : Type) where
  | callPush (group : DataGroup) (frame : α)
  | capture
  | callPopAll
  | callDrain (n : Nat)
  | callDrainGroup (n : Nat) (group : DataGroup)
  | consumer (consumer : Consumer)

namespace PipelineState

/-- The pop in progress by a consumer on the queue of a group. -/
def pops (s : PipelineState α) (group : DataGroup) (consumer : Consumer) : Option (PopPc α) :=
  ConsumerPc.popOn group (s.consumers consumer)

/-- An idle consumer begins a call. -/
def begin (s : PipelineState α) (consumer : Consumer) (pc : ConsumerPc α) :
    Option (PipelineState α × List (DataGroup × QueueEvent α)) :=
  match s.consumers consumer with
  | none => some ({ s with consumers := Function.update s.consumers consumer (some pc) }, [])
  | some _ => none

/-- One step of one thread. The wait of `pop_all` ends by the flag or by its
timeout, so the waiting publisher can always go on. -/
def step (s : PipelineState α) :
    PipelineAction α → Option (PipelineState α × List (DataGroup × QueueEvent α))
  | .callPush group frame =>
      match s.capture with
      | none => some ({ s with capture := some (.pushing group (.loadHead frame)) }, [])
      | some _ => none
  | .capture =>
      match s.capture with
      | none => none
      | some .notifying =>
          some ({ s with pipeline := { s.pipeline with notified := true }, capture := none }, [])
      | some (.pushing group pc) =>
          let (queue, progress, events) := pc.step (s.pipeline.queues group)
          some ({ s with
            pipeline := s.pipeline.setQueue group queue
            capture := some (CapturePc.resume group progress) }, events.map (Prod.mk group))
  | .callPopAll =>
      s.begin .publisher (.popAllFirst (.start .visual2D [.visual3D, .sensorData]))
  | .callDrain n => s.begin (.worker n) (.draining (.start .visual2D [.visual3D, .sensorData]))
  | .callDrainGroup n group => s.begin (.worker n) (.draining (.start group []))
  | .consumer consumer =>
      match s.consumers consumer with
      | none => none
      | some pc =>
          match pc.loop? with
          | none =>
              some ({ s with
                pipeline := { s.pipeline with notified := false }
                consumers := Function.update s.consumers consumer
                  (some (.popAllSecond (.start .visual2D [.visual3D, .sensorData]))) }, [])
          | some loop =>
              let (queue, progress, events) := loop.pc.step (s.pipeline.queues loop.group)
              some ({ s with
                pipeline := s.pipeline.setQueue loop.group queue
                consumers := Function.update s.consumers consumer
                  (pc.resume (loop.resume progress)) }, events.map (Prod.mk loop.group))

end PipelineState

/-- The pipeline constructed with a queue capacity, with every thread idle. -/
def pipeline (α : Type) (queueCapacity : Nat) :
    Machine (PipelineState α) (PipelineAction α) (DataGroup × QueueEvent α) where
  init := { pipeline := .create queueCapacity, capture := none, consumers := fun _ => none }
  step := PipelineState.step

/-- The part of a history that belongs to the queue of a group. -/
def queueHistory (group : DataGroup) (history : List (DataGroup × QueueEvent α)) :
    List (QueueEvent α) :=
  history.filterMap fun event => if event.1 = group then some event.2 else none

end SimVision
