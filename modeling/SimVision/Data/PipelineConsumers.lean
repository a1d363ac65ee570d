import SimVision.Data.DataPipeline

/-! # Several consumers of one queue

A queue of the pipeline is popped by the publisher and by every draining worker.
Frames leave it exactly once and in order as long as each slot move finds its
loaded `tail_` current and no other consumer between its own move and its
`tail_` store. Nothing in the pipeline enforces that, and a run that breaks it
hands out a null pointer.
-/

namespace SimVision

open Foundation

variable {α : Type}

/-- A queue whose accepted frames leave once, in order and intact: those before
`tail_` have been taken, and each later one is in its slot or in the hands of the
consumer that is about to acknowledge it. -/
structure ExactlyOnce {κ : Type} (q : ChannelFrameQueue α) (pops : κ → Option (PopPc α))
    (accepted : List α) (taken : List (Option α)) : Prop where
  tail_le : q.tail ≤ q.head
  distance_le : q.head - q.tail ≤ q.capacity
  published : q.head = accepted.length
  taken_once : taken = (accepted.take q.tail).map some
  kept : ∀ k, q.tail ≤ k → k < q.head →
    q.load k = accepted[k]? ∨
      k = q.tail ∧ ∃ i pc, pops i = some pc ∧ pc.held? = some accepted[k]?

/-- What the pipeline owes in a state and at each step from it. -/
structure PipelineContract (history : List (DataGroup × QueueEvent α)) (s : PipelineState α) :
    Prop where
  exactly_once : ∀ group, ExactlyOnce (s.pipeline.queues group) (s.pops group)
    (acceptedFrames (queueHistory group history)) (takenFrames (queueHistory group history))
  tail_mono : ∀ action t events, s.step action = some (t, events) → ∀ group,
    (s.pipeline.queues group).tail ≤ (t.pipeline.queues group).tail

/-- The condition on a step: the pop loop and the push loop that move satisfy the
conditions of their queue. -/
def PipelineState.Safe (s : PipelineState α) : PipelineAction α → Prop
  | .capture => ∀ group pc, s.capture = some (.pushing group pc) → pc.Safe
  | .consumer consumer => ∀ pc loop, s.consumers consumer = some pc → pc.loop? = some loop →
      loop.pc.Safe (s.pipeline.queues loop.group) (s.pops loop.group)
  | _ => True

/-- Every queue satisfies its invariant over its own part of the history. -/
def PipelineInv (history : List (DataGroup × QueueEvent α)) (s : PipelineState α) : Prop :=
  ∀ group, QueueInv (s.pipeline.queues group) (CapturePc.pushOn group s.capture) (s.pops group)
    (acceptedFrames (queueHistory group history)) (takenFrames (queueHistory group history))

@[simp] theorem queueHistory_append (group : DataGroup)
    (first second : List (DataGroup × QueueEvent α)) :
    queueHistory group (first ++ second) = queueHistory group first ++ queueHistory group second :=
  List.filterMap_append

theorem queueHistory_map_self (group : DataGroup) (events : List (QueueEvent α)) :
    queueHistory group (events.map (Prod.mk group)) = events := by
  induction events with
  | nil => rfl
  | cons event rest ih =>
      simp only [queueHistory, List.map_cons, List.filterMap_cons, if_true] at ih ⊢
      rw [ih]

theorem queueHistory_map_of_ne {group target : DataGroup} (hne : target ≠ group)
    (events : List (QueueEvent α)) : queueHistory group (events.map (Prod.mk target)) = [] := by
  simp [queueHistory, hne]

namespace DataPipeline

@[simp] theorem setQueue_self (p : DataPipeline α) (group : DataGroup)
    (queue : ChannelFrameQueue α) : (p.setQueue group queue).queues group = queue :=
  Function.update_self ..

theorem setQueue_of_ne (p : DataPipeline α) {group target : DataGroup}
    (queue : ChannelFrameQueue α) (hne : target ≠ group) :
    (p.setQueue target queue).queues group = p.queues group :=
  Function.update_of_ne hne.symm ..

end DataPipeline

theorem CapturePc.pushOn_resume (group target : DataGroup) (progress : Progress (PushPc α) Bool) :
    CapturePc.pushOn group (some (CapturePc.resume target progress)) =
      if target = group then progress.pc? else none := by
  cases progress with
  | running pc => rfl
  | returned ok => simp [CapturePc.resume, CapturePc.pushOn]

namespace ConsumerPc

@[simp] theorem popOn_none (group : DataGroup) :
    popOn group (none : Option (ConsumerPc α)) = none :=
  rfl

theorem popOn_of_loop {pc : ConsumerPc α} {loop : PopLoop α} (hloop : pc.loop? = some loop)
    (group : DataGroup) :
    popOn group (some pc) = if loop.group = group then some loop.pc else none := by
  simp [popOn, hloop]

/-- A call that begins or goes on to its next queue begins at most one pop on a
queue; otherwise only the pop that made progress changes. -/
theorem popOn_resume {pc : ConsumerPc α} {loop : PopLoop α} (hloop : pc.loop? = some loop)
    (progress : Progress (PopPc α) (Option (Option α))) (group : DataGroup) :
    popOn group (pc.resume (loop.resume progress)) =
        (if loop.group = group then progress.pc? else none) ∨
      (if loop.group = group then progress.pc? else none) = none ∧
        popOn group (pc.resume (loop.resume progress)) = some .loadTail := by
  have hstart : ∀ (next : ConsumerPc α) (target : DataGroup) rest out,
      next.loop? = some ⟨target, rest, .loadTail, out⟩ →
      popOn group (some next) = none ∨ popOn group (some next) = some .loadTail := by
    intro next target rest out hnext
    rw [popOn_of_loop hnext]
    dsimp only
    split
    · exact .inr rfl
    · exact .inl rfl
  have hrunning : ∀ next : PopLoop α, loop.resume progress = .running next →
      ∃ call : ConsumerPc α, pc.resume (loop.resume progress) = some call ∧
        call.loop? = some next := by
    intro next hnext
    rw [hnext]
    cases pc with
    | popAllFirst l => exact ⟨_, rfl, rfl⟩
    | waiting => simp [loop?] at hloop
    | popAllSecond l => exact ⟨_, rfl, rfl⟩
    | draining l => exact ⟨_, rfl, rfl⟩
  have hdone : ∀ out, loop.resume progress = .returned out →
      popOn group (pc.resume (loop.resume progress)) = none := by
    intro out hout
    rw [hout]
    cases pc with
    | popAllFirst l =>
        simp only [resume]
        split <;> rfl
    | waiting => simp [loop?] at hloop
    | popAllSecond l => rfl
    | draining l => rfl
  cases progress with
  | running next =>
      obtain ⟨call, hcall, hnext⟩ := hrunning _ rfl
      rw [hcall, popOn_of_loop hnext]
      exact .inl rfl
  | returned result =>
      have hnone : (if loop.group = group then
          (Progress.returned result : Progress (PopPc α) _).pc? else none) = none := by simp
      rw [hnone]
      cases result with
      -- a success pops the same queue again, a failure goes on to the next or returns
      | some out =>
          obtain ⟨call, hcall, hnext⟩ := hrunning _ rfl
          rw [hcall]
          exact (hstart call _ _ _ hnext).imp id fun hsome => ⟨rfl, hsome⟩
      | none =>
          cases hrest : loop.rest with
          | nil => exact .inl (hdone loop.out (by simp [PopLoop.resume, hrest]))
          | cons target rest =>
              obtain ⟨call, hcall, hnext⟩ := hrunning ⟨target, rest, .loadTail, loop.out⟩
                (by simp [PopLoop.resume, hrest])
              rw [hcall]
              exact (hstart call _ _ _ hnext).imp id fun hsome => ⟨rfl, hsome⟩

end ConsumerPc

/-- What one step of a thread can do: the capture thread pushes and notifies, an
idle consumer begins a call, the waiting publisher goes on to its second round, and
a consumer takes a step of its pop. -/
inductive PipelineState.Moves (s : PipelineState α) :
    PipelineAction α → PipelineState α → List (DataGroup × QueueEvent α) → Prop where
  | callPush {group : DataGroup} {frame : α} (hidle : s.capture = none) :
      Moves s (.callPush group frame)
        { s with capture := some (.pushing group (.loadHead frame)) } []
  | push {group : DataGroup} {pc : PushPc α} {queue : ChannelFrameQueue α}
      {progress : Progress (PushPc α) Bool} {events : List (QueueEvent α)}
      (hcapture : s.capture = some (.pushing group pc))
      (hrun : pc.step (s.pipeline.queues group) = (queue, progress, events)) :
      Moves s .capture
        { s with
          pipeline := s.pipeline.setQueue group queue
          capture := some (CapturePc.resume group progress) } (events.map (Prod.mk group))
  | notify (hcapture : s.capture = some .notifying) :
      Moves s .capture
        { s with pipeline := { s.pipeline with notified := true }, capture := none } []
  | call {action : PipelineAction α} {consumer : Consumer} {pc : ConsumerPc α}
      {group : DataGroup} {rest : List DataGroup} (hidle : s.consumers consumer = none)
      (hloop : pc.loop? = some (.start group rest)) :
      Moves s action
        { s with consumers := Function.update s.consumers consumer (some pc) } []
  | woken {consumer : Consumer} {pc : ConsumerPc α} (hpc : s.consumers consumer = some pc)
      (hwaiting : pc.loop? = none) :
      Moves s (.consumer consumer)
        { s with
          pipeline := { s.pipeline with notified := false }
          consumers := Function.update s.consumers consumer
            (some (.popAllSecond (.start .visual2D [.visual3D, .sensorData]))) } []
  | pop {consumer : Consumer} {pc : ConsumerPc α} {loop : PopLoop α}
      {queue : ChannelFrameQueue α} {progress : Progress (PopPc α) (Option (Option α))}
      {events : List (QueueEvent α)} (hpc : s.consumers consumer = some pc)
      (hloop : pc.loop? = some loop)
      (hrun : loop.pc.step (s.pipeline.queues loop.group) = (queue, progress, events)) :
      Moves s (.consumer consumer)
        { s with
          pipeline := s.pipeline.setQueue loop.group queue
          consumers := Function.update s.consumers consumer
            (pc.resume (loop.resume progress)) } (events.map (Prod.mk loop.group))

theorem PipelineState.step_moves {s t : PipelineState α} {action : PipelineAction α}
    {events : List (DataGroup × QueueEvent α)} (hstep : s.step action = some (t, events)) :
    s.Moves action t events := by
  have hbegin : ∀ consumer pc group rest, pc.loop? = some (.start group rest) →
      s.begin consumer pc = some (t, events) → s.Moves action t events := by
    intro consumer pc group rest hloop hbegin
    unfold PipelineState.begin at hbegin
    split at hbegin
    next hidle =>
      cases hbegin
      exact .call hidle hloop
    next => contradiction
  cases action with
  | callPush group frame =>
      simp only [PipelineState.step] at hstep
      split at hstep
      next hidle =>
        cases hstep
        exact .callPush hidle
      next => contradiction
  | capture =>
      simp only [PipelineState.step] at hstep
      split at hstep
      next => contradiction
      next hcapture =>
        cases hstep
        exact .notify hcapture
      next group pc hcapture =>
        cases hstep
        exact .push hcapture rfl
  | callPopAll => exact hbegin _ _ _ _ rfl hstep
  | callDrain n => exact hbegin _ _ _ _ rfl hstep
  | callDrainGroup n group => exact hbegin _ _ _ _ rfl hstep
  | consumer consumer =>
      simp only [PipelineState.step] at hstep
      split at hstep
      next => contradiction
      next pc hpc =>
        split at hstep
        next hwaiting =>
          cases hstep
          exact .woken hpc hwaiting
        next loop hloop =>
          cases hstep
          exact .pop hpc hloop rfl

namespace PipelineInv

variable {history : List (DataGroup × QueueEvent α)} {s t : PipelineState α}

theorem init (queueCapacity : Nat) : PipelineInv [] (pipeline α queueCapacity).init :=
  fun _ => QueueInv.create queueCapacity

/-- The pops after one consumer changed its control state. -/
private theorem pops_update (s : PipelineState α) (group : DataGroup) (consumer : Consumer)
    (pc : Option (ConsumerPc α)) :
    (fun c => ConsumerPc.popOn group (Function.update s.consumers consumer pc c)) =
      Function.update (s.pops group) consumer (ConsumerPc.popOn group pc) := by
  funext c
  by_cases hc : c = consumer
  · subst c
    simp
  · simp [hc, PipelineState.pops]

/-- A pop that begins on a queue keeps the invariant of the queue. -/
private theorem start_or_none {q : ChannelFrameQueue α} {push : Option (PushPc α)}
    {pops : Consumer → Option (PopPc α)} {accepted : List α} {taken : List (Option α)}
    (hinv : QueueInv q push pops accepted taken) {consumer : Consumer} {pc : Option (PopPc α)}
    (hidle : pops consumer = none) (hpc : pc = none ∨ pc = some .loadTail) :
    QueueInv q push (Function.update pops consumer pc) accepted taken := by
  rcases hpc with rfl | rfl
  · rwa [← hidle, Function.update_eq_self]
  · exact hinv.start_pop hidle

/-- A consumer that begins its loops over the queues begins a pop on the first. -/
private theorem start_loops {consumer : Consumer} {pc : Option (ConsumerPc α)}
    {next : ConsumerPc α} {target : DataGroup} {rest : List DataGroup}
    (hinv : PipelineInv history s) (hpc : s.consumers consumer = pc)
    (hidle : pc.bind ConsumerPc.loop? = none) (hnext : next.loop? = some (.start target rest)) :
    PipelineInv history
      { s with consumers := Function.update s.consumers consumer (some next) } := by
  intro group
  change QueueInv _ _ (fun c => ConsumerPc.popOn group _) _ _
  rw [pops_update]
  apply start_or_none (hinv group)
  · simp [PipelineState.pops, hpc, ConsumerPc.popOn, hidle]
  · rw [ConsumerPc.popOn_of_loop hnext]
    split
    · exact .inr rfl
    · exact .inl rfl

private theorem push_step {target : DataGroup} {pc : PushPc α} {queue : ChannelFrameQueue α}
    {progress : Progress (PushPc α) Bool} {events : List (QueueEvent α)}
    (hinv : PipelineInv history s) (hcapture : s.capture = some (.pushing target pc))
    (hsafe : pc.Safe) (hrun : pc.step (s.pipeline.queues target) = (queue, progress, events)) :
    PipelineInv (history ++ events.map (Prod.mk target))
      { s with
        pipeline := s.pipeline.setQueue target queue
        capture := some (CapturePc.resume target progress) } := by
  intro group
  have hbefore := hinv group
  rw [hcapture] at hbefore
  dsimp only
  rw [CapturePc.pushOn_resume, queueHistory_append, acceptedFrames_append, takenFrames_append]
  by_cases hgroup : target = group
  · subst hgroup
    rw [if_pos rfl, DataPipeline.setQueue_self, queueHistory_map_self]
    rw [CapturePc.pushOn, if_pos rfl] at hbefore
    exact hbefore.push_step hsafe hrun
  · rw [if_neg hgroup, DataPipeline.setQueue_of_ne _ _ hgroup, queueHistory_map_of_ne hgroup,
      acceptedFrames_nil, takenFrames_nil, List.append_nil, List.append_nil]
    rw [CapturePc.pushOn, if_neg hgroup] at hbefore
    exact hbefore

private theorem pop_step {consumer : Consumer} {pc : ConsumerPc α} {loop : PopLoop α}
    {queue : ChannelFrameQueue α} {progress : Progress (PopPc α) (Option (Option α))}
    {events : List (QueueEvent α)} (hinv : PipelineInv history s)
    (hpc : s.consumers consumer = some pc) (hloop : pc.loop? = some loop)
    (hsafe : loop.pc.Safe (s.pipeline.queues loop.group) (s.pops loop.group))
    (hrun : loop.pc.step (s.pipeline.queues loop.group) = (queue, progress, events)) :
    PipelineInv (history ++ events.map (Prod.mk loop.group))
      { s with
        pipeline := s.pipeline.setQueue loop.group queue
        consumers := Function.update s.consumers consumer
          (pc.resume (loop.resume progress)) } := by
  intro group
  change QueueInv _ _ (fun c => ConsumerPc.popOn group _) _ _
  rw [pops_update, queueHistory_append, acceptedFrames_append, takenFrames_append]
  have hpop : s.pops group consumer = if loop.group = group then some loop.pc else none := by
    rw [PipelineState.pops, hpc, ConsumerPc.popOn_of_loop hloop]
  -- the queue after the step of the pop alone, before the loop begins its next one
  have hbase : QueueInv ((s.pipeline.setQueue loop.group queue).queues group)
      (CapturePc.pushOn group s.capture)
      (Function.update (s.pops group) consumer
        (if loop.group = group then progress.pc? else none))
      (acceptedFrames (queueHistory group history) ++
        acceptedFrames (queueHistory group (events.map (Prod.mk loop.group))))
      (takenFrames (queueHistory group history) ++
        takenFrames (queueHistory group (events.map (Prod.mk loop.group)))) := by
    by_cases hgroup : loop.group = group
    · subst hgroup
      rw [if_pos rfl, DataPipeline.setQueue_self, queueHistory_map_self]
      rw [if_pos rfl] at hpop
      exact (hinv loop.group).pop_step hpop hsafe hrun
    · rw [if_neg hgroup, DataPipeline.setQueue_of_ne _ _ hgroup, queueHistory_map_of_ne hgroup]
      rw [if_neg hgroup] at hpop
      rw [← hpop, Function.update_eq_self]
      simpa using hinv group
  rcases ConsumerPc.popOn_resume hloop progress group with hsame | ⟨hnone, hstart⟩
  · rw [hsame]
    exact hbase
  · rw [hstart]
    rw [hnone] at hbase
    have hnext := hbase.start_pop (Function.update_self consumer none (s.pops group))
    rwa [Function.update_idem] at hnext

/-- Every safe step of any thread keeps the invariants of all queues. -/
theorem step {action : PipelineAction α} {events : List (DataGroup × QueueEvent α)}
    (hinv : PipelineInv history s) (hsafe : s.Safe action)
    (hstep : s.step action = some (t, events)) : PipelineInv (history ++ events) t := by
  cases PipelineState.step_moves hstep with
  | @callPush target frame hidle =>
      intro group
      have hbefore := hinv group
      rw [hidle] at hbefore
      rw [List.append_nil]
      dsimp only
      by_cases hgroup : target = group
      · rw [CapturePc.pushOn, if_pos hgroup]
        exact hbefore.start_push frame
      · rw [CapturePc.pushOn, if_neg hgroup]
        exact hbefore
  | push hcapture hrun => exact hinv.push_step hcapture (hsafe _ _ hcapture) hrun
  | notify hcapture =>
      intro group
      have hbefore := hinv group
      rw [hcapture] at hbefore
      rw [List.append_nil]
      exact hbefore
  | call hidle hloop =>
      rw [List.append_nil]
      exact hinv.start_loops hidle rfl hloop
  | woken hpc hwaiting =>
      rw [List.append_nil]
      exact hinv.start_loops hpc hwaiting rfl
  | pop hpc hloop hrun => exact hinv.pop_step hpc hloop (hsafe _ _ hpc hloop) hrun

/-- No step from a state of the invariant takes a `tail_` back. -/
theorem tail_le {action : PipelineAction α} {events : List (DataGroup × QueueEvent α)}
    (hinv : PipelineInv history s) (hstep : s.step action = some (t, events))
    (group : DataGroup) : (s.pipeline.queues group).tail ≤ (t.pipeline.queues group).tail := by
  cases PipelineState.step_moves hstep with
  | callPush hidle => exact Nat.le_refl _
  | @push target pc _ _ _ hcapture hrun =>
      by_cases hgroup : target = group
      · subst hgroup
        have htail := PushPc.step_tail (s.pipeline.queues target) pc
        rw [hrun] at htail
        rw [DataPipeline.setQueue_self]
        exact htail.ge
      · rw [DataPipeline.setQueue_of_ne _ _ hgroup]
  | notify hcapture => exact Nat.le_refl _
  | call hidle hloop => exact Nat.le_refl _
  | woken hpc hwaiting => exact Nat.le_refl _
  | @pop consumer pc loop _ _ _ hpc hloop hrun =>
      by_cases hgroup : loop.group = group
      · subst hgroup
        have hpop : s.pops loop.group consumer = some loop.pc := by
          rw [PipelineState.pops, hpc, ConsumerPc.popOn_of_loop hloop, if_pos rfl]
        have hle := (hinv loop.group).pop_tail_le hpop
        rw [hrun] at hle
        rw [DataPipeline.setQueue_self]
        exact hle
      · rw [DataPipeline.setQueue_of_ne _ _ hgroup]

end PipelineInv

/-- The invariant of a queue says that its frames leave exactly once. -/
theorem QueueInv.exactlyOnce {κ : Type} {q : ChannelFrameQueue α} {push : Option (PushPc α)}
    {pops : κ → Option (PopPc α)} {accepted : List α} {taken : List (Option α)}
    (hinv : QueueInv q push pops accepted taken) : ExactlyOnce q pops accepted taken where
  tail_le := hinv.tail_le
  distance_le := by
    have hle := hinv.head_le
    omega
  published := hinv.head_eq
  taken_once := hinv.taken_eq
  kept := by
    intro k hlow hhigh
    have hlen := hinv.head_eq
    have hle := hinv.head_le
    -- only the slot at `tail_` can be empty, and then the pop that emptied it has the frame
    by_cases hheld : k = q.tail ∧ ∃ i, PopPc.Holding (pops i)
    · obtain ⟨hk, i, hhold⟩ := hheld
      refine .inr ⟨hk, i, ?_⟩
      cases hpc : pops i with
      | none => simp [hpc, PopPc.Holding] at hhold
      | some pc =>
          have hknows := hinv.pop_knows i pc hpc
          refine ⟨pc, rfl, ?_⟩
          cases pc with
          | loadTail => simp [hpc, PopPc.Holding] at hhold
          | loadHead t => simp [hpc, PopPc.Holding] at hhold
          | moveSlot t => simp [hpc, PopPc.Holding] at hhold
          | resetSlot t out => rw [PopPc.held?, hknows.2.2, hknows.1, hk]
          | storeTail t out => rw [PopPc.held?, hknows.2.2, hknows.1, hk]
    · have hslot := hinv.slots k hlow (by omega) fun htail i hhold => hheld ⟨htail, i, hhold⟩
      rw [List.getElem?_append_left (by omega)] at hslot
      exact .inl hslot

/-- Frames leave each queue exactly once in every run whose slot moves find their
`tail_` current and no other consumer before its `tail_` store, and whose `head_`
stores do not wrap. -/
theorem pipeline_exactly_once (queueCapacity : Nat) {history : List (DataGroup × QueueEvent α)}
    {s : PipelineState α}
    (hreach : (pipeline α queueCapacity).Reaches PipelineState.Safe history s) :
    PipelineContract history s := by
  have hinv : PipelineInv history s :=
    hreach.invariant PipelineInv (PipelineInv.init queueCapacity)
      fun _ _ _ _ _ _ hbefore hsafe hstep => hbefore.step hsafe hstep
  exact ⟨fun group => (hinv group).exactlyOnce, fun _ _ _ hstep group => hinv.tail_le hstep group⟩

/-- A frame is pushed and popped by the publisher, and a worker then drains. -/
def drainAfterPopAll : List (PipelineAction ChannelFrame) :=
  [.callPush .visual2D { group := .visual2D }, .capture, .capture, .capture, .capture,
    .callPopAll, .consumer .publisher, .consumer .publisher, .consumer .publisher,
    .consumer .publisher, .consumer .publisher, .callDrainGroup 0 .visual2D,
    .consumer (.worker 0), .consumer (.worker 0)]

theorem drainAfterPopAll_exactly_once :
    ∃ (history : List (DataGroup × QueueEvent ChannelFrame)) (s : PipelineState ChannelFrame),
      history = [(.visual2D, .accepted { group := .visual2D }),
        (.visual2D, .taken (some { group := .visual2D })), (.visual2D, .foundEmpty)] ∧
      PipelineContract history s := by
  have hguarded : (pipeline ChannelFrame 8).Guarded PipelineState.Safe
      (pipeline ChannelFrame 8).init drainAfterPopAll := by
    refine ⟨trivial, ?_, ?_, ?_, ?store, trivial, ?_, ?_, ?move, ?_, ?_, trivial, ?_, ?_, trivial⟩
    case store =>
      rintro _ _ ⟨⟩
      exact (by decide : 0 + 1 < wordSize)
    case move =>
      rintro _ _ ⟨⟩ ⟨⟩
      refine ⟨rfl, ?_⟩
      rintro (_ | n)
      · exact id
      · exact id
    iterate 3
      · rintro _ _ ⟨⟩
        trivial
    all_goals
      rintro _ _ ⟨⟩ ⟨⟩
      trivial
  have hrun : ((pipeline ChannelFrame 8).runFrom (pipeline ChannelFrame 8).init
      drainAfterPopAll).isSome := by decide
  obtain ⟨⟨s, history⟩, hrun⟩ := Option.isSome_iff_exists.mp hrun
  have hevents := congrArg (Option.map Prod.snd) hrun
  exact ⟨history, s, Option.some.inj (hevents.symm.trans (by decide)),
    pipeline_exactly_once 8 (Machine.Reaches.init.runGuarded hguarded hrun)⟩

/-! ## The publisher against a draining worker -/

/-- A frame is pushed; the publisher and a worker that drains its group both load
`tail_` before either moves the slot. -/
def drainBesidePopAll : List (PipelineAction ChannelFrame) :=
  [.callPush .visual2D { group := .visual2D }, .capture, .capture, .capture, .capture, .capture,
    .capture, .callPopAll, .callDrainGroup 0 .visual2D, .consumer .publisher,
    .consumer .publisher, .consumer (.worker 0), .consumer (.worker 0), .consumer .publisher,
    .consumer .publisher, .consumer (.worker 0), .consumer (.worker 0), .consumer .publisher,
    .consumer (.worker 0)]

/-- The worker's pop returns true with a null pointer for the frame the publisher
took. -/
theorem drainBesidePopAll_takes_null :
    ¬ ∀ (queueCapacity : Nat) (history : List (DataGroup × QueueEvent ChannelFrame))
      (s : PipelineState ChannelFrame),
      (pipeline ChannelFrame queueCapacity).Reachable history s → PipelineContract history s := by
  intro hcontract
  have hrun : ((pipeline ChannelFrame 8).runFrom (pipeline ChannelFrame 8).init
      drainBesidePopAll).isSome := by decide
  obtain ⟨⟨s, history⟩, hrun⟩ := Option.isSome_iff_exists.mp hrun
  have hevents := congrArg (Option.map Prod.snd) hrun
  have hhistory : history = [(.visual2D, .accepted { group := .visual2D }),
      (.visual2D, .pushReturned true), (.visual2D, .taken (some { group := .visual2D })),
      (.visual2D, .taken none)] := Option.some.inj (hevents.symm.trans (by decide))
  have htaken := (hcontract 8 history s (Machine.reachable_of_runFrom hrun)).exactly_once
    .visual2D |>.taken_once
  have hnull : none ∈ takenFrames (queueHistory .visual2D history) := by
    rw [hhistory]
    decide
  rw [htaken] at hnull
  obtain ⟨_, _, hnone⟩ := List.mem_map.mp hnull
  contradiction

end SimVision
