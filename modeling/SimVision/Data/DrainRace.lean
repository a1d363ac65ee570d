import SimVision.Data.PipelineConsumers

/-! # Draining while others pop

`drain` empties a queue that other threads are popping at the same time. A consumer
with an old value of `tail_` can move the counter back, but it loads the counter again
before it leaves the queue. Once nothing is pushed any more and every call has
returned, no queue has a position left to pop.
-/

namespace SimVision

open Foundation

variable {α : Type}

/-- A pop that does not end at this `head_`: the loop that makes it loads `tail_` again. -/
def PopPc.Returns (head : Nat) : PopPc α → Prop
  | .loadHead t => head ≠ t
  | _ => True

/-- The loop loads `tail_` of the group before it ends. -/
def PopLoop.Revisits (group : DataGroup) (head : Nat) (loop : PopLoop α) : Prop :=
  loop.group = group ∧ loop.pc.Returns head ∨ group ∈ loop.rest

theorem PopPc.step_head (q : ChannelFrameQueue α) (pc : PopPc α) : (pc.step q).1.head = q.head := by
  cases pc with
  | loadHead t =>
      simp only [PopPc.step]
      split <;> rfl
  | loadTail => rfl
  | moveSlot t => rfl
  | resetSlot t out => rfl
  | storeTail t out => rfl

/-- A step of a pop on a queue leaves the counters equal, or its loop comes back. -/
theorem PopLoop.revisits_own (loop : PopLoop α) {q : ChannelFrameQueue α}
    (hbefore : q.head = q.tail ∨ loop.Revisits loop.group q.head) :
    (loop.pc.step q).1.head = (loop.pc.step q).1.tail ∨
      ∃ later, loop.resume (loop.pc.step q).2.1 = .running later ∧
        later.Revisits loop.group (loop.pc.step q).1.head := by
  obtain ⟨group, rest, pc, out⟩ := loop
  cases pc with
  | loadTail =>
      by_cases heq : q.head = q.tail
      · exact .inl heq
      · exact .inr ⟨_, rfl, .inl ⟨rfl, heq⟩⟩
  | loadHead t =>
      by_cases heq : q.head = t
      · simp only [PopPc.step, if_pos heq]
        rcases hbefore with hequal | ⟨_, hreturns⟩ | hrest
        · exact .inl hequal
        · exact absurd heq hreturns
        · cases rest with
          | nil => exact absurd hrest List.not_mem_nil
          | cons next rest =>
              refine .inr ⟨_, rfl, ?_⟩
              rcases List.mem_cons.mp hrest with hnext | hlater
              · exact .inl ⟨hnext.symm, trivial⟩
              · exact .inr hlater
      · simp only [PopPc.step, if_neg heq]
        exact .inr ⟨_, rfl, .inl ⟨rfl, trivial⟩⟩
  | moveSlot t => exact .inr ⟨_, rfl, .inl ⟨rfl, trivial⟩⟩
  | resetSlot t taken => exact .inr ⟨_, rfl, .inl ⟨rfl, trivial⟩⟩
  | storeTail t taken => exact .inr ⟨_, rfl, .inl ⟨rfl, trivial⟩⟩

/-- A step of a pop on another queue keeps the groups that are still to come. -/
theorem PopLoop.revisits_other (loop : PopLoop α) (q : ChannelFrameQueue α) {group : DataGroup}
    {head : Nat} (hne : loop.group ≠ group) (hrevisits : loop.Revisits group head) :
    ∃ later, loop.resume (loop.pc.step q).2.1 = .running later ∧ later.Revisits group head := by
  obtain ⟨target, rest, pc, out⟩ := loop
  have hrest : group ∈ rest := hrevisits.resolve_left fun hown => hne hown.1
  cases pc with
  | loadHead t =>
      by_cases heq : q.head = t
      · simp only [PopPc.step, if_pos heq]
        cases rest with
        | nil => exact absurd hrest List.not_mem_nil
        | cons next rest =>
            refine ⟨_, rfl, ?_⟩
            rcases List.mem_cons.mp hrest with rfl | hlater
            · exact .inl ⟨rfl, trivial⟩
            · exact .inr hlater
      · simp only [PopPc.step, if_neg heq]
        exact ⟨_, rfl, .inr hrest⟩
  | loadTail => exact ⟨_, rfl, .inr hrest⟩
  | moveSlot t => exact ⟨_, rfl, .inr hrest⟩
  | resetSlot t taken => exact ⟨_, rfl, .inr hrest⟩
  | storeTail t taken => exact ⟨_, rfl, .inr hrest⟩

/-- A call whose loop goes on goes on with that loop. -/
theorem ConsumerPc.resume_running {pc : ConsumerPc α} {loop later : PopLoop α}
    (hloop : pc.loop? = some loop) :
    ∃ next, pc.resume (.running later) = some next ∧ next.loop? = some later := by
  cases pc with
  | popAllFirst loop => exact ⟨_, rfl, rfl⟩
  | waiting => contradiction
  | popAllSecond loop => exact ⟨_, rfl, rfl⟩
  | draining loop => exact ⟨_, rfl, rfl⟩

namespace PipelineState

/-- The queue of the group has nothing left, or a consumer comes back to it. -/
def Watched (group : DataGroup) (s : PipelineState α) : Prop :=
  (s.pipeline.queues group).head = (s.pipeline.queues group).tail ∨
    ∃ consumer pc loop, s.consumers consumer = some pc ∧ pc.loop? = some loop ∧
      loop.Revisits group (s.pipeline.queues group).head

/-- An action that begins a push. -/
def Pushes : PipelineAction α → Prop
  | .callPush _ _ => True
  | _ => False

theorem begin_watched {s next : PipelineState α} {consumer : Consumer} {pc : ConsumerPc α}
    {events : List (DataGroup × QueueEvent α)} {group : DataGroup}
    (hbegin : s.begin consumer pc = some (next, events)) (hwatched : s.Watched group) :
    next.capture = s.capture ∧ next.Watched group := by
  unfold begin at hbegin
  cases hidle : s.consumers consumer with
  | some busy =>
      rw [hidle] at hbegin
      contradiction
  | none =>
      rw [hidle] at hbegin
      obtain ⟨rfl, -⟩ := Prod.mk.inj (Option.some.inj hbegin)
      refine ⟨rfl, hwatched.imp id ?_⟩
      rintro ⟨other, otherPc, loop, hother, hloop, hrevisits⟩
      have hne : other ≠ consumer := by
        rintro rfl
        rw [hidle] at hother
        contradiction
      exact ⟨other, otherPc, loop, (Function.update_of_ne hne _ _).trans hother, hloop, hrevisits⟩

theorem consumer_watched {s next : PipelineState α} {consumer : Consumer}
    {events : List (DataGroup × QueueEvent α)} {group : DataGroup}
    (hstep : s.step (.consumer consumer) = some (next, events)) (hwatched : s.Watched group) :
    next.capture = s.capture ∧ next.Watched group := by
  simp only [step] at hstep
  cases hpc : s.consumers consumer with
  | none =>
      rw [hpc] at hstep
      contradiction
  | some pc =>
      rw [hpc] at hstep
      dsimp only at hstep
      -- a consumer that has not moved is a witness as before
      have hothers : ∀ (moved : PipelineState α), (∀ other, other ≠ consumer →
            moved.consumers other = s.consumers other) →
          (moved.pipeline.queues group).head = (s.pipeline.queues group).head →
          (∃ other otherPc loop, other ≠ consumer ∧ s.consumers other = some otherPc ∧
            otherPc.loop? = some loop ∧ loop.Revisits group (s.pipeline.queues group).head) →
          moved.Watched group := by
        rintro moved hkeep hhead ⟨other, otherPc, loop, hne, hother, hloop, hrevisits⟩
        exact .inr ⟨other, otherPc, loop, (hkeep other hne).trans hother, hloop, hhead ▸ hrevisits⟩
      have hsplit : ((s.pipeline.queues group).head = (s.pipeline.queues group).tail ∨
            ∃ loop, pc.loop? = some loop ∧ loop.Revisits group (s.pipeline.queues group).head) ∨
          ∃ other otherPc loop, other ≠ consumer ∧ s.consumers other = some otherPc ∧
            otherPc.loop? = some loop ∧ loop.Revisits group (s.pipeline.queues group).head := by
        rcases hwatched with hequal | ⟨other, otherPc, loop, hother, hloop, hrevisits⟩
        · exact .inl (.inl hequal)
        · by_cases heq : other = consumer
          · subst heq
            rw [hpc] at hother
            obtain rfl := Option.some.inj hother
            exact .inl (.inr ⟨loop, hloop, hrevisits⟩)
          · exact .inr ⟨other, otherPc, loop, heq, hother, hloop, hrevisits⟩
      cases hloop : pc.loop? with
      | none =>
          rw [hloop] at hstep
          obtain ⟨rfl, -⟩ := Prod.mk.inj (Option.some.inj hstep)
          refine ⟨rfl, ?_⟩
          rcases hsplit with (hequal | ⟨loop, hsome, _⟩) | hother
          · exact .inl hequal
          · rw [hloop] at hsome
            contradiction
          · exact hothers _ (fun other hne => Function.update_of_ne hne _ _) rfl hother
      | some loop =>
          rw [hloop] at hstep
          obtain ⟨rfl, -⟩ := Prod.mk.inj (Option.some.inj hstep)
          refine ⟨rfl, ?_⟩
          have hhead : ((s.pipeline.setQueue loop.group
              (loop.pc.step (s.pipeline.queues loop.group)).1).queues group).head =
              (s.pipeline.queues group).head := by
            rw [DataPipeline.setQueue_queues]
            split
            next heq => rw [PopPc.step_head, heq]
            next => rfl
          -- the loop of the moving consumer goes on where it will load the counter again
          have hgoes : ∀ later, loop.resume (loop.pc.step (s.pipeline.queues loop.group)).2.1 =
                .running later → later.Revisits group (s.pipeline.queues group).head →
              Watched group ⟨s.pipeline.setQueue loop.group
                  (loop.pc.step (s.pipeline.queues loop.group)).1, s.capture,
                Function.update s.consumers consumer (pc.resume (loop.resume
                  (loop.pc.step (s.pipeline.queues loop.group)).2.1))⟩ := by
            intro later hresume hrevisits
            obtain ⟨nextPc, hnext, hlater⟩ := @ConsumerPc.resume_running _ _ _ later hloop
            refine .inr ⟨consumer, nextPc, later, ?_, hlater, hhead ▸ hrevisits⟩
            rw [hresume]
            exact (Function.update_self ..).trans hnext
          rcases hsplit with hmine | hother
          · have hmine : (s.pipeline.queues group).head = (s.pipeline.queues group).tail ∨
                loop.Revisits group (s.pipeline.queues group).head := by
              refine hmine.imp id ?_
              rintro ⟨same, hsame, hrevisits⟩
              rw [hloop] at hsame
              rwa [Option.some.inj hsame]
            by_cases hgroup : loop.group = group
            · subst hgroup
              rcases loop.revisits_own hmine with hequal | ⟨later, hresume, hrevisits⟩
              · refine .inl ?_
                rw [DataPipeline.setQueue_self]
                exact hequal
              · rw [PopPc.step_head] at hrevisits
                exact hgoes later hresume hrevisits
            · rcases hmine with hequal | hrevisits
              · refine .inl ?_
                rw [DataPipeline.setQueue_of_ne _ _ hgroup]
                exact hequal
              · obtain ⟨later, hresume, hlater⟩ := loop.revisits_other _ hgroup hrevisits
                exact hgoes later hresume hlater
          · exact hothers _ (fun other hne => Function.update_of_ne hne _ _) hhead hother

/-- While nothing is pushed, every step keeps watch over the queue. -/
theorem step_watched {s next : PipelineState α} {action : PipelineAction α}
    {events : List (DataGroup × QueueEvent α)} {group : DataGroup} (hquiet : ¬ Pushes action)
    (hcapture : s.capture = none) (hwatched : s.Watched group)
    (hstep : s.step action = some (next, events)) :
    next.capture = none ∧ next.Watched group := by
  rw [← hcapture]
  cases action with
  | callPush target frame => exact absurd trivial hquiet
  | capture =>
      simp only [step, hcapture] at hstep
      contradiction
  | callPopAll => exact begin_watched hstep hwatched
  | callDrain n => exact begin_watched hstep hwatched
  | callDrainGroup n target => exact begin_watched hstep hwatched
  | consumer consumer => exact consumer_watched hstep hwatched

/-- A consumer that begins to drain will come to every queue. -/
theorem callDrain_watched {s next : PipelineState α} {n : Nat}
    {events : List (DataGroup × QueueEvent α)} (hstep : s.step (.callDrain n) = some (next, events))
    (group : DataGroup) : next.capture = s.capture ∧ next.Watched group := by
  simp only [step, begin] at hstep
  split at hstep
  next =>
    obtain ⟨rfl, -⟩ := Prod.mk.inj (Option.some.inj hstep)
    refine ⟨rfl, .inr ⟨.worker n, _, _, Function.update_self .., rfl, ?_⟩⟩
    cases group with
    | visual2D => exact .inl ⟨rfl, trivial⟩
    | visual3D => exact .inr List.mem_cons_self
    | sensorData => exact .inr (List.mem_cons_of_mem _ List.mem_cons_self)
  next => contradiction

/-- With every call returned, a watched queue is empty. -/
theorem Watched.isEmpty {s : PipelineState α} {group : DataGroup} (hwatched : s.Watched group)
    (hidle : ∀ consumer, s.consumers consumer = none) :
    (s.pipeline.queues group).isEmpty = true := by
  rcases hwatched with hequal | ⟨consumer, pc, _, hpc, _⟩
  · exact decide_eq_true hequal
  · rw [hidle] at hpc
    contradiction

end PipelineState

/-- Once pushing has ended, a drain leaves every queue empty when all calls have
returned, whatever other consumers do in the meantime. -/
theorem drain_leaves_empty {queueCapacity n : Nat} {s final : PipelineState α}
    {after : List (PipelineAction α)} {history : List (DataGroup × QueueEvent α)}
    (hcapture : s.capture = none) (hquiet : ∀ action ∈ after, ¬ PipelineState.Pushes action)
    (hrun : (pipeline α queueCapacity).runFrom s (.callDrain n :: after) = some (final, history))
    (hidle : ∀ consumer, final.consumers consumer = none) (group : DataGroup) :
    (final.pipeline.queues group).isEmpty = true := by
  simp only [Machine.runFrom] at hrun
  split at hrun
  next => contradiction
  next started events hdrain =>
    split at hrun
    next => contradiction
    next last later hafter =>
      obtain ⟨rfl, -⟩ := Prod.mk.inj (Option.some.inj hrun)
      obtain ⟨hsame, hwatched⟩ := PipelineState.callDrain_watched hdrain group
      have hkept := Machine.runFrom_invariant (M := pipeline α queueCapacity)
        (fun s => s.capture = none ∧ s.Watched group)
        (fun _ _ _ _ hinv hallowed hstep =>
          PipelineState.step_watched hallowed hinv.1 hinv.2 hstep) hquiet
        ⟨hsame.trans hcapture, hwatched⟩ hafter
      exact hkept.2.isEmpty hidle

/-- One frame is pushed. -/
def oneFramePushed : List (PipelineAction Nat) :=
  .callPush .visual2D 7 :: List.replicate 6 .capture

/-- The publisher stores `tail_` after a worker has found the queue empty. -/
def staleStore : List (PipelineAction Nat) :=
  [.callPopAll] ++ List.replicate 4 (.consumer .publisher) ++
    List.replicate 11 (.consumer (.worker 0)) ++ List.replicate 7 (.consumer .publisher)

theorem staleStore_leaves_empty :
    ∃ s final history, (pipeline Nat 2).runFrom s (.callDrain 0 :: staleStore) =
        some (final, history) ∧
      ∀ group, (final.pipeline.queues group).isEmpty = true := by
  have hpushed : ((pipeline Nat 2).runFrom (pipeline Nat 2).init oneFramePushed).map
      (fun result => result.1.capture.isNone) = some true := by
    decide +kernel
  obtain ⟨⟨s, _⟩, hstart, hcapture⟩ := Option.map_eq_some_iff.mp hpushed
  have hruns : ∀ consumer, (((pipeline Nat 2).runFrom (pipeline Nat 2).init oneFramePushed).bind
      fun before => (pipeline Nat 2).runFrom before.1 (.callDrain 0 :: staleStore)).map
        (fun result => (result.1.consumers consumer).isNone) = some true := by
    intro consumer
    cases consumer with
    | publisher => decide +kernel
    | worker n =>
        cases n with
        | zero => decide +kernel
        | succ n => rfl
  simp only [hstart, Option.bind_some] at hruns
  obtain ⟨⟨final, history⟩, hrun, -⟩ := Option.map_eq_some_iff.mp (hruns .publisher)
  have hidle : ∀ consumer, final.consumers consumer = none := by
    intro consumer
    have hnone := hruns consumer
    rw [hrun] at hnone
    exact Option.isNone_iff_eq_none.mp (Option.some.inj hnone)
  have hquiet : ∀ action ∈ staleStore, ¬ PipelineState.Pushes action := by
    unfold staleStore
    simp only [List.mem_append, List.mem_singleton, List.mem_replicate]
    rintro action (((rfl | ⟨_, rfl⟩) | ⟨_, rfl⟩) | ⟨_, rfl⟩) hpush <;> exact hpush
  exact ⟨s, final, history, hrun,
    drain_leaves_empty (Option.isNone_iff_eq_none.mp hcapture) hquiet hrun hidle⟩

end SimVision
