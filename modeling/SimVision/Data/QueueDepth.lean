import SimVision.Data.SPSCRefinement

/-! # Depth reports beside the two threads of a queue

`size` loads `head_` and then `tail_`, and a worker may be held up between the two
loads for any number of pushes and pops. The positions here are counted without
bound, so the invariant holds across the wrap of the counters as well.
-/

namespace SimVision

open Foundation

variable {α : Type}

/-! ## The counters of one queue -/

/-- What a push in progress knows of the numbers of pushes and pops so far. -/
def PushPc.Counts (pushes pops capacity : Nat) : PushPc α → Prop
  | .loadTail _ h => h = pushes % wordSize
  | .writeSlot _ h => h = pushes % wordSize ∧ pushes < pops + capacity
  | .storeHead _ h => h = pushes % wordSize ∧ pushes < pops + capacity
  | _ => True

/-- What a pop in progress knows of the numbers of pushes and pops so far. -/
def PopPc.Counts (pushes pops : Nat) : PopPc α → Prop
  | .loadTail => True
  | .loadHead t => t = pops % wordSize
  | .moveSlot t => t = pops % wordSize ∧ pops < pushes
  | .resetSlot t _ => t = pops % wordSize ∧ pops < pushes
  | .storeTail t _ => t = pops % wordSize ∧ pops < pushes

/-- The counters are the numbers of pushes and pops, modulo the word size. -/
structure Counters (q : ChannelFrameQueue α) (pushes pops : Nat) (push : Option (PushPc α))
    (pop : Option (PopPc α)) : Prop where
  capacity_lt : q.capacity < wordSize
  head_eq : q.head = pushes % wordSize
  tail_eq : q.tail = pops % wordSize
  pops_le : pops ≤ pushes
  pushes_le : pushes ≤ pops + q.capacity
  push_counts : ∀ pc, push = some pc → pc.Counts pushes pops q.capacity
  pop_counts : ∀ pc, pop = some pc → pc.Counts pushes pops

/-- The distance of two counters is the distance of the numbers they count. -/
theorem wordSub_mod {x y : Nat} (hle : y ≤ x) :
    wordSub (x % wordSize) (y % wordSize) = (x - y) % wordSize := by
  unfold wordSub wordSize
  omega

namespace Counters

variable {q q' : ChannelFrameQueue α} {pushes pops : Nat} {push : Option (PushPc α)}
  {pop : Option (PopPc α)}

theorem distance (hcounters : Counters q pushes pops push pop) :
    wordSub q.head q.tail = pushes - pops := by
  have hcap := hcounters.capacity_lt
  have hle := hcounters.pushes_le
  rw [hcounters.head_eq, hcounters.tail_eq, wordSub_mod hcounters.pops_le]
  exact Nat.mod_eq_of_lt (by omega)

/-- A step of the producer that stores neither counter. -/
private theorem with_push (hcounters : Counters q pushes pops push pop)
    (q' : ChannelFrameQueue α) (hcapacity : q'.capacity = q.capacity) (hhead : q'.head = q.head)
    (htail : q'.tail = q.tail)
    {push' : Option (PushPc α)}
    (hpush : ∀ pc, push' = some pc → pc.Counts pushes pops q.capacity) :
    Counters q' pushes pops push' pop where
  capacity_lt := hcapacity ▸ hcounters.capacity_lt
  head_eq := hhead ▸ hcounters.head_eq
  tail_eq := htail ▸ hcounters.tail_eq
  pops_le := hcounters.pops_le
  pushes_le := hcapacity ▸ hcounters.pushes_le
  push_counts := hcapacity ▸ hpush
  pop_counts := hcounters.pop_counts

/-- A step of the consumer that stores neither counter. -/
private theorem with_pop (hcounters : Counters q pushes pops push pop)
    (q' : ChannelFrameQueue α) (hcapacity : q'.capacity = q.capacity) (hhead : q'.head = q.head)
    (htail : q'.tail = q.tail)
    {pop' : Option (PopPc α)} (hpop : ∀ pc, pop' = some pc → pc.Counts pushes pops) :
    Counters q' pushes pops push pop' where
  capacity_lt := hcapacity ▸ hcounters.capacity_lt
  head_eq := hhead ▸ hcounters.head_eq
  tail_eq := htail ▸ hcounters.tail_eq
  pops_le := hcounters.pops_le
  pushes_le := hcapacity ▸ hcounters.pushes_le
  push_counts := hcapacity ▸ hcounters.push_counts
  pop_counts := hpop

/-- The `head_` store is the push. -/
private theorem store_head {frame : α} {h : Nat}
    (hcounters : Counters q pushes pops (some (.storeHead frame h)) pop) :
    Counters { q with head := wordSucc h } (pushes + 1) pops (some .countPushed) pop := by
  obtain ⟨rfl, hroom⟩ := hcounters.push_counts _ rfl
  have hle := hcounters.pops_le
  refine { hcounters with head_eq := wordSucc_mod pushes, pops_le := ?_, pushes_le := ?_,
                          push_counts := ?_, pop_counts := ?_ }
  · omega
  · dsimp only
    omega
  · rintro pc ⟨⟩
    trivial
  · intro pc hpc
    have hold := hcounters.pop_counts pc hpc
    cases pc with
    | loadTail => trivial
    | loadHead t => exact hold
    | moveSlot t => exact ⟨hold.1, Nat.lt_succ_of_lt hold.2⟩
    | resetSlot t out => exact ⟨hold.1, Nat.lt_succ_of_lt hold.2⟩
    | storeTail t out => exact ⟨hold.1, Nat.lt_succ_of_lt hold.2⟩

/-- The `tail_` store is the pop. -/
private theorem store_tail {t : Nat} {out : Option α}
    (hcounters : Counters q pushes pops push (some (.storeTail t out))) :
    Counters { q with tail := wordSucc t } pushes (pops + 1) push none := by
  obtain ⟨rfl, hsome⟩ := hcounters.pop_counts _ rfl
  have hle := hcounters.pushes_le
  refine { hcounters with tail_eq := wordSucc_mod pops, pops_le := hsome, pushes_le := ?_,
                          push_counts := ?_, pop_counts := nofun }
  · dsimp only
    omega
  · intro pc hpc
    have hold := hcounters.push_counts pc hpc
    cases pc with
    | loadHead frame => trivial
    | loadTail frame h => exact hold
    | writeSlot frame h =>
        refine ⟨hold.1, ?_⟩
        have hroom := hold.2
        dsimp only
        omega
    | storeHead frame h =>
        refine ⟨hold.1, ?_⟩
        have hroom := hold.2
        dsimp only
        omega
    | countPushed => trivial
    | countDropped => trivial

theorem push_step {pc : PushPc α} {progress : Progress (PushPc α) Bool}
    {events : List (QueueEvent α)} (hcounters : Counters q pushes pops (some pc) pop)
    (hstep : pc.step q = (q', progress, events)) :
    Counters q' (pushes + (acceptedFrames events).length) (pops + (takenFrames events).length)
      progress.pc? pop := by
  cases pc with
  | loadHead frame =>
      obtain ⟨rfl, rfl, rfl⟩ := hstep
      refine hcounters.with_push q rfl rfl rfl ?_
      rintro pc ⟨⟩
      exact hcounters.head_eq
  | loadTail frame h =>
      have hh : h = pushes % wordSize := hcounters.push_counts _ rfl
      simp only [PushPc.step] at hstep
      split at hstep
      next =>
        obtain ⟨rfl, rfl, rfl⟩ := hstep
        refine hcounters.with_push q rfl rfl rfl ?_
        rintro pc ⟨⟩
        trivial
      next hroom =>
        obtain ⟨rfl, rfl, rfl⟩ := hstep
        refine hcounters.with_push q rfl rfl rfl ?_
        rintro pc ⟨⟩
        refine ⟨hh, ?_⟩
        rw [hh, ← hcounters.head_eq, hcounters.distance] at hroom
        have hle := hcounters.pops_le
        omega
  | writeSlot frame h =>
      obtain ⟨rfl, rfl, rfl⟩ := hstep
      refine hcounters.with_push (q.store h (some frame)) rfl rfl rfl ?_
      rintro pc ⟨⟩
      exact hcounters.push_counts (.writeSlot frame h) rfl
  | storeHead frame h =>
      obtain ⟨rfl, rfl, rfl⟩ := hstep
      exact hcounters.store_head
  | countPushed =>
      obtain ⟨rfl, rfl, rfl⟩ := hstep
      refine hcounters.with_push { q with pushed := wordSucc q.pushed } rfl rfl rfl ?_
      rintro pc ⟨⟩
  | countDropped =>
      obtain ⟨rfl, rfl, rfl⟩ := hstep
      refine hcounters.with_push { q with dropped := wordSucc q.dropped } rfl rfl rfl ?_
      rintro pc ⟨⟩

theorem pop_step {pc : PopPc α} {progress : Progress (PopPc α) (Option (Option α))}
    {events : List (QueueEvent α)} (hcounters : Counters q pushes pops push (some pc))
    (hstep : pc.step q = (q', progress, events)) :
    Counters q' (pushes + (acceptedFrames events).length) (pops + (takenFrames events).length)
      push progress.pc? := by
  cases pc with
  | loadTail =>
      obtain ⟨rfl, rfl, rfl⟩ := hstep
      refine hcounters.with_pop q rfl rfl rfl ?_
      rintro pc ⟨⟩
      exact hcounters.tail_eq
  | loadHead t =>
      have ht : t = pops % wordSize := hcounters.pop_counts _ rfl
      simp only [PopPc.step] at hstep
      split at hstep
      next =>
        obtain ⟨rfl, rfl, rfl⟩ := hstep
        refine hcounters.with_pop q rfl rfl rfl ?_
        rintro pc ⟨⟩
      next hne =>
        obtain ⟨rfl, rfl, rfl⟩ := hstep
        refine hcounters.with_pop q rfl rfl rfl ?_
        rintro pc ⟨⟩
        refine ⟨ht, Nat.lt_of_le_of_ne hcounters.pops_le ?_⟩
        rintro rfl
        exact hne (hcounters.head_eq.trans ht.symm)
  | moveSlot t =>
      obtain ⟨rfl, rfl, rfl⟩ := hstep
      refine hcounters.with_pop (q.store t none) rfl rfl rfl ?_
      rintro pc ⟨⟩
      exact hcounters.pop_counts (.moveSlot t) rfl
  | resetSlot t out =>
      obtain ⟨rfl, rfl, rfl⟩ := hstep
      refine hcounters.with_pop (q.store t none) rfl rfl rfl ?_
      rintro pc ⟨⟩
      exact hcounters.pop_counts (.resetSlot t out) rfl
  | storeTail t out =>
      obtain ⟨rfl, rfl, rfl⟩ := hstep
      exact hcounters.store_tail

/-- A step of either thread, or the begin of one of its calls. -/
theorem moves {s next : SpscState α} {action : SpscAction α} {events : List (QueueEvent α)}
    (hcounters : Counters s.queue pushes pops s.push (s.pop.map Prod.snd))
    (hmoves : s.Moves action next events) :
    Counters next.queue (pushes + (acceptedFrames events).length)
      (pops + (takenFrames events).length) next.push (next.pop.map Prod.snd) := by
  cases hmoves with
  | callTryPush hidle =>
      refine hcounters.with_push s.queue rfl rfl rfl ?_
      rintro pc ⟨⟩
      trivial
  | producer hpc hrun =>
      rw [hpc] at hcounters
      exact hcounters.push_step hrun
  | callTryPop hidle =>
      refine hcounters.with_pop s.queue rfl rfl rfl ?_
      rintro pc ⟨⟩
      trivial
  | callClear hidle =>
      refine hcounters.with_pop s.queue rfl rfl rfl ?_
      rintro pc ⟨⟩
      trivial
  | @consumer call pc queue progress events hpop hrun =>
      rw [hpop] at hcounters
      have hnext := hcounters.pop_step hrun
      refine hnext.with_pop queue rfl rfl rfl ?_
      intro pc' hpc'
      -- between two pops of `clear` nothing is known, as at the begin of a call
      cases progress with
      | running pc => exact hnext.pop_counts pc' hpc'
      | returned out =>
          cases out with
          | none => contradiction
          | some frame =>
              cases call with
              | tryPop => contradiction
              | clear =>
                  cases hpc'
                  trivial

end Counters

/-! ## Workers inside `size` -/

/-- The loaded `head_` of a `size` in progress, and the number of pushes then. -/
structure DepthRead where
  head : Nat
  pushes : Nat

/-- The two threads of the queue and the workers that report its depth. The
numbers of pushes and pops are read by nothing. -/
structure DepthState (α : Type) where
  threads : SpscState α
  reports : List (Option DepthRead)
  pushes : Nat := 0
  pops : Nat := 0

inductive DepthAction (α : Type) where
  | thread (action : SpscAction α)
  /-- A worker makes the next load of `size`. -/
  | size (worker : Nat)

def DepthState.step (s : DepthState α) : DepthAction α → Option (DepthState α × List Nat)
  | .thread action =>
      (s.threads.step action).map fun (threads, events) =>
        ({ s with
          threads := threads
          pushes := s.pushes + (acceptedFrames events).length
          pops := s.pops + (takenFrames events).length }, [])
  | .size worker =>
      match s.reports[worker]? with
      | none => none
      | some none =>
          some ({ s with
            reports := s.reports.set worker (some ⟨s.threads.queue.head, s.pushes⟩) }, [])
      | some (some read) =>
          some ({ s with reports := s.reports.set worker none },
            [wordSub read.head s.threads.queue.tail])

/-- A queue with its two threads and `workers` workers; the events of a run are
the values that `size` returns. -/
def depthReports (α : Type) (capacity : UInt64) (workers : Nat) :
    Machine (DepthState α) (DepthAction α) Nat where
  init := { threads := (spsc α capacity.toNat).init, reports := List.replicate workers none }
  step := DepthState.step

/-- The condition on a step: a worker that loads `tail_` does so before any frame
is popped that was pushed after its load of `head_`. -/
def NotOvertaken (s : DepthState α) : DepthAction α → Prop
  | .size worker => ∀ read ∈ (s.reports[worker]?).join, s.pops ≤ read.pushes
  | .thread _ => True

instance (s : DepthState α) : ∀ action, Decidable (NotOvertaken s action)
  | .size worker =>
      inferInstanceAs (Decidable (∀ read ∈ (s.reports[worker]?).join, s.pops ≤ read.pushes))
  | .thread _ => .isTrue trivial

/-- What holds between the steps, together with the values returned so far. -/
structure DepthInv (history : List Nat) (s : DepthState α) : Prop where
  counters : Counters s.threads.queue s.pushes s.pops s.threads.push
    (s.threads.pop.map Prod.snd)
  reads : ∀ read, some read ∈ s.reports → read.head = read.pushes % wordSize ∧
    read.pushes ≤ s.pops + s.threads.queue.capacity
  returned : ∀ depth ∈ history, depth ≤ s.threads.queue.capacity

theorem SpscState.Moves.capacity_eq {s next : SpscState α} {action : SpscAction α}
    {events : List (QueueEvent α)} (hmoves : s.Moves action next events) :
    next.queue.capacity = s.queue.capacity := by
  cases hmoves with
  | producer hpc hrun => exact (PushPc.step_spec hrun).capacity_eq
  | consumer hpop hrun => exact (PopPc.step_spec hrun).capacity_eq
  | callTryPush hidle => rfl
  | callTryPop hidle => rfl
  | callClear hidle => rfl

namespace DepthInv

variable {history : List Nat} {s next : DepthState α}

theorem init (capacity : UInt64) (workers : Nat) :
    DepthInv [] (depthReports α capacity workers).init where
  counters :=
    { capacity_lt := by
        have hlt := capacity.toNat_lt
        change (if capacity.toNat < 1 then 1 else capacity.toNat) < 2 ^ 64
        split <;> omega
      head_eq := rfl
      tail_eq := rfl
      pops_le := Nat.le_refl _
      pushes_le := Nat.zero_le _
      push_counts := nofun
      pop_counts := nofun }
  reads := by
    intro read hread
    have hnone := List.eq_of_mem_replicate hread
    contradiction
  returned := nofun

theorem step {action : DepthAction α} {depths : List Nat} (hinv : DepthInv history s)
    (hguard : NotOvertaken s action) (hstep : s.step action = some (next, depths)) :
    DepthInv (history ++ depths) next := by
  cases action with
  | thread action =>
      obtain ⟨⟨threads, events⟩, hthreads, heq⟩ := Option.map_eq_some_iff.mp hstep
      cases heq
      have hmoves := SpscState.step_moves hthreads
      have hcapacity := hmoves.capacity_eq
      refine ⟨hinv.counters.moves hmoves, ?_, ?_⟩
      · intro read hread
        obtain ⟨hhead, hle⟩ := hinv.reads read hread
        refine ⟨hhead, ?_⟩
        dsimp only
        omega
      · rw [List.append_nil]
        dsimp only
        rw [hcapacity]
        exact hinv.returned
  | size worker =>
      simp only [DepthState.step] at hstep
      split at hstep
      next => contradiction
      next hworker =>
        cases hstep
        refine ⟨hinv.counters, ?_, ?_⟩
        · intro read hread
          rcases List.mem_or_eq_of_mem_set hread with hold | hnew
          · exact hinv.reads read hold
          · cases hnew
            exact ⟨hinv.counters.head_eq, hinv.counters.pushes_le⟩
        · rw [List.append_nil]
          exact hinv.returned
      next read hworker =>
        cases hstep
        obtain ⟨hhead, hle⟩ := hinv.reads read (List.mem_of_getElem? hworker)
        have hbefore : s.pops ≤ read.pushes := hguard read (by rw [hworker]; rfl)
        refine ⟨hinv.counters, ?_, ?_⟩
        · intro other hother
          rcases List.mem_or_eq_of_mem_set hother with hold | hnew
          · exact hinv.reads other hold
          · contradiction
        · intro depth hdepth
          rcases List.mem_append.mp hdepth with hold | hnew
          · exact hinv.returned depth hold
          · have hcap := hinv.counters.capacity_lt
            rw [List.mem_singleton.mp hnew, hhead, hinv.counters.tail_eq, wordSub_mod hbefore]
            calc (read.pushes - s.pops) % wordSize
                ≤ read.pushes - s.pops := Nat.mod_le _ _
              _ ≤ s.threads.queue.capacity := by omega

end DepthInv

/-- As long as no worker's load of `tail_` is overtaken, no report exceeds the
capacity. -/
theorem reports_le_capacity {capacity : UInt64} {workers : Nat} {history : List Nat}
    {s : DepthState α} (hreach : (depthReports α capacity workers).Reaches NotOvertaken history s) :
    ∀ depth ∈ history, depth ≤ s.threads.queue.capacity := by
  have hinv : DepthInv history s := by
    apply hreach.invariant DepthInv
    · exact .init capacity workers
    · intro before state action after depths _ hbefore hguard hstep
      exact hbefore.step hguard hstep
  exact hinv.returned

/-- One frame is pushed, a worker loads `head_`, the frame is popped, and the
worker loads `tail_`. -/
def reportAroundPop : List (DepthAction Nat) :=
  [.thread (.callTryPush 7), .thread .producer, .thread .producer, .thread .producer,
    .thread .producer, .thread .producer, .size 0, .thread .callTryPop, .thread .consumer,
    .thread .consumer, .thread .consumer, .thread .consumer, .thread .consumer, .size 0]

theorem reportAroundPop_bounded :
    ∃ history s, (depthReports Nat 1 1).runFrom (depthReports Nat 1 1).init reportAroundPop =
        some (s, history) ∧ history = [0] ∧
          ∀ depth ∈ history, depth ≤ s.threads.queue.capacity := by
  have hruns : ((depthReports Nat 1 1).runFrom (depthReports Nat 1 1).init reportAroundPop).map
      Prod.snd = some [0] := by
    decide
  obtain ⟨⟨s, history⟩, hrun, hview⟩ := Option.map_eq_some_iff.mp hruns
  have hguarded : (depthReports Nat 1 1).Guarded NotOvertaken (depthReports Nat 1 1).init
      reportAroundPop := by
    decide
  exact ⟨history, s, hrun, hview, reports_le_capacity (.runGuarded .init hguarded hrun)⟩

/-- The worker loads `head_` before the frame is pushed, and `tail_` after it is
popped. -/
def reportAroundBoth : List (DepthAction Nat) :=
  [.size 0, .thread (.callTryPush 7), .thread .producer, .thread .producer, .thread .producer,
    .thread .producer, .thread .producer, .thread .callTryPop, .thread .consumer,
    .thread .consumer, .thread .consumer, .thread .consumer, .thread .consumer, .size 0]

/-- The report of an overtaken worker wraps around. -/
theorem reportAroundBoth_wraps :
    ¬ ∀ (capacity : UInt64) (workers : Nat) (history : List Nat) (s : DepthState Nat),
      (depthReports Nat capacity workers).Reachable history s →
        ∀ depth ∈ history, depth ≤ s.threads.queue.capacity := by
  intro hclaim
  have hruns : ((depthReports Nat 1 1).runFrom (depthReports Nat 1 1).init reportAroundBoth).map
      (fun result => (result.1.threads.queue.capacity, result.2)) =
      some (1, [wordSize - 1]) := by
    decide
  obtain ⟨⟨s, history⟩, hrun, hview⟩ := Option.map_eq_some_iff.mp hruns
  simp only [Prod.mk.injEq] at hview
  obtain ⟨hcapacity, hhistory⟩ := hview
  have hbound := hclaim 1 1 history s (Machine.reachable_of_runFrom hrun) (wordSize - 1)
    (by rw [hhistory]; exact List.mem_singleton_self _)
  rw [hcapacity] at hbound
  revert hbound
  decide

end SimVision
