import SimVision.Data.DataPipeline
import SimVision.Foundation.Machine

/-! # Waiting for frames

The publisher sleeps in `pop_all` until a push has set `notified_`. It clears the
flag after waking and pops again outside the lock, and it returns early without
clearing it. Here each `try_push` and `try_pop` is one step, and so is each access
to the mutex, the flag and the condition variable.
-/

namespace SimVision

open Foundation

variable {α : Type}

/-- A frame with the number of the push it belongs to. -/
structure Pushed (α : Type) where
  serial : Nat
  frame : α
  deriving DecidableEq

/-- Where a `push` stands after its `try_push`, whose return value is `ok`. -/
inductive ProducerPhase (α : Type) where
  | idle
  | locks (group : DataGroup) (frame : Pushed α) (ok : Bool)
  | sets (group : DataGroup) (frame : Pushed α) (ok : Bool)
  | unlocks (ok : Bool)
  | notifies (ok : Bool)

/-- Where a `pop_all` stands: the loops over the queues before the wait and after
it, and the steps of the wait in between. -/
inductive PopAllPhase (α : Type) where
  | idle
  | pops (groups : List DataGroup) (out : List (Option (Pushed α)))
  | locks
  | checks
  | blocked
  | relocks (timedOut : Bool)
  | clears
  | unlocks
  | popsAgain (groups : List DataGroup) (out : List (Option (Pushed α)))

inductive WakeEvent (α : Type) where
  | pushReturned (ok : Bool)
  | popAllReturned (out : List (Option (Pushed α))) (any : Bool)

/-- The pipeline with its mutex and the two threads. The number of pushes begun
only tells their frames apart. -/
structure WakeState (α : Type) where
  pipeline : DataPipeline (Pushed α)
  locked : Bool := false
  producer : ProducerPhase α := .idle
  consumer : PopAllPhase α := .idle
  begun : Nat := 0

inductive WakeAction (α : Type) where
  | push (group : DataGroup) (frame : α)
  | producer
  | consumer
  /-- A blocked consumer times out or wakes spuriously. -/
  | wake (timedOut : Bool)
  /-- Another thread's drain makes one `try_pop`. -/
  | drain (group : DataGroup)

namespace WakeState

/-- The steps of `push` after `try_push`. -/
def producerStep (s : WakeState α) : Option (WakeState α × List (WakeEvent α)) :=
  match s.producer with
  | .idle => none
  | .locks group frame ok =>
      if s.locked then none
      else some ({ s with locked := true, producer := .sets group frame ok }, [])
  | .sets _ _ ok =>
      some ({ s with
        pipeline := { s.pipeline with notified := true }
        producer := .unlocks ok }, [])
  | .unlocks ok => some ({ s with locked := false, producer := .notifies ok }, [])
  | .notifies ok =>
      some ({ s with
        producer := .idle
        -- `notify_one` is lost unless the consumer waits
        consumer := match s.consumer with
          | .blocked => .relocks false
          | phase => phase }, [.pushReturned ok])

/-- The steps of `pop_all`. -/
def consumerStep (s : WakeState α) : Option (WakeState α × List (WakeEvent α)) :=
  match s.consumer with
  | .idle => some ({ s with consumer := .pops popOrder [] }, [])
  | .pops [] out =>
      if out = [] then some ({ s with consumer := .locks }, [])
      else some ({ s with consumer := .idle }, [.popAllReturned out true])
  | .pops (group :: rest) out =>
      match (s.pipeline.queues group).tryPop with
      | (queue, some f) =>
          some ({ s with
            pipeline := s.pipeline.setQueue group queue
            consumer := .pops (group :: rest) (out ++ [f]) }, [])
      | (_, none) => some ({ s with consumer := .pops rest out }, [])
  | .locks => if s.locked then none else some ({ s with locked := true, consumer := .checks }, [])
  | .checks =>
      if s.pipeline.notified then some ({ s with consumer := .clears }, [])
      else some ({ s with locked := false, consumer := .blocked }, [])
  | .blocked => none
  | .relocks timedOut =>
      if s.locked then none
      -- after a time-out the value of the predicate is returned and ignored
      else some ({ s with
        locked := true
        consumer := if timedOut then .clears else .checks }, [])
  | .clears =>
      some ({ s with
        pipeline := { s.pipeline with notified := false }
        consumer := .unlocks }, [])
  | .unlocks => some ({ s with locked := false, consumer := .popsAgain popOrder [] }, [])
  | .popsAgain [] out =>
      some ({ s with consumer := .idle }, [.popAllReturned out (!out.isEmpty)])
  | .popsAgain (group :: rest) out =>
      match (s.pipeline.queues group).tryPop with
      | (queue, some f) =>
          some ({ s with
            pipeline := s.pipeline.setQueue group queue
            consumer := .popsAgain (group :: rest) (out ++ [f]) }, [])
      | (_, none) => some ({ s with consumer := .popsAgain rest out }, [])

def step (s : WakeState α) : WakeAction α → Option (WakeState α × List (WakeEvent α))
  | .push group frame =>
      match s.producer with
      | .idle =>
          let pushed : Pushed α := ⟨s.begun, frame⟩
          let (queue, ok) := (s.pipeline.queues group).tryPush pushed
          some ({ s with
            pipeline := s.pipeline.setQueue group queue
            producer := .locks group pushed ok
            begun := s.begun + 1 }, [])
      | _ => none
  | .producer => s.producerStep
  | .consumer => s.consumerStep
  | .wake timedOut =>
      match s.consumer with
      | .blocked => some ({ s with consumer := .relocks timedOut }, [])
      | _ => none
  | .drain group =>
      some ({ s with
        pipeline := s.pipeline.setQueue group (s.pipeline.queues group).tryPop.1 }, [])

end WakeState

/-- A pipeline with its producer, its consumer and any number of drains. -/
def wakeups (α : Type) (queueCapacity : Nat) :
    Machine (WakeState α) (WakeAction α) (WakeEvent α) where
  init := { pipeline := .create queueCapacity }
  step := WakeState.step

/-- The steps of `push` without interference compute `push`. -/
theorem push_alone (queueCapacity : Nat) {s : WakeState α} (hidle : s.producer = .idle)
    (hfree : s.locked = false) (group : DataGroup) (frame : α) :
    ∃ consumer, (wakeups α queueCapacity).runFrom s
      (.push group frame :: List.replicate 4 .producer) =
        some ({ s with
          pipeline := (s.pipeline.push group ⟨s.begun, frame⟩).1
          consumer := consumer
          begun := s.begun + 1 },
          [.pushReturned (s.pipeline.push group ⟨s.begun, frame⟩).2]) := by
  refine ⟨match s.consumer with
    | .blocked => .relocks false
    | phase => phase, ?_⟩
  simp only [List.replicate, Machine.runFrom, wakeups, WakeState.step, WakeState.producerStep,
    hidle, hfree, DataPipeline.push, List.nil_append, List.append_nil, Bool.false_eq_true, if_false]

/-! ## What the flag stands for -/

/-- A frame between the two counters of a queue. -/
def ChannelFrameQueue.Queued (q : ChannelFrameQueue α) (frame : α) : Prop :=
  ∃ offset < q.size, q.load ((q.tail + offset) % wordSize) = some frame

namespace ChannelFrameQueue

variable {q : ChannelFrameQueue α}

theorem isEmpty_tryPop (hempty : q.isEmpty = true) : q.tryPop.1.isEmpty = true := by
  have heq : q.head = q.tail := of_decide_eq_true hempty
  rw [tryPop, if_pos heq]
  exact hempty

theorem isEmpty_tryPop_of_size (hwords : q.Words) (hsize : q.size = 1) :
    q.tryPop.1.isEmpty = true := by
  have hne : q.head ≠ q.tail := by
    intro heq
    rw [size, heq, wordSub_self] at hsize
    contradiction
  rw [isEmpty_iff_size hwords.tryPop, tryPop, if_neg hne]
  simp only [size, store_head]
  rw [wordSub_wordSucc hwords.head_lt hwords.tail_lt hne, ← size, hsize]

/-- An empty queue refuses a frame or holds that frame alone. -/
theorem tryPush_of_isEmpty (hwords : q.Words) (hempty : q.isEmpty = true) (frame : α) :
    (q.tryPush frame).1.isEmpty = true ∨ (q.tryPush frame).1.size = 1 ∧
      (q.tryPush frame).1.load (q.tryPush frame).1.tail = some frame := by
  have heq : q.head = q.tail := of_decide_eq_true hempty
  unfold tryPush
  split
  next => exact .inl hempty
  next =>
    right
    constructor
    · simp only [size, store_tail]
      have hlt := hwords.tail_lt
      rw [heq, wordSub, wordSucc]
      unfold wordSize at *
      omega
    · change (q.store q.head (some frame)).load q.tail = some frame
      rw [← heq]
      exact load_store_self q q.head (some frame)

end ChannelFrameQueue

/-- The frame whose push has not set `notified_` yet, with its group. -/
def ProducerPhase.unset? : ProducerPhase α → Option (DataGroup × Pushed α)
  | .locks group frame _ => some (group, frame)
  | .sets group frame _ => some (group, frame)
  | _ => none

/-- The queues that the second round of `pop_all` has not found empty yet. Its
flag is cleared before the round begins. -/
def PopAllPhase.toVisit : PopAllPhase α → List DataGroup
  | .unlocks => popOrder
  | .popsAgain groups _ => groups
  | _ => []

/-- The consumer is blocked in `wait_for`, or about to enter it. -/
def PopAllPhase.waits : PopAllPhase α → Bool
  | .locks => true
  | .checks => true
  | .blocked => true
  | _ => false

/-- A queue is empty but for the frame of a push that has not set the flag. -/
def DataPipeline.Fresh (p : DataPipeline (Pushed α)) (unset : Option (DataGroup × Pushed α))
    (group : DataGroup) : Prop :=
  (p.queues group).isEmpty = true ∨
    ∃ frame, unset = some (group, frame) ∧ (p.queues group).size = 1 ∧
      (p.queues group).load (p.queues group).tail = some frame

namespace DataPipeline.Fresh

variable {p : DataPipeline (Pushed α)} {unset : Option (DataGroup × Pushed α)} {group : DataGroup}

/-- A `try_pop` on any queue leaves a fresh one fresh. -/
theorem pop (hfresh : p.Fresh unset group) (hwords : p.Words) (target : DataGroup) :
    (p.setQueue target (p.queues target).tryPop.1).Fresh unset group := by
  by_cases heq : group = target
  · subst target
    left
    rw [setQueue_queues, if_pos rfl]
    rcases hfresh with hempty | ⟨frame, _, hsize, _⟩
    · exact ChannelFrameQueue.isEmpty_tryPop hempty
    · exact ChannelFrameQueue.isEmpty_tryPop_of_size (hwords group) hsize
  · rw [Fresh, setQueue_queues, if_neg heq]
    exact hfresh

/-- A `try_push` leaves at most its own frame in an empty queue. -/
theorem push (hfresh : p.Fresh none group) (hwords : p.Words) (target : DataGroup)
    (frame : Pushed α) :
    (p.setQueue target ((p.queues target).tryPush frame).1).Fresh (some (target, frame)) group := by
  have hempty : (p.queues group).isEmpty = true := by
    rcases hfresh with hempty | ⟨_, hnone, _⟩
    · exact hempty
    · contradiction
  by_cases heq : group = target
  · subst target
    rw [Fresh, setQueue_queues, if_pos rfl]
    rcases ChannelFrameQueue.tryPush_of_isEmpty (hwords group) hempty frame with hstill | hone
    · exact .inl hstill
    · exact .inr ⟨frame, rfl, hone⟩
  · left
    rw [setQueue_queues, if_neg heq]
    exact hempty

/-- Every frame in a fresh queue is that of the push that has not set the flag. -/
theorem eq_of_queued (hfresh : p.Fresh unset group) (hwords : p.Words) {frame : Pushed α}
    (hqueued : (p.queues group).Queued frame) : unset = some (group, frame) := by
  obtain ⟨offset, hlt, hload⟩ := hqueued
  rcases hfresh with hempty | ⟨pending, hpending, hsize, hpendingLoad⟩
  · rw [ChannelFrameQueue.isEmpty_iff_size (hwords group)] at hempty
    omega
  · obtain rfl : offset = 0 := by omega
    rw [Nat.add_zero, Nat.mod_eq_of_lt (hwords group).tail_lt, hpendingLoad] at hload
    rw [hpending, Option.some.inj hload]

end DataPipeline.Fresh

/-- The invariant: while the flag is down, a queue that is not still to be visited
holds nothing but the frame of a push that has not set the flag. -/
structure WakeInv (s : WakeState α) : Prop where
  words : s.pipeline.Words
  fresh : s.pipeline.notified = false → ∀ group, group ∉ s.consumer.toVisit →
    s.pipeline.Fresh s.producer.unset? group
  blocked : s.consumer = .blocked → s.pipeline.notified = true →
    ∃ ok, s.producer = .unlocks ok ∨ s.producer = .notifies ok

namespace WakeInv

variable {s next : WakeState α} {events : List (WakeEvent α)}

theorem init (queueCapacity : Nat) : WakeInv (wakeups α queueCapacity).init where
  words := .create queueCapacity
  fresh := fun _ _ _ => .inl rfl
  blocked := nofun

/-- A step of the consumer inside or around the wait that leaves the queues and
the flag alone. -/
private theorem with_consumer (hinv : WakeInv s) (locked : Bool) {consumer : PopAllPhase α}
    (hvisit : ∀ group, group ∉ consumer.toVisit → group ∈ s.consumer.toVisit →
      (s.pipeline.queues group).isEmpty = true)
    (hblocked : consumer = .blocked → s.pipeline.notified = false) :
    WakeInv { s with locked := locked, consumer := consumer } where
  words := hinv.words
  fresh := by
    intro hdown group hnot
    by_cases hbefore : group ∈ s.consumer.toVisit
    · exact .inl (hvisit group hnot hbefore)
    · exact hinv.fresh hdown group hbefore
  blocked := by
    intro hnow hup
    rw [hblocked hnow] at hup
    contradiction

/-- A `try_pop`, by whichever thread. -/
private theorem with_pop (hinv : WakeInv s) (group : DataGroup) {consumer : PopAllPhase α}
    (hvisit : consumer.toVisit = s.consumer.toVisit)
    (hblocked : consumer = .blocked → s.consumer = .blocked) :
    WakeInv { s with
      pipeline := s.pipeline.setQueue group (s.pipeline.queues group).tryPop.1
      consumer := consumer } where
  words := hinv.words.setQueue (hinv.words group).tryPop
  fresh := by
    intro hdown other hnot
    rw [hvisit] at hnot
    exact (hinv.fresh hdown other hnot).pop hinv.words group
  blocked := fun hnow hup => hinv.blocked (hblocked hnow) hup

theorem push (hinv : WakeInv s) (hidle : s.producer = .idle) (group : DataGroup) (frame : α) :
    WakeInv { s with
      pipeline := s.pipeline.setQueue group
        ((s.pipeline.queues group).tryPush ⟨s.begun, frame⟩).1
      producer := .locks group ⟨s.begun, frame⟩
        ((s.pipeline.queues group).tryPush ⟨s.begun, frame⟩).2
      begun := s.begun + 1 } where
  words := hinv.words.setQueue ((hinv.words group).tryPush _)
  fresh := by
    intro hdown other hnot
    have hbefore := hinv.fresh hdown other hnot
    rw [hidle] at hbefore
    exact hbefore.push hinv.words group _
  blocked := by
    intro hnow hup
    obtain ⟨ok, hphase | hphase⟩ := hinv.blocked hnow hup
    · rw [hidle] at hphase
      contradiction
    · rw [hidle] at hphase
      contradiction

theorem producerStep (hinv : WakeInv s) (hstep : s.producerStep = some (next, events)) :
    WakeInv next := by
  unfold WakeState.producerStep at hstep
  split at hstep
  next => contradiction
  next group frame ok hphase =>
    split at hstep
    next => contradiction
    next =>
      cases hstep
      have hunset : (ProducerPhase.sets group frame ok).unset? = s.producer.unset? := by
        rw [hphase]
        rfl
      refine ⟨hinv.words, ?_, ?_⟩
      · dsimp only
        rw [hunset]
        exact hinv.fresh
      · intro hnow hup
        obtain ⟨_, hbefore | hbefore⟩ := hinv.blocked hnow hup
        · rw [hphase] at hbefore
          contradiction
        · rw [hphase] at hbefore
          contradiction
  next group frame ok hphase =>
    cases hstep
    exact ⟨hinv.words, nofun, fun _ _ => ⟨ok, .inl rfl⟩⟩
  next ok hphase =>
    cases hstep
    have hfresh := hinv.fresh
    rw [hphase] at hfresh
    exact ⟨hinv.words, hfresh, fun _ _ => ⟨ok, .inr rfl⟩⟩
  next ok hphase =>
    cases hstep
    have hfresh := hinv.fresh
    rw [hphase] at hfresh
    refine ⟨hinv.words, ?_, ?_⟩
    · intro hdown group hnot
      apply hfresh hdown group
      dsimp only at hnot
      split at hnot
      next hblocked =>
        rw [hblocked]
        exact hnot
      next => exact hnot
    · intro hnow
      dsimp only at hnow
      split at hnow
      next => contradiction
      next hother => exact absurd hnow hother

theorem consumerStep (hinv : WakeInv s) (hstep : s.consumerStep = some (next, events)) :
    WakeInv next := by
  unfold WakeState.consumerStep at hstep
  split at hstep
  next hphase =>
    cases hstep
    exact hinv.with_consumer s.locked (by rw [hphase]; exact fun _ _ => nofun) nofun
  next out hphase =>
    split at hstep
    next =>
      cases hstep
      exact hinv.with_consumer s.locked (by rw [hphase]; exact fun _ _ => nofun) nofun
    next =>
      cases hstep
      exact hinv.with_consumer s.locked (by rw [hphase]; exact fun _ _ => nofun) nofun
  next group rest out hphase =>
    split at hstep
    next queue f hpop =>
      cases hstep
      have hqueue : queue = (s.pipeline.queues group).tryPop.1 := by rw [hpop]
      rw [hqueue]
      exact hinv.with_pop group (by rw [hphase]; rfl) nofun
    next =>
      cases hstep
      exact hinv.with_consumer s.locked (by rw [hphase]; exact fun _ _ => nofun) nofun
  next hphase =>
    split at hstep
    next => contradiction
    next =>
      cases hstep
      exact hinv.with_consumer true (by rw [hphase]; exact fun _ _ => nofun) nofun
  next hphase =>
    split at hstep
    next =>
      cases hstep
      exact hinv.with_consumer s.locked (by rw [hphase]; exact fun _ _ => nofun) nofun
    next hdown =>
      cases hstep
      exact hinv.with_consumer false (by rw [hphase]; exact fun _ _ => nofun)
        fun _ => Bool.eq_false_iff.mpr hdown
  next => contradiction
  next timedOut hphase =>
    split at hstep
    next => contradiction
    next =>
      cases hstep
      refine hinv.with_consumer true (by rw [hphase]; exact fun _ _ => nofun) ?_
      cases timedOut with
      | true => exact nofun
      | false => exact nofun
  next hphase =>
    cases hstep
    refine ⟨hinv.words, ?_, nofun⟩
    -- everything is still to be visited once the flag is down
    intro _ group hnot
    exact absurd (DataPipeline.mem_popOrder group) hnot
  next hphase =>
    cases hstep
    exact hinv.with_consumer false (by rw [hphase]; exact fun _ hnot hmem => absurd hmem hnot) nofun
  next out hphase =>
    cases hstep
    exact hinv.with_consumer s.locked (by rw [hphase]; exact fun _ _ => nofun) nofun
  next group rest out hphase =>
    split at hstep
    next queue f hpop =>
      cases hstep
      have hqueue : queue = (s.pipeline.queues group).tryPop.1 := by rw [hpop]
      rw [hqueue]
      exact hinv.with_pop group (by rw [hphase]; rfl) nofun
    next queue hpop =>
      cases hstep
      refine hinv.with_consumer s.locked ?_ nofun
      intro other hnot hmem
      rw [hphase] at hmem
      -- the queue that drops out of the round is the one just found empty
      rcases List.mem_cons.mp hmem with rfl | hrest
      · exact ChannelFrameQueue.tryPop_eq_none.mp (congrArg Prod.snd hpop)
      · exact absurd hrest hnot

theorem step {action : WakeAction α} (hinv : WakeInv s)
    (hstep : s.step action = some (next, events)) : WakeInv next := by
  cases action with
  | push group frame =>
      simp only [WakeState.step] at hstep
      split at hstep
      next hidle =>
        cases hstep
        exact hinv.push hidle group frame
      next => contradiction
  | producer => exact hinv.producerStep hstep
  | consumer => exact hinv.consumerStep hstep
  | wake timedOut =>
      simp only [WakeState.step] at hstep
      split at hstep
      next hphase =>
        cases hstep
        exact hinv.with_consumer s.locked (by rw [hphase]; exact fun _ _ => nofun) nofun
      next => contradiction
  | drain group =>
      simp only [WakeState.step] at hstep
      cases hstep
      exact hinv.with_pop group rfl fun hnow => hnow

end WakeInv

/-- A step of `pop_all` is silent, or its return. -/
theorem WakeState.consumerStep_returns {s next : WakeState α} {events : List (WakeEvent α)}
    (hstep : s.consumerStep = some (next, events)) : events = [] ∨ next.consumer = .idle := by
  unfold consumerStep at hstep
  split at hstep
  next =>
    cases hstep
    exact .inl rfl
  next =>
    split at hstep
    next =>
      cases hstep
      exact .inl rfl
    next =>
      cases hstep
      exact .inr rfl
  next =>
    split at hstep
    next =>
      cases hstep
      exact .inl rfl
    next =>
      cases hstep
      exact .inl rfl
  next =>
    split at hstep
    next => contradiction
    next =>
      cases hstep
      exact .inl rfl
  next =>
    split at hstep
    next =>
      cases hstep
      exact .inl rfl
    next =>
      cases hstep
      exact .inl rfl
  next => contradiction
  next =>
    split at hstep
    next => contradiction
    next =>
      cases hstep
      exact .inl rfl
  next =>
    cases hstep
    exact .inl rfl
  next =>
    cases hstep
    exact .inl rfl
  next =>
    cases hstep
    exact .inr rfl
  next =>
    split at hstep
    next =>
      cases hstep
      exact .inl rfl
    next =>
      cases hstep
      exact .inl rfl

/-- Only the consumer returns from `pop_all`. -/
theorem WakeState.idle_of_returned {s next : WakeState α} {action : WakeAction α}
    {events : List (WakeEvent α)} {out : List (Option (Pushed α))} {any : Bool}
    (hstep : s.step action = some (next, events)) (hreturned : .popAllReturned out any ∈ events) :
    next.consumer = .idle := by
  cases action with
  | push group frame =>
      simp only [WakeState.step] at hstep
      split at hstep
      next =>
        cases hstep
        exact absurd hreturned List.not_mem_nil
      next => contradiction
  | producer =>
      simp only [WakeState.step, producerStep] at hstep
      split at hstep
      next => contradiction
      next =>
        split at hstep
        next => contradiction
        next =>
          cases hstep
          exact absurd hreturned List.not_mem_nil
      next =>
        cases hstep
        exact absurd hreturned List.not_mem_nil
      next =>
        cases hstep
        exact absurd hreturned List.not_mem_nil
      next =>
        cases hstep
        have hother := List.mem_singleton.mp hreturned
        contradiction
  | consumer =>
      rcases consumerStep_returns hstep with hsilent | hidle
      · rw [hsilent] at hreturned
        exact absurd hreturned List.not_mem_nil
      · exact hidle
  | wake timedOut =>
      simp only [WakeState.step] at hstep
      split at hstep
      next =>
        cases hstep
        exact absurd hreturned List.not_mem_nil
      next => contradiction
  | drain group =>
      simp only [WakeState.step] at hstep
      cases hstep
      exact absurd hreturned List.not_mem_nil

section Runs

variable {queueCapacity : Nat} {history : List (WakeEvent α)} {s : WakeState α}

theorem wakeInv_of_reaches {guard : WakeState α → WakeAction α → Prop}
    (hreach : (wakeups α queueCapacity).Reaches guard history s) : WakeInv s := by
  apply hreach.invariant fun _ s => WakeInv s
  · exact .init queueCapacity
  · intro _ before action after _ _ hbefore _ hstep
    exact hbefore.step hstep

/-- A consumer that waits with the flag down misses only the frame of a push that
has still to set it; when `pop_all` returns false between pushes, the queues are
empty or the flag is up; and whoever raises the flag of a blocked consumer has
still to notify it. -/
theorem no_lost_wakeup (hreach : (wakeups α queueCapacity).Reachable history s) :
    (s.consumer.waits = true → s.pipeline.notified = false →
        ∀ group frame, (s.pipeline.queues group).Queued frame →
          s.producer.unset? = some (group, frame)) ∧
      (∀ action next events out, (wakeups α queueCapacity).step s action = some (next, events) →
        .popAllReturned out false ∈ events → next.producer = .idle →
        (∀ group, (next.pipeline.queues group).isEmpty = true) ∨ next.pipeline.notified = true) ∧
      (s.consumer = .blocked → s.pipeline.notified = true →
        ∃ ok, s.producer = .unlocks ok ∨ s.producer = .notifies ok) := by
  have hinv := wakeInv_of_reaches hreach
  refine ⟨?_, ?_, hinv.blocked⟩
  · intro hwaits hdown group frame hqueued
    have hnone : s.consumer.toVisit = [] := by
      cases hphase : s.consumer with
      | unlocks =>
          rw [hphase] at hwaits
          contradiction
      | popsAgain groups out =>
          rw [hphase] at hwaits
          contradiction
      | _ => rfl
    refine (hinv.fresh hdown group ?_).eq_of_queued hinv.words hqueued
    rw [hnone]
    exact List.not_mem_nil
  · intro action next events out hstep hreturned hidle
    have hnext := hinv.step hstep
    cases hnotified : next.pipeline.notified with
    | true => exact .inr rfl
    | false =>
        refine .inl fun group => ?_
        have hfresh := hnext.fresh hnotified group (by
          rw [WakeState.idle_of_returned hstep hreturned]
          exact List.not_mem_nil)
        rw [hidle] at hfresh
        rcases hfresh with hempty | ⟨_, hunset, _⟩
        · exact hempty
        · contradiction

end Runs

/-- A frame is pushed after the consumer has gone to sleep, before its push has
set the flag. -/
def pushWhileBlocked : List (WakeAction Nat) :=
  List.replicate 7 .consumer ++ [.push .sensorData 7]

theorem pushWhileBlocked_wakes :
    ∃ s history, (wakeups Nat 1).runFrom (wakeups Nat 1).init pushWhileBlocked =
        some (s, history) ∧
      s.consumer.waits = true ∧ s.pipeline.notified = false ∧
      (s.pipeline.queues .sensorData).isEmpty = false ∧
      (∀ group frame, (s.pipeline.queues group).Queued frame →
        s.producer.unset? = some (group, frame)) ∧
      (∀ action next events out, (wakeups Nat 1).step s action = some (next, events) →
        .popAllReturned out false ∈ events → next.producer = .idle →
        (∀ group, (next.pipeline.queues group).isEmpty = true) ∨
          next.pipeline.notified = true) := by
  have hruns : ((wakeups Nat 1).runFrom (wakeups Nat 1).init pushWhileBlocked).map
      (fun result => (result.1.consumer.waits, result.1.pipeline.notified,
        (result.1.pipeline.queues .sensorData).isEmpty)) = some (true, false, false) := by
    decide +kernel
  obtain ⟨⟨s, history⟩, hrun, hview⟩ := Option.map_eq_some_iff.mp hruns
  simp only [Prod.mk.injEq] at hview
  obtain ⟨hwaits, hdown, hqueued⟩ := hview
  obtain ⟨hfresh, hreturns, _⟩ := no_lost_wakeup (Machine.reachable_of_runFrom hrun)
  exact ⟨s, history, hrun, hwaits, hdown, hqueued, hfresh hwaits hdown, hreturns⟩

end SimVision
