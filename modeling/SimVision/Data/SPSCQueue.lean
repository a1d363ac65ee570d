import Mathlib.Logic.Function.Basic
import SimVision.Foundation.Cpp

/-! # The frame queue

`ChannelFrameQueue` is a ring of pointers between two monotone counters. Each
operation is given twice: as one function on the queue, and cut at every access
of shared memory into the steps another thread can run between. The second form
run alone is the first.
-/

namespace SimVision

open Foundation

variable {α : Type}

/-- The members of `ChannelFrameQueue`. A slot of `buffer` is `none` while its
pointer is null; only slots below `capacity` are ever addressed. -/
structure ChannelFrameQueue (α : Type) where
  capacity : Nat
  buffer : Nat → Option α
  head : Nat
  tail : Nat
  pushed : Nat
  dropped : Nat

namespace ChannelFrameQueue

/-- The constructor: a requested capacity of zero becomes one. -/
def create (capacity : Nat) : ChannelFrameQueue α where
  capacity := if capacity < 1 then 1 else capacity
  buffer := fun _ => none
  head := 0
  tail := 0
  pushed := 0
  dropped := 0

/-- Assignment to the slot of a position. -/
def store (q : ChannelFrameQueue α) (position : Nat) (slot : Option α) : ChannelFrameQueue α :=
  { q with buffer := Function.update q.buffer (position % q.capacity) slot }

/-- The pointer in the slot of a position. -/
def load (q : ChannelFrameQueue α) (position : Nat) : Option α :=
  q.buffer (position % q.capacity)

def tryPush (q : ChannelFrameQueue α) (frame : α) : ChannelFrameQueue α × Bool :=
  if q.capacity ≤ wordSub q.head q.tail then
    ({ q with dropped := wordSucc q.dropped }, false)
  else
    ({ q.store q.head (some frame) with
        head := wordSucc q.head, pushed := wordSucc q.pushed }, true)

/-- `try_pop`: the pointer moved out, itself possibly null, or `none` for a
return value of false. -/
def tryPop (q : ChannelFrameQueue α) : ChannelFrameQueue α × Option (Option α) :=
  if q.head = q.tail then (q, none)
  else ({ q.store q.tail none with tail := wordSucc q.tail }, some (q.load q.tail))

def isEmpty (q : ChannelFrameQueue α) : Bool := q.head = q.tail

def full (q : ChannelFrameQueue α) : Bool := q.capacity ≤ wordSub q.head q.tail

def size (q : ChannelFrameQueue α) : Nat := wordSub q.head q.tail

def totalPushed (q : ChannelFrameQueue α) : Nat := q.pushed

def totalDropped (q : ChannelFrameQueue α) : Nat := q.dropped

/-- The loop `while (try_pop(p)) {}`, which removes one position a round. -/
def popRounds : Nat → ChannelFrameQueue α → ChannelFrameQueue α × List (Option α)
  | 0, q => (q, [])
  | rounds + 1, q =>
      match q.tryPop with
      | (q', none) => (q', [])
      | (q', some out) =>
          let (final, outs) := popRounds rounds q'
          (final, out :: outs)

/-- Pop until `try_pop` returns false; the distance between the counters bounds
the number of rounds. -/
def popAll (q : ChannelFrameQueue α) : ChannelFrameQueue α × List (Option α) :=
  q.popRounds q.size

def clear (q : ChannelFrameQueue α) : ChannelFrameQueue α := q.popAll.1

@[simp] theorem create_head (c : Nat) : (create c : ChannelFrameQueue α).head = 0 := rfl
@[simp] theorem create_tail (c : Nat) : (create c : ChannelFrameQueue α).tail = 0 := rfl
@[simp] theorem create_load (c k : Nat) : (create c : ChannelFrameQueue α).load k = none := rfl

theorem create_capacity_pos (c : Nat) : 0 < (create c : ChannelFrameQueue α).capacity := by
  unfold create
  dsimp only
  split <;> omega

@[simp] theorem store_capacity (q : ChannelFrameQueue α) (k : Nat) (slot : Option α) :
    (q.store k slot).capacity = q.capacity := rfl
@[simp] theorem store_head (q : ChannelFrameQueue α) (k : Nat) (slot : Option α) :
    (q.store k slot).head = q.head := rfl
@[simp] theorem store_tail (q : ChannelFrameQueue α) (k : Nat) (slot : Option α) :
    (q.store k slot).tail = q.tail := rfl
@[simp] theorem store_pushed (q : ChannelFrameQueue α) (k : Nat) (slot : Option α) :
    (q.store k slot).pushed = q.pushed := rfl
@[simp] theorem store_dropped (q : ChannelFrameQueue α) (k : Nat) (slot : Option α) :
    (q.store k slot).dropped = q.dropped := rfl

theorem load_store_self (q : ChannelFrameQueue α) (k : Nat) (slot : Option α) :
    (q.store k slot).load k = slot := by
  simp [load, store]

theorem load_store_of_ne (q : ChannelFrameQueue α) {j k : Nat} (slot : Option α)
    (hne : j % q.capacity ≠ k % q.capacity) : (q.store k slot).load j = q.load j := by
  simp [load, store, hne]

/-- A pop finds nothing exactly in an empty queue. -/
theorem tryPop_eq_none {q : ChannelFrameQueue α} : q.tryPop.2 = none ↔ q.isEmpty = true := by
  rw [isEmpty, decide_eq_true_eq, tryPop]
  split
  next hempty => exact iff_of_true rfl hempty
  next hempty => exact iff_of_false (Option.some_ne_none _) hempty

/-- Both counters are values of their type. -/
structure Words (q : ChannelFrameQueue α) : Prop where
  head_lt : q.head < wordSize
  tail_lt : q.tail < wordSize

theorem Words.create (c : Nat) : (create c : ChannelFrameQueue α).Words where
  head_lt := by simp [wordSize]
  tail_lt := by simp [wordSize]

theorem Words.tryPush {q : ChannelFrameQueue α} (hwords : q.Words) (frame : α) :
    (q.tryPush frame).1.Words := by
  unfold ChannelFrameQueue.tryPush
  split
  next => exact ⟨hwords.head_lt, hwords.tail_lt⟩
  next => exact ⟨wordSucc_lt _, hwords.tail_lt⟩

theorem Words.tryPop {q : ChannelFrameQueue α} (hwords : q.Words) : q.tryPop.1.Words := by
  unfold ChannelFrameQueue.tryPop
  split
  next => exact hwords
  next => exact ⟨hwords.head_lt, wordSucc_lt _⟩

/-- The rounds of the loop bring `tail_` towards `head_` one position at a time,
across the wrap as well. -/
theorem popRounds_counters {q : ChannelFrameQueue α} (hwords : q.Words) {rounds : Nat}
    (hrounds : rounds ≤ q.size) : (q.popRounds rounds).1.Words ∧
      (q.popRounds rounds).1.size = q.size - rounds := by
  induction rounds generalizing q with
  | zero =>
      rw [popRounds, Nat.sub_zero]
      exact ⟨hwords, rfl⟩
  | succ rounds ih =>
      have hne : q.head ≠ q.tail := by
        intro heq
        have hzero : q.size = 0 := by
          rw [size, heq, wordSub_self]
        omega
      have hpop : q.tryPop =
          ({ q.store q.tail none with tail := wordSucc q.tail }, some (q.load q.tail)) := by
        rw [ChannelFrameQueue.tryPop, if_neg hne]
      have hnext := hwords.tryPop
      have hsize : q.tryPop.1.size = q.size - 1 := by
        rw [hpop]
        simp only [size, store_head]
        rw [wordSub_wordSucc hwords.head_lt hwords.tail_lt hne]
      unfold popRounds
      rw [hpop] at hnext hsize ⊢
      obtain ⟨hfinal, hleft⟩ := ih hnext (by omega)
      refine ⟨hfinal, ?_⟩
      rw [hleft, hsize]
      omega

theorem isEmpty_iff_size {q : ChannelFrameQueue α} (hwords : q.Words) :
    q.isEmpty = true ↔ q.size = 0 := by
  rw [isEmpty, decide_eq_true_eq, size, wordSub_eq_zero_iff hwords.head_lt hwords.tail_lt]

/-- Popping until `try_pop` returns false empties the queue. -/
theorem popAll_isEmpty {q : ChannelFrameQueue α} (hwords : q.Words) :
    q.popAll.1.Words ∧ q.popAll.1.isEmpty = true := by
  obtain ⟨hfinal, hsize⟩ := popRounds_counters hwords (Nat.le_refl q.size)
  rw [popAll]
  refine ⟨hfinal, ?_⟩
  rw [isEmpty_iff_size hfinal, hsize, Nat.sub_self]

/-- A loop that takes nothing leaves the queue as it was. -/
theorem popAll_idle {q : ChannelFrameQueue α} (hnone : q.popAll.2 = []) : q.popAll.1 = q := by
  rw [popAll] at hnone ⊢
  generalize hsize : q.size = rounds at hnone ⊢
  cases rounds with
  | zero => rw [popRounds]
  | succ rounds =>
      have hne : q.head ≠ q.tail := by
        intro heq
        rw [size, heq, wordSub_self] at hsize
        contradiction
      have hpop : q.tryPop =
          ({ q.store q.tail none with tail := wordSucc q.tail }, some (q.load q.tail)) := by
        rw [tryPop, if_neg hne]
      unfold popRounds at hnone
      rw [hpop] at hnone
      contradiction

-- stated of the functions: applied to a queue, the two sides are compared by
-- evaluating the number of rounds, which does not end for unknown counters
theorem clear_def : @clear α = fun q => q.popAll.1 := rfl

theorem Words.clear {q : ChannelFrameQueue α} (hwords : q.Words) : q.clear.Words := by
  rw [clear_def]
  exact (popAll_isEmpty hwords).1

theorem clear_isEmpty {q : ChannelFrameQueue α} (hwords : q.Words) : q.clear.isEmpty = true := by
  rw [clear_def]
  exact (popAll_isEmpty hwords).2

theorem clear_of_isEmpty {q : ChannelFrameQueue α} (hempty : q.isEmpty = true) : q.clear = q := by
  have hsize : q.size = 0 := by
    rw [size, of_decide_eq_true hempty, wordSub_self]
  rw [clear_def]
  dsimp only
  rw [popAll, hsize, popRounds]

end ChannelFrameQueue

/-! ## Operations cut at their shared accesses -/

/-- A call in progress, or the value it returned. -/
inductive Progress (Pc Result : Type) where
  | running (pc : Pc)
  | returned (result : Result)

namespace Progress

variable {Pc Result : Type}

/-- The remaining control state of a call, if it has not returned. -/
def pc? : Progress Pc Result → Option Pc
  | .running pc => some pc
  | .returned _ => none

@[simp] theorem pc?_running (pc : Pc) : (running pc : Progress Pc Result).pc? = some pc := rfl
@[simp] theorem pc?_returned (r : Result) : (returned r : Progress Pc Result).pc? = none := rfl

end Progress

/-- What a step of a queue operation adds to the history. `taken` is the return
of true by `try_pop` and `foundEmpty` its return of false. -/
inductive QueueEvent (α : Type) where
  | accepted (frame : α)
  | foundFull
  | pushReturned (ok : Bool)
  | taken (out : Option α)
  | foundEmpty
  deriving DecidableEq

/-- Where a `try_push` stands. `frame` names the argument throughout; once the
slot is written the argument itself has been moved from. -/
inductive PushPc (α : Type) where
  | loadHead (frame : α)
  | loadTail (frame : α) (h : Nat)
  | writeSlot (frame : α) (h : Nat)
  | storeHead (frame : α) (h : Nat)
  | countPushed
  | countDropped
  deriving DecidableEq

/-- Where a `try_pop` stands: `t` is the value loaded from `tail_`. -/
inductive PopPc (α : Type) where
  | loadTail
  | loadHead (t : Nat)
  | moveSlot (t : Nat)
  | resetSlot (t : Nat) (out : Option α)
  | storeTail (t : Nat) (out : Option α)
  deriving DecidableEq

/-- One step of `try_push`. -/
def PushPc.step (q : ChannelFrameQueue α) :
    PushPc α → ChannelFrameQueue α × Progress (PushPc α) Bool × List (QueueEvent α)
  | .loadHead frame => (q, .running (.loadTail frame q.head), [])
  | .loadTail frame h =>
      -- `h` was loaded one step earlier; only the producer changes `head_`
      if q.capacity ≤ wordSub h q.tail then (q, .running .countDropped, [.foundFull])
      else (q, .running (.writeSlot frame h), [])
  | .writeSlot frame h => (q.store h (some frame), .running (.storeHead frame h), [])
  | .storeHead frame h =>
      ({ q with head := wordSucc h }, .running .countPushed, [.accepted frame])
  | .countPushed =>
      ({ q with pushed := wordSucc q.pushed }, .returned true, [.pushReturned true])
  | .countDropped =>
      ({ q with dropped := wordSucc q.dropped }, .returned false, [.pushReturned false])

/-- One step of `try_pop`. Moving the pointer out leaves its slot null, and the
`reset()` that follows writes the slot once more. -/
def PopPc.step (q : ChannelFrameQueue α) :
    PopPc α →
      ChannelFrameQueue α × Progress (PopPc α) (Option (Option α)) × List (QueueEvent α)
  | .loadTail => (q, .running (.loadHead q.tail), [])
  | .loadHead t =>
      if q.head = t then (q, .returned none, [.foundEmpty])
      else (q, .running (.moveSlot t), [])
  | .moveSlot t => (q.store t none, .running (.resetSlot t (q.load t)), [])
  | .resetSlot t out => (q.store t none, .running (.storeTail t out), [])
  | .storeTail t out => ({ q with tail := wordSucc t }, .returned (some out), [.taken out])

/-- A producer's step leaves `tail_` alone. -/
theorem PushPc.step_tail (q : ChannelFrameQueue α) (pc : PushPc α) :
    (pc.step q).1.tail = q.tail := by
  cases pc with
  | loadTail frame h =>
      simp only [PushPc.step]
      split <;> rfl
  | loadHead frame => rfl
  | writeSlot frame h => rfl
  | storeHead frame h => rfl
  | countPushed => rfl
  | countDropped => rfl

/-- Run a call alone until it returns, for at most `fuel` steps. -/
def runAlone {Pc Result : Type}
    (step : ChannelFrameQueue α → Pc →
      ChannelFrameQueue α × Progress Pc Result × List (QueueEvent α)) :
    Nat → ChannelFrameQueue α → Pc → ChannelFrameQueue α × Option Result
  | 0, q, _ => (q, none)
  | fuel + 1, q, pc =>
      match step q pc with
      | (q', .running pc', _) => runAlone step fuel q' pc'
      | (q', .returned result, _) => (q', some result)

/-- The steps of `try_push` without interference compute `tryPush`. -/
theorem tryPush_alone (q : ChannelFrameQueue α) (frame : α) :
    runAlone PushPc.step 5 q (.loadHead frame) =
      ((q.tryPush frame).1, some (q.tryPush frame).2) := by
  by_cases hfull : q.capacity ≤ wordSub q.head q.tail
  · simp [runAlone, PushPc.step, ChannelFrameQueue.tryPush, hfull]
  · simp [runAlone, PushPc.step, ChannelFrameQueue.tryPush, hfull]

/-- The steps of `try_pop` without interference compute `tryPop`. -/
theorem tryPop_alone (q : ChannelFrameQueue α) :
    runAlone PopPc.step 5 q .loadTail = (q.tryPop.1, some q.tryPop.2) := by
  by_cases hempty : q.head = q.tail
  · simp [runAlone, PopPc.step, ChannelFrameQueue.tryPop, hempty]
  · simp [runAlone, PopPc.step, ChannelFrameQueue.tryPop, hempty, ChannelFrameQueue.store]

end SimVision
