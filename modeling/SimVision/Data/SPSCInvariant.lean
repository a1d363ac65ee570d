import Mathlib.Data.List.Basic
import SimVision.Foundation.BoundedFifo
import SimVision.Data.SPSCQueue

/-! # The invariant of one frame queue

One producer and any family of consumers work on a queue. The invariant relates
the slots to the positions between the counters and to the stale values that
calls in progress hold. Every step keeps it as long as a consumer moves a slot
only at the current `tail_` and while no other consumer is between its own move
and its `tail_` store. A single consumer always satisfies that condition.
-/

namespace SimVision

open Foundation

variable {α κ : Type}

/-- Frames accepted by the queue in a history, oldest first. -/
def acceptedFrames (history : List (QueueEvent α)) : List α :=
  history.filterMap fun event => match event with
    | .accepted frame => some frame
    | _ => none

/-- Pointers returned by successful pops in a history, oldest first. -/
def takenFrames (history : List (QueueEvent α)) : List (Option α) :=
  history.filterMap fun event => match event with
    | .taken out => some out
    | _ => none

@[simp] theorem acceptedFrames_nil : acceptedFrames ([] : List (QueueEvent α)) = [] := rfl
@[simp] theorem takenFrames_nil : takenFrames ([] : List (QueueEvent α)) = [] := rfl

@[simp] theorem acceptedFrames_append (first second : List (QueueEvent α)) :
    acceptedFrames (first ++ second) = acceptedFrames first ++ acceptedFrames second :=
  List.filterMap_append

@[simp] theorem takenFrames_append (first second : List (QueueEvent α)) :
    takenFrames (first ++ second) = takenFrames first ++ takenFrames second :=
  List.filterMap_append

/-- A consumer that has moved a pointer out of its slot and not yet stored `tail_`. -/
def PopPc.Holding : Option (PopPc α) → Prop
  | some (.resetSlot _ _) => True
  | some (.storeTail _ _) => True
  | _ => False

instance (pc : Option (PopPc α)) : Decidable (PopPc.Holding pc) := by
  cases pc with
  | none => exact isFalse id
  | some pc => cases pc <;> first | exact isTrue trivial | exact isFalse id

/-- The pointer a consumer has moved out and not yet acknowledged. -/
def PopPc.held? : PopPc α → Option (Option α)
  | .resetSlot _ out => some out
  | .storeTail _ out => some out
  | _ => none

/-- A frame already in its slot and not yet published by the `head_` store. -/
def PushPc.unpublished : Option (PushPc α) → List α
  | some (.storeHead frame _) => [frame]
  | _ => []

/-- What the local values of a push in progress know about the queue. -/
def PushPc.Knows (q : ChannelFrameQueue α) : PushPc α → Prop
  | .loadTail _ h => h = q.head
  | .writeSlot _ h => h = q.head ∧ h < q.tail + q.capacity
  | .storeHead _ h => h = q.head ∧ h < q.tail + q.capacity
  | _ => True

/-- What the local values of a pop in progress know about the queue. Before the
move `t` may be stale; a consumer past it owns position `tail_`. -/
def PopPc.Knows (q : ChannelFrameQueue α) (accepted : List α) : PopPc α → Prop
  | .loadTail => True
  | .loadHead t => t ≤ q.tail
  | .moveSlot t => t ≤ q.tail ∧ t < q.head
  | .resetSlot t out => t = q.tail ∧ t < q.head ∧ out = accepted[t]?
  | .storeTail t out => t = q.tail ∧ t < q.head ∧ out = accepted[t]?

/-- The invariant of one queue with its producer and its consumers. -/
structure QueueInv (q : ChannelFrameQueue α) (push : Option (PushPc α))
    (pop : κ → Option (PopPc α)) (accepted : List α) (taken : List (Option α)) : Prop where
  capacity_pos : 0 < q.capacity
  head_eq : q.head = accepted.length
  head_lt : q.head < wordSize
  tail_le : q.tail ≤ q.head
  head_le : q.head ≤ q.tail + q.capacity
  taken_eq : taken = (accepted.take q.tail).map some
  slots : ∀ k, q.tail ≤ k → k < q.tail + q.capacity →
    (k = q.tail → ∀ i, ¬ PopPc.Holding (pop i)) →
    q.load k = (accepted ++ PushPc.unpublished push)[k]?
  emptied : ∀ i, PopPc.Holding (pop i) → q.load q.tail = none
  push_knows : ∀ pc, push = some pc → pc.Knows q
  pop_knows : ∀ i pc, pop i = some pc → pc.Knows q accepted
  holder_unique : ∀ i j, PopPc.Holding (pop i) → PopPc.Holding (pop j) → i = j

/-- The condition on a producer step: the position counter does not wrap. -/
def PushPc.Safe : PushPc α → Prop
  | .storeHead _ h => h + 1 < wordSize
  | _ => True

/-- The condition on a consumer step: the slot moved is the one at `tail_`, and
no consumer has moved it already. -/
def PopPc.Safe (q : ChannelFrameQueue α) (pop : κ → Option (PopPc α)) : PopPc α → Prop
  | .moveSlot t => t = q.tail ∧ ∀ j, ¬ PopPc.Holding (pop j)
  | _ => True

namespace QueueInv

variable {q q' : ChannelFrameQueue α} {push : Option (PushPc α)}
  {pop : κ → Option (PopPc α)} {accepted : List α} {taken : List (Option α)}

theorem create (c : Nat) :
    QueueInv (ChannelFrameQueue.create c) none (fun _ : κ => none) ([] : List α) [] where
  capacity_pos := ChannelFrameQueue.create_capacity_pos c
  head_eq := rfl
  head_lt := by simp [wordSize]
  tail_le := Nat.le_refl _
  head_le := Nat.zero_le _
  taken_eq := by simp
  slots := by simp [PushPc.unpublished]
  emptied := by simp [PopPc.Holding]
  push_knows := by simp
  pop_knows := by simp
  holder_unique := by simp [PopPc.Holding]

theorem start_push (hinv : QueueInv q none pop accepted taken) (frame : α) :
    QueueInv q (some (.loadHead frame)) pop accepted taken where
  capacity_pos := hinv.capacity_pos
  head_eq := hinv.head_eq
  head_lt := hinv.head_lt
  tail_le := hinv.tail_le
  head_le := hinv.head_le
  taken_eq := hinv.taken_eq
  slots := hinv.slots
  emptied := hinv.emptied
  push_knows := by
    rintro pc ⟨⟩
    trivial
  pop_knows := hinv.pop_knows
  holder_unique := hinv.holder_unique

/-- A change of the producer's control state alone. -/
theorem with_push (hinv : QueueInv q push pop accepted taken) (push' : Option (PushPc α))
    (hsame : PushPc.unpublished push' = PushPc.unpublished push)
    (hknows : ∀ pc, push' = some pc → pc.Knows q) :
    QueueInv q push' pop accepted taken :=
  { hinv with
    slots := by
      rw [hsame]
      exact hinv.slots
    push_knows := hknows }

/-- A change of consumers' control states that moves no pointer. -/
theorem with_pop {pop' : κ → Option (PopPc α)} (hinv : QueueInv q push pop accepted taken)
    (hsame : ∀ i, PopPc.Holding (pop' i) ↔ PopPc.Holding (pop i))
    (hknows : ∀ i pc, pop' i = some pc → pc.Knows q accepted) :
    QueueInv q push pop' accepted taken :=
  { hinv with
    slots := by
      intro k hlow hhigh hfree
      exact hinv.slots k hlow hhigh fun htail i => (hsame i).not.mp (hfree htail i)
    emptied := fun i hhold => hinv.emptied i ((hsame i).mp hhold)
    pop_knows := hknows
    holder_unique := fun i j hi hj =>
      hinv.holder_unique i j ((hsame i).mp hi) ((hsame j).mp hj) }

/-- The statistics counters are no part of the invariant. -/
theorem with_counters (hinv : QueueInv q push pop accepted taken) (pushed dropped : Nat) :
    QueueInv { q with pushed := pushed, dropped := dropped } push pop accepted taken :=
  { hinv with
    push_knows := by
      intro pc hpc
      have hknows := hinv.push_knows pc hpc
      cases pc <;> exact hknows
    pop_knows := by
      intro i pc hpc
      have hknows := hinv.pop_knows i pc hpc
      cases pc <;> exact hknows }

/-- A consumer holding a moved pointer works inside the window. -/
theorem tail_lt_of_holding (hinv : QueueInv q push pop accepted taken) {i : κ}
    (hhold : PopPc.Holding (pop i)) : q.tail < q.head := by
  cases hpc : pop i with
  | none => simp [hpc, PopPc.Holding] at hhold
  | some pc =>
      have hknows := hinv.pop_knows i pc hpc
      cases pc with
      | loadTail => simp [hpc, PopPc.Holding] at hhold
      | loadHead t => simp [hpc, PopPc.Holding] at hhold
      | moveSlot t => simp [hpc, PopPc.Holding] at hhold
      | resetSlot t out =>
          obtain ⟨rfl, hlt, _⟩ := hknows
          exact hlt
      | storeTail t out =>
          obtain ⟨rfl, hlt, _⟩ := hknows
          exact hlt

/-- A written slot counts against the capacity before it is published. -/
theorem unpublished_le (hinv : QueueInv q push pop accepted taken) :
    (accepted ++ PushPc.unpublished push).length ≤ q.tail + q.capacity := by
  have hle := hinv.head_le
  have hhead := hinv.head_eq
  cases hpush : push with
  | none => simpa [PushPc.unpublished, ← hhead] using hle
  | some pc =>
      have hknows := hinv.push_knows pc hpush
      cases pc with
      | storeHead frame h =>
          obtain ⟨rfl, hlt⟩ := hknows
          simp only [PushPc.unpublished, List.length_append, List.length_singleton]
          omega
      | loadHead frame => simpa [PushPc.unpublished, ← hhead] using hle
      | loadTail frame h => simpa [PushPc.unpublished, ← hhead] using hle
      | writeSlot frame h => simpa [PushPc.unpublished, ← hhead] using hle
      | countPushed => simpa [PushPc.unpublished, ← hhead] using hle
      | countDropped => simpa [PushPc.unpublished, ← hhead] using hle

/-- The producer's slot is free of every consumer that has not finished with its own. -/
theorem write_ne_tail (hinv : QueueInv q push pop accepted taken) {i : κ}
    (hhold : PopPc.Holding (pop i)) {h : Nat} (hh : h = q.head ∧ h < q.tail + q.capacity) :
    h % q.capacity ≠ q.tail % q.capacity := by
  have hlt := hinv.tail_lt_of_holding hhold
  have hpos := hinv.capacity_pos
  exact ringSlot_ne q.tail (by omega) (by omega) (by omega)

private theorem write_slot {frame : α} {h : Nat}
    (hinv : QueueInv q (some (.writeSlot frame h)) pop accepted taken) :
    QueueInv (q.store h (some frame)) (some (.storeHead frame h)) pop accepted taken := by
  have hknows := hinv.push_knows _ rfl
  obtain ⟨hhead, hroom⟩ := hknows
  have hlen := hinv.head_eq
  refine { hinv with slots := ?_, emptied := ?_, push_knows := ?_, pop_knows := ?_ }
  · intro k hlow hhigh hfree
    -- position `h` is the first past the accepted frames; any other position of the
    -- window lies in a slot of its own and keeps what it held
    by_cases hk : k = h
    · subst k
      have hindex : h = accepted.length := by omega
      rw [ChannelFrameQueue.load_store_self, hindex]
      simp [PushPc.unpublished]
    · have hle := hinv.tail_le
      have hslot : k % q.capacity ≠ h % q.capacity :=
        ringSlot_ne q.tail hk ⟨hlow, hhigh⟩ ⟨by omega, hroom⟩
      rw [ChannelFrameQueue.load_store_of_ne q _ hslot, hinv.slots k hlow hhigh hfree]
      simp only [PushPc.unpublished, List.append_nil]
      rcases Nat.lt_or_ge k accepted.length with hold | hnew
      · rw [List.getElem?_append_left hold]
      · rw [List.getElem?_eq_none hnew, List.getElem?_eq_none]
        simp only [List.length_append, List.length_singleton]
        omega
  · intro i hhold
    have hne := hinv.write_ne_tail hhold ⟨hhead, hroom⟩
    rw [ChannelFrameQueue.store_tail, ChannelFrameQueue.load_store_of_ne q _ hne.symm]
    exact hinv.emptied i hhold
  · rintro pc ⟨⟩
    exact ⟨hhead, hroom⟩
  · intro i pc hpc
    have hold := hinv.pop_knows i pc hpc
    cases pc <;> exact hold

private theorem store_head {frame : α} {h : Nat}
    (hinv : QueueInv q (some (.storeHead frame h)) pop accepted taken)
    (hsafe : h + 1 < wordSize) :
    QueueInv { q with head := wordSucc h } (some .countPushed) pop
      (accepted ++ [frame]) taken := by
  obtain ⟨hhead, hroom⟩ := hinv.push_knows _ rfl
  have hlen := hinv.head_eq
  have hle := hinv.tail_le
  have hsucc := wordSucc_eq hsafe
  refine { hinv with head_eq := ?_, head_lt := ?_, tail_le := ?_, head_le := ?_, taken_eq := ?_,
                     slots := ?_, push_knows := ?_, pop_knows := ?_ }
  · simp only [List.length_append, List.length_singleton]
    omega
  · dsimp only
    omega
  · dsimp only
    omega
  · dsimp only
    omega
  · dsimp only
    rw [List.take_append_of_le_length (by omega)]
    exact hinv.taken_eq
  · intro k hlow hhigh hfree
    -- the frame is in its slot already: it only passes from unpublished to accepted
    have hslot : q.load k = (accepted ++ [frame])[k]? := hinv.slots k hlow hhigh hfree
    change q.load k = (accepted ++ [frame] ++ [])[k]?
    rw [List.append_nil]
    exact hslot
  · rintro pc ⟨⟩
    trivial
  · intro i pc hpc
    have hold := hinv.pop_knows i pc hpc
    cases pc with
    | loadTail => trivial
    | loadHead t => exact hold
    | moveSlot t =>
        obtain ⟨hstale, hlt⟩ := hold
        refine ⟨hstale, ?_⟩
        dsimp only
        omega
    | resetSlot t out =>
        obtain ⟨ht, hlt, hout⟩ := hold
        refine ⟨ht, ?_, ?_⟩
        · dsimp only
          omega
        · rw [hout, List.getElem?_append_left (by omega)]
    | storeTail t out =>
        obtain ⟨ht, hlt, hout⟩ := hold
        refine ⟨ht, ?_, ?_⟩
        · dsimp only
          omega
        · rw [hout, List.getElem?_append_left (by omega)]

/-- Every step of the producer keeps the invariant. -/
theorem push_step {pc : PushPc α} {progress : Progress (PushPc α) Bool}
    {events : List (QueueEvent α)} (hinv : QueueInv q (some pc) pop accepted taken)
    (hsafe : pc.Safe) (hstep : pc.step q = (q', progress, events)) :
    QueueInv q' progress.pc? pop (accepted ++ acceptedFrames events)
      (taken ++ takenFrames events) := by
  cases pc with
  | loadHead frame =>
      obtain ⟨rfl, rfl, rfl⟩ := hstep
      have hnext := hinv.with_push (some (.loadTail frame q.head)) rfl (by
        rintro pc ⟨⟩
        rfl)
      simpa using hnext
  | loadTail frame h =>
      simp only [PushPc.step] at hstep
      have hh : h = q.head := hinv.push_knows _ rfl
      split at hstep
      next =>
        obtain ⟨rfl, rfl, rfl⟩ := hstep
        have hnext := hinv.with_push (some .countDropped) rfl (by
          rintro pc ⟨⟩
          trivial)
        simpa [acceptedFrames, takenFrames] using hnext
      next hroom =>
        obtain ⟨rfl, rfl, rfl⟩ := hstep
        rw [hh, wordSub_eq hinv.tail_le hinv.head_lt] at hroom
        have hnext := hinv.with_push (some (.writeSlot frame h)) rfl (by
          rintro pc ⟨⟩
          exact ⟨hh, by omega⟩)
        simpa using hnext
  | writeSlot frame h =>
      obtain ⟨rfl, rfl, rfl⟩ := hstep
      simpa using hinv.write_slot
  | storeHead frame h =>
      obtain ⟨rfl, rfl, rfl⟩ := hstep
      simpa [acceptedFrames, takenFrames] using hinv.store_head hsafe
  | countPushed =>
      obtain ⟨rfl, rfl, rfl⟩ := hstep
      have hnext := hinv.with_push none rfl (by simp)
      simpa [acceptedFrames, takenFrames] using hnext.with_counters (wordSucc q.pushed) q.dropped
  | countDropped =>
      obtain ⟨rfl, rfl, rfl⟩ := hstep
      have hnext := hinv.with_push none rfl (by simp)
      simpa [acceptedFrames, takenFrames] using hnext.with_counters q.pushed (wordSucc q.dropped)

/-- A consumer's step never takes `tail_` back. -/
theorem pop_tail_le {i : κ} {pc : PopPc α} (hinv : QueueInv q push pop accepted taken)
    (hpc : pop i = some pc) : q.tail ≤ (pc.step q).1.tail := by
  cases pc with
  | storeTail t out =>
      obtain ⟨ht, hlt, _⟩ := hinv.pop_knows i _ hpc
      have hhead := hinv.head_lt
      change q.tail ≤ wordSucc t
      rw [wordSucc_eq (by omega)]
      omega
  | loadHead t =>
      simp only [PopPc.step]
      split <;> exact Nat.le_refl _
  | loadTail => exact Nat.le_refl _
  | moveSlot t => exact Nat.le_refl _
  | resetSlot t out => exact Nat.le_refl _

variable [DecidableEq κ]

/-- A consumer begins a `try_pop`. -/
theorem start_pop (hinv : QueueInv q push pop accepted taken) {i : κ} (hidle : pop i = none) :
    QueueInv q push (Function.update pop i (some .loadTail)) accepted taken := by
  refine hinv.with_pop ?_ ?_
  · intro j
    by_cases hj : j = i
    · subst j
      simp [hidle, PopPc.Holding]
    · simp [hj]
  · intro j pc hpc
    by_cases hj : j = i
    · subst j
      simp only [Function.update_self, Option.some.injEq] at hpc
      subst pc
      trivial
    · rw [Function.update_of_ne hj] at hpc
      exact hinv.pop_knows j pc hpc

/-- A consumer that holds nothing moves to a control state that holds nothing. -/
private theorem step_unheld (hinv : QueueInv q push pop accepted taken) (i : κ)
    (pc' : Option (PopPc α)) (hbefore : ¬ PopPc.Holding (pop i)) (hafter : ¬ PopPc.Holding pc')
    (hknows : ∀ pc, pc' = some pc → pc.Knows q accepted) :
    QueueInv q push (Function.update pop i pc') accepted taken := by
  refine hinv.with_pop ?_ ?_
  · intro j
    by_cases hj : j = i
    · subst j
      simp [hbefore, hafter]
    · simp [hj]
  · intro j pc hpc
    by_cases hj : j = i
    · subst j
      rw [Function.update_self] at hpc
      exact hknows pc hpc
    · rw [Function.update_of_ne hj] at hpc
      exact hinv.pop_knows j pc hpc

/-- The move takes the oldest frame out of its slot. -/
private theorem move_slot (hinv : QueueInv q push pop accepted taken) {i : κ} {t : Nat}
    (hpc : pop i = some (.moveSlot t)) (ht : t = q.tail)
    (hfree : ∀ j, ¬ PopPc.Holding (pop j)) :
    QueueInv (q.store t none) push
      (Function.update pop i (some (.resetSlot t (q.load t)))) accepted taken := by
  obtain ⟨_, hlt⟩ := hinv.pop_knows i _ hpc
  have hcap := hinv.capacity_pos
  have hlen := hinv.head_eq
  have hout : q.load t = accepted[t]? := by
    rw [hinv.slots t (by omega) (by omega) (fun _ => hfree),
      List.getElem?_append_left (by omega)]
  refine { hinv with slots := ?_, emptied := ?_, push_knows := ?_, pop_knows := ?_,
                     holder_unique := ?_ }
  · intro k hlow hhigh hnone
    -- at `tail_` itself the clause says nothing, as the mover now holds its pointer
    have hk : k ≠ t := by
      intro heq
      exact hnone (by rw [heq, ht]; rfl) i (by simp [PopPc.Holding])
    have hslot : k % q.capacity ≠ t % q.capacity :=
      ringSlot_ne q.tail hk ⟨hlow, hhigh⟩ (by omega)
    rw [ChannelFrameQueue.load_store_of_ne q _ hslot]
    exact hinv.slots k hlow hhigh (fun _ => hfree)
  · intro j _
    rw [ChannelFrameQueue.store_tail, ← ht]
    exact ChannelFrameQueue.load_store_self q t none
  · intro pc hpush
    have hknows := hinv.push_knows pc hpush
    cases pc <;> exact hknows
  · intro j pc hpcj
    by_cases hj : j = i
    · subst j
      simp only [Function.update_self, Option.some.injEq] at hpcj
      subst pc
      exact ⟨ht, hlt, hout⟩
    · rw [Function.update_of_ne hj] at hpcj
      have hknows := hinv.pop_knows j pc hpcj
      cases pc <;> exact hknows
  · intro j l hj hl
    have honly : ∀ m, PopPc.Holding (Function.update pop i
        (some (.resetSlot t (q.load t))) m) → m = i := by
      intro m hm
      by_contra hne
      rw [Function.update_of_ne hne] at hm
      exact hfree m hm
    rw [honly j hj, honly l hl]

/-- The `reset()` after the move writes a slot that is null already. -/
private theorem reset_slot (hinv : QueueInv q push pop accepted taken) {i : κ} {t : Nat}
    {out : Option α} (hpc : pop i = some (.resetSlot t out)) :
    QueueInv (q.store t none) push
      (Function.update pop i (some (.storeTail t out))) accepted taken := by
  obtain ⟨ht, hlt, hout⟩ := hinv.pop_knows i _ hpc
  have hcap := hinv.capacity_pos
  have hsame : ∀ j, PopPc.Holding (Function.update pop i (some (.storeTail t out)) j) ↔
      PopPc.Holding (pop j) := by
    intro j
    by_cases hj : j = i
    · subst j
      simp [hpc, PopPc.Holding]
    · simp [hj]
  have hmoved := hinv.with_pop hsame (by
    intro j pc hpcj
    by_cases hj : j = i
    · subst j
      simp only [Function.update_self, Option.some.injEq] at hpcj
      subst pc
      exact ⟨ht, hlt, hout⟩
    · rw [Function.update_of_ne hj] at hpcj
      exact hinv.pop_knows j pc hpcj)
  refine { hmoved with slots := ?_, emptied := ?_, push_knows := ?_, pop_knows := ?_ }
  · intro k hlow hhigh hnone
    have hk : k ≠ t := by
      intro heq
      exact hnone (by rw [heq, ht]; rfl) i (by simp [PopPc.Holding])
    have hslot : k % q.capacity ≠ t % q.capacity :=
      ringSlot_ne q.tail hk ⟨hlow, hhigh⟩ (by omega)
    rw [ChannelFrameQueue.load_store_of_ne q _ hslot]
    exact hmoved.slots k hlow hhigh hnone
  · intro j _
    rw [ChannelFrameQueue.store_tail, ← ht]
    exact ChannelFrameQueue.load_store_self q t none
  · intro pc hpush
    have hold := hinv.push_knows pc hpush
    cases pc <;> exact hold
  · intro j pc hpcj
    have hold := hmoved.pop_knows j pc hpcj
    cases pc <;> exact hold

/-- The `tail_` store acknowledges the frame: the next revolution of its slot
enters the window empty. -/
private theorem store_tail (hinv : QueueInv q push pop accepted taken) {i : κ} {t : Nat}
    {out : Option α} (hpc : pop i = some (.storeTail t out)) :
    QueueInv { q with tail := wordSucc t } push (Function.update pop i none) accepted
      (taken ++ [out]) := by
  obtain ⟨ht, hlt, hout⟩ := hinv.pop_knows i _ hpc
  have hhold : PopPc.Holding (pop i) := by simp [hpc, PopPc.Holding]
  have honly : ∀ j, j ≠ i → ¬ PopPc.Holding (pop j) :=
    fun j hj hheld => hj (hinv.holder_unique j i hheld hhold)
  have hnone : ∀ j, ¬ PopPc.Holding (Function.update pop i none j) := by
    intro j
    by_cases hj : j = i
    · subst j
      simp [PopPc.Holding]
    · rw [Function.update_of_ne hj]
      exact honly j hj
  have hhlt := hinv.head_lt
  have hhle := hinv.head_le
  have hlen := hinv.head_eq
  have hsucc : wordSucc t = q.tail + 1 := by rw [ht, wordSucc_eq (by omega)]
  refine { hinv with tail_le := ?_, head_le := ?_, taken_eq := ?_, slots := ?_, emptied := ?_,
                     push_knows := ?_, pop_knows := ?_, holder_unique := ?_ }
  · dsimp only
    omega
  · dsimp only
    omega
  · dsimp only
    rw [hsucc, List.take_add_one, List.map_append, ← hinv.taken_eq, hout, ht,
      List.getElem?_eq_getElem (by omega)]
    rfl
  · intro k hlow hhigh _
    dsimp only at hlow hhigh
    rw [hsucc] at hlow hhigh
    have hload : ({ q with tail := wordSucc t } : ChannelFrameQueue α).load k = q.load k := rfl
    rw [hload]
    rcases Nat.lt_or_ge k (q.tail + q.capacity) with hin | hnew
    · exact hinv.slots k (by omega) hin (by omega)
    -- the position that enters the window shares the slot that was just emptied
    · have hk : k = q.tail + q.capacity := by omega
      have hwrap : q.load k = q.load q.tail := by
        rw [ChannelFrameQueue.load, ChannelFrameQueue.load, hk, Nat.add_mod_right]
      rw [hwrap, hinv.emptied i hhold, List.getElem?_eq_none]
      exact hk ▸ hinv.unpublished_le
  · intro j hheld
    exact absurd hheld (hnone j)
  · intro pc hpush
    have hold := hinv.push_knows pc hpush
    cases pc with
    | writeSlot frame h =>
        refine ⟨hold.1, ?_⟩
        have hroom := hold.2
        dsimp only
        omega
    | storeHead frame h =>
        refine ⟨hold.1, ?_⟩
        have hroom := hold.2
        dsimp only
        omega
    | loadHead frame => exact hold
    | loadTail frame h => exact hold
    | countPushed => exact hold
    | countDropped => exact hold
  · intro j pc hpcj
    by_cases hj : j = i
    · subst j
      simp at hpcj
    · rw [Function.update_of_ne hj] at hpcj
      have hold := hinv.pop_knows j pc hpcj
      -- the other consumers hold nothing, and what they loaded stays behind the new `tail_`
      have hunheld := honly j hj
      cases pc with
      | loadTail => trivial
      | loadHead s =>
          have hle : s ≤ q.tail := hold
          change s ≤ wordSucc t
          omega
      | moveSlot s =>
          refine ⟨?_, hold.2⟩
          have hle := hold.1
          dsimp only
          omega
      | resetSlot s out' => simp [hpcj, PopPc.Holding] at hunheld
      | storeTail s out' => simp [hpcj, PopPc.Holding] at hunheld
  · intro j _ hj
    exact absurd hj (hnone j)

/-- Every safe step of a consumer keeps the invariant. -/
theorem pop_step {i : κ} {pc : PopPc α} {progress : Progress (PopPc α) (Option (Option α))}
    {events : List (QueueEvent α)} (hinv : QueueInv q push pop accepted taken)
    (hpc : pop i = some pc) (hsafe : pc.Safe q pop) (hstep : pc.step q = (q', progress, events)) :
    QueueInv q' push (Function.update pop i progress.pc?) (accepted ++ acceptedFrames events)
      (taken ++ takenFrames events) := by
  cases pc with
  | loadTail =>
      obtain ⟨rfl, rfl, rfl⟩ := hstep
      have hnext := hinv.step_unheld i (some (.loadHead q.tail))
        (by simp [hpc, PopPc.Holding]) (by simp [PopPc.Holding]) (by
          rintro pc ⟨⟩
          exact Nat.le_refl _)
      simpa using hnext
  | loadHead t =>
      have hstale : t ≤ q.tail := hinv.pop_knows i _ hpc
      have hle := hinv.tail_le
      simp only [PopPc.step] at hstep
      split at hstep
      next =>
        obtain ⟨rfl, rfl, rfl⟩ := hstep
        have hnext := hinv.step_unheld i none
          (by simp [hpc, PopPc.Holding]) (by simp [PopPc.Holding]) (by simp)
        simpa [acceptedFrames, takenFrames] using hnext
      next hne =>
        obtain ⟨rfl, rfl, rfl⟩ := hstep
        have hnext := hinv.step_unheld i (some (.moveSlot t))
          (by simp [hpc, PopPc.Holding]) (by simp [PopPc.Holding]) (by
            rintro pc ⟨⟩
            exact ⟨hstale, by omega⟩)
        simpa using hnext
  | moveSlot t =>
      obtain ⟨rfl, rfl, rfl⟩ := hstep
      simpa using hinv.move_slot hpc hsafe.1 hsafe.2
  | resetSlot t out =>
      obtain ⟨rfl, rfl, rfl⟩ := hstep
      simpa using hinv.reset_slot hpc
  | storeTail t out =>
      obtain ⟨rfl, rfl, rfl⟩ := hstep
      simpa [acceptedFrames, takenFrames] using hinv.store_tail hpc

end QueueInv

end SimVision
