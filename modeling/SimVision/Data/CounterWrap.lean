import SimVision.Data.SPSCQueue
import SimVision.Foundation.BoundedFifo

/-! # The queue past the end of its counters

`head_` and `tail_` count modulo `2 ^ 64`, slots are counted modulo the capacity.
Where the first is no multiple of the second, the slots skip at the wrap, and a
push can meet a frame that has not been popped.
-/

namespace SimVision

open Foundation

variable {α : Type}

/-- A call of one of the two threads. -/
inductive QueueCall (α : Type) where
  | push (frame : α)
  | pop

namespace ChannelFrameQueue

def call (q : ChannelFrameQueue α) : QueueCall α → ChannelFrameQueue α
  | .push frame => (q.tryPush frame).1
  | .pop => q.tryPop.1

/-- The queue after a sequence of calls. -/
def calls (q : ChannelFrameQueue α) (sequence : List (QueueCall α)) : ChannelFrameQueue α :=
  sequence.foldl call q

/-- The positions that hold a frame: `tail_`, the next one, and so on up to `head_`. -/
def livePosition (q : ChannelFrameQueue α) (k : Nat) : Nat := (q.tail + k) % wordSize

/-- No two live positions share a slot, and a push that is accepted leaves every one
of them as it is. -/
structure KeepsFrames (q : ChannelFrameQueue α) : Prop where
  distinct : SlotsDistinct wordSize q.capacity q.tail q.size
  kept : ∀ frame, (q.tryPush frame).2 = true → ∀ k < q.size,
    (q.tryPush frame).1.load (q.livePosition k) = q.load (q.livePosition k)

/-- What holds of the counters after every sequence of calls. -/
structure InRange (c : Nat) (q : ChannelFrameQueue α) : Prop extends q.Words where
  capacity_eq : q.capacity = c
  size_le : q.size ≤ c

section Calls

variable {c : Nat} {q : ChannelFrameQueue α}

theorem InRange.create (hpos : 1 ≤ c) : (create c : ChannelFrameQueue α).InRange c where
  toWords := Words.create c
  capacity_eq := if_neg (Nat.not_lt.mpr hpos)
  size_le := by
    rw [size, create_head, create_tail, wordSub_self]
    exact Nat.zero_le c

/-- A push below the capacity moves `head_` by one. -/
theorem InRange.push (hrange : q.InRange c) (hlt : c < wordSize) (hroom : q.size < c) (frame : α) :
    (q.tryPush frame).2 = true ∧ (q.tryPush frame).1.InRange c ∧
      (q.tryPush frame).1.tail = q.tail ∧ (q.tryPush frame).1.size = q.size + 1 := by
  have hpush : q.tryPush frame = ({ q.store q.head (some frame) with
      head := wordSucc q.head, pushed := wordSucc q.pushed }, true) := by
    rw [tryPush, if_neg]
    rw [hrange.capacity_eq]
    exact Nat.not_le.mpr hroom
  have hsize : wordSub (wordSucc q.head) q.tail = wordSub q.head q.tail + 1 := by
    have hhead := hrange.head_lt
    have htail := hrange.tail_lt
    unfold size at hroom
    unfold wordSub wordSucc wordSize at *
    omega
  rw [hpush]
  refine ⟨rfl, ⟨⟨wordSucc_lt _, hrange.tail_lt⟩, hrange.capacity_eq, ?_⟩, rfl, hsize⟩
  change wordSub (wordSucc q.head) q.tail ≤ c
  rw [hsize]
  exact hroom

theorem InRange.tryPop (hrange : q.InRange c) : q.tryPop.1.InRange c := by
  refine ⟨hrange.toWords.tryPop, ?_, ?_⟩
  · unfold ChannelFrameQueue.tryPop
    split <;> exact hrange.capacity_eq
  · unfold ChannelFrameQueue.tryPop
    split
    next => exact hrange.size_le
    next hne =>
      change wordSub q.head (wordSucc q.tail) ≤ c
      rw [wordSub_wordSucc hrange.head_lt hrange.tail_lt hne]
      exact (Nat.sub_le _ _).trans hrange.size_le

theorem InRange.call (hrange : q.InRange c) (hlt : c < wordSize) (step : QueueCall α) :
    (q.call step).InRange c := by
  cases step with
  | pop => exact hrange.tryPop
  | push frame =>
      by_cases hroom : q.size < c
      · exact (hrange.push hlt hroom frame).2.1
      · have hfull : q.tryPush frame = ({ q with dropped := wordSucc q.dropped }, false) := by
          rw [ChannelFrameQueue.tryPush, if_pos]
          rw [hrange.capacity_eq]
          exact Nat.not_lt.mp hroom
        change (q.tryPush frame).1.InRange c
        rw [hfull]
        exact ⟨⟨hrange.head_lt, hrange.tail_lt⟩, hrange.capacity_eq, hrange.size_le⟩

theorem InRange.calls (hrange : q.InRange c) (hlt : c < wordSize)
    (sequence : List (QueueCall α)) : (q.calls sequence).InRange c := by
  induction sequence generalizing q with
  | nil => exact hrange
  | cons step rest ih => exact ih (hrange.call hlt step)

/-! ## One state -/

/-- The position behind the last live one is where the next push writes. -/
theorem livePosition_size (hwords : q.Words) : q.livePosition q.size = q.head := by
  have hhead := hwords.head_lt
  have htail := hwords.tail_lt
  unfold livePosition size wordSub wordSize at *
  omega

/-- Live slots are distinct while `head_` has not passed the wrap that `tail_` is
still in front of, or nothing is skipped there, or no more positions are live than
are skipped. -/
theorem InRange.distinct_iff (hrange : q.InRange c) (hlt : c < wordSize) :
    SlotsDistinct wordSize q.capacity q.tail q.size ↔
      q.tail + q.size ≤ wordSize ∨ c ∣ wordSize ∨ q.size ≤ wordSize % c := by
  rw [hrange.capacity_eq]
  exact slotsDistinct_iff q.tail hrange.tail_lt hrange.size_le hlt

/-- Where the slots meet at the wrap, no frame is lost to a push. -/
theorem InRange.keepsFrames (hrange : q.InRange c) (hlt : c < wordSize) (hdvd : c ∣ wordSize) :
    q.KeepsFrames where
  distinct := (hrange.distinct_iff hlt).mpr (.inr (.inl hdvd))
  kept := by
    intro frame haccepted k hk
    unfold tryPush at haccepted ⊢
    split at haccepted
    next => contradiction
    next hroom =>
      rw [if_neg hroom]
      have hnext : q.size + 1 ≤ c := by
        rw [hrange.capacity_eq] at hroom
        exact Nat.not_le.mp hroom
      have hslots := (slotsDistinct_iff q.tail hrange.tail_lt hnext hlt).mpr (.inr (.inl hdvd))
      have hother := hslots k (by omega) q.size (by omega) (by omega)
      change (q.store q.head (some frame)).load (q.livePosition k) = _
      apply load_store_of_ne
      rw [← livePosition_size hrange.toWords, hrange.capacity_eq]
      exact hother

/-! ## A run to the wrap -/

theorem calls_append (first second : List (QueueCall α)) :
    q.calls (first ++ second) = (q.calls first).calls second :=
  List.foldl_append

/-- Pushes into a queue that has room for them. -/
theorem InRange.after_pushes (hrange : q.InRange c) (hlt : c < wordSize) (frame : α) {n : Nat}
    (hroom : q.size + n ≤ c) :
    (q.calls (List.replicate n (.push frame))).tail = q.tail ∧
      (q.calls (List.replicate n (.push frame))).size = q.size + n := by
  induction n generalizing q with
  | zero => exact ⟨rfl, (Nat.add_zero _).symm⟩
  | succ n ih =>
      have hsplit : q.calls (List.replicate (n + 1) (.push frame)) =
          (q.tryPush frame).1.calls (List.replicate n (.push frame)) := rfl
      obtain ⟨_, hnext, htail, hsize⟩ := hrange.push hlt (by omega) frame
      obtain ⟨htails, hsizes⟩ := ih hnext (by omega)
      rw [hsplit, htails, hsizes, htail, hsize]
      refine ⟨rfl, ?_⟩
      omega

/-- A pop from a queue that is not empty moves `tail_` by one. -/
theorem InRange.pop_moves (hrange : q.InRange c) (hsome : q.size ≠ 0) :
    q.tryPop.1.tail = wordSucc q.tail ∧ q.tryPop.1.size = q.size - 1 := by
  have hne : q.head ≠ q.tail := by
    intro heq
    rw [size, heq] at hsome
    exact hsome (wordSub_self _)
  have hpop : q.tryPop.1 = { q.store q.tail none with tail := wordSucc q.tail } := by
    rw [ChannelFrameQueue.tryPop, if_neg hne]
  rw [hpop]
  exact ⟨rfl, wordSub_wordSucc hrange.head_lt hrange.tail_lt hne⟩

/-- A frame that is pushed and popped at once moves both counters of an empty queue. -/
theorem InRange.turn (hrange : q.InRange c) (hpos : 1 ≤ c) (hlt : c < wordSize)
    (hempty : q.size = 0) (frame : α) :
    ((q.call (.push frame)).call .pop).size = 0 ∧
      ((q.call (.push frame)).call .pop).tail = wordSucc q.tail := by
  obtain ⟨_, hnext, htail, hsize⟩ := hrange.push hlt (by omega) frame
  obtain ⟨htails, hsizes⟩ := hnext.pop_moves (by omega)
  change (q.tryPush frame).1.tryPop.1.size = 0 ∧ (q.tryPush frame).1.tryPop.1.tail = _
  rw [hsizes, htails, htail, hsize, hempty]
  exact ⟨rfl, rfl⟩

/-- Any number of frames that are pushed and popped one at a time. -/
def turns (frame : α) (n : Nat) : List (QueueCall α) :=
  (List.replicate n [.push frame, .pop]).flatten

theorem InRange.after_turns (hrange : q.InRange c) (hpos : 1 ≤ c) (hlt : c < wordSize)
    (hempty : q.size = 0) (frame : α) (n : Nat) :
    (q.calls (turns frame n)).size = 0 ∧
      (q.calls (turns frame n)).tail = (q.tail + n) % wordSize := by
  induction n generalizing q with
  | zero => exact ⟨hempty, (Nat.mod_eq_of_lt hrange.tail_lt).symm⟩
  | succ n ih =>
      have hsplit : q.calls (turns frame (n + 1)) =
          ((q.call (.push frame)).call .pop).calls (turns frame n) := by
        rw [turns, List.replicate_succ, List.flatten_cons, calls_append]
        rfl
      obtain ⟨hsize, htail⟩ := hrange.turn hpos hlt hempty frame
      obtain ⟨hsizes, htails⟩ := ih ((hrange.call hlt _).call hlt _) hsize
      rw [hsplit]
      refine ⟨hsizes, htails.trans ?_⟩
      rw [htail, wordSucc, Nat.mod_add_mod, Nat.add_assoc, Nat.add_comm 1]

/-- A capacity that leaves something over of the wrap has a run into a shared slot. -/
theorem exists_shared_slot (frame : α) (hpos : 1 ≤ c) (hlt : c < wordSize)
    (hgap : ¬ c ∣ wordSize) : ∃ sequence : List (QueueCall α),
      ¬ SlotsDistinct wordSize ((create c).calls sequence).capacity
        ((create c).calls sequence).tail ((create c).calls sequence).size := by
  have hrest : wordSize % c ≠ 0 := fun hzero => hgap (Nat.dvd_of_mod_eq_zero hzero)
  have hsmall : wordSize % c < c := Nat.mod_lt _ hpos
  have hinit : (create c : ChannelFrameQueue α).InRange c := .create hpos
  have hempty : (create c : ChannelFrameQueue α).size = 0 := by
    rw [size, create_head, create_tail, wordSub_self]
  obtain ⟨hsize, htail⟩ := hinit.after_turns hpos hlt hempty frame (wordSize - wordSize % c)
  have hmiddle := hinit.calls hlt (turns frame (wordSize - wordSize % c))
  obtain ⟨htails, hsizes⟩ := hmiddle.after_pushes hlt frame (n := wordSize % c + 1) (by omega)
  refine ⟨turns frame (wordSize - wordSize % c) ++
    List.replicate (wordSize % c + 1) (.push frame), ?_⟩
  rw [(hinit.calls hlt _).distinct_iff hlt, calls_append, htails, hsizes, htail, hsize, create_tail,
    Nat.zero_add, Nat.zero_add, Nat.mod_eq_of_lt (by omega)]
  omega

end Calls

end ChannelFrameQueue

/-- For every capacity: live slots are distinct in a state that any calls lead to if
and only if its live positions have not passed the wrap, or the capacity divides the
number of counter values, or no more positions are live than that leaves over; and
no sequence of calls loses a frame to a push if and only if the capacity divides it. -/
theorem liveSlots_distinct_iff [Inhabited α] {c : Nat} (hpos : 1 ≤ c) (hlt : c < wordSize) :
    (∀ sequence : List (QueueCall α), let q := (ChannelFrameQueue.create c).calls sequence
      SlotsDistinct wordSize q.capacity q.tail q.size ↔
        q.tail + q.size ≤ wordSize ∨ c ∣ wordSize ∨ q.size ≤ wordSize % c) ∧
    ((∀ sequence : List (QueueCall α),
      ((ChannelFrameQueue.create c).calls sequence).KeepsFrames) ↔ c ∣ wordSize) := by
  have hinit : (ChannelFrameQueue.create c : ChannelFrameQueue α).InRange c := .create hpos
  refine ⟨fun sequence => (hinit.calls hlt sequence).distinct_iff hlt, ?_, ?_⟩
  · intro hkeeps
    by_contra hgap
    obtain ⟨sequence, hshared⟩ :=
      ChannelFrameQueue.exists_shared_slot (default : α) hpos hlt hgap
    exact hshared (hkeeps sequence).distinct
  · intro hdvd sequence
    exact (hinit.calls hlt sequence).keepsFrames hlt hdvd

/-- Eight slots keep the frames of one sequence of calls, as of every other one. -/
theorem eightSlots_keepFrames :
    ((ChannelFrameQueue.create 8).calls [.push 1, .push 2, .pop, .push 3]).KeepsFrames := by
  have hpos : 1 ≤ 8 := by decide
  have hlt : 8 < wordSize := by decide
  have hdvd : 8 ∣ wordSize := by decide
  exact (liveSlots_distinct_iff (α := Nat) hpos hlt).2.mpr hdvd [.push 1, .push 2, .pop, .push 3]

/-- Three slots come to hold two live positions in one of them. -/
theorem threeSlots_share :
    ¬ ∀ (c : Nat) (sequence : List (QueueCall Nat)), 1 ≤ c → c < wordSize →
      ((ChannelFrameQueue.create c).calls sequence).KeepsFrames := by
  intro hclaim
  have hpos : 1 ≤ 3 := by decide
  have hlt : 3 < wordSize := by decide
  have hgap : ¬ 3 ∣ wordSize := by decide
  obtain ⟨sequence, hshared⟩ := ChannelFrameQueue.exists_shared_slot 0 hpos hlt hgap
  exact hshared (hclaim 3 sequence hpos hlt).distinct

end SimVision
