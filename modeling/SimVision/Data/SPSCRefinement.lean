import Mathlib.Data.List.ReduceOption
import SimVision.Data.SPSCInvariant

/-! # One producer and one consumer refine a bounded FIFO

The two threads of the queue's contract interleave their steps freely. Each
history of such a run is accepted by the abstract bounded queue, where a push
enters at its `head_` store and a pop leaves at its `tail_` store.
-/

namespace SimVision

open Foundation

variable {α : Type}

/-- The two operations of the consumer that pop. -/
inductive ConsumerCall where
  | tryPop
  | clear
  deriving DecidableEq

/-- A queue with its producer and its consumer; `none` is a thread between calls. -/
structure SpscState (α : Type) where
  queue : ChannelFrameQueue α
  push : Option (PushPc α)
  pop : Option (ConsumerCall × PopPc α)

/-- The schedule either begins a call or lets a thread take its next step. -/
inductive SpscAction (α : Type) where
  | callTryPush (frame : α)
  | producer
  | callTryPop
  | callClear
  | consumer

/-- Where the consumer stands after a step: `clear` pops again after a success. -/
def ConsumerCall.resume (call : ConsumerCall) :
    Progress (PopPc α) (Option (Option α)) → Option (ConsumerCall × PopPc α)
  | .running pc => some (call, pc)
  | .returned none => none
  | .returned (some _) =>
      match call with
      | .tryPop => none
      | .clear => some (.clear, .loadTail)

def SpscState.step (s : SpscState α) :
    SpscAction α → Option (SpscState α × List (QueueEvent α))
  | .callTryPush frame =>
      match s.push with
      | none => some ({ s with push := some (.loadHead frame) }, [])
      | some _ => none
  | .producer =>
      match s.push with
      | none => none
      | some pc =>
          let (queue, progress, events) := pc.step s.queue
          some ({ s with queue := queue, push := progress.pc? }, events)
  | .callTryPop =>
      match s.pop with
      | none => some ({ s with pop := some (.tryPop, .loadTail) }, [])
      | some _ => none
  | .callClear =>
      match s.pop with
      | none => some ({ s with pop := some (.clear, .loadTail) }, [])
      | some _ => none
  | .consumer =>
      match s.pop with
      | none => none
      | some (call, pc) =>
          let (queue, progress, events) := pc.step s.queue
          some ({ s with queue := queue, pop := call.resume progress }, events)

/-- What a step of the two threads can be. -/
inductive SpscState.Moves (s : SpscState α) :
    SpscAction α → SpscState α → List (QueueEvent α) → Prop where
  | callTryPush {frame : α} (hidle : s.push = none) :
      Moves s (.callTryPush frame) { s with push := some (.loadHead frame) } []
  | producer {pc : PushPc α} {queue : ChannelFrameQueue α} {progress : Progress (PushPc α) Bool}
      {events : List (QueueEvent α)} (hpc : s.push = some pc)
      (hrun : pc.step s.queue = (queue, progress, events)) :
      Moves s .producer { s with queue := queue, push := progress.pc? } events
  | callTryPop (hidle : s.pop = none) :
      Moves s .callTryPop { s with pop := some (.tryPop, .loadTail) } []
  | callClear (hidle : s.pop = none) :
      Moves s .callClear { s with pop := some (.clear, .loadTail) } []
  | consumer {call : ConsumerCall} {pc : PopPc α} {queue : ChannelFrameQueue α}
      {progress : Progress (PopPc α) (Option (Option α))} {events : List (QueueEvent α)}
      (hpop : s.pop = some (call, pc)) (hrun : pc.step s.queue = (queue, progress, events)) :
      Moves s .consumer { s with queue := queue, pop := call.resume progress } events

theorem SpscState.step_moves {s t : SpscState α} {action : SpscAction α}
    {events : List (QueueEvent α)} (hstep : s.step action = some (t, events)) :
    s.Moves action t events := by
  cases action with
  | callTryPush frame =>
      simp only [SpscState.step] at hstep
      split at hstep
      next hidle =>
        cases hstep
        exact .callTryPush hidle
      next => contradiction
  | producer =>
      simp only [SpscState.step] at hstep
      split at hstep
      next => contradiction
      next pc hpc =>
        cases hstep
        exact .producer hpc rfl
  | callTryPop =>
      simp only [SpscState.step] at hstep
      split at hstep
      next hidle =>
        cases hstep
        exact .callTryPop hidle
      next => contradiction
  | callClear =>
      simp only [SpscState.step] at hstep
      split at hstep
      next hidle =>
        cases hstep
        exact .callClear hidle
      next => contradiction
  | consumer =>
      simp only [SpscState.step] at hstep
      split at hstep
      next => contradiction
      next call pc hpop =>
        cases hstep
        exact .consumer hpop rfl

/-- The queue constructed with a requested capacity, with both threads idle. -/
def spsc (α : Type) (c : Nat) : Machine (SpscState α) (SpscAction α) (QueueEvent α) where
  init := { queue := ChannelFrameQueue.create c, push := none, pop := none }
  step := SpscState.step

/-! ## The abstract view -/

/-- The outcome of the abstract queue that an event reports. -/
def QueueEvent.fifo? : QueueEvent α → Option (FifoEvent α)
  | .accepted frame => some (.pushed frame)
  | .foundFull => some .full
  | .pushReturned _ => none
  | .taken out => out.map .popped
  | .foundEmpty => some .empty

/-- The pointer at an offset of the window: the consumer may hold the first. -/
def SpscState.content (s : SpscState α) (offset : Nat) : Option α :=
  if offset = 0 then
    match s.pop.bind fun held => held.2.held? with
    | some out => out
    | none => s.queue.load s.queue.tail
  else s.queue.load (s.queue.tail + offset)

/-- The pointers at the positions from `tail_` to `head_`. -/
def SpscState.window (s : SpscState α) : List (Option α) :=
  (List.range s.queue.size).map s.content

/-- The frames of the window. -/
def SpscState.contents (s : SpscState α) : List α := s.window.reduceOption

/-- Completed pushes that returned `ok`. -/
def pushReturns (ok : Bool) (history : List (QueueEvent α)) : Nat :=
  history.countP fun event => match event with
    | .pushReturned result => result == ok
    | _ => false

@[simp] theorem pushReturns_append (ok : Bool) (first second : List (QueueEvent α)) :
    pushReturns ok (first ++ second) = pushReturns ok first + pushReturns ok second :=
  List.countP_append

/-! ## Invariant -/

/-- The value a pop loaded from `tail_`. -/
def PopPc.loaded? : PopPc α → Option Nat
  | .loadTail => none
  | .loadHead t => some t
  | .moveSlot t => some t
  | .resetSlot t _ => some t
  | .storeTail t _ => some t

/-- A push whose frame is accepted and not yet counted. -/
def PushPc.uncounted : Option (PushPc α) → Nat
  | some .countPushed => 1
  | _ => 0

/-- The invariant of the two-thread queue over its history. -/
structure SpscInv (c : Nat) (history : List (QueueEvent α)) (s : SpscState α) : Prop where
  queue_inv : QueueInv s.queue s.push (fun _ : Unit => s.pop.map Prod.snd)
    (acceptedFrames history) (takenFrames history)
  capacity_eq : s.queue.capacity = (ChannelFrameQueue.create c : ChannelFrameQueue α).capacity
  loaded_eq : ∀ call pc t, s.pop = some (call, pc) → pc.loaded? = some t → t = s.queue.tail
  accepted_eq : (acceptedFrames history).length =
    pushReturns true history + PushPc.uncounted s.push
  pushed_eq : s.queue.pushed = pushReturns true history % wordSize
  dropped_eq : s.queue.dropped = pushReturns false history % wordSize

theorem wordSucc_mod (n : Nat) : wordSucc (n % wordSize) = (n + 1) % wordSize :=
  Nat.mod_add_mod n wordSize 1

/-- What one step of the producer does to the queue and to its own call. -/
structure PushPc.StepSpec (q : ChannelFrameQueue α) (pc : PushPc α) (q' : ChannelFrameQueue α)
    (progress : Progress (PushPc α) Bool) (events : List (QueueEvent α)) : Prop where
  tail_eq : q'.tail = q.tail
  capacity_eq : q'.capacity = q.capacity
  keeps : (∀ frame h, pc ≠ .writeSlot frame h) → (∀ frame h, pc ≠ .storeHead frame h) →
    q'.buffer = q.buffer ∧ q'.head = q.head
  rejected : progress.pc? = some .countDropped →
    ∃ frame h, pc = .loadTail frame h ∧ q.capacity ≤ wordSub h q.tail
  loading : ∀ frame h, progress.pc? = some (.loadTail frame h) → pc = .loadHead frame
  returned_false : .pushReturned false ∈ events → pc = .countDropped
  not_empty : .foundEmpty ∉ events

theorem PushPc.step_spec {q q' : ChannelFrameQueue α} {pc : PushPc α}
    {progress : Progress (PushPc α) Bool} {events : List (QueueEvent α)}
    (hstep : pc.step q = (q', progress, events)) : StepSpec q pc q' progress events := by
  cases pc with
  | loadHead frame =>
      obtain ⟨rfl, rfl, rfl⟩ := hstep
      exact ⟨rfl, rfl, by simp, by simp, by simp, by simp, by simp⟩
  | loadTail frame h =>
      simp only [PushPc.step] at hstep
      split at hstep
      next hfull =>
        obtain ⟨rfl, rfl, rfl⟩ := hstep
        exact ⟨rfl, rfl, by simp, fun _ => ⟨frame, h, rfl, hfull⟩, by simp, by simp, by simp⟩
      next =>
        obtain ⟨rfl, rfl, rfl⟩ := hstep
        exact ⟨rfl, rfl, by simp, by simp, by simp, by simp, by simp⟩
  | writeSlot frame h =>
      obtain ⟨rfl, rfl, rfl⟩ := hstep
      exact ⟨rfl, rfl, by simp, by simp, by simp, by simp, by simp⟩
  | storeHead frame h =>
      obtain ⟨rfl, rfl, rfl⟩ := hstep
      exact ⟨rfl, rfl, by simp, by simp, by simp, by simp, by simp⟩
  | countPushed =>
      obtain ⟨rfl, rfl, rfl⟩ := hstep
      exact ⟨rfl, rfl, by simp, by simp, by simp, by simp, by simp⟩
  | countDropped =>
      obtain ⟨rfl, rfl, rfl⟩ := hstep
      exact ⟨rfl, rfl, by simp, by simp, by simp, by simp, by simp⟩

/-- What one step of a consumer does to the queue and to its own call. -/
structure PopPc.StepSpec (q : ChannelFrameQueue α) (pc : PopPc α) (q' : ChannelFrameQueue α)
    (events : List (QueueEvent α)) : Prop where
  head_eq : q'.head = q.head
  capacity_eq : q'.capacity = q.capacity
  pushed_eq : q'.pushed = q.pushed
  dropped_eq : q'.dropped = q.dropped
  not_accepted : acceptedFrames events = []
  not_returned : ∀ ok, pushReturns ok events = 0 ∧ .pushReturned ok ∉ events
  empty : .foundEmpty ∈ events → ∃ u, pc = .loadHead u ∧ q.head = u

theorem PopPc.step_spec {q q' : ChannelFrameQueue α} {pc : PopPc α}
    {progress : Progress (PopPc α) (Option (Option α))} {events : List (QueueEvent α)}
    (hstep : pc.step q = (q', progress, events)) : StepSpec q pc q' events := by
  cases pc with
  | loadTail =>
      obtain ⟨rfl, rfl, rfl⟩ := hstep
      exact ⟨rfl, rfl, rfl, rfl, rfl, fun _ => ⟨rfl, by simp⟩, by simp⟩
  | loadHead u =>
      simp only [PopPc.step] at hstep
      split at hstep
      next hempty =>
        obtain ⟨rfl, rfl, rfl⟩ := hstep
        exact ⟨rfl, rfl, rfl, rfl, rfl, fun _ => ⟨rfl, by simp⟩, fun _ => ⟨u, rfl, hempty⟩⟩
      next =>
        obtain ⟨rfl, rfl, rfl⟩ := hstep
        exact ⟨rfl, rfl, rfl, rfl, rfl, fun _ => ⟨rfl, by simp⟩, by simp⟩
  | moveSlot u =>
      obtain ⟨rfl, rfl, rfl⟩ := hstep
      exact ⟨rfl, rfl, rfl, rfl, rfl, fun _ => ⟨rfl, by simp⟩, by simp⟩
  | resetSlot u out =>
      obtain ⟨rfl, rfl, rfl⟩ := hstep
      exact ⟨rfl, rfl, rfl, rfl, rfl, fun _ => ⟨rfl, by simp⟩, by simp⟩
  | storeTail u out =>
      obtain ⟨rfl, rfl, rfl⟩ := hstep
      exact ⟨rfl, rfl, rfl, rfl, rfl, fun _ => ⟨rfl, by simp⟩, by simp⟩

namespace SpscInv

variable {c : Nat} {history : List (QueueEvent α)} {s t : SpscState α}

theorem init : SpscInv c [] (spsc α c).init where
  queue_inv := QueueInv.create c
  capacity_eq := rfl
  loaded_eq := by simp [spsc]
  accepted_eq := rfl
  pushed_eq := rfl
  dropped_eq := rfl

/-- The counters follow the returns of the calls. -/
private theorem producer_counts {pc : PushPc α} {queue : ChannelFrameQueue α}
    {progress : Progress (PushPc α) Bool} {events : List (QueueEvent α)}
    (hinv : SpscInv c history s) (hpc : s.push = some pc)
    (hstep : pc.step s.queue = (queue, progress, events)) :
    (acceptedFrames (history ++ events)).length =
        pushReturns true (history ++ events) + PushPc.uncounted progress.pc? ∧
      queue.pushed = pushReturns true (history ++ events) % wordSize ∧
      queue.dropped = pushReturns false (history ++ events) % wordSize := by
  have haccepted := hinv.accepted_eq
  have hpushed := hinv.pushed_eq
  have hdropped := hinv.dropped_eq
  rw [hpc] at haccepted
  cases pc with
  | loadTail frame h =>
      simp only [PushPc.step] at hstep
      split at hstep <;>
        (obtain ⟨rfl, rfl, rfl⟩ := hstep
         exact ⟨by simpa [acceptedFrames, pushReturns, PushPc.uncounted] using haccepted,
           by simpa [pushReturns] using hpushed, by simpa [pushReturns] using hdropped⟩)
  | loadHead frame =>
      obtain ⟨rfl, rfl, rfl⟩ := hstep
      exact ⟨by simpa [PushPc.uncounted] using haccepted, by simpa using hpushed,
        by simpa using hdropped⟩
  | writeSlot frame h =>
      obtain ⟨rfl, rfl, rfl⟩ := hstep
      exact ⟨by simpa [PushPc.uncounted] using haccepted, by simpa using hpushed,
        by simpa using hdropped⟩
  | storeHead frame h =>
      obtain ⟨rfl, rfl, rfl⟩ := hstep
      refine ⟨?_, by simpa [pushReturns] using hpushed, by simpa [pushReturns] using hdropped⟩
      -- the frame is accepted here and counted only by the next step
      simp only [acceptedFrames_append, pushReturns_append, List.length_append, haccepted]
      rfl
  | countPushed =>
      obtain ⟨rfl, rfl, rfl⟩ := hstep
      refine ⟨by simpa [acceptedFrames, pushReturns, PushPc.uncounted] using haccepted, ?_,
        by simpa [pushReturns] using hdropped⟩
      rw [pushReturns_append]
      dsimp only
      rw [hpushed, wordSucc_mod]
      rfl
  | countDropped =>
      obtain ⟨rfl, rfl, rfl⟩ := hstep
      refine ⟨by simpa [acceptedFrames, pushReturns, PushPc.uncounted] using haccepted,
        by simpa [pushReturns] using hpushed, ?_⟩
      rw [pushReturns_append]
      dsimp only
      rw [hdropped, wordSucc_mod]
      rfl

/-- The only consumer never works with a stale `tail_`, so its moves are safe. -/
theorem pop_safe (hinv : SpscInv c history s) {call : ConsumerCall} {pc : PopPc α}
    (hpop : s.pop = some (call, pc)) :
    pc.Safe s.queue (fun _ : Unit => s.pop.map Prod.snd) := by
  cases pc with
  | moveSlot u =>
      refine ⟨hinv.loaded_eq call _ u hpop rfl, ?_⟩
      rintro ⟨⟩
      simp [hpop, PopPc.Holding]
  | loadTail => trivial
  | loadHead u => trivial
  | resetSlot u out => trivial
  | storeTail u out => trivial

/-- With fewer than `2 ^ 64` accepted pushes the `head_` store does not wrap. -/
theorem push_safe (hinv : SpscInv c history s) {pc : PushPc α} {queue : ChannelFrameQueue α}
    {progress : Progress (PushPc α) Bool} {events : List (QueueEvent α)}
    (hpc : s.push = some pc) (hstep : pc.step s.queue = (queue, progress, events))
    (hfew : (acceptedFrames (history ++ events)).length < wordSize) : pc.Safe := by
  cases pc with
  | storeHead frame h =>
      obtain ⟨rfl, rfl, rfl⟩ := hstep
      have hhead : h = s.queue.head := (hinv.queue_inv.push_knows _ hpc).1
      have hlen := hinv.queue_inv.head_eq
      simp only [acceptedFrames_append, List.length_append] at hfew
      change (acceptedFrames history).length + 1 < wordSize at hfew
      change h + 1 < wordSize
      omega
  | loadHead frame => trivial
  | loadTail frame h => trivial
  | writeSlot frame h => trivial
  | countPushed => trivial
  | countDropped => trivial

/-- A step of the consumer keeps the values it loaded equal to `tail_`. -/
private theorem loaded_step {call : ConsumerCall} {pc : PopPc α} {queue : ChannelFrameQueue α}
    {progress : Progress (PopPc α) (Option (Option α))} {events : List (QueueEvent α)}
    (hinv : SpscInv c history s) (hpop : s.pop = some (call, pc))
    (hstep : pc.step s.queue = (queue, progress, events)) :
    ∀ call' pc' u, call.resume progress = some (call', pc') → pc'.loaded? = some u →
      u = queue.tail := by
  intro call' pc' u hresume hloaded
  -- only this consumer stores `tail_`, and after its store it has loaded nothing yet
  have hcurrent := hinv.loaded_eq call pc
  cases pc with
  | loadTail =>
      obtain ⟨rfl, rfl, rfl⟩ := hstep
      simp only [ConsumerCall.resume, Option.some.injEq, Prod.mk.injEq] at hresume
      obtain ⟨rfl, rfl⟩ := hresume
      exact (Option.some.inj hloaded).symm
  | loadHead v =>
      simp only [PopPc.step] at hstep
      split at hstep
      next =>
        obtain ⟨rfl, rfl, rfl⟩ := hstep
        simp [ConsumerCall.resume] at hresume
      next =>
        obtain ⟨rfl, rfl, rfl⟩ := hstep
        simp only [ConsumerCall.resume, Option.some.injEq, Prod.mk.injEq] at hresume
        obtain ⟨rfl, rfl⟩ := hresume
        exact hcurrent u hpop hloaded
  | moveSlot v =>
      obtain ⟨rfl, rfl, rfl⟩ := hstep
      simp only [ConsumerCall.resume, Option.some.injEq, Prod.mk.injEq] at hresume
      obtain ⟨rfl, rfl⟩ := hresume
      exact hcurrent u hpop hloaded
  | resetSlot v out =>
      obtain ⟨rfl, rfl, rfl⟩ := hstep
      simp only [ConsumerCall.resume, Option.some.injEq, Prod.mk.injEq] at hresume
      obtain ⟨rfl, rfl⟩ := hresume
      exact hcurrent u hpop hloaded
  | storeTail v out =>
      obtain ⟨rfl, rfl, rfl⟩ := hstep
      cases call with
      | tryPop => simp [ConsumerCall.resume] at hresume
      | clear =>
          simp only [ConsumerCall.resume, Option.some.injEq, Prod.mk.injEq] at hresume
          obtain ⟨rfl, rfl⟩ := hresume
          simp [PopPc.loaded?] at hloaded

/-- A family over the only consumer is its one member. -/
private theorem update_only (pops : Unit → Option (PopPc α)) (pc : Option (PopPc α)) :
    Function.update pops () pc = fun _ => pc := by
  funext u
  cases u
  exact Function.update_self ..

/-- The only consumer begins a pop. -/
private theorem queue_inv_start {queue : ChannelFrameQueue α} {push : Option (PushPc α)}
    {accepted : List α} {taken : List (Option α)}
    (hinv : QueueInv queue push (fun _ : Unit => none) accepted taken) :
    QueueInv queue push (fun _ : Unit => some .loadTail) accepted taken := by
  have hstart := hinv.start_pop (i := ()) rfl
  rwa [update_only] at hstart

/-- The consumer begins one of its calls. -/
private theorem start_call (hinv : SpscInv c history s) (hidle : s.pop = none)
    (call : ConsumerCall) :
    SpscInv c (history ++ []) { s with pop := some (call, .loadTail) } := by
  rw [List.append_nil]
  have hqueue := hinv.queue_inv
  rw [hidle] at hqueue
  exact
    { hinv with
      queue_inv := queue_inv_start hqueue
      loaded_eq := by
        intro call' pc u hpop hloaded
        obtain ⟨rfl, rfl⟩ := Prod.mk.inj (Option.some.inj hpop)
        contradiction }

/-- The consumer's control state after a step, seen as a pop in progress; the
loop of `clear` begins the next pop at once. -/
private theorem queue_inv_resume {call : ConsumerCall} {queue : ChannelFrameQueue α}
    {push : Option (PushPc α)} {progress : Progress (PopPc α) (Option (Option α))}
    {accepted : List α} {taken : List (Option α)}
    (hinv : QueueInv queue push (fun _ : Unit => progress.pc?) accepted taken) :
    QueueInv queue push (fun _ : Unit => (call.resume progress).map Prod.snd) accepted taken := by
  cases progress with
  | running pc => exact hinv
  | returned result =>
      cases result with
      | none => exact hinv
      | some out =>
          cases call with
          | tryPop => exact hinv
          | clear => exact queue_inv_start hinv

/-- Every step of either thread keeps the invariant. -/
theorem step {action : SpscAction α} {events : List (QueueEvent α)}
    (hinv : SpscInv c history s) (hstep : s.step action = some (t, events))
    (hfew : (acceptedFrames (history ++ events)).length < wordSize) :
    SpscInv c (history ++ events) t := by
  cases SpscState.step_moves hstep with
  | callTryPush hidle =>
      rw [List.append_nil]
      have hqueue := hinv.queue_inv
      have haccepted := hinv.accepted_eq
      rw [hidle] at hqueue haccepted
      exact { hinv with queue_inv := hqueue.start_push _, accepted_eq := haccepted }
  | producer hpc hrun =>
      have hspec := PushPc.step_spec hrun
      obtain ⟨haccepted, hpushed, hdropped⟩ := hinv.producer_counts hpc hrun
      have hqueue := hinv.queue_inv
      rw [hpc] at hqueue
      have hnext := hqueue.push_step (hinv.push_safe hpc hrun hfew) hrun
      rw [← acceptedFrames_append, ← takenFrames_append] at hnext
      exact
        { queue_inv := hnext
          capacity_eq := hspec.capacity_eq.trans hinv.capacity_eq
          loaded_eq := fun call pc' u hpop hloaded =>
            (hinv.loaded_eq call pc' u hpop hloaded).trans hspec.tail_eq.symm
          accepted_eq := haccepted
          pushed_eq := hpushed
          dropped_eq := hdropped }
  | callTryPop hidle => exact hinv.start_call hidle .tryPop
  | callClear hidle => exact hinv.start_call hidle .clear
  | consumer hpop hrun =>
      have hspec := PopPc.step_spec hrun
      have hnext := hinv.queue_inv.pop_step (i := ()) (by simp [hpop]) (hinv.pop_safe hpop) hrun
      rw [← acceptedFrames_append, ← takenFrames_append, update_only] at hnext
      exact
        { queue_inv := queue_inv_resume hnext
          capacity_eq := hspec.capacity_eq.trans hinv.capacity_eq
          loaded_eq := hinv.loaded_step hpop hrun
          accepted_eq := by
            simpa [hspec.not_accepted, hspec.not_returned] using hinv.accepted_eq
          pushed_eq := by
            simpa [hspec.not_returned, hspec.pushed_eq] using hinv.pushed_eq
          dropped_eq := by
            simpa [hspec.not_returned, hspec.dropped_eq] using hinv.dropped_eq }

/-! ### Reading the window -/

theorem size_eq (hinv : SpscInv c history s) :
    s.queue.size = (acceptedFrames history).length - s.queue.tail := by
  rw [← hinv.queue_inv.head_eq]
  exact wordSub_eq hinv.queue_inv.tail_le hinv.queue_inv.head_lt

/-- Each position of the window shows the frame accepted there. -/
private theorem content_eq (hinv : SpscInv c history s) {offset : Nat}
    (hlt : s.queue.tail + offset < (acceptedFrames history).length) :
    s.content offset = (acceptedFrames history)[s.queue.tail + offset]? := by
  have hqueue := hinv.queue_inv
  have hhead := hqueue.head_eq
  have hle := hqueue.head_le
  have hslot : (offset = 0 → ¬ PopPc.Holding (s.pop.map Prod.snd)) →
      s.queue.load (s.queue.tail + offset) = (acceptedFrames history)[s.queue.tail + offset]? := by
    intro hfree
    rw [hqueue.slots _ (Nat.le_add_right _ _) (by omega) (fun heq _ => hfree (by omega)),
      List.getElem?_append_left hlt]
  by_cases hzero : offset = 0
  · subst offset
    simp only [SpscState.content, if_true]
    cases hpop : s.pop with
    | none => exact hslot (by simp [hpop, PopPc.Holding])
    | some held =>
        obtain ⟨call, pc⟩ := held
        have hknows := hqueue.pop_knows () pc (by simp [hpop])
        cases pc with
        | loadTail => exact hslot (by simp [hpop, PopPc.Holding])
        | loadHead u => exact hslot (by simp [hpop, PopPc.Holding])
        | moveSlot u => exact hslot (by simp [hpop, PopPc.Holding])
        | resetSlot u out =>
            obtain ⟨rfl, _, hout⟩ := hknows
            exact hout
        | storeTail u out =>
            obtain ⟨rfl, _, hout⟩ := hknows
            exact hout
  · rw [SpscState.content, if_neg hzero]
    exact hslot fun heq => absurd heq hzero

theorem window_eq (hinv : SpscInv c history s) :
    s.window = ((acceptedFrames history).drop s.queue.tail).map some := by
  have hsize := hinv.size_eq
  apply List.ext_getElem
  · simp [SpscState.window, hsize]
  · intro k hleft hright
    have hlt : s.queue.tail + k < (acceptedFrames history).length := by
      simp only [List.length_map, List.length_drop] at hright
      omega
    simp only [SpscState.window, List.getElem_map, List.getElem_range, List.getElem_drop]
    rw [hinv.content_eq hlt, List.getElem?_eq_getElem hlt]

theorem contents_eq (hinv : SpscInv c history s) :
    s.contents = (acceptedFrames history).drop s.queue.tail := by
  rw [SpscState.contents, hinv.window_eq]
  simp [List.reduceOption]

theorem window_length (hinv : SpscInv c history s) :
    s.window.length = s.queue.head - s.queue.tail := by
  rw [hinv.window_eq, hinv.queue_inv.head_eq]
  simp

/-- The push that finds the queue full does so while it holds `capacity` frames. -/
theorem full_window (hinv : SpscInv c history s) {frame : α} {h : Nat}
    (hpush : s.push = some (.loadTail frame h))
    (hfull : s.queue.capacity ≤ wordSub h s.queue.tail) :
    s.window.length = s.queue.capacity := by
  have hqueue := hinv.queue_inv
  have hhead : h = s.queue.head := hqueue.push_knows _ hpush
  rw [hhead, wordSub_eq hqueue.tail_le hqueue.head_lt] at hfull
  have hle := hqueue.head_le
  rw [hinv.window_length]
  omega

/-- The pop that finds the counters equal does so while the queue is empty. -/
theorem empty_window (hinv : SpscInv c history s) {call : ConsumerCall} {u : Nat}
    (hpop : s.pop = some (call, .loadHead u)) (hempty : s.queue.head = u) : s.window = [] := by
  have hcurrent := hinv.loaded_eq call _ u hpop rfl
  rw [← List.length_eq_zero_iff, hinv.window_length]
  omega

/-! ### Each step is accepted by the abstract queue -/

variable [DecidableEq α]

private theorem producer_accepts {pc : PushPc α} {queue : ChannelFrameQueue α}
    {progress : Progress (PushPc α) Bool} {events : List (QueueEvent α)}
    (hinv : SpscInv c history s) (hnext : SpscInv c (history ++ events) t)
    (hpc : s.push = some pc) (hstep : pc.step s.queue = (queue, progress, events))
    (hqueue : t.queue = queue) :
    (BoundedFifo.fifo s.queue.capacity).replayFrom s.contents (events.filterMap QueueEvent.fifo?) =
      some t.contents := by
  have htail : t.queue.tail = s.queue.tail := by
    rw [hqueue]
    exact (PushPc.step_spec hstep).tail_eq
  have hbefore := hinv.contents_eq
  have hafter := hnext.contents_eq
  rw [htail, acceptedFrames_append] at hafter
  cases pc with
  | loadTail frame h =>
      simp only [PushPc.step] at hstep
      split at hstep
      next hfull =>
        obtain ⟨rfl, rfl, rfl⟩ := hstep
        -- the queue is full at the load of `tail_`, since only this producer moves `head_`
        have hlength : s.contents.length = s.queue.capacity := by
          rw [← hinv.full_window hpc hfull, hinv.window_eq, hbefore, List.length_map]
        have hsame : t.contents = s.contents := by
          rw [hafter, hbefore]
          simp [acceptedFrames]
        simp [QueueEvent.fifo?, Acceptor.replayFrom, BoundedFifo.fifo, BoundedFifo.accept,
          hlength, hsame]
      next =>
        obtain ⟨rfl, rfl, rfl⟩ := hstep
        simp [hafter, hbefore]
  | storeHead frame h =>
      obtain ⟨rfl, rfl, rfl⟩ := hstep
      have hinside := hinv.queue_inv
      obtain ⟨hh, hroom⟩ := hinside.push_knows _ hpc
      have hhead := hinside.head_eq
      have hle := hinside.tail_le
      have hlength : s.contents.length < s.queue.capacity := by
        rw [hbefore, List.length_drop]
        omega
      have hgrow : t.contents = s.contents ++ [frame] := by
        rw [hafter, hbefore, List.drop_append_of_le_length (by omega)]
        rfl
      simp [QueueEvent.fifo?, Acceptor.replayFrom, BoundedFifo.fifo, BoundedFifo.accept,
        hlength, hgrow]
  | loadHead frame =>
      obtain ⟨rfl, rfl, rfl⟩ := hstep
      simp [hafter, hbefore]
  | writeSlot frame h =>
      obtain ⟨rfl, rfl, rfl⟩ := hstep
      simp [hafter, hbefore]
  | countPushed =>
      obtain ⟨rfl, rfl, rfl⟩ := hstep
      have hsame : t.contents = s.contents := by
        rw [hafter, hbefore]
        simp [acceptedFrames]
      rw [hsame]
      rfl
  | countDropped =>
      obtain ⟨rfl, rfl, rfl⟩ := hstep
      have hsame : t.contents = s.contents := by
        rw [hafter, hbefore]
        simp [acceptedFrames]
      rw [hsame]
      rfl

private theorem consumer_accepts {call : ConsumerCall} {pc : PopPc α}
    {queue : ChannelFrameQueue α} {progress : Progress (PopPc α) (Option (Option α))}
    {events : List (QueueEvent α)} (hinv : SpscInv c history s)
    (hnext : SpscInv c (history ++ events) t) (hpop : s.pop = some (call, pc))
    (hstep : pc.step s.queue = (queue, progress, events)) (hqueue : t.queue = queue) :
    (BoundedFifo.fifo s.queue.capacity).replayFrom s.contents (events.filterMap QueueEvent.fifo?) =
      some t.contents := by
  have hbefore := hinv.contents_eq
  have hafter := hnext.contents_eq
  rw [hqueue, acceptedFrames_append, (PopPc.step_spec hstep).not_accepted,
    List.append_nil] at hafter
  cases pc with
  | loadHead u =>
      simp only [PopPc.step] at hstep
      split at hstep
      next hempty =>
        obtain ⟨rfl, rfl, rfl⟩ := hstep
        have hnil : s.contents = [] := by
          rw [SpscState.contents, hinv.empty_window hpop hempty]
          rfl
        have hnil' : t.contents = [] := by rw [hafter, ← hbefore, hnil]
        simp [QueueEvent.fifo?, Acceptor.replayFrom, BoundedFifo.fifo, BoundedFifo.accept,
          hnil, hnil']
      next =>
        obtain ⟨rfl, rfl, rfl⟩ := hstep
        simp [hafter, hbefore]
  | storeTail u out =>
      obtain ⟨rfl, rfl, rfl⟩ := hstep
      have hinside := hinv.queue_inv
      obtain ⟨hu, hlt, hout⟩ := hinside.pop_knows () _ (by rw [hpop]; rfl)
      have hhead := hinside.head_eq
      have hhlt := hinside.head_lt
      have hindex : s.queue.tail < (acceptedFrames history).length := by omega
      -- the pop leaves the abstract queue here, not where its slot was moved
      have hfirst : out = some (acceptedFrames history)[s.queue.tail] := by
        rw [hout, hu, List.getElem?_eq_getElem hindex]
      have hsplit : s.contents = (acceptedFrames history)[s.queue.tail] :: t.contents := by
        rw [hafter, hbefore, List.drop_eq_getElem_cons hindex]
        dsimp only
        rw [hu, wordSucc_eq (by omega)]
      simp [QueueEvent.fifo?, Acceptor.replayFrom, BoundedFifo.fifo, BoundedFifo.accept,
        hfirst, hsplit]
  | loadTail =>
      obtain ⟨rfl, rfl, rfl⟩ := hstep
      simp [hafter, hbefore]
  | moveSlot u =>
      obtain ⟨rfl, rfl, rfl⟩ := hstep
      simp [hafter, hbefore]
  | resetSlot u out =>
      obtain ⟨rfl, rfl, rfl⟩ := hstep
      simp [hafter, hbefore]

theorem accepts {action : SpscAction α} {events : List (QueueEvent α)}
    (hinv : SpscInv c history s) (hnext : SpscInv c (history ++ events) t)
    (hstep : s.step action = some (t, events)) :
    (BoundedFifo.fifo s.queue.capacity).replayFrom s.contents (events.filterMap QueueEvent.fifo?) =
      some t.contents := by
  have hbefore := hinv.contents_eq
  have hafter := hnext.contents_eq
  cases SpscState.step_moves hstep with
  | producer hpc hrun => exact hinv.producer_accepts hnext hpc hrun rfl
  | consumer hpop hrun => exact hinv.consumer_accepts hnext hpop hrun rfl
  | callTryPush hidle => simpa [hbefore] using hafter.symm
  | callTryPop hidle => simpa [hbefore] using hafter.symm
  | callClear hidle => simpa [hbefore] using hafter.symm

end SpscInv

/-! ## Refinement -/

/-- What the contract of the queue says about a single step. A pop returns false
exactly at the step with the event `foundEmpty`. -/
structure SpscStepSpec (s : SpscState α) (action : SpscAction α) (t : SpscState α)
    (events : List (QueueEvent α)) : Prop where
  /-- Only a rejected push returns false. -/
  false_of_rejected : .pushReturned false ∈ events → s.push = some .countDropped
  /-- A push is rejected at its load of `tail_`, and only while the queue holds
  `capacity` frames. -/
  rejected_when_full : t.push = some .countDropped → s.push ≠ some .countDropped →
    (∃ frame h, s.push = some (.loadTail frame h)) ∧ s.window.length = s.queue.capacity
  /-- A push comes to its load of `tail_` from its load of `head_`. -/
  loading_tail : ∀ frame h, t.push = some (.loadTail frame h) → s.push ≠ t.push →
    s.push = some (.loadHead frame)
  /-- The three steps of a rejected push leave the buffer and `head_` alone. -/
  rejected_keeps : action = .producer → (∀ frame h, s.push ≠ some (.writeSlot frame h)) →
    (∀ frame h, s.push ≠ some (.storeHead frame h)) →
    t.queue.buffer = s.queue.buffer ∧ t.queue.head = s.queue.head
  /-- A pop returns false only while the queue is empty. -/
  empty_when_found : .foundEmpty ∈ events →
    (∃ call u, s.pop = some (call, .loadHead u)) ∧ s.window = []
  /-- The producer writes a null slot, and not the slot of a pop that has found a
  frame and not stored `tail_`. -/
  write_free : action = .producer → ∀ frame h, s.push = some (.writeSlot frame h) →
    s.queue.load h = none ∧
      ∀ call pc u, s.pop = some (call, pc) → (∀ v, pc ≠ .loadHead v) → pc.loaded? = some u →
        h % s.queue.capacity ≠ u % s.queue.capacity

namespace SpscInv

variable {c : Nat} {history : List (QueueEvent α)} {s t : SpscState α}

/-- The slot the producer is about to write is null, and differs from the slot
of a pop past its load of `head_`. -/
theorem write_free (hinv : SpscInv c history s) {frame : α} {h : Nat}
    (hpush : s.push = some (.writeSlot frame h)) :
    s.queue.load h = none ∧
      ∀ call pc u, s.pop = some (call, pc) → (∀ v, pc ≠ .loadHead v) → pc.loaded? = some u →
        h % s.queue.capacity ≠ u % s.queue.capacity := by
  have hqueue := hinv.queue_inv
  obtain ⟨hhead, hroom⟩ := hqueue.push_knows _ hpush
  have hlen := hqueue.head_eq
  have hle := hqueue.tail_le
  have hbusy : ∀ call pc u, s.pop = some (call, pc) → (∀ v, pc ≠ .loadHead v) →
      pc.loaded? = some u → u = s.queue.tail ∧ u < s.queue.head := by
    intro call pc u hpop hpast hloaded
    have hknows := hqueue.pop_knows () pc (by simp [hpop])
    refine ⟨hinv.loaded_eq call pc u hpop hloaded, ?_⟩
    cases pc with
    | loadTail => simp [PopPc.loaded?] at hloaded
    | loadHead v => exact absurd rfl (hpast v)
    | moveSlot v =>
        obtain rfl := Option.some.inj hloaded
        exact hknows.2
    | resetSlot v out =>
        obtain rfl := Option.some.inj hloaded
        exact hknows.2.1
    | storeTail v out =>
        obtain rfl := Option.some.inj hloaded
        exact hknows.2.1
  constructor
  · rw [hqueue.slots h (by omega) hroom, hpush, List.getElem?_eq_none]
    · simp only [PushPc.unpublished, List.append_nil]
      omega
    · intro heq i hhold
      have hlt := hqueue.tail_lt_of_holding (i := i) hhold
      omega
  · intro call pc u hpop hpast hloaded
    obtain ⟨hu, hlt⟩ := hbusy call pc u hpop hpast hloaded
    exact ringSlot_ne s.queue.tail (by omega) ⟨by omega, hroom⟩ (by omega)

theorem step_spec {action : SpscAction α} {events : List (QueueEvent α)}
    (hinv : SpscInv c history s) (hstep : s.step action = some (t, events)) :
    SpscStepSpec s action t events := by
  cases SpscState.step_moves hstep with
  | producer hpc hrun =>
      have hspec := PushPc.step_spec hrun
      refine ⟨fun hreturn => ?_, fun hrejected _ => ?_,
        fun frame h hload _ => ?_, fun _ hwrite hstore => ?_,
        fun hfound => absurd hfound hspec.not_empty,
        fun _ frame h hpush => hinv.write_free hpush⟩
      · rw [hpc, hspec.returned_false hreturn]
      · obtain ⟨frame, h, rfl, hfull⟩ := hspec.rejected hrejected
        exact ⟨⟨frame, h, hpc⟩, hinv.full_window hpc hfull⟩
      · rw [hpc, hspec.loading frame h hload]
      · exact hspec.keeps (fun frame h heq => hwrite frame h (heq ▸ hpc))
          (fun frame h heq => hstore frame h (heq ▸ hpc))
  | @consumer call _ _ _ _ hpop hrun =>
      have hspec := PopPc.step_spec hrun
      refine ⟨fun hreturn => absurd hreturn (hspec.not_returned false).2,
        fun hrejected hnot => absurd hrejected hnot,
        fun _ _ _ hne => absurd rfl hne, by simp, fun hfound => ?_, by simp⟩
      · obtain ⟨u, rfl, hempty⟩ := hspec.empty hfound
        exact ⟨⟨call, u, hpop⟩, hinv.empty_window hpop hempty⟩
  | callTryPush hidle => exact ⟨by simp, by simp, by simp, by simp, by simp, by simp⟩
  | callTryPop hidle =>
      exact ⟨by simp, fun hrejected hnot => absurd hrejected hnot,
        fun _ _ _ hne => absurd rfl hne, by simp, by simp, by simp⟩
  | callClear hidle =>
      exact ⟨by simp, fun hrejected hnot => absurd hrejected hnot,
        fun _ _ _ hne => absurd rfl hne, by simp, by simp, by simp⟩

end SpscInv

/-- The invariant holds along every run with fewer than `2 ^ 64` accepted pushes. -/
theorem spsc_invariant {c : Nat} {history : List (QueueEvent α)} {s : SpscState α}
    (hreach : (spsc α c).Reachable history s)
    (hfew : (acceptedFrames history).length < wordSize) : SpscInv c history s := by
  refine Machine.Reaches.invariant
    (fun history s => (acceptedFrames history).length < wordSize → SpscInv c history s)
    (fun _ => SpscInv.init) ?_ hreach hfew
  intro history s action t events _ hinv _ hstep hfew
  have hbefore : (acceptedFrames history).length < wordSize := by
    rw [acceptedFrames_append, List.length_append] at hfew
    omega
  exact (hinv hbefore).step hstep hfew

/-- The queue of one producer and one consumer refines the bounded FIFO of its
capacity: contents, outcomes, single steps, and the statistics between pushes. -/
theorem spsc_refines_fifo [DecidableEq α] (c : Nat) {history : List (QueueEvent α)}
    {s : SpscState α} (hreach : (spsc α c).Reachable history s)
    (hfew : (acceptedFrames history).length < wordSize) :
    takenFrames history ++ s.window = (acceptedFrames history).map some ∧
      (BoundedFifo.fifo (if c < 1 then 1 else c)).replay (history.filterMap QueueEvent.fifo?) =
        some s.contents ∧
      s.window.length ≤ (if c < 1 then 1 else c) ∧
      (∀ action t events, (spsc α c).step s action = some (t, events) →
        SpscStepSpec s action t events) ∧
      (s.push = none → s.queue.totalPushed = (acceptedFrames history).length ∧
        s.queue.totalDropped = pushReturns false history % wordSize) := by
  have hinv := spsc_invariant hreach hfew
  have hcap : s.queue.capacity = if c < 1 then 1 else c := hinv.capacity_eq
  refine ⟨?_, ?_, ?_, fun action t events hstep => hinv.step_spec hstep, ?_⟩
  · rw [hinv.queue_inv.taken_eq, hinv.window_eq, ← List.map_append, List.take_append_drop]
  · refine hreach.refines (BoundedFifo.fifo _) QueueEvent.fifo? SpscState.contents
      SpscInv.init.contents_eq (fun history => (acceptedFrames history).length < wordSize)
      ?_ ?_ hfew
    · intro before events hbounded
      rw [acceptedFrames_append, List.length_append] at hbounded
      omega
    · intro before state action next events hbefore _ hstep hbounded
      have hshort : (acceptedFrames before).length < wordSize := by
        rw [acceptedFrames_append, List.length_append] at hbounded
        omega
      have hstate := spsc_invariant hbefore hshort
      have haccepts := hstate.accepts (hstate.step hstep hbounded) hstep
      have hstatecap : state.queue.capacity = if c < 1 then 1 else c := hstate.capacity_eq
      rwa [hstatecap] at haccepts
  · rw [← hcap, hinv.window_length]
    have hle := hinv.queue_inv.head_le
    omega
  · intro hidle
    have haccepted := hinv.accepted_eq
    rw [hidle] at haccepted
    change _ = pushReturns true history + 0 at haccepted
    refine ⟨?_, hinv.dropped_eq⟩
    rw [ChannelFrameQueue.totalPushed, hinv.pushed_eq, haccepted, Nat.add_zero]
    exact Nat.mod_eq_of_lt (by omega)

/-- A run of a queue of one slot: a push is accepted, a second one is rejected
while the pop that will make room holds the first frame. -/
def rejectedWhilePopping : List (SpscAction Nat) :=
  [.callTryPush 7, .producer, .producer, .producer, .producer, .producer,
    .callTryPop, .consumer, .consumer, .consumer, .callTryPush 8, .producer, .producer,
    .producer, .consumer, .consumer]

theorem rejectedWhilePopping_refines :
    ∃ (history : List (QueueEvent Nat)) (s : SpscState Nat),
      takenFrames history = [some 7] ∧ pushReturns false history = 1 ∧
      takenFrames history ++ s.window = (acceptedFrames history).map some ∧
      (BoundedFifo.fifo 1).replay (history.filterMap QueueEvent.fifo?) = some s.contents := by
  have hrun : ((spsc Nat 0).runFrom (spsc Nat 0).init rejectedWhilePopping).isSome := by decide
  obtain ⟨⟨s, history⟩, hrun⟩ := Option.isSome_iff_exists.mp hrun
  have hhistory : history = [.accepted 7, .pushReturned true, .foundFull, .pushReturned false,
      .taken (some 7)] := by
    have hevents := congrArg (Option.map Prod.snd) hrun
    exact (Option.some.inj (hevents.symm.trans (by decide)))
  have hrefines := spsc_refines_fifo 0 (Machine.reachable_of_runFrom hrun)
    (by subst hhistory; simp [acceptedFrames, wordSize])
  exact ⟨history, s, by subst hhistory; rfl, by subst hhistory; rfl, hrefines.1, hrefines.2.1⟩

end SimVision
