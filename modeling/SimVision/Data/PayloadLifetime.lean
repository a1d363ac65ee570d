import SimVision.Data.DataPublisher
import SimVision.Foundation.Machine
import SimVision.Foundation.SharedHeap

/-! # Payloads that are not copied

`send_frame` hands ZeroMQ the bytes of a bundle where they lie, with a shared pointer on
the heap, the hint, that `payload_free` deletes once they are no longer needed. ZeroMQ
reads and releases its messages at any time, and the frame may be gone by then. Each step
of the publisher, of the capture thread and of ZeroMQ is a step here, and a use of memory
that is not alive is an event of its own.
-/

namespace SimVision

open Foundation

/-! ## The steps -/

/-- How the `send_frame` of a payload ends. -/
inductive SendOutcome where
  /-- `new` finds no memory. -/
  | noMemory
  /-- `zmq_msg_init_data` fails. -/
  | noMessage
  /-- `zmq_msg_send` fails. -/
  | refused
  | sent
  deriving DecidableEq

/-- A message that ZeroMQ holds: the bundle that owns its bytes, and its hint. -/
structure PayloadMessage where
  data : Nat
  hint : Nat

/-- The hint of a message and the pointer in it. -/
def PayloadMessage.cell (m : PayloadMessage) : Nat × Nat := (m.hint, m.data)

/-- The next statement of `send_frame`. -/
inductive SendPc where
  | allocates
  | inits (hint : Nat)
  | deletes (hint : Nat)
  | sends (hint : Nat)
  | closes (hint : Nat)

/-- The hint that the statement is about. -/
def SendPc.hint? : SendPc → Option Nat
  | allocates => none
  | inits hint => some hint
  | deletes hint => some hint
  | sends hint => some hint
  | closes hint => some hint

/-- The payload is not sent. -/
def SendPc.givesUp : SendPc → Bool
  | deletes _ => true
  | closes _ => true
  | _ => false

/-- The loop of `send_multipart` over the bundles of a frame, once the header is sent. -/
structure PayloadCall where
  frame : List Nat
  outcomes : Nat → SendOutcome
  started : Socket
  sock : Socket
  index : Nat := 0
  pc : SendPc := .allocates

/-- Which parts are sent. -/
def PayloadCall.succeeds (c : PayloadCall) : Nat → Bool
  | 0 => true
  | i + 1 => c.outcomes i = .sent

/-- The frames that are alive but for the one that is being sent, the hints that are
allocated, and the messages of ZeroMQ. -/
structure PayloadState where
  heap : SharedHeap DataBundle := .empty
  hints : List (Nat × Nat) := []
  nextHint : Nat := 0
  frames : List (List Nat) := []
  call : Option PayloadCall := none
  messages : List PayloadMessage := []

inductive PayloadAction where
  /-- The capture thread makes a frame. -/
  | build (bundles : List DataBundle)
  /-- The last pointer to a frame is destroyed. -/
  | drop (k : Nat)
  /-- The publisher has sent the header of a frame. -/
  | call (k : Nat) (started : Socket) (outcomes : Nat → SendOutcome)
  | publisher
  /-- ZeroMQ reads the bytes of a message. -/
  | read (k : Nat)
  /-- ZeroMQ needs a message no more and calls `payload_free`. -/
  | release (k : Nat)

inductive PayloadEvent where
  | allocated (hint : Nat)
  | handed (hint : Nat) (bundle : DataBundle)
  | read (hint : Nat) (bundle : DataBundle)
  | freed (hint : Nat)
  /-- The loop over the bundles has led from one socket to the other. -/
  | returned (succeeds : Nat → Bool) (bundles : List DataBundle) (started final : Socket)
      (ok : Bool)
  /-- Memory is used that is not alive. -/
  | fault

namespace PayloadState

/-- `payload_free`, or the `delete` of a hint that no message got. -/
def deleteHint (s : PayloadState) (hint : Nat) : Option PayloadState :=
  match s.hints.lookup hint with
  | none => none
  | some p => (s.heap.destroy p).map fun heap =>
      { s with heap := heap, hints := s.hints.erase (hint, p) }

/-- The loop ends, and the frame is the publisher's as before. -/
def finish (s : PayloadState) (c : PayloadCall) (ok : Bool) : PayloadState × List PayloadEvent :=
  ({ s with frames := c.frame :: s.frames, call := none },
    [.returned c.succeeds (c.frame.filterMap s.heap.read) c.started c.sock ok])

/-- A payload is given up with its hint. -/
def giveUp (s : PayloadState) (c : PayloadCall) (hint : Nat) : PayloadState × List PayloadEvent :=
  match s.deleteHint hint with
  | none => (s, [.fault])
  | some next => ((next.finish c false).1, .freed hint :: (next.finish c false).2)

/-- The next statement of the publisher. -/
def advance (s : PayloadState) (c : PayloadCall) : PayloadState × List PayloadEvent :=
  match c.frame[c.index]? with
  | none => s.finish c true
  | some p =>
      match c.pc with
      | .allocates =>
          if c.outcomes c.index = .noMemory then s.finish c false
          else
            match s.heap.copy p with
            | none => (s, [.fault])
            | some heap =>
                ({ s with
                  heap := heap, hints := (s.nextHint, p) :: s.hints, nextHint := s.nextHint + 1
                  call := some { c with pc := .inits s.nextHint } }, [.allocated s.nextHint])
      | .inits hint =>
          if c.outcomes c.index = .noMessage then
            ({ s with call := some { c with pc := .deletes hint } }, [])
          else ({ s with call := some { c with pc := .sends hint } }, [])
      | .deletes hint => s.giveUp c hint
      | .sends hint =>
          if c.outcomes c.index = .sent then
            match s.heap.read p with
            | none => (s, [.fault])
            | some b =>
                ({ s with
                  messages := ⟨p, hint⟩ :: s.messages
                  call := some { c with
                    index := c.index + 1, pc := .allocates
                    sock := c.sock.send (.payload b) (c.index + 1 < c.frame.length) } },
                  [.handed hint b])
          else ({ s with call := some { c with pc := .closes hint } }, [])
      | .closes hint => s.giveUp c hint

def step (s : PayloadState) : PayloadAction → Option (PayloadState × List PayloadEvent)
  | .build bundles =>
      let made := s.heap.makeAll bundles
      some ({ s with heap := made.1, frames := made.2 :: s.frames }, [])
  | .drop k =>
      s.frames[k]?.map fun frame =>
        match s.heap.destroyAll frame with
        | none => (s, [.fault])
        | some heap => ({ s with heap := heap, frames := s.frames.eraseIdx k }, [])
  | .call k started outcomes =>
      match s.call with
      | some _ => none
      | none => s.frames[k]?.map fun frame =>
          ({ s with
            frames := s.frames.eraseIdx k
            call := some { frame := frame, outcomes := outcomes, started := started,
                           sock := started } }, [])
  | .publisher => s.call.map s.advance
  | .read k =>
      s.messages[k]?.map fun m =>
        match s.heap.read m.data with
        | none => (s, [.fault])
        | some b => (s, [.read m.hint b])
  | .release k =>
      s.messages[k]?.map fun m =>
        match s.deleteHint m.hint with
        | none => (s, [.fault])
        | some next => ({ next with messages := s.messages.eraseIdx k }, [.freed m.hint])

end PayloadState

/-- The payloads of a publisher, from the start of the process on. -/
def payloadMachine : Machine PayloadState PayloadAction PayloadEvent where
  init := {}
  step := PayloadState.step

/-! ## Who owns what -/

/-- The hint that the call has in hand. -/
def PayloadCall.cells (c : PayloadCall) : List (Nat × Nat) :=
  match c.pc.hint?, c.frame[c.index]? with
  | some hint, some p => [(hint, p)]
  | _, _ => []

namespace PayloadState

def callFrame (s : PayloadState) : List Nat := (s.call.map PayloadCall.frame).getD []

def callCells (s : PayloadState) : List (Nat × Nat) := (s.call.map PayloadCall.cells).getD []

/-- Every pointer to a bundle: those of the frames, and those in the hints. -/
def owners (s : PayloadState) : Multiset Nat :=
  (s.frames.flatten ++ s.callFrame ++ s.hints.map Prod.snd : List Nat)

end PayloadState

def allocatedHints (history : List PayloadEvent) : List Nat :=
  history.filterMap fun
    | .allocated hint => some hint
    | _ => none

def freedHints (history : List PayloadEvent) : List Nat :=
  history.filterMap fun
    | .freed hint => some hint
    | _ => none

/-- The call comes to what it would have come to from its start. -/
structure PayloadCall.Continues (heap : SharedHeap DataBundle) (c : PayloadCall) : Prop where
  sends : ∃ bundles : List DataBundle, c.frame.map heap.read = bundles.map some ∧
    sendPayloads c.succeeds c.index (bundles.drop c.index) c.sock =
      sendPayloads c.succeeds 0 bundles c.started
  unsent : c.pc.givesUp = true → c.outcomes c.index ≠ .sent

/-- What holds of every history: no message is handed over with two bundles, ZeroMQ reads
what it was handed, a call comes to what `sendPayloads` says, and no dead memory is used. -/
structure PayloadHistory (history : List PayloadEvent) : Prop where
  handedOnce : ∀ hint b b', .handed hint b ∈ history → .handed hint b' ∈ history → b = b'
  reads : ∀ hint b, .read hint b ∈ history → .handed hint b ∈ history
  returned : ∀ succeeds bundles started final ok,
    .returned succeeds bundles started final ok ∈ history →
      sendPayloads succeeds 0 bundles started = (final, ok)
  noFault : .fault ∉ history

namespace PayloadHistory

variable {history : List PayloadEvent}

theorem snoc_allocated (hhistory : PayloadHistory history) (hint : Nat) :
    PayloadHistory (history ++ [.allocated hint]) where
  handedOnce := by simpa using hhistory.handedOnce
  reads := by simpa using hhistory.reads
  returned := by simpa using hhistory.returned
  noFault := by simpa using hhistory.noFault

theorem snoc_freed (hhistory : PayloadHistory history) (hint : Nat) :
    PayloadHistory (history ++ [.freed hint]) where
  handedOnce := by simpa using hhistory.handedOnce
  reads := by simpa using hhistory.reads
  returned := by simpa using hhistory.returned
  noFault := by simpa using hhistory.noFault

theorem snoc_handed (hhistory : PayloadHistory history) {hint : Nat} (b : DataBundle)
    (hnew : ∀ b', .handed hint b' ∉ history) : PayloadHistory (history ++ [.handed hint b]) where
  handedOnce other first second hfirst hsecond := by
    simp only [List.mem_append, List.mem_singleton, PayloadEvent.handed.injEq] at hfirst hsecond
    rcases hfirst with hfirst | ⟨rfl, rfl⟩
    · rcases hsecond with hsecond | ⟨rfl, rfl⟩
      · exact hhistory.handedOnce other first second hfirst hsecond
      · exact absurd hfirst (hnew first)
    · rcases hsecond with hsecond | ⟨-, rfl⟩
      · exact absurd hsecond (hnew second)
      · rfl
  reads other b' hread := by
    simp only [List.mem_append, List.mem_singleton, reduceCtorEq, or_false] at hread
    exact List.mem_append_left _ (hhistory.reads other b' hread)
  returned := by simpa using hhistory.returned
  noFault := by simpa using hhistory.noFault

theorem snoc_read (hhistory : PayloadHistory history) {hint : Nat} {b : DataBundle}
    (hhanded : .handed hint b ∈ history) : PayloadHistory (history ++ [.read hint b]) where
  handedOnce := by simpa using hhistory.handedOnce
  reads other b' hread := by
    simp only [List.mem_append, List.mem_singleton, PayloadEvent.read.injEq] at hread
    rcases hread with hread | ⟨rfl, rfl⟩
    · exact List.mem_append_left _ (hhistory.reads other b' hread)
    · exact List.mem_append_left _ hhanded
  returned := by simpa using hhistory.returned
  noFault := by simpa using hhistory.noFault

theorem snoc_returned (hhistory : PayloadHistory history) {succeeds : Nat → Bool}
    {bundles : List DataBundle} {started final : Socket} {ok : Bool}
    (hresult : sendPayloads succeeds 0 bundles started = (final, ok)) :
    PayloadHistory (history ++ [.returned succeeds bundles started final ok]) where
  handedOnce := by simpa using hhistory.handedOnce
  reads := by simpa using hhistory.reads
  returned succeeds' bundles' started' final' ok' hreturned := by
    simp only [List.mem_append, List.mem_singleton, PayloadEvent.returned.injEq] at hreturned
    rcases hreturned with hreturned | ⟨rfl, rfl, rfl, rfl, rfl⟩
    · exact hhistory.returned _ _ _ _ _ hreturned
    · exact hresult
  noFault := by simpa using hhistory.noFault

end PayloadHistory

/-- What holds along every run. -/
structure PayloadInv (history : List PayloadEvent) (s : PayloadState) : Prop where
  counted : s.heap.Counted s.owners
  cells : s.hints.Perm (s.messages.map PayloadMessage.cell ++ s.callCells)
  allocated : allocatedHints history = List.range s.nextHint
  freed : (List.range s.nextHint).Perm (freedHints history ++ s.hints.map Prod.fst)
  handed : ∀ m ∈ s.messages, ∃ b, s.heap.read m.data = some b ∧ .handed m.hint b ∈ history
  handedOld : ∀ hint b, .handed hint b ∈ history →
    hint < s.nextHint ∧ hint ∉ s.callCells.map Prod.fst
  continues : ∀ c, s.call = some c → c.Continues s.heap
  history : PayloadHistory history

section Steps

variable {history : List PayloadEvent} {s : PayloadState} {c : PayloadCall} {p hint : Nat}

theorem PayloadInv.hints_nodup (hinv : PayloadInv history s) : (s.hints.map Prod.fst).Nodup :=
  (List.nodup_append.mp (hinv.freed.nodup List.nodup_range)).2.1

theorem PayloadInv.hint_lt (hinv : PayloadInv history s) (hmem : hint ∈ s.hints.map Prod.fst) :
    hint < s.nextHint :=
  List.mem_range.mp (hinv.freed.mem_iff.mpr (List.mem_append_right _ hmem))

theorem lookup_of_mem {cells : List (Nat × Nat)} (hnodup : (cells.map Prod.fst).Nodup)
    (hmem : (hint, p) ∈ cells) : cells.lookup hint = some p := by
  obtain ⟨before, after, rfl⟩ := List.append_of_mem hmem
  refine List.lookup_eq_some_iff.mpr ⟨before, after, rfl, fun other hother => ?_⟩
  rw [List.map_append, List.map_cons] at hnodup
  have hdisjoint := (List.nodup_append.mp hnodup).2.2
  have hne := hdisjoint other.1 (List.mem_map_of_mem hother) hint List.mem_cons_self
  exact bne_iff_ne.mpr hne.symm

theorem perm_eraseIdx {α : Type} {l : List α} {k : Nat} {x : α} (hget : l[k]? = some x) :
    l.Perm (x :: l.eraseIdx k) := by
  obtain ⟨hk, rfl⟩ := List.getElem?_eq_some_iff.mp hget
  exact (List.getElem_cons_eraseIdx_perm hk).symm

theorem filterMap_of_map_eq {α β : Type} {f : α → Option β} {l : List α} {values : List β}
    (hmap : l.map f = values.map some) : l.filterMap f = values := by
  have hsame := congrArg (List.filterMap id) hmap
  rwa [List.filterMap_map, List.filterMap_map, Function.id_comp, Function.id_comp,
    List.filterMap_some] at hsame

/-- A hint that exists is deleted, and with it one pointer. -/
theorem PayloadInv.deleteHint (hinv : PayloadInv history s) (hmem : (hint, p) ∈ s.hints) :
    ∃ heap, s.deleteHint hint =
        some { s with heap := heap, hints := s.hints.erase (hint, p) } ∧
      heap.Counted
        (s.frames.flatten ++ s.callFrame ++ (s.hints.erase (hint, p)).map Prod.snd : List Nat) ∧
      ∀ q ∈ s.frames.flatten ++ s.callFrame ++ (s.hints.erase (hint, p)).map Prod.snd,
        heap.read q = s.heap.read q := by
  have howners : s.owners = p ::ₘ
      (s.frames.flatten ++ s.callFrame ++ (s.hints.erase (hint, p)).map Prod.snd : List Nat) := by
    rw [Multiset.cons_coe, PayloadState.owners, Multiset.coe_eq_coe]
    refine (((List.perm_cons_erase hmem).map Prod.snd).append_left _).trans ?_
    exact List.perm_middle
  obtain ⟨heap, hdestroy, hcounted, hread⟩ := (howners ▸ hinv.counted).destroy
  refine ⟨heap, ?_, hcounted, hread⟩
  rw [PayloadState.deleteHint, lookup_of_mem hinv.hints_nodup hmem]
  dsimp only
  rw [hdestroy, Option.map_some]

theorem PayloadInv.data_mem (hinv : PayloadInv history s) {m : PayloadMessage}
    (hm : m ∈ s.messages) : m.data ∈ s.hints.map Prod.snd := by
  have hcell : m.cell ∈ s.hints :=
    hinv.cells.mem_iff.mpr (List.mem_append_left _ (List.mem_map_of_mem hm))
  exact List.mem_map_of_mem (f := Prod.snd) hcell

/-- A heap that reads the same at the frame of a call. -/
theorem PayloadCall.Continues.congr {heap next : SharedHeap DataBundle}
    (hcontinues : c.Continues heap) (hread : ∀ q ∈ c.frame, next.read q = heap.read q) :
    c.Continues next := by
  obtain ⟨bundles, hbundles, hsends⟩ := hcontinues.sends
  exact ⟨⟨bundles, (List.map_congr_left hread).trans hbundles, hsends⟩, hcontinues.unsent⟩

/-- Frames come and go, and what is in the call and in the hints stays. -/
theorem PayloadInv.reframe (hinv : PayloadInv history s) {heap : SharedHeap DataBundle}
    {frames : List (List Nat)}
    (hcounted : heap.Counted
      (frames.flatten ++ s.callFrame ++ s.hints.map Prod.snd : List Nat))
    (hread : ∀ q ∈ s.callFrame ++ s.hints.map Prod.snd, heap.read q = s.heap.read q) :
    PayloadInv history { s with heap := heap, frames := frames } where
  counted := hcounted
  cells := hinv.cells
  allocated := hinv.allocated
  freed := hinv.freed
  handed m hm := by
    obtain ⟨b, hb, hhanded⟩ := hinv.handed m hm
    exact ⟨b, (hread _ (List.mem_append_right _ (hinv.data_mem hm))).trans hb, hhanded⟩
  handedOld := hinv.handedOld
  continues c hcall := by
    refine (hinv.continues c hcall).congr fun q hq => hread q (List.mem_append_left _ ?_)
    rw [PayloadState.callFrame, hcall]
    exact hq
  history := hinv.history

/-- The publisher takes a frame, and the call does what it does from its start. -/
theorem PayloadInv.call (hinv : PayloadInv history s) (hidle : s.call = none) {k : Nat}
    {frame : List Nat} (hframe : s.frames[k]? = some frame) (started : Socket)
    (outcomes : Nat → SendOutcome) :
    PayloadInv history { s with
      frames := s.frames.eraseIdx k
      call := some {
        frame := frame
        outcomes := outcomes
        started := started
        sock := started } } := by
  have hperm : s.frames.flatten.Perm (frame ++ (s.frames.eraseIdx k).flatten) :=
    (perm_eraseIdx hframe).flatten
  have hcells : s.callCells = [] := by rw [PayloadState.callCells, hidle]; rfl
  have hnone : s.callFrame = [] := by rw [PayloadState.callFrame, hidle]; rfl
  have howners : s.owners =
      ((s.frames.eraseIdx k).flatten ++ frame ++ s.hints.map Prod.snd : List Nat) := by
    rw [PayloadState.owners, hnone, List.append_nil, Multiset.coe_eq_coe]
    exact (hperm.trans List.perm_append_comm).append_right _
  have hcounted := hinv.counted
  have hperms := hinv.cells
  rw [howners] at hcounted
  rw [hcells] at hperms
  constructor
  case counted => exact hcounted
  case cells => exact hperms
  case allocated => exact hinv.allocated
  case freed => exact hinv.freed
  case handed => exact hinv.handed
  case handedOld => exact fun hint b hmem => ⟨(hinv.handedOld hint b hmem).1, List.not_mem_nil⟩
  case continues =>
    intro c hc
    obtain rfl := Option.some.inj hc
    have hframe : ∀ q ∈ frame, q ∈ s.owners := by
      intro q hq
      rw [howners, Multiset.mem_coe]
      exact List.mem_append_left _ (List.mem_append_right _ hq)
    obtain ⟨bundles, hbundles⟩ := hinv.counted.exists_values hframe
    exact ⟨⟨bundles, hbundles, rfl⟩, fun hgives => by contradiction⟩
  case history => exact hinv.history

/-- The call goes on without touching its hint. -/
theorem PayloadInv.goesOn (hinv : PayloadInv history s) (hcall : s.call = some c) {pc : SendPc}
    (hpc : pc.hint? = c.pc.hint?) (hunsent : pc.givesUp = true → c.outcomes c.index ≠ .sent) :
    PayloadInv history { s with call := some { c with pc := pc } } := by
  have hcells : ({ c with pc := pc } : PayloadCall).cells = s.callCells := by
    rw [PayloadState.callCells, hcall, PayloadCall.cells, hpc]
    rfl
  have hframe : s.callFrame = c.frame := by rw [PayloadState.callFrame, hcall]; rfl
  have hcounted := hinv.counted
  have hperms := hinv.cells
  have hold := hinv.handedOld
  rw [PayloadState.owners, hframe] at hcounted
  rw [← hcells] at hperms hold
  constructor
  case counted => exact hcounted
  case cells => exact hperms
  case allocated => exact hinv.allocated
  case freed => exact hinv.freed
  case handed => exact hinv.handed
  case handedOld => exact hold
  case continues =>
    intro after hafter
    obtain rfl := Option.some.inj hafter
    exact ⟨(hinv.continues c hcall).sends, hunsent⟩
  case history => exact hinv.history

theorem PayloadState.deleteHint_frame {next : PayloadState}
    (hdelete : s.deleteHint hint = some next) :
    next.messages = s.messages ∧ next.call = s.call := by
  rw [PayloadState.deleteHint] at hdelete
  split at hdelete
  next => contradiction
  next =>
    obtain ⟨heap, -, rfl⟩ := Option.map_eq_some_iff.mp hdelete
    exact ⟨rfl, rfl⟩

/-- A hint is deleted, and what had it is gone. -/
theorem PayloadInv.free (hinv : PayloadInv history s) {messages : List PayloadMessage}
    {call : Option PayloadCall} (hframe : (call.map PayloadCall.frame).getD [] = s.callFrame)
    (hperm : (s.messages.map PayloadMessage.cell ++ s.callCells).Perm ((hint, p) ::
      (messages.map PayloadMessage.cell ++ (call.map PayloadCall.cells).getD [])))
    (hmessages : ∀ m ∈ messages, m ∈ s.messages)
    (hcells : ∀ cell ∈ (call.map PayloadCall.cells).getD [], cell ∈ s.callCells)
    (hcalls : ∀ c, call = some c → c.Continues s.heap) :
    ∃ next, s.deleteHint hint = some next ∧
      PayloadInv (history ++ [.freed hint]) { next with messages := messages, call := call } := by
  have hmem : (hint, p) ∈ s.hints :=
    (hinv.cells.trans hperm).mem_iff.mpr List.mem_cons_self
  obtain ⟨heap, hdelete, hcounted, hread⟩ := hinv.deleteHint hmem
  have hleft : (s.hints.erase (hint, p)).Perm
      (messages.map PayloadMessage.cell ++ (call.map PayloadCall.cells).getD []) :=
    ((List.perm_cons_erase hmem).symm.trans (hinv.cells.trans hperm)).cons_inv
  rw [← hframe] at hcounted hread
  refine ⟨_, hdelete, ?_⟩
  constructor
  case counted => exact hcounted
  case cells => exact hleft
  case allocated =>
    rw [allocatedHints, List.filterMap_append]
    exact (List.append_nil _).trans hinv.allocated
  case freed =>
    have herased := (List.perm_cons_erase hmem).map Prod.fst
    rw [freedHints, List.filterMap_append, List.append_assoc]
    exact hinv.freed.trans (herased.append_left _)
  case handed =>
    intro m hm
    obtain ⟨b, hb, hhanded⟩ := hinv.handed m (hmessages m hm)
    refine ⟨b, (hread m.data (List.mem_append_right _ ?_)).trans hb, List.mem_append_left _ hhanded⟩
    have hcell : m.cell ∈ s.hints.erase (hint, p) :=
      hleft.mem_iff.mpr (List.mem_append_left _ (List.mem_map_of_mem hm))
    exact List.mem_map_of_mem (f := Prod.snd) hcell
  case handedOld =>
    intro other b hhanded
    simp only [List.mem_append, List.mem_singleton, reduceCtorEq, or_false] at hhanded
    obtain ⟨hlt, hnot⟩ := hinv.handedOld other b hhanded
    refine ⟨hlt, fun hother => hnot ?_⟩
    obtain ⟨cell, hcell, rfl⟩ := List.mem_map.mp hother
    exact List.mem_map_of_mem (hcells cell hcell)
  case continues =>
    intro c hc
    refine (hcalls c hc).congr fun q hq => hread q ?_
    refine List.mem_append_left _ (List.mem_append_right _ ?_)
    dsimp only at hc
    rw [hc]
    exact hq
  case history => exact hinv.history.snoc_freed hint

/-- The loop ends with nothing in hand. -/
theorem PayloadInv.finish (hinv : PayloadInv history s) (hcall : s.call = some c)
    (hcells : c.cells = []) {ok : Bool}
    (hresult : ∀ bundles : List DataBundle, c.frame.map s.heap.read = bundles.map some →
      sendPayloads c.succeeds c.index (bundles.drop c.index) c.sock = (c.sock, ok)) :
    PayloadInv (history ++ (s.finish c ok).2) (s.finish c ok).1 := by
  have hnone : s.callCells = [] := by rw [PayloadState.callCells, hcall]; exact hcells
  have hframe : s.callFrame = c.frame := by rw [PayloadState.callFrame, hcall]; rfl
  have hperms := hinv.cells
  have hcounted := hinv.counted
  have howners : s.owners =
      ((c.frame :: s.frames).flatten ++ [] ++ s.hints.map Prod.snd : List Nat) := by
    rw [PayloadState.owners, hframe, List.flatten_cons, List.append_nil, Multiset.coe_eq_coe]
    exact List.perm_append_comm.append_right _
  rw [hnone] at hperms
  rw [howners] at hcounted
  constructor
  case counted => exact hcounted
  case cells => exact hperms
  case allocated =>
    rw [allocatedHints, List.filterMap_append]
    exact (List.append_nil _).trans hinv.allocated
  case freed =>
    rw [freedHints, List.filterMap_append, List.append_assoc]
    exact hinv.freed
  case handed =>
    intro m hm
    obtain ⟨b, hb, hhanded⟩ := hinv.handed m hm
    exact ⟨b, hb, List.mem_append_left _ hhanded⟩
  case handedOld =>
    intro other b hhanded
    simp only [PayloadState.finish, List.mem_append, List.mem_singleton, reduceCtorEq, or_false]
      at hhanded
    exact ⟨(hinv.handedOld other b hhanded).1, List.not_mem_nil⟩
  case continues => exact fun _ heq => by contradiction
  case history =>
    obtain ⟨bundles, hbundles, hsends⟩ := (hinv.continues c hcall).sends
    have hcontents := filterMap_of_map_eq hbundles
    refine hinv.history.snoc_returned ?_
    rw [hcontents, ← hsends]
    exact hresult bundles hbundles

/-- `new` makes a hint with a copy of the pointer. -/
theorem PayloadInv.allocate (hinv : PayloadInv history s) (hcall : s.call = some c)
    (hpc : c.pc = .allocates) (hp : c.frame[c.index]? = some p) :
    ∃ heap, s.heap.copy p = some heap ∧
      PayloadInv (history ++ [.allocated s.nextHint]) { s with
        heap := heap, hints := (s.nextHint, p) :: s.hints, nextHint := s.nextHint + 1
        call := some { c with pc := .inits s.nextHint } } := by
  have hframe : s.callFrame = c.frame := by rw [PayloadState.callFrame, hcall]; rfl
  have hmem : p ∈ s.owners := by
    rw [PayloadState.owners, hframe, Multiset.mem_coe]
    exact List.mem_append_left _ (List.mem_append_right _ (List.mem_of_getElem? hp))
  obtain ⟨heap, hcopy, hcounted, hread⟩ := hinv.counted.copy hmem
  have hnone : s.callCells = [] := by
    rw [PayloadState.callCells, hcall, Option.map_some, Option.getD_some, PayloadCall.cells, hpc]
    rfl
  have hcells : ({ c with pc := .inits s.nextHint } : PayloadCall).cells = [(s.nextHint, p)] := by
    simp only [PayloadCall.cells, SendPc.hint?, hp]
  have howners : p ::ₘ s.owners =
      (s.frames.flatten ++ c.frame ++ ((s.nextHint, p) :: s.hints).map Prod.snd : List Nat) := by
    rw [PayloadState.owners, hframe, Multiset.cons_coe, Multiset.coe_eq_coe]
    exact List.perm_middle.symm
  have hperms := hinv.cells
  rw [hnone, List.append_nil] at hperms
  rw [howners] at hcounted
  refine ⟨heap, hcopy, ?_⟩
  constructor
  case counted => exact hcounted
  case cells =>
    change ((s.nextHint, p) :: s.hints).Perm (s.messages.map PayloadMessage.cell ++
      ({ c with pc := .inits s.nextHint } : PayloadCall).cells)
    rw [hcells]
    exact (hperms.cons _).trans (List.perm_append_singleton _ _).symm
  case allocated =>
    rw [allocatedHints, List.filterMap_append]
    exact (congrArg (· ++ [s.nextHint]) hinv.allocated).trans List.range_succ.symm
  case freed =>
    rw [freedHints, List.filterMap_append, List.append_assoc, List.range_succ]
    refine (List.perm_append_singleton _ _).trans ((hinv.freed.cons _).trans ?_)
    exact List.perm_middle.symm
  case handed =>
    intro m hm
    obtain ⟨b, hb, hhanded⟩ := hinv.handed m hm
    exact ⟨b, (hread _).trans hb, List.mem_append_left _ hhanded⟩
  case handedOld =>
    intro other b hhanded
    simp only [List.mem_append, List.mem_singleton, reduceCtorEq, or_false] at hhanded
    have hlt := (hinv.handedOld other b hhanded).1
    refine ⟨Nat.lt_succ_of_lt hlt, ?_⟩
    change other ∉ ({ c with pc := .inits s.nextHint } : PayloadCall).cells.map Prod.fst
    rw [hcells, List.map_singleton, List.mem_singleton]
    exact Nat.ne_of_lt hlt
  case continues =>
    intro after hafter
    obtain rfl := Option.some.inj hafter
    have hkept := (hinv.continues c hcall).congr fun q _ => hread q
    exact ⟨hkept.sends, fun hgives => by contradiction⟩
  case history => exact hinv.history.snoc_allocated _

/-- The payloads that are left after one that is sent. -/
theorem sendPayloads_drop {succeeds : Nat → Bool} {bundles : List DataBundle} {i : Nat}
    {b : DataBundle} (hb : bundles[i]? = some b) (hsucceeds : succeeds (i + 1) = true)
    (sock : Socket) :
    sendPayloads succeeds i (bundles.drop i) sock =
      sendPayloads succeeds (i + 1) (bundles.drop (i + 1))
        (sock.send (.payload b) (i + 1 < bundles.length)) := by
  obtain ⟨hi, rfl⟩ := List.getElem?_eq_some_iff.mp hb
  rw [List.drop_eq_getElem_cons hi, sendPayloads, if_pos hsucceeds]
  congr 2
  rw [Bool.eq_iff_iff, Bool.not_eq_true', List.isEmpty_eq_false_iff, decide_eq_true_iff, Ne,
    List.drop_eq_nil_iff, Nat.not_le]

/-- ZeroMQ takes a message. -/
theorem PayloadInv.hand (hinv : PayloadInv history s) (hcall : s.call = some c)
    (hpc : c.pc = .sends hint) (hp : c.frame[c.index]? = some p)
    (hsent : c.outcomes c.index = .sent) :
    ∃ b, s.heap.read p = some b ∧
      PayloadInv (history ++ [.handed hint b]) { s with
        messages := ⟨p, hint⟩ :: s.messages
        call := some { c with
          index := c.index + 1, pc := .allocates
          sock := c.sock.send (.payload b) (c.index + 1 < c.frame.length) } } := by
  have hframe : s.callFrame = c.frame := by rw [PayloadState.callFrame, hcall]; rfl
  have hcells : s.callCells = [(hint, p)] := by
    rw [PayloadState.callCells, hcall, Option.map_some, Option.getD_some, PayloadCall.cells, hpc,
      hp]
    rfl
  obtain ⟨bundles, hbundles, hsends⟩ := (hinv.continues c hcall).sends
  have hlength : c.frame.length = bundles.length := by
    simpa only [List.length_map] using congrArg List.length hbundles
  have hget : (s.heap.read p) = bundles[c.index]? := by
    have hsame := congrArg (fun l => l[c.index]?) hbundles
    rw [List.getElem?_map, List.getElem?_map, hp, Option.map_some] at hsame
    cases hb : bundles[c.index]? with
    | none => rw [hb] at hsame; contradiction
    | some b => rw [hb] at hsame; exact Option.some.inj hsame
  have hperms := hinv.cells
  have hcounted := hinv.counted
  rw [hcells] at hperms
  rw [PayloadState.owners, hframe] at hcounted
  have hlt : c.index < bundles.length := hlength ▸ (List.getElem?_eq_some_iff.mp hp).1
  have hb := List.getElem?_eq_getElem hlt
  refine ⟨bundles[c.index], hget.trans hb, ?_⟩
  have hnew : ∀ b', .handed hint b' ∉ history := by
    intro b' hhanded
    refine (hinv.handedOld hint b' hhanded).2 ?_
    rw [hcells]
    exact List.mem_cons_self
  constructor
  case counted => exact hcounted
  case cells =>
    change s.hints.Perm ((hint, p) :: s.messages.map PayloadMessage.cell ++ [])
    rw [List.append_nil]
    exact hperms.trans (List.perm_append_singleton _ _)
  case allocated =>
    rw [allocatedHints, List.filterMap_append]
    exact (List.append_nil _).trans hinv.allocated
  case freed =>
    rw [freedHints, List.filterMap_append, List.append_assoc]
    exact hinv.freed
  case handed =>
    intro m hm
    rcases List.mem_cons.mp hm with rfl | hm
    · exact ⟨_, hget.trans hb, List.mem_append_right _ List.mem_cons_self⟩
    · obtain ⟨b, hb, hhanded⟩ := hinv.handed m hm
      exact ⟨b, hb, List.mem_append_left _ hhanded⟩
  case handedOld =>
    intro other b' hhanded
    refine ⟨?_, List.not_mem_nil⟩
    rcases List.mem_append.mp hhanded with hhanded | hhanded
    · exact (hinv.handedOld other b' hhanded).1
    · obtain ⟨rfl, -⟩ := PayloadEvent.handed.inj (List.mem_singleton.mp hhanded)
      refine hinv.hint_lt (List.mem_map_of_mem (f := Prod.fst) (a := (other, p)) ?_)
      exact hperms.mem_iff.mpr (List.mem_append_right _ List.mem_cons_self)
  case continues =>
    intro after hafter
    obtain rfl := Option.some.inj hafter
    rw [sendPayloads_drop hb (decide_eq_true hsent), ← hlength] at hsends
    exact ⟨⟨bundles, hbundles, hsends⟩, fun hgives => by contradiction⟩
  case history => exact hinv.history.snoc_handed _ hnew

/-- The hint of a payload that is not sent is deleted, and the loop ends. -/
theorem PayloadInv.giveUp (hinv : PayloadInv history s) (hcall : s.call = some c)
    (hhint : c.pc.hint? = some hint) (hp : c.frame[c.index]? = some p)
    (hunsent : c.outcomes c.index ≠ .sent) :
    PayloadInv (history ++ (s.giveUp c hint).2) (s.giveUp c hint).1 := by
  have hcells : s.callCells = [(hint, p)] := by
    rw [PayloadState.callCells, hcall, Option.map_some, Option.getD_some, PayloadCall.cells, hhint,
      hp]
  have hframe : s.callFrame = c.frame := by rw [PayloadState.callFrame, hcall]; rfl
  let idle : PayloadCall := { c with pc := .allocates }
  have hperm : (s.messages.map PayloadMessage.cell ++ s.callCells).Perm
      ((hint, p) :: (s.messages.map PayloadMessage.cell ++ [])) := by
    rw [hcells, List.append_nil]
    exact List.perm_append_singleton _ _
  have hidle : ∀ after, some idle = some after → after.Continues s.heap := by
    intro after hafter
    obtain rfl := Option.some.inj hafter
    exact ⟨(hinv.continues c hcall).sends, fun hgives => by contradiction⟩
  obtain ⟨next, hdelete, hfreed⟩ := @PayloadInv.free _ _ _ _ hinv s.messages (some idle)
    hframe.symm hperm (fun _ hm => hm) (fun _ hmem => absurd hmem List.not_mem_nil) hidle
  have hmessages := (PayloadState.deleteHint_frame hdelete).1
  have hfinished := @PayloadInv.finish _ _ idle hfreed rfl rfl false fun bundles hbundles => by
    have hlength := congrArg List.length hbundles
    rw [List.length_map, List.length_map] at hlength
    have hlt : c.index < bundles.length := hlength ▸ (List.getElem?_eq_some_iff.mp hp).1
    rw [List.drop_eq_getElem_cons hlt, sendPayloads]
    exact if_neg fun hsent => hunsent (of_decide_eq_true hsent)
  have hsame : ({ next with messages := s.messages, call := some idle } : PayloadState).finish idle
      false = next.finish c false := by
    rw [← hmessages]
    rfl
  rw [hsame, List.append_assoc] at hfinished
  rw [PayloadState.giveUp, hdelete]
  exact hfinished

/-- Every statement of the publisher keeps the invariant. -/
theorem PayloadInv.advance (hinv : PayloadInv history s) (hcall : s.call = some c) :
    PayloadInv (history ++ (s.advance c).2) (s.advance c).1 := by
  have hunsent := (hinv.continues c hcall).unsent
  unfold PayloadState.advance
  cases hp : c.frame[c.index]? with
  | none =>
      refine hinv.finish hcall ?_ fun bundles hbundles => ?_
      · rw [PayloadCall.cells, hp]
        cases c.pc.hint? <;> rfl
      · have hlength := congrArg List.length hbundles
        rw [List.length_map, List.length_map] at hlength
        have hle : bundles.length ≤ c.index := hlength ▸ List.getElem?_eq_none_iff.mp hp
        rw [List.drop_eq_nil_of_le hle, sendPayloads]
  | some p =>
      cases hpc : c.pc with
      | allocates =>
          dsimp only
          split
          next hmemory =>
            refine hinv.finish hcall (by rw [PayloadCall.cells, hpc]; rfl)
              fun bundles hbundles => ?_
            have hlength := congrArg List.length hbundles
            rw [List.length_map, List.length_map] at hlength
            have hlt : c.index < bundles.length := hlength ▸ (List.getElem?_eq_some_iff.mp hp).1
            have hfails : ¬ c.succeeds (c.index + 1) = true := fun hsent =>
              SendOutcome.noConfusion (hmemory.symm.trans (of_decide_eq_true hsent))
            rw [List.drop_eq_getElem_cons hlt, sendPayloads, if_neg hfails]
          next =>
            obtain ⟨heap, hcopy, hnext⟩ := hinv.allocate hcall hpc hp
            rw [hcopy]
            exact hnext
      | inits hint =>
          dsimp only
          split
          next hmessage =>
            rw [List.append_nil]
            refine hinv.goesOn hcall (by rw [hpc]; rfl) fun _ => ?_
            rw [hmessage]
            exact SendOutcome.noConfusion
          next =>
            rw [List.append_nil]
            exact hinv.goesOn hcall (by rw [hpc]; rfl) fun hgives => by contradiction
      | deletes hint =>
          exact hinv.giveUp hcall (by rw [hpc]; rfl) hp (hunsent (by rw [hpc]; rfl))
      | sends hint =>
          dsimp only
          split
          next hsent =>
            obtain ⟨b, hread, hnext⟩ := hinv.hand hcall hpc hp hsent
            rw [hread]
            exact hnext
          next hrefused =>
            rw [List.append_nil]
            exact hinv.goesOn hcall (by rw [hpc]; rfl) fun _ => hrefused
      | closes hint =>
          exact hinv.giveUp hcall (by rw [hpc]; rfl) hp (hunsent (by rw [hpc]; rfl))

/-- Every step keeps the invariant. -/
theorem PayloadInv.step {next : PayloadState} {events : List PayloadEvent} {action : PayloadAction}
    (hinv : PayloadInv history s) (hstep : s.step action = some (next, events)) :
    PayloadInv (history ++ events) next := by
  cases action with
  | build bundles =>
      obtain ⟨rfl, rfl⟩ := Prod.mk.inj (Option.some.inj hstep)
      obtain ⟨hcounted, -, hread⟩ := hinv.counted.makeAll bundles
      rw [List.append_nil]
      refine hinv.reframe ?_ fun q hq => hread q ?_
      · rw [PayloadState.owners, Multiset.coe_add, ← List.append_assoc, ← List.append_assoc]
          at hcounted
        exact hcounted
      · rw [PayloadState.owners, List.append_assoc, Multiset.mem_coe]
        exact List.mem_append_right _ hq
  | drop k =>
      obtain ⟨frame, hframe, hdrop⟩ := Option.map_eq_some_iff.mp hstep
      have howners : s.owners = (frame : Multiset Nat) +
          ((s.frames.eraseIdx k).flatten ++ s.callFrame ++ s.hints.map Prod.snd : List Nat) := by
        have hperm : s.frames.flatten.Perm (frame ++ (s.frames.eraseIdx k).flatten) :=
          (perm_eraseIdx hframe).flatten
        rw [PayloadState.owners, Multiset.coe_add, ← List.append_assoc, ← List.append_assoc,
          Multiset.coe_eq_coe]
        exact (hperm.append_right _).append_right _
      obtain ⟨heap, hdestroy, hcounted, hread⟩ := (howners ▸ hinv.counted).destroyAll
      rw [hdestroy] at hdrop
      obtain ⟨rfl, rfl⟩ := Prod.mk.inj hdrop
      rw [List.append_nil]
      refine hinv.reframe hcounted fun q hq => hread q ?_
      rw [List.append_assoc, Multiset.mem_coe]
      exact List.mem_append_right _ hq
  | call k started outcomes =>
      simp only [PayloadState.step] at hstep
      split at hstep
      next => contradiction
      next hidle =>
        obtain ⟨frame, hframe, hnext⟩ := Option.map_eq_some_iff.mp hstep
        obtain ⟨rfl, rfl⟩ := Prod.mk.inj hnext
        rw [List.append_nil]
        exact hinv.call hidle hframe started outcomes
  | publisher =>
      obtain ⟨c, hcall, hnext⟩ := Option.map_eq_some_iff.mp hstep
      have hadvance := hinv.advance hcall
      rw [hnext] at hadvance
      exact hadvance
  | read k =>
      obtain ⟨m, hm, hnext⟩ := Option.map_eq_some_iff.mp hstep
      obtain ⟨b, hread, hhanded⟩ := hinv.handed m (List.mem_of_getElem? hm)
      rw [hread] at hnext
      obtain ⟨rfl, rfl⟩ := Prod.mk.inj hnext
      constructor
      case counted => exact hinv.counted
      case cells => exact hinv.cells
      case allocated =>
        rw [allocatedHints, List.filterMap_append]
        exact (List.append_nil _).trans hinv.allocated
      case freed =>
        rw [freedHints, List.filterMap_append, List.append_assoc]
        exact hinv.freed
      case handed =>
        intro other hother
        obtain ⟨b', hb', hhanded'⟩ := hinv.handed other hother
        exact ⟨b', hb', List.mem_append_left _ hhanded'⟩
      case handedOld =>
        intro hint b' hmem
        simp only [List.mem_append, List.mem_singleton, reduceCtorEq, or_false] at hmem
        exact hinv.handedOld hint b' hmem
      case continues => exact hinv.continues
      case history => exact hinv.history.snoc_read hhanded
  | release k =>
      obtain ⟨m, hm, hnext⟩ := Option.map_eq_some_iff.mp hstep
      have hperm : (s.messages.map PayloadMessage.cell ++ s.callCells).Perm ((m.hint, m.data) ::
          ((s.messages.eraseIdx k).map PayloadMessage.cell ++ s.callCells)) :=
        ((perm_eraseIdx hm).map PayloadMessage.cell).append_right _
      obtain ⟨after, hdelete, hfreed⟩ := @PayloadInv.free _ _ _ _ hinv (s.messages.eraseIdx k)
        s.call rfl hperm (fun _ hmem => List.mem_of_mem_eraseIdx hmem) (fun _ hcell => hcell)
        hinv.continues
      rw [hdelete] at hnext
      obtain ⟨rfl, rfl⟩ := Prod.mk.inj hnext
      rw [← (PayloadState.deleteHint_frame hdelete).2] at hfreed
      exact hfreed

end Steps

/-! ## Runs -/

section Runs

variable {guard : PayloadState → PayloadAction → Prop} {history : List PayloadEvent}
  {s : PayloadState}

theorem payloadInv_of_reaches (hreach : payloadMachine.Reaches guard history s) :
    PayloadInv history s := by
  apply hreach.invariant PayloadInv
  · constructor
    case counted => exact SharedHeap.Counted.empty
    case cells => exact List.Perm.refl []
    case allocated => rfl
    case freed => exact List.Perm.refl []
    case handed => exact fun m hm => absurd hm List.not_mem_nil
    case handedOld => exact fun _ _ hmem => absurd hmem List.not_mem_nil
    case continues => exact fun _ heq => by contradiction
    case history =>
      constructor
      case handedOnce => exact fun _ _ _ hmem => absurd hmem List.not_mem_nil
      case reads => exact fun _ _ hmem => absurd hmem List.not_mem_nil
      case returned => exact fun _ _ _ _ _ hmem => absurd hmem List.not_mem_nil
      case noFault => exact List.not_mem_nil
  · exact fun history s action next events _ hinv _ hstep => hinv.step hstep

/-- Whenever frames are destroyed and ZeroMQ reads and releases its messages, no dead
memory is used: what it reads of a message is the bundle that it was handed, every call
does what `sendPayloads` says, and no hint is deleted twice. Once it has released all
messages, every hint is deleted, and the bundles that are alive are those of the frames. -/
theorem payloads_outlive (hreach : payloadMachine.Reaches guard history s) :
    .fault ∉ history ∧
      (∀ hint b b', .handed hint b ∈ history → .read hint b' ∈ history → b' = b) ∧
      (∀ succeeds bundles started final ok,
        .returned succeeds bundles started final ok ∈ history →
          sendPayloads succeeds 0 bundles started = (final, ok)) ∧
      (freedHints history).Nodup ∧
      (s.call = none → s.messages = [] →
        (freedHints history).Perm (allocatedHints history) ∧
          ∀ p, (s.heap.read p).isSome = true ↔ ∃ frame ∈ s.frames, p ∈ frame) := by
  have hinv := payloadInv_of_reaches hreach
  refine ⟨hinv.history.noFault, fun hint b b' hhanded hread => ?_, hinv.history.returned,
    (List.nodup_append.mp (hinv.freed.nodup List.nodup_range)).1, fun hidle hmessages => ?_⟩
  · exact hinv.history.handedOnce hint b' b (hinv.history.reads hint b' hread) hhanded
  · have hcells := hinv.cells
    have hfreed := hinv.freed
    have hframe : s.callFrame = [] := by rw [PayloadState.callFrame, hidle]; rfl
    rw [PayloadState.callCells, hidle, hmessages] at hcells
    have hnone : s.hints = [] := hcells.eq_nil
    rw [hnone, List.map_nil, List.append_nil, ← hinv.allocated] at hfreed
    refine ⟨hfreed.symm, fun p => ?_⟩
    rw [hinv.counted.read_isSome, PayloadState.owners, hframe, hnone, List.map_nil, List.append_nil,
      List.append_nil, Multiset.mem_coe, List.mem_flatten]

end Runs

/-- The first bundle of a frame is sent, the second one refused, and the frame destroyed
before ZeroMQ reads the message. -/
def readAfterDrop : List PayloadAction :=
  [.build [{ type := .imu, partId := lit "imu" },
      { type := .barometer, partId := lit "barometer" }],
    .call 0 {} fun i => if i = 0 then .sent else .refused] ++
  List.replicate 7 .publisher ++ [.drop 0, .read 0, .release 0]

theorem readAfterDrop_outlives :
    ∃ history s, payloadMachine.runFrom payloadMachine.init readAfterDrop = some (s, history) ∧
      (freedHints history = [1, 0] ∧ s.call = none ∧ s.messages = []) ∧
      .fault ∉ history ∧
      (∀ hint b b', .handed hint b ∈ history → .read hint b' ∈ history → b' = b) ∧
      (∀ succeeds bundles started final ok,
        .returned succeeds bundles started final ok ∈ history →
          sendPayloads succeeds 0 bundles started = (final, ok)) ∧
      (freedHints history).Nodup ∧
      (s.call = none → s.messages = [] →
        (freedHints history).Perm (allocatedHints history) ∧
          ∀ p, (s.heap.read p).isSome = true ↔ ∃ frame ∈ s.frames, p ∈ frame) := by
  have hruns : (payloadMachine.runFrom payloadMachine.init readAfterDrop).map
      (fun result => (freedHints result.2, result.1.call, result.1.messages)) =
        some ([1, 0], none, []) :=
    rfl
  obtain ⟨⟨s, history⟩, hrun, hends⟩ := Option.map_eq_some_iff.mp hruns
  simp only [Prod.mk.injEq] at hends
  exact ⟨history, s, hrun, hends, payloads_outlive (Machine.reachable_of_runFrom hrun)⟩

end SimVision
