import SimVision.Foundation.Machine

/-! # The threads of the admin server

The accept thread hands connections to the workers through a bounded queue under
`qmtx_`, and `stop` stores the flags, notifies and joins them all. One step is one
access to what the threads share, or one call to the system. Descriptors are
numbered in the order in which `accept` returns them.
-/

namespace SimVision.AdminServer

open Foundation

def kMaxPending : Nat := 100

/-- How far `handle_connection` has come with a connection. -/
inductive ServeStage where
  | creates
  | handshakes
  | reads
  | answers
  deriving DecidableEq

/-- Where a worker stands in `worker_loop`. It is in `locks` when it enters
`dequeue_connection` and when it has been woken, in both cases to take `qmtx_`
and evaluate the predicate. -/
inductive WorkerPhase where
  | locks
  | tests
  | blocks
  | blocked
  | dequeues
  | refused
  | serves (stage : ServeStage) (fd : Nat)
  | closes (fd : Nat)
  | finished
  deriving DecidableEq

/-- Where the accept thread stands in `accept_loop`. -/
inductive AcceptPhase where
  | loops
  | accepts
  | failed
  | holds (fd : Nat)
  | locked (fd : Nat)
  | notifies
  | finished
  deriving DecidableEq

/-- Where the thread that stops the server stands in `stop`. -/
inductive StopPhase where
  | idle
  | stores
  | closes
  | notifies
  | joinsAccept
  | joinsWorkers (joined : Nat)
  | returned
  deriving DecidableEq

/-- The members that the threads share, with the phases of the threads.
`accepted` counts the descriptors that `accept` has returned and `closed` collects
those that have been closed; nothing reads them. -/
structure ServerState where
  running : Bool := true
  stopping : Bool := false
  listening : Bool := true
  qmtx : Bool := false
  queue : List Nat := []
  accept : AcceptPhase := .loops
  workers : List WorkerPhase
  stop : StopPhase := .idle
  accepted : Nat := 0
  closed : List Nat := []

/-- How a call of `accept` returns. -/
inductive AcceptOutcome where
  | connection
  | interrupted
  | failed

/-- The threads move one at a time. `ok` is the outcome of the call a worker is
in and `woken` the worker that `notify_one` picks; steps that do not depend on
them ignore them. -/
inductive ServerAction where
  | accept (outcome : AcceptOutcome) (woken : Nat)
  | worker (index : Nat) (ok : Bool)
  | stop

/-! ## Steps of the threads -/

/-- `notify_one` wakes one blocked worker when there is one. -/
def notifyOne (workers : List WorkerPhase) (woken : Nat) : Option (List WorkerPhase) :=
  if .blocked ∈ workers then
    if workers[woken]? = some .blocked then some (workers.set woken .locks) else none
  else some workers

/-- What `notify_all` does to one worker. -/
def WorkerPhase.notified : WorkerPhase → WorkerPhase
  | .blocked => .locks
  | phase => phase

def ServerState.acceptStep (s : ServerState) (outcome : AcceptOutcome) (woken : Nat) :
    Option ServerState :=
  match s.accept with
  | .loops => some { s with accept := if s.running then .accepts else .finished }
  | .accepts =>
      match outcome with
      | .connection =>
          if s.listening then
            some { s with accept := .holds s.accepted, accepted := s.accepted + 1 }
          else none
      | .interrupted => some { s with accept := .loops }
      | .failed => some { s with accept := .failed }
  | .failed => some { s with accept := if s.running then .loops else .finished }
  | .holds fd => if s.qmtx then none else some { s with qmtx := true, accept := .locked fd }
  | .locked fd =>
      if s.queue.length ≥ kMaxPending then
        some { s with qmtx := false, accept := .loops, closed := s.closed ++ [fd] }
      else some { s with qmtx := false, accept := .notifies, queue := s.queue ++ [fd] }
  | .notifies =>
      (notifyOne s.workers woken).map fun workers =>
        { s with accept := .loops, workers := workers }
  | .finished => none

/-- The next phase of `handle_connection`, which closes the descriptor on every
way out. -/
def ServeStage.after (fd : Nat) (ok : Bool) : ServeStage → WorkerPhase
  | .creates => if ok then .serves .handshakes fd else .closes fd
  | .handshakes => if ok then .serves .reads fd else .closes fd
  | .reads => if ok then .serves .answers fd else .closes fd
  | .answers => .closes fd

/-- A step of a worker: the state without the worker, and its next phase. A
blocked worker may also wake without a notification. -/
def ServerState.workerStep (s : ServerState) (ok : Bool) :
    WorkerPhase → Option (ServerState × WorkerPhase)
  | .locks => if s.qmtx then none else some ({ s with qmtx := true }, .tests)
  | .tests => some (s, if !s.queue.isEmpty || s.stopping then .dequeues else .blocks)
  | .blocks => some ({ s with qmtx := false }, .blocked)
  | .blocked => some (s, .locks)
  | .dequeues =>
      match s.queue with
      | [] => some ({ s with qmtx := false }, .refused)
      | fd :: rest => some ({ s with qmtx := false, queue := rest }, .serves .creates fd)
  | .refused => some (s, if s.running then .locks else .finished)
  | .serves stage fd => some (s, stage.after fd ok)
  | .closes fd => some ({ s with closed := s.closed ++ [fd] }, .locks)
  | .finished => none

def ServerState.stopStep (s : ServerState) : Option ServerState :=
  match s.stop with
  | .idle => some { s with running := false, stop := .stores }
  | .stores => some { s with stopping := true, stop := .closes }
  | .closes => some { s with listening := false, stop := .notifies }
  | .notifies => some { s with workers := s.workers.map .notified, stop := .joinsAccept }
  | .joinsAccept => if s.accept = .finished then some { s with stop := .joinsWorkers 0 } else none
  | .joinsWorkers joined =>
      match s.workers[joined]? with
      | none => some { s with stop := .returned }
      | some phase =>
          if phase = .finished then some { s with stop := .joinsWorkers (joined + 1) } else none
  | .returned => none

def serverStep (s : ServerState) : ServerAction → Option (ServerState × List Unit)
  | .accept outcome woken => (s.acceptStep outcome woken).map fun next => (next, [])
  | .worker index ok =>
      match s.workers[index]? with
      | none => none
      | some phase =>
          (s.workerStep ok phase).map fun (next, later) =>
            ({ next with workers := s.workers.set index later }, [])
  | .stop => s.stopStep.map fun next => (next, [])

/-- The server as `start` leaves it. -/
def serverThreads (workerThreads : Nat) : Machine ServerState ServerAction Unit where
  init := { workers := .replicate workerThreads .locks }
  step := serverStep

/-! ## What a step does to the rest -/

/-- The descriptors a worker holds. -/
def WorkerPhase.held : WorkerPhase → List Nat
  | .serves _ fd => [fd]
  | .closes fd => [fd]
  | _ => []

/-- The descriptors the accept thread holds. -/
def AcceptPhase.held : AcceptPhase → List Nat
  | .holds fd => [fd]
  | .locked fd => [fd]
  | _ => []

/-- The worker has found no reason to go on and has not been notified since. -/
def WorkerPhase.waits : WorkerPhase → Bool
  | .blocks => true
  | .blocked => true
  | _ => false

/-- The worker has not found the queue empty with the server stopping. -/
def WorkerPhase.stays : WorkerPhase → Bool
  | .refused => false
  | .finished => false
  | _ => true

/-- What a step of a worker from one phase to the next leaves as it was. -/
structure WorkerStep (s next : ServerState) (old new : WorkerPhase) : Prop where
  accept : next.accept = s.accept
  stop : next.stop = s.stop
  stopping : next.stopping = s.stopping
  accepted : next.accepted = s.accepted
  moves : (next.queue ++ new.held ++ next.closed).Perm (s.queue ++ old.held ++ s.closed)
  queue_le : next.queue.length ≤ s.queue.length
  unfinished : old ≠ .finished
  waits : new.waits = true → old.waits = true ∨ s.stopping = false
  stays : old.stays = true → new.stays = true ∨ next.queue = []

theorem WorkerStep.of_workerStep {s next : ServerState} {ok : Bool} {old new : WorkerPhase}
    (hstep : s.workerStep ok old = some (next, new)) : WorkerStep s next old new := by
  cases old with
  | locks =>
      simp only [ServerState.workerStep] at hstep
      split at hstep
      next => contradiction
      next =>
        cases hstep
        exact ⟨rfl, rfl, rfl, rfl, .refl _, Nat.le_refl _, nofun, nofun, fun _ => .inl rfl⟩
  | tests =>
      simp only [ServerState.workerStep] at hstep
      split at hstep
      next =>
        cases hstep
        exact ⟨rfl, rfl, rfl, rfl, .refl _, Nat.le_refl _, nofun, nofun, fun _ => .inl rfl⟩
      next hpredicate =>
        cases hstep
        have hstopping : s.stopping = false := by
          rw [Bool.or_eq_true, not_or, Bool.not_eq_true] at hpredicate
          simpa using hpredicate.2
        exact ⟨rfl, rfl, rfl, rfl, .refl _, Nat.le_refl _, nofun, fun _ => .inr hstopping,
          fun _ => .inl rfl⟩
  | blocks =>
      cases hstep
      exact ⟨rfl, rfl, rfl, rfl, .refl _, Nat.le_refl _, nofun, fun _ => .inl rfl,
        fun _ => .inl rfl⟩
  | blocked =>
      cases hstep
      exact ⟨rfl, rfl, rfl, rfl, .refl _, Nat.le_refl _, nofun, nofun, fun _ => .inl rfl⟩
  | dequeues =>
      simp only [ServerState.workerStep] at hstep
      split at hstep
      next hqueue =>
        cases hstep
        exact ⟨rfl, rfl, rfl, rfl, .refl _, Nat.le_refl _, nofun, nofun, fun _ => .inr hqueue⟩
      next fd rest hqueue =>
        cases hstep
        refine ⟨rfl, rfl, rfl, rfl, ?_, ?_, nofun, nofun, fun _ => .inl rfl⟩
        · rw [hqueue]
          exact (List.perm_append_singleton fd rest).append_right s.closed |>.trans
            (by simp [WorkerPhase.held])
        · rw [hqueue]
          exact Nat.le_succ _
  | refused =>
      cases hstep
      refine ⟨rfl, rfl, rfl, rfl, ?_, Nat.le_refl _, nofun, ?_, nofun⟩
      · split <;> exact .refl _
      · split <;> nofun
  | serves stage fd =>
      cases hstep
      have hheld : (stage.after fd ok).held = [fd] := by
        cases stage <;> cases ok <;> rfl
      refine ⟨rfl, rfl, rfl, rfl, ?_, Nat.le_refl _, nofun, ?_, ?_⟩
      · rw [hheld]
        exact .refl _
      · cases stage <;> cases ok <;> nofun
      · cases stage <;> cases ok <;> exact fun _ => .inl rfl
  | closes fd =>
      cases hstep
      refine ⟨rfl, rfl, rfl, rfl, ?_, Nat.le_refl _, nofun, nofun, fun _ => .inl rfl⟩
      simp only [WorkerPhase.held, List.append_nil, List.append_assoc]
      exact (List.perm_append_comm).append_left _
  | finished => contradiction

/-- What a step of the accept thread leaves as it was. A connection that it takes
is one more descriptor, and it pushes only below the bound. -/
structure AcceptStep (s next : ServerState) : Prop where
  stop : next.stop = s.stop
  stopping : next.stopping = s.stopping
  moves : (next.accept.held ++ next.queue ++ next.closed ++ List.range s.accepted).Perm
    (s.accept.held ++ s.queue ++ s.closed ++ List.range next.accepted)
  unfinished : s.accept ≠ .finished
  workers : next.workers = s.workers ∨
    ∃ woken, s.workers[woken]? = some .blocked ∧ next.workers = s.workers.set woken .locks
  queue : next.queue = s.queue ∨
    ∃ fd, s.accept = .locked fd ∧ s.queue.length < kMaxPending ∧ next.queue = s.queue ++ [fd]

theorem notifyOne_workers {workers notified : List WorkerPhase} {woken : Nat}
    (hnotify : notifyOne workers woken = some notified) : notified = workers ∨
      workers[woken]? = some .blocked ∧ notified = workers.set woken .locks := by
  unfold notifyOne at hnotify
  split at hnotify
  next =>
    split at hnotify
    next hblocked => exact .inr ⟨hblocked, (Option.some.inj hnotify).symm⟩
    next => contradiction
  next => exact .inl (Option.some.inj hnotify).symm

theorem AcceptStep.of_acceptStep {s next : ServerState} {outcome : AcceptOutcome} {woken : Nat}
    (hstep : s.acceptStep outcome woken = some next) : AcceptStep s next := by
  unfold ServerState.acceptStep at hstep
  cases haccept : s.accept with
  | loops =>
      simp only [haccept] at hstep
      cases hstep
      refine ⟨rfl, rfl, ?_, by rw [haccept]; nofun, .inl rfl, .inl rfl⟩
      rw [haccept]
      dsimp only
      split <;> exact .refl _
  | accepts =>
      simp only [haccept] at hstep
      cases outcome with
      | connection =>
          dsimp only at hstep
          split at hstep
          next =>
            cases hstep
            refine ⟨rfl, rfl, ?_, by rw [haccept]; nofun, .inl rfl, .inl rfl⟩
            rw [haccept, List.range_succ, ← List.append_assoc]
            refine (List.perm_append_singleton s.accepted _).symm.trans ?_
            simp [AcceptPhase.held]
          next => contradiction
      | interrupted =>
          cases hstep
          refine ⟨rfl, rfl, ?_, by rw [haccept]; nofun, .inl rfl, .inl rfl⟩
          rw [haccept]
          exact .refl _
      | failed =>
          cases hstep
          refine ⟨rfl, rfl, ?_, by rw [haccept]; nofun, .inl rfl, .inl rfl⟩
          rw [haccept]
          exact .refl _
  | failed =>
      simp only [haccept] at hstep
      cases hstep
      refine ⟨rfl, rfl, ?_, by rw [haccept]; nofun, .inl rfl, .inl rfl⟩
      rw [haccept]
      dsimp only
      split <;> exact .refl _
  | holds fd =>
      simp only [haccept] at hstep
      split at hstep
      next => contradiction
      next =>
        cases hstep
        refine ⟨rfl, rfl, ?_, by rw [haccept]; nofun, .inl rfl, .inl rfl⟩
        rw [haccept]
        exact .refl _
  | locked fd =>
      simp only [haccept] at hstep
      split at hstep
      next =>
        cases hstep
        refine ⟨rfl, rfl, ?_, by rw [haccept]; nofun, .inl rfl, .inl rfl⟩
        rw [haccept, List.perm_iff_count]
        intro n
        simp only [AcceptPhase.held, List.count_append, List.count_nil]
        omega
      next hroom =>
        cases hstep
        refine ⟨rfl, rfl, ?_, by rw [haccept]; nofun, .inl rfl, .inr ⟨fd, haccept, ?_, rfl⟩⟩
        · rw [haccept, List.perm_iff_count]
          intro n
          simp only [AcceptPhase.held, List.count_append, List.count_nil]
          omega
        · exact Nat.lt_of_not_le hroom
  | notifies =>
      simp only [haccept] at hstep
      obtain ⟨workers, hnotify, heq⟩ := Option.map_eq_some_iff.mp hstep
      cases heq
      refine ⟨rfl, rfl, ?_, by rw [haccept]; nofun, ?_, .inl rfl⟩
      · rw [haccept]
        exact .refl _
      · rcases notifyOne_workers hnotify with hsame | hwoken
        · exact .inl hsame
        · exact .inr ⟨woken, hwoken⟩
  | finished =>
      simp only [haccept] at hstep
      contradiction

/-- What a step of `stop` leaves as it was. -/
structure StopStep (s next : ServerState) : Prop where
  accept : next.accept = s.accept
  queue : next.queue = s.queue
  closed : next.closed = s.closed
  accepted : next.accepted = s.accepted
  workers : next.workers = s.workers ∨
    s.stop = .notifies ∧ next.workers = s.workers.map .notified

theorem StopStep.of_stopStep {s next : ServerState} (hstep : s.stopStep = some next) :
    StopStep s next := by
  unfold ServerState.stopStep at hstep
  cases hstop : s.stop with
  | notifies =>
      simp only [hstop] at hstep
      cases hstep
      exact ⟨rfl, rfl, rfl, rfl, .inr ⟨hstop, rfl⟩⟩
  | joinsAccept =>
      simp only [hstop] at hstep
      split at hstep
      next =>
        cases hstep
        exact ⟨rfl, rfl, rfl, rfl, .inl rfl⟩
      next => contradiction
  | joinsWorkers joined =>
      simp only [hstop] at hstep
      split at hstep
      next =>
        cases hstep
        exact ⟨rfl, rfl, rfl, rfl, .inl rfl⟩
      next =>
        split at hstep
        next =>
          cases hstep
          exact ⟨rfl, rfl, rfl, rfl, .inl rfl⟩
        next => contradiction
  | returned =>
      simp only [hstop] at hstep
      contradiction
  | _ =>
      simp only [hstop] at hstep
      cases hstep
      exact ⟨rfl, rfl, rfl, rfl, .inl rfl⟩

/-- The step of one thread, and what is known of it. -/
inductive ServerStep (s : ServerState) : ServerAction → ServerState → Prop where
  | accept {outcome : AcceptOutcome} {woken : Nat} {next : ServerState}
      (haccept : AcceptStep s next) :
      ServerStep s (.accept outcome woken) next
  | worker {index : Nat} {ok : Bool} {old new : WorkerPhase} {next : ServerState}
      (hworker : s.workers[index]? = some old) (hstep : WorkerStep s next old new) :
      ServerStep s (.worker index ok) { next with workers := s.workers.set index new }
  | stop {next : ServerState} (hstop : s.stopStep = some next) : ServerStep s .stop next

theorem ServerStep.of_serverStep {s next : ServerState} {action : ServerAction} {events : List Unit}
    (hstep : serverStep s action = some (next, events)) : ServerStep s action next := by
  cases action with
  | accept outcome woken =>
      obtain ⟨later, haccept, heq⟩ := Option.map_eq_some_iff.mp hstep
      cases heq
      exact .accept (.of_acceptStep haccept)
  | worker index ok =>
      unfold serverStep at hstep
      cases hworker : s.workers[index]? with
      | none =>
          simp only [hworker] at hstep
          contradiction
      | some old =>
          simp only [hworker] at hstep
          obtain ⟨⟨later, new⟩, hmoved, heq⟩ := Option.map_eq_some_iff.mp hstep
          cases heq
          exact .worker hworker (.of_workerStep hmoved)
  | stop =>
      obtain ⟨later, hstop, heq⟩ := Option.map_eq_some_iff.mp hstep
      cases heq
      exact .stop hstop

/-! ## No worker waits after the notification -/

/-- `stop` has stored `stopping_`. -/
def StopPhase.stored : StopPhase → Bool
  | .idle => false
  | .stores => false
  | _ => true

/-- `stop` is past its `notify_all`. -/
def StopPhase.notified : StopPhase → Bool
  | .joinsAccept => true
  | .joinsWorkers _ => true
  | .returned => true
  | _ => false

/-- The condition on a step: `notify_all` finds no worker that has tested the
predicate and not blocked yet. -/
def NotifiesSettled (s : ServerState) : ServerAction → Prop
  | .stop => s.stop = .notifies → .blocks ∉ s.workers
  | _ => True

instance : ∀ s action, Decidable (NotifiesSettled s action)
  | s, .stop => inferInstanceAs (Decidable (s.stop = .notifies → .blocks ∉ s.workers))
  | _, .accept _ _ => .isTrue trivial
  | _, .worker _ _ => .isTrue trivial

/-- A worker tests the predicate after `stopping_` has been stored, so past the
notification it does not wait. -/
structure Notified (s : ServerState) : Prop where
  stopping : s.stop.stored = true → s.stopping = true
  none_waits : s.stop.notified = true → ∀ phase ∈ s.workers, phase.waits = false

theorem StopPhase.stored_of_notified {stop : StopPhase} (hnotified : stop.notified = true) :
    stop.stored = true := by
  cases stop with
  | idle => contradiction
  | stores => contradiction
  | _ => rfl

theorem WorkerPhase.notified_waits {phase : WorkerPhase} (hblocks : phase ≠ .blocks) :
    phase.notified.waits = false := by
  cases phase with
  | blocks => exact absurd rfl hblocks
  | _ => rfl

theorem Notified.step {s next : ServerState} {action : ServerAction} (hinv : Notified s)
    (hsettled : NotifiesSettled s action) (hstep : ServerStep s action next) : Notified next := by
  obtain ⟨hstopping, hwaits⟩ := hinv
  cases hstep with
  | accept haccept =>
      constructor
      · rw [haccept.stop, haccept.stopping]
        exact hstopping
      · intro hnotified phase hphase
        rw [haccept.stop] at hnotified
        rcases haccept.workers with hsame | ⟨woken, _, hwoken⟩
        · rw [hsame] at hphase
          exact hwaits hnotified phase hphase
        · rw [hwoken] at hphase
          rcases List.mem_or_eq_of_mem_set hphase with hphase | rfl
          · exact hwaits hnotified phase hphase
          · rfl
  | @worker index ok old new later hworker hmoved =>
      constructor
      · rw [hmoved.stop, hmoved.stopping]
        exact hstopping
      · intro hnotified phase hphase
        rw [hmoved.stop] at hnotified
        rcases List.mem_or_eq_of_mem_set hphase with hphase | rfl
        · exact hwaits hnotified phase hphase
        · -- a worker that newly waits has read `stopping_` before it was stored
          by_contra hnew
          rw [Bool.not_eq_false] at hnew
          rcases hmoved.waits hnew with hold | hnot
          · rw [hwaits hnotified old (List.mem_of_getElem? hworker)] at hold
            contradiction
          · rw [hstopping (StopPhase.stored_of_notified hnotified)] at hnot
            contradiction
  | stop hstop =>
      unfold ServerState.stopStep at hstop
      cases hphase : s.stop with
      | idle =>
          simp only [hphase] at hstop
          cases hstop
          exact ⟨nofun, nofun⟩
      | stores =>
          simp only [hphase] at hstop
          cases hstop
          exact ⟨fun _ => rfl, nofun⟩
      | closes =>
          simp only [hphase] at hstop
          cases hstop
          exact ⟨fun _ => hstopping (by rw [hphase]; rfl), nofun⟩
      | notifies =>
          simp only [hphase] at hstop
          cases hstop
          refine ⟨fun _ => hstopping (by rw [hphase]; rfl), ?_⟩
          intro _ phase hmem
          obtain ⟨before, hbefore, rfl⟩ := List.mem_map.mp hmem
          apply WorkerPhase.notified_waits
          rintro rfl
          exact hsettled hphase hbefore
      | joinsAccept =>
          simp only [hphase] at hstop
          split at hstop
          next =>
            cases hstop
            rw [hphase] at hstopping hwaits
            exact ⟨hstopping, hwaits⟩
          next => contradiction
      | joinsWorkers joined =>
          simp only [hphase] at hstop
          rw [hphase] at hstopping hwaits
          split at hstop
          next =>
            cases hstop
            exact ⟨hstopping, hwaits⟩
          next =>
            split at hstop
            next =>
              cases hstop
              exact ⟨hstopping, hwaits⟩
            next => contradiction
      | returned =>
          simp only [hphase] at hstop
          contradiction

/-- When `notify_all` never falls between a worker's test and its wait, no worker
is left blocked once `stop` waits for the threads. -/
theorem stop_wakes_workers {workerThreads : Nat} {history : List Unit} {s : ServerState}
    (hreach : (serverThreads workerThreads).Reaches NotifiesSettled history s) :
    ¬ (s.stop.notified = true ∧ s.accept = .finished ∧ .blocked ∈ s.workers) := by
  have hinv : Notified s := by
    apply hreach.invariant fun _ s => Notified s
    · exact ⟨nofun, nofun⟩
    · intro _ before action after _ _ hbefore hsettled hstep
      exact hbefore.step hsettled (.of_serverStep hstep)
  rintro ⟨hnotified, _, hblocked⟩
  have hwaits := hinv.none_waits hnotified .blocked hblocked
  contradiction

/-- Two workers: one blocks before `stop`, the other tests the predicate after
`stopping_` is stored. -/
def stopAfterBlocking : List ServerAction :=
  [.worker 0 true, .worker 0 true, .worker 0 true, .stop, .stop, .worker 1 true, .worker 1 true,
    .worker 1 true, .worker 1 true, .stop, .stop, .accept .failed 0, .stop]

theorem stopAfterBlocking_wakes :
    ∃ s history, (serverThreads 2).runFrom (serverThreads 2).init stopAfterBlocking =
        some (s, history) ∧ s.workers = [.locks, .finished] ∧
      ¬ (s.stop.notified = true ∧ s.accept = .finished ∧ .blocked ∈ s.workers) := by
  have hruns : ((serverThreads 2).runFrom (serverThreads 2).init stopAfterBlocking).map
      (fun result => result.1.workers) = some [.locks, .finished] := by decide
  obtain ⟨⟨s, history⟩, hrun, hworkers⟩ := Option.map_eq_some_iff.mp hruns
  have hguarded : (serverThreads 2).Guarded NotifiesSettled (serverThreads 2).init
      stopAfterBlocking := by decide
  exact ⟨s, history, hrun, hworkers, stop_wakes_workers (.runGuarded .init hguarded hrun)⟩

/-- The worker tests the predicate before `stop` stores the flag, and blocks after
`stop` has notified. -/
def stopBeforeBlocking : List ServerAction :=
  [.worker 0 true, .worker 0 true, .stop, .stop, .stop, .stop, .worker 0 true, .accept .failed 0]

/-- The notification of `stop` can be lost. -/
theorem stopBeforeBlocking_hangs :
    ¬ ∀ (workerThreads : Nat) (history : List Unit) (s : ServerState),
      (serverThreads workerThreads).Reachable history s →
        ¬ (s.stop.notified = true ∧ s.accept = .finished ∧ .blocked ∈ s.workers) := by
  intro hclaim
  have hruns : ((serverThreads 1).runFrom (serverThreads 1).init stopBeforeBlocking).map
      (fun result => (result.1.stop.notified, result.1.accept, result.1.workers)) =
      some (true, .finished, [.blocked]) := by decide
  obtain ⟨⟨s, history⟩, hrun, hview⟩ := Option.map_eq_some_iff.mp hruns
  simp only [Prod.mk.injEq] at hview
  obtain ⟨hnotified, hfinished, hworkers⟩ := hview
  apply hclaim 1 history s (Machine.reachable_of_runFrom hrun)
  refine ⟨hnotified, hfinished, ?_⟩
  rw [hworkers]
  exact List.mem_singleton_self _

/-! ## Where the descriptors are -/

/-- All places of a descriptor: the accept thread, the queue, the workers, and
the closed ones. -/
def ServerState.places (s : ServerState) : List Nat :=
  s.accept.held ++ s.queue ++ s.workers.flatMap WorkerPhase.held ++ s.closed

/-- Every accepted descriptor is in exactly one place and the queue is bounded. -/
structure Conserved (s : ServerState) : Prop where
  places : s.places.Perm (List.range s.accepted)
  bounded : s.queue.length ≤ kMaxPending

theorem Conserved.step {s next : ServerState} {action : ServerAction} (hinv : Conserved s)
    (hstep : ServerStep s action next) : Conserved next := by
  obtain ⟨hplaces, hbounded⟩ := hinv
  rw [List.perm_iff_count] at hplaces
  cases hstep with
  | accept haccept =>
      constructor
      · have hworkers : (next.workers.flatMap WorkerPhase.held).Perm
            (s.workers.flatMap WorkerPhase.held) := by
          rcases haccept.workers with hsame | ⟨woken, hblocked, hwoken⟩
          · rw [hsame]
          · have hperm := flatMap_step_perm WorkerPhase.held hblocked .locks
            simp only [WorkerPhase.held, List.append_nil] at hperm
            rw [hwoken]
            exact hperm
        rw [List.perm_iff_count]
        intro fd
        have hmoves := haccept.moves.count_eq fd
        have hheld := hworkers.count_eq fd
        have hbefore := hplaces fd
        simp only [ServerState.places, List.count_append] at hmoves hbefore ⊢
        omega
      · rcases haccept.queue with hsame | ⟨fd, _, hroom, hpushed⟩
        · rw [hsame]
          exact hbounded
        · rw [hpushed, List.length_append]
          exact hroom
  | @worker index ok old new later hworker hmoved =>
      constructor
      · rw [List.perm_iff_count]
        intro fd
        have hheld := (flatMap_step_perm WorkerPhase.held hworker new).count_eq fd
        have hmoves := hmoved.moves.count_eq fd
        have hbefore := hplaces fd
        dsimp only
        rw [hmoved.accepted]
        simp only [ServerState.places, List.count_append, hmoved.accept] at hheld hmoves hbefore ⊢
        omega
      · exact Nat.le_trans hmoved.queue_le hbounded
  | stop hstop =>
      obtain ⟨haccept, hqueue, hclosed, haccepted, hworkers⟩ := StopStep.of_stopStep hstop
      have hheld : next.workers.flatMap WorkerPhase.held = s.workers.flatMap WorkerPhase.held := by
        rcases hworkers with hsame | ⟨_, hnotified⟩
        · rw [hsame]
        · rw [hnotified, List.flatMap_map]
          congr 1
          funext phase
          cases phase <;> rfl
      constructor
      · rw [List.perm_iff_count]
        intro fd
        rw [ServerState.places, haccept, hqueue, hclosed, haccepted, hheld]
        exact hplaces fd
      · rw [hqueue]
        exact hbounded

/-! ## Nothing is left when `stop` returns -/

/-- The accept thread holds `qmtx_`. -/
def AcceptPhase.hasLock : AcceptPhase → Bool
  | .locked _ => true
  | _ => false

/-- The condition on a step: when the accept thread pushes, some worker has not
found the queue empty with the server stopping. -/
def PushesToWorker (s : ServerState) : ServerAction → Prop
  | .accept _ _ => s.accept.hasLock = true → s.queue.length < kMaxPending →
      ∃ phase ∈ s.workers, phase.stays = true
  | _ => True

instance : ∀ s action, Decidable (PushesToWorker s action)
  | s, .accept _ _ => inferInstanceAs (Decidable (s.accept.hasLock = true →
      s.queue.length < kMaxPending → ∃ phase ∈ s.workers, phase.stays = true))
  | _, .worker _ _ => .isTrue trivial
  | _, .stop => .isTrue trivial

/-- A worker stays for as long as something is queued. -/
def Attended (s : ServerState) : Prop :=
  s.queue ≠ [] → ∃ (index : Nat) (phase : WorkerPhase),
    s.workers[index]? = some phase ∧ phase.stays = true

theorem Attended.step {s next : ServerState} {action : ServerAction} (hinv : Attended s)
    (hpushes : PushesToWorker s action) (hstep : ServerStep s action next) : Attended next := by
  cases hstep with
  | accept haccept =>
      have hbefore : next.queue ≠ [] →
          ∃ (index : Nat) (phase : WorkerPhase),
            s.workers[index]? = some phase ∧ phase.stays = true := by
        intro hsome
        rcases haccept.queue with hsame | ⟨fd, hlocked, hroom, _⟩
        · exact hinv (hsame ▸ hsome)
        · obtain ⟨phase, hphase, hstays⟩ := hpushes (by rw [hlocked]; rfl) hroom
          obtain ⟨index, hindex⟩ := List.mem_iff_getElem?.mp hphase
          exact ⟨index, phase, hindex, hstays⟩
      intro hsome
      obtain ⟨index, phase, hphase, hstays⟩ := hbefore hsome
      rcases haccept.workers with hsame | ⟨woken, hblocked, hwoken⟩
      · exact ⟨index, phase, hsame ▸ hphase, hstays⟩
      · by_cases hindex : woken = index
        · refine ⟨woken, .locks, ?_, rfl⟩
          rw [hwoken, List.getElem?_set_self (List.getElem?_eq_some_iff.mp hblocked).1]
        · refine ⟨index, phase, ?_, hstays⟩
          rw [hwoken, List.getElem?_set_ne hindex]
          exact hphase
  | @worker moved ok old new later hworker hmoved =>
      intro hsome
      have hqueue : s.queue ≠ [] := by
        rintro hempty
        have hle := hmoved.queue_le
        rw [hempty] at hle
        exact hsome (List.length_eq_zero_iff.mp (Nat.le_zero.mp hle))
      obtain ⟨index, phase, hphase, hstays⟩ := hinv hqueue
      by_cases hindex : moved = index
      · subst hindex
        obtain rfl : old = phase := Option.some.inj (hworker.symm.trans hphase)
        refine ⟨moved, new, ?_, ?_⟩
        · rw [List.getElem?_set_self (List.getElem?_eq_some_iff.mp hworker).1]
        · rcases hmoved.stays hstays with hnew | hempty
          · exact hnew
          · exact absurd hempty hsome
      · refine ⟨index, phase, ?_, hstays⟩
        rw [List.getElem?_set_ne hindex]
        exact hphase
  | stop hstop =>
      obtain ⟨_, hqueue, _, _, hworkers⟩ := StopStep.of_stopStep hstop
      intro hsome
      obtain ⟨index, phase, hphase, hstays⟩ := hinv (hqueue ▸ hsome)
      rcases hworkers with hsame | ⟨_, hnotified⟩
      · exact ⟨index, phase, hsame ▸ hphase, hstays⟩
      · refine ⟨index, phase.notified, ?_, ?_⟩
        · rw [hnotified, List.getElem?_map, hphase]
          rfl
        · cases phase with
          | refused => contradiction
          | finished => contradiction
          | _ => rfl

/-- The workers that `stop` has joined. -/
def ServerState.joined (s : ServerState) : Nat :=
  match s.stop with
  | .joinsWorkers joined => joined
  | .returned => s.workers.length
  | _ => 0

/-- What `stop` knows of the threads it has joined. -/
structure Joined (s : ServerState) : Prop where
  accept : (∃ joined, s.stop = .joinsWorkers joined) ∨ s.stop = .returned → s.accept = .finished
  workers : ∀ index < s.joined, s.workers[index]? = some .finished

theorem ServerState.joined_eq_zero {s : ServerState}
    (hjoins : ¬ ((∃ joined, s.stop = .joinsWorkers joined) ∨ s.stop = .returned)) :
    s.joined = 0 := by
  unfold joined
  split
  next joined hstop => exact absurd (.inl ⟨joined, hstop⟩) hjoins
  next hstop => exact absurd (.inr hstop) hjoins
  next => rfl

theorem Joined.step {s next : ServerState} {action : ServerAction} (hinv : Joined s)
    (hstep : ServerStep s action next) : Joined next := by
  obtain ⟨hfinished, hworkers⟩ := hinv
  cases hstep with
  | accept haccept =>
      have hjoins : ¬ ((∃ joined, next.stop = .joinsWorkers joined) ∨ next.stop = .returned) := by
        rw [haccept.stop]
        exact fun hjoins => haccept.unfinished (hfinished hjoins)
      refine ⟨fun hnext => absurd hnext hjoins, ?_⟩
      intro index hindex
      rw [ServerState.joined_eq_zero hjoins] at hindex
      contradiction
  | @worker moved ok old new later hworker hmoved =>
      constructor
      · dsimp only
        rw [hmoved.stop, hmoved.accept]
        exact hfinished
      · intro index hindex
        have hbefore : s.workers[index]? = some .finished := by
          apply hworkers
          simpa only [ServerState.joined, hmoved.stop, List.length_set] using hindex
        have hne : moved ≠ index := by
          rintro rfl
          rw [hbefore] at hworker
          exact hmoved.unfinished (Option.some.inj hworker).symm
        dsimp only
        rw [List.getElem?_set_ne hne]
        exact hbefore
  | stop hstop =>
      unfold ServerState.stopStep at hstop
      cases hphase : s.stop with
      | joinsAccept =>
          simp only [hphase] at hstop
          split at hstop
          next haccept =>
            cases hstop
            exact ⟨fun _ => haccept, nofun⟩
          next => contradiction
      | joinsWorkers joined =>
          simp only [hphase] at hstop
          have haccept := hfinished (.inl ⟨joined, hphase⟩)
          have hjoined : s.joined = joined := by rw [ServerState.joined, hphase]
          rw [hjoined] at hworkers
          split at hstop
          next hend =>
            cases hstop
            refine ⟨fun _ => haccept, fun index hindex => hworkers index ?_⟩
            exact Nat.lt_of_lt_of_le hindex (List.getElem?_eq_none_iff.mp hend)
          next phase hworker =>
            split at hstop
            next hdone =>
              cases hstop
              refine ⟨fun _ => haccept, fun index hindex => ?_⟩
              rcases Nat.lt_succ_iff_lt_or_eq.mp hindex with hlt | rfl
              · exact hworkers index hlt
              · exact hdone ▸ hworker
            next => contradiction
      | returned =>
          simp only [hphase] at hstop
          contradiction
      | _ =>
          simp only [hphase] at hstop
          cases hstop
          exact ⟨by simp, nofun⟩

section Runs

variable {workerThreads : Nat} {history : List Unit} {s : ServerState}

theorem conserved_of_reaches {guard : ServerState → ServerAction → Prop}
    (hreach : (serverThreads workerThreads).Reaches guard history s) : Conserved s := by
  apply hreach.invariant fun _ s => Conserved s
  · refine ⟨?_, Nat.zero_le _⟩
    have hheld : (List.replicate workerThreads WorkerPhase.locks).flatMap WorkerPhase.held =
        [] := by
      simp [WorkerPhase.held]
    simp [serverThreads, ServerState.places, AcceptPhase.held, hheld]
  · intro _ before action after _ _ hbefore _ hstep
    exact hbefore.step (.of_serverStep hstep)

theorem joined_of_reaches {guard : ServerState → ServerAction → Prop}
    (hreach : (serverThreads workerThreads).Reaches guard history s) : Joined s := by
  apply hreach.invariant fun _ s => Joined s
  · exact ⟨by simp [serverThreads], nofun⟩
  · intro _ before action after _ _ hbefore _ hstep
    exact hbefore.step (.of_serverStep hstep)

/-- The queue is bounded, every accepted descriptor is in exactly one place, and
when `stop` returns that place is among the closed ones, provided that the accept
thread never pushes after the last worker has found the queue empty. -/
theorem accepted_conserved
    (hreach : (serverThreads workerThreads).Reaches PushesToWorker history s) :
    s.queue.length ≤ kMaxPending ∧ s.places.Perm (List.range s.accepted) ∧ s.closed.Nodup ∧
      (s.stop = .returned → s.queue = [] ∧ s.closed.Perm (List.range s.accepted)) := by
  obtain ⟨hplaces, hbounded⟩ := conserved_of_reaches hreach
  have hattended : Attended s := by
    apply hreach.invariant fun _ s => Attended s
    · exact fun hsome => absurd rfl hsome
    · intro _ before action after _ _ hbefore hpushes hstep
      exact hbefore.step hpushes (.of_serverStep hstep)
  have hnodup : s.places.Nodup := hplaces.nodup_iff.mpr List.nodup_range
  refine ⟨hbounded, hplaces, (List.nodup_append.mp hnodup).2.1, fun hreturned => ?_⟩
  obtain ⟨hfinished, hworkers⟩ := joined_of_reaches hreach
  have hall : ∀ phase ∈ s.workers, phase = .finished := by
    intro phase hphase
    obtain ⟨index, hindex⟩ := List.mem_iff_getElem?.mp hphase
    have hlt : index < s.joined := by
      rw [ServerState.joined, hreturned]
      exact (List.getElem?_eq_some_iff.mp hindex).1
    rw [hworkers index hlt] at hindex
    exact (Option.some.inj hindex).symm
  have hqueue : s.queue = [] := by
    by_contra hsome
    obtain ⟨index, phase, hindex, hstays⟩ := hattended hsome
    rw [hall phase (List.mem_of_getElem? hindex)] at hstays
    contradiction
  have hheld : s.workers.flatMap WorkerPhase.held = [] := by
    rw [List.flatMap_eq_nil_iff]
    intro phase hphase
    rw [hall phase hphase]
    rfl
  refine ⟨hqueue, ?_⟩
  rwa [ServerState.places, hfinished (.inr hreturned), hqueue, hheld] at hplaces

end Runs

/-- One connection is accepted, handed to the only worker and closed, then the
server stops. -/
def serveThenStop : List ServerAction :=
  [.accept .connection 0, .accept .connection 0, .accept .connection 0, .accept .connection 0,
    .accept .connection 0, .worker 0 true, .worker 0 true, .worker 0 true, .worker 0 true,
    .worker 0 false, .worker 0 true, .stop, .stop, .stop, .stop, .accept .failed 0, .worker 0 true,
    .worker 0 true, .worker 0 true, .worker 0 true, .stop, .stop, .stop]

theorem serveThenStop_conserves :
    ∃ s history, (serverThreads 1).runFrom (serverThreads 1).init serveThenStop =
        some (s, history) ∧ s.stop = .returned ∧ s.accepted = 1 ∧
      s.queue.length ≤ kMaxPending ∧ s.places.Perm (List.range s.accepted) ∧ s.closed.Nodup ∧
      (s.stop = .returned → s.queue = [] ∧ s.closed.Perm (List.range s.accepted)) := by
  have hruns : ((serverThreads 1).runFrom (serverThreads 1).init serveThenStop).map
      (fun result => (result.1.stop, result.1.accepted)) = some (.returned, 1) := by decide
  obtain ⟨⟨s, history⟩, hrun, hview⟩ := Option.map_eq_some_iff.mp hruns
  obtain ⟨hreturned, haccepted⟩ := Prod.mk.inj hview
  have hguarded : (serverThreads 1).Guarded PushesToWorker (serverThreads 1).init
      serveThenStop := by
    decide
  exact ⟨s, history, hrun, hreturned, haccepted,
    accepted_conserved (.runGuarded .init hguarded hrun)⟩

/-- The worker leaves while the accept thread still holds a connection. -/
def pushAfterLeaving : List ServerAction :=
  [.accept .connection 0, .accept .connection 0, .stop, .stop, .stop, .stop, .worker 0 true,
    .worker 0 true, .worker 0 true, .worker 0 true, .accept .failed 0, .accept .failed 0,
    .accept .failed 0, .accept .failed 0, .stop, .stop, .stop]

/-- A connection can be left in the queue, never closed. -/
theorem pushAfterLeaving_loses :
    ¬ ∀ (workerThreads : Nat) (history : List Unit) (s : ServerState),
      (serverThreads workerThreads).Reachable history s →
        s.queue.length ≤ kMaxPending ∧ s.places.Perm (List.range s.accepted) ∧ s.closed.Nodup ∧
          (s.stop = .returned → s.queue = []) := by
  intro hclaim
  have hruns : ((serverThreads 1).runFrom (serverThreads 1).init pushAfterLeaving).map
      (fun result => (result.1.stop, result.1.queue, result.1.closed)) =
      some (.returned, [0], []) := by decide
  obtain ⟨⟨s, history⟩, hrun, hview⟩ := Option.map_eq_some_iff.mp hruns
  simp only [Prod.mk.injEq] at hview
  obtain ⟨hreturned, hqueue, _⟩ := hview
  have hempty := (hclaim 1 history s (Machine.reachable_of_runFrom hrun)).2.2.2 hreturned
  rw [hqueue] at hempty
  contradiction

end SimVision.AdminServer
