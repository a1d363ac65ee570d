import SimVision.App.AnswerLog
import SimVision.App.CameraSetting
import SimVision.Data.DrainRace

/-! # Stopping the process

After a signal `main` stops the server, then the capture engine, drains the pipeline
while the publisher still pops, stops the publisher and saves the parameters. The order
decides what is true at the end: no thread is left that could push a frame or set a
parameter when the queues are drained and the file is written. The context is destroyed
before the publisher, whose destructor closes the sockets of the context.
-/

namespace SimVision

open Foundation CommandHandler

/-! ## The threads -/

/-- The next statement of `main`, from its wait for a signal on. -/
inductive MainPc where
  | serving
  | stopsServer
  | joinsServer
  | stopsEngine
  | joinsEngine
  | drains
  | draining
  | stopsPublisher
  | joinsPublisher
  | saves
  | destroysContext
  | destroysLocals
  | finished
  deriving DecidableEq

/-- How many statements are behind `main`. -/
def MainPc.position : MainPc → Nat
  | serving => 0
  | stopsServer => 1
  | joinsServer => 2
  | stopsEngine => 3
  | joinsEngine => 4
  | drains => 5
  | draining => 6
  | stopsPublisher => 7
  | joinsPublisher => 8
  | saves => 9
  | destroysContext => 10
  | destroysLocals => 11
  | finished => 12

theorem MainPc.eq_of_position {first second : MainPc}
    (heq : first.position = second.position) : first = second := by
  cases first <;> cases second <;> first | rfl | exact absurd heq (by decide)

/-- Calls into the libraries at the end of `main`: the text `dump(2)` of the settings, and
whether `zmq_ctx_destroy` returns, by whether sockets of the context are open. -/
structure NodeCalls where
  dump : Json → Except Bytes Bytes
  ctxDestroyReturns : Bool → Bool

/-- `zmq_ctx_destroy` waits until every socket of the context is closed. -/
def NodeCalls.WaitsForSockets (calls : NodeCalls) : Prop :=
  calls.ctxDestroyReturns true = false

/-- The flags `running_` of the three components, the threads that have not returned,
whether the publisher has its sockets, and what the threads share. -/
structure NodeState where
  pipe : PipelineState ChannelFrame
  params : ParameterManager
  file : Option Bytes
  serverRunning : Bool := true
  engineRunning : Bool := true
  publisherRunning : Bool := true
  working : Nat → Bool
  capturing : Bool := true
  publishing : Bool := true
  socketsOpen : Bool := true
  main : MainPc := .serving

inductive NodeAction where
  /-- A step of a thread on the queues. -/
  | pipe (action : PipelineAction ChannelFrame)
  /-- A worker answers a `set_parameter`. -/
  | setParameter (worker : Nat) (body : Json) (clientId : Bytes)
  | workerReturns (worker : Nat)
  | captureReturns
  | publisherReturns
  | main

namespace NodeState

variable (lib : JsonLibrary) (calls : NodeCalls) (workers : Nat)

/-- The thread of a step on the queues has not returned. `main` drains as the consumer
that comes after the workers. -/
def live (s : NodeState) : PipelineAction ChannelFrame → Bool
  | .callPush _ _ => s.capturing
  | .capture => s.capturing
  | .callPopAll => s.publishing
  | .callDrain n => n < workers && s.working n
  | .callDrainGroup n _ => n < workers && s.working n
  | .consumer .publisher => s.publishing
  | .consumer (.worker n) => n = workers || (n < workers && s.working n)

/-- `main` goes on. A join waits for the threads it names. -/
def advance (s : NodeState) : Option NodeState :=
  match s.main with
  | .serving => some { s with main := .stopsServer }
  | .stopsServer => some { s with serverRunning := false, main := .joinsServer }
  | .joinsServer =>
      if ∀ n < workers, s.working n = false then some { s with main := .stopsEngine } else none
  | .stopsEngine => some { s with engineRunning := false, main := .joinsEngine }
  | .joinsEngine => if s.capturing then none else some { s with main := .drains }
  | .drains => (s.pipe.step (.callDrain workers)).map fun result =>
      { s with pipe := result.1, main := .draining }
  | .draining =>
      if (s.pipe.consumers (.worker workers)).isNone then some { s with main := .stopsPublisher }
      else none
  | .stopsPublisher => some { s with publisherRunning := false, main := .joinsPublisher }
  | .joinsPublisher => if s.publishing then none else some { s with main := .saves }
  | .saves =>
      some { s with
        file := some (saveCameraSetting calls.dump s.params), main := .destroysContext }
  | .destroysContext =>
      if calls.ctxDestroyReturns s.socketsOpen then some { s with main := .destroysLocals }
      else none
  -- `~DataPublisher` closes the sockets, after the `return` of `main`
  | .destroysLocals => some { s with socketsOpen := false, main := .finished }
  | .finished => none

/-- One step of one thread. A thread may return between two calls once its flag is
cleared. -/
def step (s : NodeState) : NodeAction → Option (NodeState × List LogEntry)
  | .pipe action =>
      if s.live workers action then
        (s.pipe.step action).map fun result => ({ s with pipe := result.1 }, [])
      else none
  | .setParameter n body clientId =>
      if n < workers ∧ s.working n = true ∧ (s.pipe.consumers (.worker n)).isNone = true then
        match cmdSetParameter lib { params := s.params, pipeline := s.pipe.pipeline } body with
        | .error _ => none
        | .ok (next, r) => some ({ s with params := next.params },
            [(.command ⟨lit "set_parameter", body, clientId⟩, r)])
      else none
  | .workerReturns n =>
      if n < workers ∧ s.working n = true ∧ s.serverRunning = false ∧
          (s.pipe.consumers (.worker n)).isNone = true then
        some ({ s with working := Function.update s.working n false }, [])
      else none
  | .captureReturns =>
      if s.capturing = true ∧ s.engineRunning = false ∧ s.pipe.capture.isNone = true then
        some ({ s with capturing := false }, [])
      else none
  | .publisherReturns =>
      if s.publishing = true ∧ s.publisherRunning = false ∧
          (s.pipe.consumers .publisher).isNone = true then
        some ({ s with publishing := false }, [])
      else none
  | .main => (s.advance calls workers).map fun next => (next, [])

end NodeState

/-- The process after its start, with an answer for each parameter that is set. -/
def node (lib : JsonLibrary) (calls : NodeCalls) (workers : Nat) (cfg : Config)
    (params : ParameterManager) (file : Option Bytes) :
    Machine NodeState NodeAction LogEntry where
  init :=
    { pipe := (pipeline ChannelFrame (sizeOfInt cfg.spsc.queueSize)).init
      params := params
      file := file
      working := fun n => n < workers }
  step := NodeState.step lib calls workers

/-! ## What the threads leave alone -/

namespace PipelineState

variable {α : Type} {s next : PipelineState α} {events : List (DataGroup × QueueEvent α)}

/-- The consumer that takes a step, with `none` for the capture thread. -/
def actor : PipelineAction α → Option Consumer
  | .callPush _ _ => none
  | .capture => none
  | .callPopAll => some .publisher
  | .callDrain n => some (.worker n)
  | .callDrainGroup n _ => some (.worker n)
  | .consumer consumer => some consumer

theorem begin_frame {consumer : Consumer} {pc : ConsumerPc α}
    (hbegin : s.begin consumer pc = some (next, events)) :
    next.capture = s.capture ∧
      ∀ other, other ≠ consumer → next.consumers other = s.consumers other := by
  unfold begin at hbegin
  cases hidle : s.consumers consumer with
  | some busy =>
      rw [hidle] at hbegin
      contradiction
  | none =>
      rw [hidle] at hbegin
      obtain ⟨rfl, -⟩ := Prod.mk.inj (Option.some.inj hbegin)
      exact ⟨rfl, fun other hne => Function.update_of_ne hne _ _⟩

/-- A step moves one thread. -/
theorem step_frame {action : PipelineAction α} (hstep : s.step action = some (next, events)) :
    (actor action ≠ none → next.capture = s.capture) ∧
      ∀ other, actor action ≠ some other → next.consumers other = s.consumers other := by
  cases action with
  | callPush group frame =>
      refine ⟨fun hactor => absurd rfl hactor, fun other _ => ?_⟩
      simp only [step] at hstep
      cases hcapture : s.capture with
      | some pc =>
          rw [hcapture] at hstep
          contradiction
      | none =>
          rw [hcapture] at hstep
          rw [← (Prod.mk.inj (Option.some.inj hstep)).1]
  | capture =>
      refine ⟨fun hactor => absurd rfl hactor, fun other _ => ?_⟩
      simp only [step] at hstep
      cases hcapture : s.capture with
      | none =>
          rw [hcapture] at hstep
          contradiction
      | some pc =>
          rw [hcapture] at hstep
          cases pc with
          | pushing group pc => rw [← (Prod.mk.inj (Option.some.inj hstep)).1]
          | notifying => rw [← (Prod.mk.inj (Option.some.inj hstep)).1]
  | callPopAll =>
      obtain ⟨hcapture, hothers⟩ := begin_frame hstep
      exact ⟨fun _ => hcapture, fun other hne =>
        hothers other fun heq => hne (congrArg some heq.symm)⟩
  | callDrain n =>
      obtain ⟨hcapture, hothers⟩ := begin_frame hstep
      exact ⟨fun _ => hcapture, fun other hne =>
        hothers other fun heq => hne (congrArg some heq.symm)⟩
  | callDrainGroup n group =>
      obtain ⟨hcapture, hothers⟩ := begin_frame hstep
      exact ⟨fun _ => hcapture, fun other hne =>
        hothers other fun heq => hne (congrArg some heq.symm)⟩
  | consumer consumer =>
      simp only [step] at hstep
      cases hpc : s.consumers consumer with
      | none =>
          rw [hpc] at hstep
          contradiction
      | some pc =>
          rw [hpc] at hstep
          dsimp only at hstep
          cases hloop : pc.loop? with
          | none =>
              rw [hloop] at hstep
              obtain ⟨rfl, -⟩ := Prod.mk.inj (Option.some.inj hstep)
              exact ⟨fun _ => rfl, fun other hne =>
                Function.update_of_ne (fun heq => hne (congrArg some heq.symm)) _ _⟩
          | some loop =>
              rw [hloop] at hstep
              obtain ⟨rfl, -⟩ := Prod.mk.inj (Option.some.inj hstep)
              exact ⟨fun _ => rfl, fun other hne =>
                Function.update_of_ne (fun heq => hne (congrArg some heq.symm)) _ _⟩

end PipelineState

/-! ## The order of the stops -/

/-- What the statement before has waited for or brought about when `main` comes to one. -/
def NodeState.Entry (calls : NodeCalls) (workers : Nat) (s : NodeState) : MainPc → Prop
  | .stopsEngine => ∀ n < workers, s.working n = false
  | .drains => s.capturing = false
  | .draining => ∀ group, s.pipe.Watched group
  | .saves => s.publishing = false
  | .destroysContext => s.file = some (saveCameraSetting calls.dump s.params)
  | .destroysLocals => calls.ctxDestroyReturns true = true
  | _ => True

/-- What holds along every run of the process, by how far `main` has come. -/
structure NodeInv (calls : NodeCalls) (workers : Nat) (start : ParameterManager)
    (file : Option Bytes) (log : List LogEntry) (s : NodeState) : Prop where
  params : ∀ name, s.params.get name = loggedParameter start name log
  rewritten : RewrittenAll start s.params
  captureDone : s.capturing = false → s.pipe.capture = none
  publisherDone : s.publishing = false → s.pipe.consumers .publisher = none
  workerDone : ∀ n < workers, s.working n = false → s.pipe.consumers (.worker n) = none
  others : ∀ n > workers, s.pipe.consumers (.worker n) = none
  mainIdle : s.main ≠ .draining → s.pipe.consumers (.worker workers) = none
  entry : ∀ pc : MainPc, pc.position ≤ s.main.position → s.Entry calls workers pc
  socketsOpen : s.main.position ≤ MainPc.destroysLocals.position → s.socketsOpen = true
  unsaved : s.main.position < MainPc.destroysContext.position → s.file = file

section Invariant

variable {lib : JsonLibrary} {calls : NodeCalls} {workers : Nat} {start : ParameterManager}
  {file : Option Bytes} {log entries : List LogEntry} {s next : NodeState}

/-- Who may take a step on the queues. -/
theorem NodeState.live_actor {action : PipelineAction ChannelFrame}
    (hlive : s.live workers action = true) :
    (PipelineState.actor action = none → s.capturing = true) ∧
      (PipelineState.actor action = some .publisher → s.publishing = true) ∧
      ∀ n, PipelineState.actor action = some (.worker n) →
        n < workers ∧ s.working n = true ∨ n = workers ∧ action = .consumer (.worker workers) := by
  have hworker : ∀ n m, (decide (n < workers) && s.working n) = true →
      some (Consumer.worker n) = some (.worker m) → m < workers ∧ s.working m = true := by
    intro n m hworks heq
    obtain rfl := Consumer.worker.inj (Option.some.inj heq)
    obtain ⟨hlt, hworking⟩ := Bool.and_eq_true_iff.mp hworks
    exact ⟨of_decide_eq_true hlt, hworking⟩
  cases action with
  | callPush group frame =>
      exact ⟨fun _ => hlive, fun heq => by contradiction, fun n heq => by contradiction⟩
  | capture => exact ⟨fun _ => hlive, fun heq => by contradiction, fun n heq => by contradiction⟩
  | callPopAll =>
      refine ⟨fun heq => by contradiction, fun _ => hlive, fun n heq => ?_⟩
      exact Consumer.noConfusion (Option.some.inj heq)
  | callDrain n =>
      refine ⟨fun heq => by contradiction, fun heq => ?_, fun m heq => .inl (hworker n m hlive heq)⟩
      exact Consumer.noConfusion (Option.some.inj heq)
  | callDrainGroup n group =>
      refine ⟨fun heq => by contradiction, fun heq => ?_, fun m heq => .inl (hworker n m hlive heq)⟩
      exact Consumer.noConfusion (Option.some.inj heq)
  | consumer consumer =>
      refine ⟨fun heq => by contradiction, fun heq => ?_, fun m heq => ?_⟩
      · obtain rfl := Option.some.inj heq
        exact hlive
      · obtain rfl := Option.some.inj heq
        rcases Bool.or_eq_true_iff.mp hlive with hmain | hworks
        · obtain rfl := of_decide_eq_true hmain
          exact .inr ⟨rfl, rfl⟩
        · exact .inl (hworker m m hworks rfl)

/-- A step on the queues keeps the invariant: a thread that has returned takes none. -/
theorem NodeInv.pipe (hinv : NodeInv calls workers start file log s)
    {action : PipelineAction ChannelFrame} (hlive : s.live workers action = true)
    {pipe : PipelineState ChannelFrame} {events : List (DataGroup × QueueEvent ChannelFrame)}
    (hstep : s.pipe.step action = some (pipe, events)) :
    NodeInv calls workers start file log { s with pipe := pipe } := by
  obtain ⟨hcapture, hconsumers⟩ := PipelineState.step_frame hstep
  obtain ⟨hcapturing, hpublishing, hworking⟩ := NodeState.live_actor hlive
  have hidle : s.capturing = false → pipe.capture = none := by
    intro hdone
    have hactor : PipelineState.actor action ≠ none := fun hnone =>
      Bool.false_ne_true (hdone.symm.trans (hcapturing hnone))
    exact (hcapture hactor).trans (hinv.captureDone hdone)
  constructor
  case params => exact hinv.params
  case rewritten => exact hinv.rewritten
  case captureDone => exact hidle
  case publisherDone =>
    intro hdone
    refine (hconsumers _ fun hactor => ?_).trans (hinv.publisherDone hdone)
    exact Bool.false_ne_true (hdone.symm.trans (hpublishing hactor))
  case workerDone =>
    intro n hn hdone
    refine (hconsumers _ fun hactor => ?_).trans (hinv.workerDone n hn hdone)
    rcases hworking n hactor with ⟨-, hworks⟩ | ⟨rfl, -⟩
    · exact Bool.false_ne_true (hdone.symm.trans hworks)
    · exact Nat.lt_irrefl n hn
  case others =>
    intro n hn
    refine (hconsumers _ fun hactor => ?_).trans (hinv.others n hn)
    rcases hworking n hactor with ⟨hlt, -⟩ | ⟨rfl, -⟩
    · exact Nat.lt_asymm hn hlt
    · exact Nat.lt_irrefl n hn
  case mainIdle =>
    intro hmain
    have hnone := hinv.mainIdle hmain
    refine (hconsumers _ fun hactor => ?_).trans hnone
    rcases hworking workers hactor with ⟨hlt, -⟩ | ⟨-, rfl⟩
    · exact Nat.lt_irrefl workers hlt
    · simp only [PipelineState.step] at hstep
      rw [hnone] at hstep
      contradiction
  case entry =>
    intro pc hle
    have hbefore := hinv.entry pc hle
    cases pc with
    | draining =>
        intro group
        have hdone : s.capturing = false := hinv.entry .drains (Nat.le_trans (Nat.le_succ _) hle)
        have hquiet : ¬ PipelineState.Pushes action := by
          cases action with
          | callPush target frame =>
              exact fun _ => Bool.false_ne_true (hdone.symm.trans (hcapturing rfl))
          | capture => exact id
          | callPopAll => exact id
          | callDrain n => exact id
          | callDrainGroup n target => exact id
          | consumer consumer => exact id
        exact (PipelineState.step_watched hquiet (hinv.captureDone hdone) (hbefore group) hstep).2
    | _ => exact hbefore
  case socketsOpen => exact hinv.socketsOpen
  case unsaved => exact hinv.unsaved

/-- A worker that answers has not returned, so `main` has not come past the server. -/
theorem NodeInv.setParameter (hinv : NodeInv calls workers start file log s) {n : Nat}
    (hn : n < workers) (hworks : s.working n = true) {body : Json} {clientId : Bytes}
    {service : Service} {r : Response}
    (hcmd : cmdSetParameter lib { params := s.params, pipeline := s.pipe.pipeline } body =
      .ok (service, r)) :
    NodeInv calls workers start file
      (log ++ [(.command ⟨lit "set_parameter", body, clientId⟩, r)])
      { s with params := service.params } where
  params name := by
    have htells := AnswerTells.of_handled (q := ⟨lit "set_parameter", body, clientId⟩)
      (.setParameter hcmd)
    rw [htells.params, hinv.params, loggedParameter_append]
  rewritten := by
    cases cmdSetParameter_returns hcmd with
    | missing => exact hinv.rewritten
    | unknown => exact hinv.rewritten
    | refused => exact hinv.rewritten
    | stored _ _ _ _ hset => exact hinv.rewritten.setValue hset
  captureDone := hinv.captureDone
  publisherDone := hinv.publisherDone
  workerDone := hinv.workerDone
  others := hinv.others
  mainIdle := hinv.mainIdle
  entry pc hle := by
    have hbefore := hinv.entry pc hle
    cases pc with
    | destroysContext =>
        have hreturned : ∀ n < workers, s.working n = false :=
          hinv.entry .stopsEngine (Nat.le_trans (by decide) hle)
        exact absurd ((hreturned n hn).symm.trans hworks) Bool.false_ne_true
    | _ => exact hbefore
  socketsOpen := hinv.socketsOpen
  unsaved := hinv.unsaved

/-! ### The returns of the threads -/

/-- `main` has not joined a worker that is still to return. -/
theorem NodeInv.workerReturns (hinv : NodeInv calls workers start file log s) {n : Nat}
    (hn : n < workers) (hworks : s.working n = true)
    (hidle : s.pipe.consumers (.worker n) = none) :
    NodeInv calls workers start file log
      { s with working := Function.update s.working n false } := by
  refine { hinv with
    workerDone := fun m hm hdone => ?_
    entry := fun pc hle => ?_ }
  · by_cases heq : m = n
    · exact heq ▸ hidle
    · exact hinv.workerDone m hm ((Function.update_of_ne heq _ _).symm.trans hdone)
  · have hbefore := hinv.entry pc hle
    cases pc with
    | stopsEngine => exact absurd ((hbefore n hn).symm.trans hworks) Bool.false_ne_true
    | _ => exact hbefore

theorem NodeInv.captureReturns (hinv : NodeInv calls workers start file log s)
    (hidle : s.pipe.capture = none) :
    NodeInv calls workers start file log { s with capturing := false } := by
  refine { hinv with
    captureDone := fun _ => hidle
    entry := fun pc hle => ?_ }
  have hbefore := hinv.entry pc hle
  cases pc with
  | drains => rfl
  | _ => exact hbefore

theorem NodeInv.publisherReturns (hinv : NodeInv calls workers start file log s)
    (hidle : s.pipe.consumers .publisher = none) :
    NodeInv calls workers start file log { s with publishing := false } := by
  refine { hinv with
    publisherDone := fun _ => hidle
    entry := fun pc hle => ?_ }
  have hbefore := hinv.entry pc hle
  cases pc with
  | saves => rfl
  | _ => exact hbefore

/-! ### The statements of `main` -/

/-- The assertions up to the next statement are those up to this one, and its own. -/
theorem NodeInv.entry_next (hinv : NodeInv calls workers start file log s) (pc : MainPc)
    (hnext : pc.position = s.main.position + 1) (hentry : s.Entry calls workers pc)
    {other : MainPc} (hle : other.position ≤ pc.position) : s.Entry calls workers other := by
  rcases Nat.lt_or_eq_of_le hle with hlt | heq
  · exact hinv.entry other (by omega)
  · rwa [MainPc.eq_of_position heq]

/-- `main` goes on to a statement before the last two, at which the pipeline is left alone. -/
theorem NodeInv.goesOn (hinv : NodeInv calls workers start file log s) (pc : MainPc)
    (server engine publisher : Bool) (hnext : pc.position = s.main.position + 1)
    (hbefore : pc.position < MainPc.destroysContext.position)
    (hidle : s.pipe.consumers (.worker workers) = none) (hentry : s.Entry calls workers pc) :
    NodeInv calls workers start file log { s with
      serverRunning := server
      engineRunning := engine
      publisherRunning := publisher
      main := pc } where
  params := hinv.params
  rewritten := hinv.rewritten
  captureDone := hinv.captureDone
  publisherDone := hinv.publisherDone
  workerDone := hinv.workerDone
  others := hinv.others
  mainIdle _ := hidle
  entry other hle := by
    have hother := hinv.entry_next pc hnext hentry hle
    cases other <;> exact hother
  socketsOpen _ := by
    have hle : MainPc.destroysContext.position ≤ MainPc.destroysLocals.position := by decide
    exact hinv.socketsOpen (by omega)
  unsaved _ := hinv.unsaved (by omega)

section Statements

variable (hinv : NodeInv calls workers start file log s)
  (hstep : s.advance calls workers = some next)

include hinv hstep

theorem NodeInv.serving (hmain : s.main = .serving) :
    NodeInv calls workers start file log next := by
  rw [NodeState.advance, hmain] at hstep
  obtain rfl := Option.some.inj hstep
  have hidle := hinv.mainIdle (hmain ▸ MainPc.noConfusion)
  exact hinv.goesOn .stopsServer _ _ _ (by rw [hmain]; rfl) (by decide) hidle trivial

theorem NodeInv.stopsServer (hmain : s.main = .stopsServer) :
    NodeInv calls workers start file log next := by
  rw [NodeState.advance, hmain] at hstep
  obtain rfl := Option.some.inj hstep
  have hidle := hinv.mainIdle (hmain ▸ MainPc.noConfusion)
  exact hinv.goesOn .joinsServer _ _ _ (by rw [hmain]; rfl) (by decide) hidle trivial

theorem NodeInv.joinsServer (hmain : s.main = .joinsServer) :
    NodeInv calls workers start file log next := by
  rw [NodeState.advance, hmain] at hstep
  dsimp only at hstep
  split at hstep
  next hreturned =>
    obtain rfl := Option.some.inj hstep
    have hidle := hinv.mainIdle (hmain ▸ MainPc.noConfusion)
    exact hinv.goesOn .stopsEngine _ _ _ (by rw [hmain]; rfl) (by decide) hidle hreturned
  next => contradiction

theorem NodeInv.stopsEngine (hmain : s.main = .stopsEngine) :
    NodeInv calls workers start file log next := by
  rw [NodeState.advance, hmain] at hstep
  obtain rfl := Option.some.inj hstep
  have hidle := hinv.mainIdle (hmain ▸ MainPc.noConfusion)
  exact hinv.goesOn .joinsEngine _ _ _ (by rw [hmain]; rfl) (by decide) hidle trivial

theorem NodeInv.joinsEngine (hmain : s.main = .joinsEngine) :
    NodeInv calls workers start file log next := by
  rw [NodeState.advance, hmain] at hstep
  dsimp only at hstep
  split at hstep
  next => contradiction
  next hcapturing =>
    obtain rfl := Option.some.inj hstep
    have hidle := hinv.mainIdle (hmain ▸ MainPc.noConfusion)
    exact hinv.goesOn .drains _ _ _ (by rw [hmain]; rfl) (by decide) hidle
      (Bool.eq_false_iff.mpr hcapturing)

/-- The drain begins to watch every queue, when nobody pushes any more. -/
theorem NodeInv.drains (hmain : s.main = .drains) :
    NodeInv calls workers start file log next := by
  rw [NodeState.advance, hmain] at hstep
  obtain ⟨⟨pipe, events⟩, hdrain, rfl⟩ := Option.map_eq_some_iff.mp hstep
  obtain ⟨hcapture, hothers⟩ := PipelineState.begin_frame hdrain
  have hposition : s.main.position = MainPc.drains.position := congrArg _ hmain
  constructor
  case params => exact hinv.params
  case rewritten => exact hinv.rewritten
  case captureDone => exact fun hdone => hcapture.trans (hinv.captureDone hdone)
  case publisherDone =>
    exact fun hdone => (hothers _ Consumer.noConfusion).trans (hinv.publisherDone hdone)
  case workerDone =>
    intro n hn hdone
    refine (hothers _ fun heq => ?_).trans (hinv.workerDone n hn hdone)
    exact Nat.ne_of_lt hn (Consumer.worker.inj heq)
  case others =>
    intro n hn
    refine (hothers _ fun heq => ?_).trans (hinv.others n hn)
    exact Nat.ne_of_gt hn (Consumer.worker.inj heq)
  case mainIdle => exact fun hne => absurd rfl hne
  case entry =>
    intro pc hle
    rcases Nat.lt_or_eq_of_le hle with hlt | heq
    · have hbefore := hinv.entry pc (hposition ▸ Nat.le_of_lt_succ hlt)
      cases pc with
      | draining => exact absurd hlt (Nat.lt_irrefl _)
      | _ => exact hbefore
    · obtain rfl : pc = .draining := MainPc.eq_of_position heq
      exact fun group => (PipelineState.callDrain_watched hdrain group).2
  case socketsOpen => exact fun _ => hinv.socketsOpen (by rw [hposition]; decide)
  case unsaved => exact fun _ => hinv.unsaved (by rw [hposition]; decide)

theorem NodeInv.draining (hmain : s.main = .draining) :
    NodeInv calls workers start file log next := by
  rw [NodeState.advance, hmain] at hstep
  dsimp only at hstep
  split at hstep
  next hreturned =>
    obtain rfl := Option.some.inj hstep
    exact hinv.goesOn .stopsPublisher _ _ _ (by rw [hmain]; rfl) (by decide)
      (Option.isNone_iff_eq_none.mp hreturned) trivial
  next => contradiction

theorem NodeInv.stopsPublisher (hmain : s.main = .stopsPublisher) :
    NodeInv calls workers start file log next := by
  rw [NodeState.advance, hmain] at hstep
  obtain rfl := Option.some.inj hstep
  have hidle := hinv.mainIdle (hmain ▸ MainPc.noConfusion)
  exact hinv.goesOn .joinsPublisher _ _ _ (by rw [hmain]; rfl) (by decide) hidle trivial

theorem NodeInv.joinsPublisher (hmain : s.main = .joinsPublisher) :
    NodeInv calls workers start file log next := by
  rw [NodeState.advance, hmain] at hstep
  dsimp only at hstep
  split at hstep
  next => contradiction
  next hpublishing =>
    obtain rfl := Option.some.inj hstep
    have hidle := hinv.mainIdle (hmain ▸ MainPc.noConfusion)
    exact hinv.goesOn .saves _ _ _ (by rw [hmain]; rfl) (by decide) hidle
      (Bool.eq_false_iff.mpr hpublishing)

/-- From here on the file holds the parameters, which no worker is left to change. -/
theorem NodeInv.saves (hmain : s.main = .saves) :
    NodeInv calls workers start file log next := by
  rw [NodeState.advance, hmain] at hstep
  obtain rfl := Option.some.inj hstep
  have hposition : s.main.position = MainPc.saves.position := congrArg _ hmain
  refine { hinv with
    mainIdle := fun _ => hinv.mainIdle (hmain ▸ MainPc.noConfusion)
    entry := fun pc hle => ?_
    socketsOpen := fun _ => hinv.socketsOpen (by rw [hposition]; decide)
    unsaved := fun hlt => absurd hlt (Nat.lt_irrefl _) }
  rcases Nat.lt_or_eq_of_le hle with hlt | heq
  · have hbefore := hinv.entry pc (hposition ▸ Nat.le_of_lt_succ hlt)
    cases pc with
    | destroysContext => exact absurd hlt (Nat.lt_irrefl _)
    | _ => exact hbefore
  · obtain rfl : pc = .destroysContext := MainPc.eq_of_position heq
    rfl

/-- The sockets are open, so the call has returned although they are. -/
theorem NodeInv.destroysContext (hmain : s.main = .destroysContext) :
    NodeInv calls workers start file log next := by
  have hposition : s.main.position = MainPc.destroysContext.position := congrArg _ hmain
  have hpast : ¬ MainPc.destroysLocals.position < MainPc.destroysContext.position := by decide
  have hopen := hinv.socketsOpen (by rw [hposition]; decide)
  rw [NodeState.advance, hmain] at hstep
  dsimp only at hstep
  split at hstep
  next hreturns =>
    obtain rfl := Option.some.inj hstep
    rw [hopen] at hreturns
    refine { hinv with
      mainIdle := fun _ => hinv.mainIdle (hmain ▸ MainPc.noConfusion)
      entry := fun pc hle => ?_
      socketsOpen := fun _ => hopen
      unsaved := fun hlt => absurd hlt hpast }
    have hentry := hinv.entry_next .destroysLocals (by rw [hposition]; rfl) hreturns hle
    cases pc <;> exact hentry
  next => contradiction

theorem NodeInv.destroysLocals (hmain : s.main = .destroysLocals) :
    NodeInv calls workers start file log next := by
  rw [NodeState.advance, hmain] at hstep
  obtain rfl := Option.some.inj hstep
  have hposition : s.main.position = MainPc.destroysLocals.position := congrArg _ hmain
  have hpast : ¬ MainPc.finished.position ≤ MainPc.destroysLocals.position := by decide
  have hsaved : ¬ MainPc.finished.position < MainPc.destroysContext.position := by decide
  refine { hinv with
    mainIdle := fun _ => hinv.mainIdle (hmain ▸ MainPc.noConfusion)
    entry := fun pc hle => ?_
    socketsOpen := fun hle => absurd hle hpast
    unsaved := fun hlt => absurd hlt hsaved }
  have hentry := hinv.entry_next .finished (by rw [hposition]; rfl) trivial hle
  cases pc <;> exact hentry

/-- Every statement of `main` keeps the invariant. -/
theorem NodeInv.advance : NodeInv calls workers start file log next := by
  cases hmain : s.main with
  | serving => exact hinv.serving hstep hmain
  | stopsServer => exact hinv.stopsServer hstep hmain
  | joinsServer => exact hinv.joinsServer hstep hmain
  | stopsEngine => exact hinv.stopsEngine hstep hmain
  | joinsEngine => exact hinv.joinsEngine hstep hmain
  | drains => exact hinv.drains hstep hmain
  | draining => exact hinv.draining hstep hmain
  | stopsPublisher => exact hinv.stopsPublisher hstep hmain
  | joinsPublisher => exact hinv.joinsPublisher hstep hmain
  | saves => exact hinv.saves hstep hmain
  | destroysContext => exact hinv.destroysContext hstep hmain
  | destroysLocals => exact hinv.destroysLocals hstep hmain
  | finished =>
      rw [NodeState.advance, hmain] at hstep
      contradiction

end Statements

/-- Every step of every thread keeps the invariant. -/
theorem NodeInv.step {action : NodeAction} (hinv : NodeInv calls workers start file log s)
    (hstep : s.step lib calls workers action = some (next, entries)) :
    NodeInv calls workers start file (log ++ entries) next := by
  cases action with
  | pipe action =>
      simp only [NodeState.step] at hstep
      split at hstep
      next hlive =>
        obtain ⟨⟨pipe, events⟩, hpipe, hnext⟩ := Option.map_eq_some_iff.mp hstep
        obtain ⟨rfl, rfl⟩ := Prod.mk.inj hnext
        rw [List.append_nil]
        exact hinv.pipe hlive hpipe
      next => contradiction
  | setParameter n body clientId =>
      simp only [NodeState.step] at hstep
      split at hstep
      next hcall =>
        cases hcmd : cmdSetParameter lib { params := s.params, pipeline := s.pipe.pipeline }
            body with
        | error what =>
            rw [hcmd] at hstep
            contradiction
        | ok answered =>
            rw [hcmd] at hstep
            obtain ⟨rfl, rfl⟩ := Prod.mk.inj (Option.some.inj hstep)
            exact hinv.setParameter hcall.1 hcall.2.1 hcmd
      next => contradiction
  | workerReturns n =>
      simp only [NodeState.step] at hstep
      split at hstep
      next hreturn =>
        obtain ⟨rfl, rfl⟩ := Prod.mk.inj (Option.some.inj hstep)
        rw [List.append_nil]
        exact hinv.workerReturns hreturn.1 hreturn.2.1
          (Option.isNone_iff_eq_none.mp hreturn.2.2.2)
      next => contradiction
  | captureReturns =>
      simp only [NodeState.step] at hstep
      split at hstep
      next hreturn =>
        obtain ⟨rfl, rfl⟩ := Prod.mk.inj (Option.some.inj hstep)
        rw [List.append_nil]
        exact hinv.captureReturns (Option.isNone_iff_eq_none.mp hreturn.2.2)
      next => contradiction
  | publisherReturns =>
      simp only [NodeState.step] at hstep
      split at hstep
      next hreturn =>
        obtain ⟨rfl, rfl⟩ := Prod.mk.inj (Option.some.inj hstep)
        rw [List.append_nil]
        exact hinv.publisherReturns (Option.isNone_iff_eq_none.mp hreturn.2.2)
      next => contradiction
  | main =>
      obtain ⟨advanced, hadvance, heq⟩ := Option.map_eq_some_iff.mp hstep
      obtain ⟨rfl, rfl⟩ := Prod.mk.inj heq
      rw [List.append_nil]
      exact hinv.advance hadvance

end Invariant

section Runs

variable {lib : JsonLibrary} {calls : NodeCalls} {workers : Nat} {cfg : Config}
  {params : ParameterManager} {file : Option Bytes} {guard : NodeState → NodeAction → Prop}
  {log : List LogEntry} {state : NodeState}

theorem NodeInv.of_reaches
    (hreach : (node lib calls workers cfg params file).Reaches guard log state) :
    NodeInv calls workers params file log state := by
  apply hreach.invariant fun log state => NodeInv calls workers params file log state
  · constructor
    case params => exact fun name => Option.map_id'.symm
    case rewritten => exact RewrittenAll.refl params
    case captureDone => exact fun _ => rfl
    case publisherDone => exact fun _ => rfl
    case workerDone => exact fun _ _ _ => rfl
    case others => exact fun _ _ => rfl
    case mainIdle => exact fun _ => rfl
    case entry =>
      intro pc hle
      obtain rfl : pc = .serving := MainPc.eq_of_position (Nat.le_zero.mp hle)
      trivial
    case socketsOpen => exact fun _ => rfl
    case unsaved => exact fun _ => rfl
  · exact fun log state action next entries _ hinv _ hstep => hinv.step hstep

/-- What is behind `main` when it destroys the context: no thread has work left, the
queues are empty, and the file holds the parameters. -/
theorem NodeInv.quiet (hinv : NodeInv calls workers params file log state)
    (hmain : state.main = .destroysContext) :
    (∀ n < workers, state.working n = false) ∧ state.capturing = false ∧
      state.publishing = false ∧ (∀ consumer, state.pipe.consumers consumer = none) ∧
      (∀ group, (state.pipe.pipeline.queues group).isEmpty = true) := by
  have hentry : ∀ pc : MainPc, pc.position ≤ MainPc.destroysContext.position →
      state.Entry calls workers pc := fun pc hle => hinv.entry pc (hmain ▸ hle)
  have hworking : ∀ n < workers, state.working n = false := hentry .stopsEngine (by decide)
  have hpublishing : state.publishing = false := hentry .saves (by decide)
  have hwatched : ∀ group, state.pipe.Watched group := hentry .draining (by decide)
  have hidle : ∀ consumer, state.pipe.consumers consumer = none := by
    intro consumer
    cases consumer with
    | publisher => exact hinv.publisherDone hpublishing
    | worker n =>
        rcases Nat.lt_trichotomy n workers with hlt | rfl | hgt
        · exact hinv.workerDone n hlt (hworking n hlt)
        · exact hinv.mainIdle (hmain ▸ MainPc.noConfusion)
        · exact hinv.others n hgt
  exact ⟨hworking, hentry .drains (by decide), hpublishing, hidle,
    fun group => (hwatched group).isEmpty hidle⟩

/-- Then no thread of the components can take a step. -/
theorem NodeInv.no_step (hinv : NodeInv calls workers params file log state)
    (hmain : state.main = .destroysContext) {action : NodeAction} (hother : action ≠ .main) :
    state.step lib calls workers action = none := by
  obtain ⟨hworking, hcapturing, hpublishing, hidle, -⟩ := hinv.quiet hmain
  cases action with
  | pipe action =>
      simp only [NodeState.step]
      split
      next hlive =>
        obtain ⟨hcapture, hpublisher, hworker⟩ := NodeState.live_actor hlive
        cases hactor : PipelineState.actor action with
        | none => exact absurd (hcapturing.symm.trans (hcapture hactor)) Bool.false_ne_true
        | some consumer =>
            cases consumer with
            | publisher =>
                exact absurd (hpublishing.symm.trans (hpublisher hactor)) Bool.false_ne_true
            | worker n =>
                rcases hworker n hactor with ⟨hlt, hworks⟩ | ⟨-, rfl⟩
                · exact absurd ((hworking n hlt).symm.trans hworks) Bool.false_ne_true
                · simp only [PipelineState.step, hidle, Option.map_none]
      next => rfl
  | setParameter n body clientId =>
      refine if_neg fun hcall => ?_
      exact Bool.false_ne_true ((hworking n hcall.1).symm.trans hcall.2.1)
  | workerReturns n =>
      refine if_neg fun hreturn => ?_
      exact Bool.false_ne_true ((hworking n hreturn.1).symm.trans hreturn.2.1)
  | captureReturns =>
      exact if_neg fun hreturn => Bool.false_ne_true (hcapturing.symm.trans hreturn.1)
  | publisherReturns =>
      exact if_neg fun hreturn => Bool.false_ne_true (hpublishing.symm.trans hreturn.1)
  | main => contradiction

/-- `main` never returns: it comes no further than to the destruction of the context.
There nothing is left of the run: every queue is empty, the file holds the settings that
the answers have reported last, and no thread can take a step. -/
theorem shutdown_waits (hwaits : calls.WaitsForSockets)
    (hreach : (node lib calls workers cfg params file).Reaches guard log state) :
    state.main.position ≤ MainPc.destroysContext.position ∧
      (state.main = .destroysContext →
        (∀ group, (state.pipe.pipeline.queues group).isEmpty = true) ∧
          (∀ name, state.params.get name = loggedParameter params name log) ∧
          state.file = some (saveCameraSetting calls.dump state.params) ∧
          ∀ action, state.step lib calls workers action = none) := by
  have hinv := NodeInv.of_reaches hreach
  refine ⟨?_, fun hmain => ⟨(hinv.quiet hmain).2.2.2.2, hinv.params, ?_, fun action => ?_⟩⟩
  · -- past the call it would have returned although the sockets are open
    by_contra hpast
    have hreturned : calls.ctxDestroyReturns true = true :=
      hinv.entry .destroysLocals (not_le.mp hpast)
    exact Bool.false_ne_true (hwaits.symm.trans hreturned)
  · exact hinv.entry .destroysContext (hmain ▸ le_rfl)
  · by_cases hother : action = .main
    · subst hother
      have hopen := hinv.socketsOpen (hmain ▸ (by decide))
      simp only [NodeState.step, NodeState.advance, hmain, hopen]
      rw [if_neg (Bool.eq_false_iff.mp hwaits)]
      rfl
    · exact hinv.no_step hmain hother

end Runs

/-- A stop whose drain takes that many steps, with one worker. -/
def stopSteps (drainSteps : Nat) : List NodeAction :=
  [.main, .main, .workerReturns 0, .main, .main, .captureReturns, .main, .main] ++
    List.replicate drainSteps (.pipe (.consumer (.worker 1))) ++
    [.main, .main, .publisherReturns, .main, .main]

/-- A worker sets the gain while a frame is in a queue, and `main` stops. -/
def gainThenStop : List NodeAction :=
  [.pipe (.callPush .visual2D { group := .visual2D })] ++ List.replicate 6 (.pipe .capture) ++
    [.setParameter 0 setGain.body (lit "A")] ++ stopSteps 11

/-- The calls as they are documented, with a given text for the settings. -/
def blockingCalls (dump : Json → Except Bytes Bytes) : NodeCalls where
  dump := dump
  ctxDestroyReturns := fun socketsOpen => !socketsOpen

theorem blockingCalls_waitsForSockets (dump : Json → Except Bytes Bytes) :
    (blockingCalls dump).WaitsForSockets :=
  rfl

theorem gainThenStop_waits :
    ∃ state log, (node .plain (blockingCalls JsonLibrary.plain.dump) 1 {}
        (registerParameters {} {}) none).runFrom
        (node .plain (blockingCalls JsonLibrary.plain.dump) 1 {}
          (registerParameters {} {}) none).init gainThenStop = some (state, log) ∧
      state.main = .destroysContext ∧
      state.main.position ≤ MainPc.destroysContext.position ∧
      (state.main = .destroysContext →
        (∀ group, (state.pipe.pipeline.queues group).isEmpty = true) ∧
          (∀ name, state.params.get name =
            loggedParameter (registerParameters {} {}) name log) ∧
          state.file = some (saveCameraSetting JsonLibrary.plain.dump state.params) ∧
          ∀ action, state.step .plain (blockingCalls JsonLibrary.plain.dump) 1 action = none) := by
  have hruns : ((node .plain (blockingCalls JsonLibrary.plain.dump) 1 {}
      (registerParameters {} {}) none).runFrom
      (node .plain (blockingCalls JsonLibrary.plain.dump) 1 {}
        (registerParameters {} {}) none).init gainThenStop).map
        (fun result => decide (result.1.main = .destroysContext)) = some true := by
    decide +kernel
  obtain ⟨⟨state, log⟩, hrun, hmain⟩ := Option.map_eq_some_iff.mp hruns
  exact ⟨state, log, hrun, of_decide_eq_true hmain,
    shutdown_waits (blockingCalls_waitsForSockets _) (Machine.reachable_of_runFrom hrun)⟩

end SimVision
