import SimVision.Api.CommandInterleaving
import SimVision.App.SerialService

/-! # Flushes beside the capture loop

A tick looks up what is active long before it pushes, and a departing command
removes subscriptions long before it drains. Here every lookup and push of a tick,
every call of a command and every `try_pop` of its drains is one step, in any
order.
-/

namespace SimVision

open Foundation CommandHandler

/-- Where the capture thread stands: the stamps of the tick and the groups still
to come. Inside `build_frame` it also has the types still to look up and those
found active. -/
inductive TickPhase where
  | idle
  | checks (tsSec tsNsec : Int) (groups : List DataGroup)
  | reads (tsSec tsNsec : Int) (groups : List DataGroup) (g : DataGroup)
      (types seen : List DataType)
  | pushes (tsSec tsNsec : Int) (groups : List DataGroup) (frame : ChannelFrame)

/-- The group of the frame that is about to be pushed. -/
def TickPhase.pushing? : TickPhase → Option DataGroup
  | .pushes _ _ _ frame => some frame.group
  | _ => none

namespace CommandPhase

/-- The command is draining. -/
def drains : CommandPhase → Bool
  | disconnectDrains => true
  | stopDrains _ => true
  | _ => false

/-- The command looks for a subscriber of anything. -/
def polls : CommandPhase → Bool
  | disconnectPolls => true
  | stopPolls _ => true
  | _ => false

/-- The command is bound to look for a subscriber, and to drain if there is none. -/
def departs : CommandPhase → Bool
  | disconnectUnsubscribes _ => true
  | disconnectErases _ => true
  | disconnectPolls => true
  | stopUnsubscribes _ _ => true
  | stopPolls _ => true
  | _ => false

end CommandPhase

/-- The stores, the capture thread and one worker with the queues it has still to
empty. Of the last two members, which nothing reads, `flushed` says that a
departing command has begun to drain or has returned, and `quiet` that one has
returned and nothing has been active since. -/
structure FlushState where
  service : Service
  capture : CaptureState
  tick : TickPhase := .idle
  worker : CommandPhase := .idle
  left : List DataGroup := []
  flushed : Bool := false
  quiet : Bool := false

inductive FlushAction where
  | beginTick (secClock nsecClock : Int)
  | tick
  | handle (command : CaptureCommand)
  | worker
  | activate (t : DataType)
  | deactivate (t : DataType)
  | publish

namespace FlushState

def setPipeline (s : FlushState) (pipeline : DataPipeline ChannelFrame) : FlushState :=
  { s with service := { s.service with pipeline := pipeline } }

def setChannels (s : FlushState) (channels : ChannelManager) : FlushState :=
  { s with service := { s.service with channels := channels } }

@[simp] theorem setPipeline_flushed (s : FlushState) (pipeline : DataPipeline ChannelFrame) :
    (s.setPipeline pipeline).flushed = s.flushed := rfl

variable (samples : Samples)

/-- One step of a tick. -/
def tickStep (s : FlushState) : Option FlushState :=
  match s.tick with
  | .idle => none
  | .checks _ _ [] =>
      some { s with
        service := { s.service with framesProduced := wordSucc s.capture.framesProduced }
        capture := { s.capture with
          frameIndex := wordSucc s.capture.frameIndex
          framesProduced := wordSucc s.capture.framesProduced }
        tick := .idle }
  | .checks tsSec tsNsec (g :: rest) =>
      some { s with
        tick := if s.service.channels.groupActive g then
            .reads tsSec tsNsec rest g (groupMembers g) []
          else .checks tsSec tsNsec rest }
  | .reads tsSec tsNsec rest g (t :: types) seen =>
      some { s with
        tick := .reads tsSec tsNsec rest g types
          (if s.service.channels.isActive t then seen ++ [t] else seen) }
  | .reads tsSec tsNsec rest g [] seen =>
      match CaptureEngine.buildFrame samples g tsSec tsNsec s.capture.frameIndex []
          (fun t => t ∈ seen) (s.service.params.get (lit "depth_mode")) s.capture.source with
      | (_, .error _) => none
      | (next, .ok frame) =>
          some { s with
            capture := { s.capture with source := next }
            tick := if frame.bundles = [] then .checks tsSec tsNsec rest
              else .pushes tsSec tsNsec rest frame }
  | .pushes tsSec tsNsec rest frame =>
      some { s.setPipeline (s.service.pipeline.push frame.group frame).1 with
        tick := .checks tsSec tsNsec rest }

/-- One step of the worker: a `try_pop` of a drain in progress, or the next call. -/
def workerStep (s : FlushState) : Option FlushState :=
  match s.left with
  | g :: rest =>
      match (s.service.pipeline.queues g).tryPop with
      | (queue, some _) => some (s.setPipeline (s.service.pipeline.setQueue g queue))
      | (_, none) =>
          some { s with left := rest, worker := if rest = [] then .idle else s.worker }
  | [] =>
      (s.worker.advance s.service).map fun (service, phase, _) =>
        { s with
          service := service
          worker := phase
          left := if phase.drains then popOrder ++ popOrder else []
          flushed := s.flushed || s.worker.polls }

/-- The state after an action. Force flags change between commands. -/
def move (s : FlushState) : FlushAction → Option FlushState
  | .beginTick secClock nsecClock =>
      match s.tick with
      | .idle => some { s with
          tick := .checks (nowUnixSec secClock) (nowUnixNsec nsecClock) CaptureEngine.tickOrder }
      | _ => none
  | .tick => s.tickStep samples
  | .handle command => if s.worker.isIdle then some { s with worker := command.begin } else none
  | .worker => s.workerStep
  | .activate t =>
      if s.worker.isIdle then some (s.setChannels (s.service.channels.activateChannel t).1)
      else none
  | .deactivate t =>
      if s.worker.isIdle then
        let next := s.setChannels (s.service.channels.deactivateChannel t).1
        some (if next.service.channels.groupActive (dataTypeToGroup t) then next
          else next.setPipeline (s.service.pipeline.drainGroup (dataTypeToGroup t)))
      else none
  | .publish => some (s.setPipeline s.service.pipeline.popAll.1)

/-- Nothing is active, and nothing has been since a departing command returned. -/
def isQuiet (s : FlushState) (before : Bool) : Bool :=
  s.flushed && s.service.channels.activeTypes.isEmpty && (s.worker.isIdle || before)

end FlushState

/-- The capture loop and a worker over the stores that `main` sets up. -/
def flushRace (lib : JsonLibrary) (samples : Samples) (cfg : Config) (cameraFile : Option Bytes)
    (source : SimDataSource) : Machine FlushState FlushAction Unit where
  init := { service := mainService lib cfg cameraFile source, capture := { source := source } }
  step s action := (s.move samples action).map fun next =>
    ({ next with quiet := next.isQuiet s.quiet }, [])

/-! ## What stays empty -/

namespace FlushState

/-- The command in progress has still to empty the queue. -/
def ToDrain (s : FlushState) (g : DataGroup) : Prop := g ∈ s.left ∨ s.worker.departs = true

instance (s : FlushState) (g : DataGroup) : Decidable (s.ToDrain g) :=
  inferInstanceAs (Decidable (_ ∨ _))

/-- Nobody is left to flush the queue of a group for. -/
def Unattended (s : FlushState) (g : DataGroup) : Prop :=
  s.service.channels.anySubscriber = false ∧ s.service.channels.groupActive g = false ∧
    ¬ s.ToDrain g

instance (s : FlushState) (g : DataGroup) : Decidable (s.Unattended g) :=
  inferInstanceAs (Decidable (_ ∧ _ ∧ _))

end FlushState

/-- The condition on a step: once departing commands drain, a tick does not push
to a group that is left inactive with nothing bound to drain it, nor to any while
all is quiet. -/
def PushesInTime (s : FlushState) : FlushAction → Prop
  | .tick => ∀ g ∈ s.tick.pushing?, s.flushed = true → s.quiet = false ∧ ¬ s.Unattended g
  | _ => True

instance : ∀ s action, Decidable (PushesInTime s action)
  | s, .tick => inferInstanceAs (Decidable (∀ g ∈ s.tick.pushing?,
      s.flushed = true → s.quiet = false ∧ ¬ s.Unattended g))
  | _, .beginTick _ _ => .isTrue trivial
  | _, .handle _ => .isTrue trivial
  | _, .worker => .isTrue trivial
  | _, .activate _ => .isTrue trivial
  | _, .deactivate _ => .isTrue trivial
  | _, .publish => .isTrue trivial

/-- What holds between the steps, the member `quiet` aside. -/
structure FlushSound (s : FlushState) : Prop where
  words : s.service.pipeline.Words
  exact : s.service.channels.Exact
  left_iff : s.left ≠ [] ↔ s.worker.drains = true
  drained : s.flushed = true → ∀ g, s.Unattended g → (s.service.pipeline.queues g).isEmpty = true

/-- The invariant: when all is quiet the queues are empty. -/
structure FlushInv (s : FlushState) : Prop extends FlushSound s where
  quiet_flushed : s.quiet = true → s.flushed = true
  quiet_empty : s.quiet = true → ∀ g, (s.service.pipeline.queues g).isEmpty = true
  idle_quiet : s.flushed = true → s.worker = .idle → s.service.channels.activeTypes.isEmpty = true →
    s.quiet = true

namespace FlushSound

variable {s next : FlushState}

/-- With nothing active and no command in progress the queues are empty. -/
theorem idle_empty (hsound : FlushSound s) (hflushed : s.flushed = true) (hidle : s.worker = .idle)
    (hnone : s.service.channels.activeTypes.isEmpty = true) (g : DataGroup) :
    (s.service.pipeline.queues g).isEmpty = true := by
  obtain ⟨hsubscriber, hgroup⟩ := ChannelManager.inactive_of_activeTypes hnone
  refine hsound.drained hflushed g ⟨hsubscriber, hgroup g, ?_⟩
  have hleft : s.left = [] := by
    by_contra hsome
    have hdrains := hsound.left_iff.mp hsome
    rw [hidle] at hdrains
    contradiction
  rw [FlushState.ToDrain, hleft, hidle]
  rintro (hmem | hdeparts)
  · exact List.not_mem_nil hmem
  · contradiction

/-- The invariant after a step that keeps the queues empty while all is quiet. -/
theorem observed (hsound : FlushSound next) {quiet : Bool}
    (hquiet : quiet = true → ∀ g, (next.service.pipeline.queues g).isEmpty = true) :
    FlushInv { next with quiet := next.isQuiet quiet } where
  words := hsound.words
  exact := hsound.exact
  left_iff := hsound.left_iff
  drained := hsound.drained
  quiet_flushed := by
    intro hnow
    simp only [FlushState.isQuiet, Bool.and_eq_true] at hnow
    exact hnow.1.1
  quiet_empty := by
    intro hnow g
    simp only [FlushState.isQuiet, Bool.and_eq_true, Bool.or_eq_true] at hnow
    obtain ⟨⟨hflushed, hnone⟩, hidle | hbefore⟩ := hnow
    · exact hsound.idle_empty hflushed (CommandPhase.isIdle_iff.mp hidle) hnone g
    · exact hquiet hbefore g
  idle_quiet := by
    intro hflushed hidle hnone
    simp only [FlushState.isQuiet, Bool.and_eq_true, Bool.or_eq_true]
    exact ⟨⟨hflushed, hnone⟩, .inl (CommandPhase.isIdle_iff.mpr hidle)⟩

/-- A step that only pops. -/
theorem pops (hsound : FlushSound s) (hchannels : next.service.channels = s.service.channels)
    (hworker : next.worker = s.worker) (hleft : next.left = s.left)
    (hflushed : next.flushed = s.flushed) (hwords : next.service.pipeline.Words)
    (hempty : ∀ g, (s.service.pipeline.queues g).isEmpty = true →
      (next.service.pipeline.queues g).isEmpty = true) : FlushSound next where
  words := hwords
  exact := hchannels ▸ hsound.exact
  left_iff := by
    rw [hleft, hworker]
    exact hsound.left_iff
  drained := by
    intro hnow g hunattended
    rw [FlushState.Unattended, FlushState.ToDrain, hchannels, hworker, hleft] at hunattended
    exact hempty g (hsound.drained (hflushed ▸ hnow) g hunattended)

end FlushSound

theorem CommandPhase.departs_of_drains {p : CommandPhase} (hdrains : p.drains = true) :
    p.departs = false := by
  cases p with
  | disconnectDrains => rfl
  | stopDrains types => rfl
  | _ => contradiction

/-- What a call of a command does to channels and queues, and to the worker. -/
inductive CallEffect (s next : Service) (p q : CommandPhase) : Prop where
  | other (hchannels : next.channels = s.channels) (hpipeline : next.pipeline = s.pipeline)
      (hpolls : p.polls = false) (hdrains : q.drains = false)
      (hdeparts : q.departs = false → p.departs = false)
  | subscribes {client : Bytes} {types : List DataType}
      (hchannels : next.channels = s.channels.startCapture client types)
      (hpipeline : next.pipeline = s.pipeline) (hpolls : p.polls = false)
      (hbefore : p.departs = false) (hidle : q = .idle)
  | unsubscribes (hexact : s.channels.Exact → next.channels.Exact)
      (hpipeline : next.pipeline = s.pipeline) (hpolls : p.polls = false)
      (hdrains : q.drains = false) (hdeparts : q.departs = true)
  | stays (hservice : next = s) (hany : s.channels.anySubscriber = true) (hidle : q = .idle)
  | flushes (hservice : next = s) (hdrains : q.drains = true)

theorem CallEffect.of_advance {s next : Service} {p q : CommandPhase} {r : Option Response}
    (hdrains : p.drains = false) (hadvance : p.advance s = some (next, q, r)) :
    CallEffect s next p q := by
  cases p with
  | idle => contradiction
  | disconnectDrains => contradiction
  | stopDrains types => contradiction
  | connectChecks client =>
      rw [CommandPhase.advance] at hadvance
      split at hadvance
      next =>
        cases hadvance
        exact .other rfl rfl rfl rfl fun _ => rfl
      next =>
        cases hadvance
        exact .other rfl rfl rfl rfl fun _ => rfl
  | connectInserts client =>
      cases hadvance
      exact .other rfl rfl rfl rfl fun _ => rfl
  | disconnectChecks client =>
      rw [CommandPhase.advance] at hadvance
      split at hadvance
      next =>
        cases hadvance
        exact .other rfl rfl rfl rfl fun _ => rfl
      next =>
        cases hadvance
        exact .other rfl rfl rfl rfl fun _ => rfl
  | disconnectUnsubscribes client =>
      cases hadvance
      exact .unsubscribes (fun hexact => (hexact.disconnectClient client).2) rfl rfl rfl rfl
  | disconnectErases client =>
      cases hadvance
      refine .other rfl rfl rfl rfl fun hstays => ?_
      contradiction
  | disconnectPolls =>
      rw [CommandPhase.advance] at hadvance
      split at hadvance
      next hany =>
        cases hadvance
        exact .stays rfl hany rfl
      next =>
        cases hadvance
        exact .flushes rfl rfl
  | startChecks body client =>
      simp only [CommandPhase.advance] at hadvance
      split_ifs at hadvance
      · cases hadvance
        exact .other rfl rfl rfl rfl fun _ => rfl
      · cases hadvance
        exact .other rfl rfl rfl rfl fun _ => rfl
      · cases hadvance
        exact .other rfl rfl rfl rfl fun _ => rfl
  | startSubscribes types client =>
      cases hadvance
      exact .subscribes rfl rfl rfl rfl rfl
  | stopExpands body client =>
      simp only [CommandPhase.advance] at hadvance
      split at hadvance
      next =>
        cases hadvance
        exact .other rfl rfl rfl rfl fun _ => rfl
      next =>
        cases hadvance
        exact .other rfl rfl rfl rfl fun _ => rfl
  | stopUnsubscribes types client =>
      cases hadvance
      exact .unsubscribes (fun hexact => (hexact.stopCapture client types).2) rfl rfl rfl rfl
  | stopPolls types =>
      rw [CommandPhase.advance] at hadvance
      split at hadvance
      next hany =>
        cases hadvance
        exact .stays rfl hany rfl
      next =>
        cases hadvance
        exact .flushes rfl rfl

/-- What a step must preserve: the sound part of the invariant, and the empty
queues while all is quiet. -/
def FlushKept (s next : FlushState) : Prop :=
  FlushSound next ∧ (s.quiet = true → ∀ g, (next.service.pipeline.queues g).isEmpty = true)

namespace FlushInv

variable {samples : Samples} {s next : FlushState}

/-- A step that only pops. -/
private theorem pops (hinv : FlushInv s) (hchannels : next.service.channels = s.service.channels)
    (hworker : next.worker = s.worker) (hleft : next.left = s.left)
    (hflushed : next.flushed = s.flushed) (hwords : next.service.pipeline.Words)
    (hempty : ∀ g, (s.service.pipeline.queues g).isEmpty = true →
      (next.service.pipeline.queues g).isEmpty = true) : FlushKept s next :=
  ⟨hinv.toFlushSound.pops hchannels hworker hleft hflushed hwords hempty,
    fun hquiet g => hempty g (hinv.quiet_empty hquiet g)⟩

/-- A step that leaves the queues alone. -/
private theorem calls (hinv : FlushInv s)
    (hpipeline : next.service.pipeline = s.service.pipeline)
    (hexact : next.service.channels.Exact) (hleft : next.left ≠ [] ↔ next.worker.drains = true)
    (hunattended : next.flushed = true → ∀ g, next.Unattended g →
      s.flushed = true ∧ s.Unattended g ∨ (s.service.pipeline.queues g).isEmpty = true) :
    FlushKept s next := by
  refine ⟨⟨?_, hexact, hleft, ?_⟩, ?_⟩
  · rw [hpipeline]
    exact hinv.words
  · intro hflushed g hnow
    rw [hpipeline]
    rcases hunattended hflushed g hnow with ⟨hbefore, hbeforeUnattended⟩ | hempty
    · exact hinv.drained hbefore g hbeforeUnattended
    · exact hempty
  · intro hquiet g
    rw [hpipeline]
    exact hinv.quiet_empty hquiet g

theorem tickStep (hinv : FlushInv s) (hpushes : PushesInTime s .tick)
    (hstep : s.tickStep samples = some next) : FlushKept s next := by
  unfold FlushState.tickStep at hstep
  split at hstep
  next => contradiction
  next =>
    cases hstep
    exact hinv.pops rfl rfl rfl rfl hinv.words fun _ hempty => hempty
  next =>
    cases hstep
    exact hinv.pops rfl rfl rfl rfl hinv.words fun _ hempty => hempty
  next =>
    cases hstep
    exact hinv.pops rfl rfl rfl rfl hinv.words fun _ hempty => hempty
  next =>
    split at hstep
    next => contradiction
    next =>
      cases hstep
      exact hinv.pops rfl rfl rfl rfl hinv.words fun _ hempty => hempty
  next tsSec tsNsec rest frame htick =>
    cases hstep
    have hguard := hpushes frame.group (by rw [htick]; rfl)
    refine ⟨⟨hinv.words.push frame.group frame, hinv.exact, hinv.left_iff, ?_⟩, ?_⟩
    · intro hflushed g hunattended
      have hne : g ≠ frame.group := by
        rintro rfl
        exact (hguard hflushed).2 hunattended
      change (((s.service.pipeline.push frame.group frame).1).queues g).isEmpty = true
      rw [DataPipeline.push_queues, if_neg hne]
      exact hinv.drained hflushed g hunattended
    · intro hquiet
      have hnot := (hguard (hinv.quiet_flushed hquiet)).1
      rw [hquiet] at hnot
      contradiction

/-- A `try_pop` of a drain takes a frame, or ends with the queue of its group. -/
private theorem drainStep (hinv : FlushInv s) {g : DataGroup} {rest : List DataGroup}
    (hleft : s.left = g :: rest) (hstep : s.workerStep = some next) : FlushKept s next := by
  have hdrains : s.worker.drains = true :=
    hinv.left_iff.mp (by rw [hleft]; exact List.cons_ne_nil _ _)
  rw [FlushState.workerStep, hleft] at hstep
  dsimp only at hstep
  split at hstep
  next queue out hpop =>
    cases hstep
    have hqueue : queue = (s.service.pipeline.queues g).tryPop.1 := by rw [hpop]
    refine hinv.pops rfl rfl rfl rfl ?_ ?_
    · exact hinv.words.setQueue (hqueue ▸ (hinv.words g).tryPop)
    · intro other hempty
      change ((s.service.pipeline.setQueue g queue).queues other).isEmpty = true
      rw [DataPipeline.setQueue_queues]
      split
      next heq =>
        -- an empty queue has nothing to pop
        rw [heq, ← ChannelFrameQueue.tryPop_eq_none, hpop] at hempty
        contradiction
      next => exact hempty
  next queue hpop =>
    cases hstep
    have hempty : (s.service.pipeline.queues g).isEmpty = true :=
      ChannelFrameQueue.tryPop_eq_none.mp (congrArg Prod.snd hpop)
    refine hinv.calls rfl hinv.exact ?_ ?_
    · dsimp only
      split
      next hrest => simp [hrest, CommandPhase.drains]
      next hrest => exact iff_of_true hrest hdrains
    · intro hflushed other hunattended
      by_cases heq : other = g
      · exact .inr (heq ▸ hempty)
      · obtain ⟨hsubscriber, hgroup, hleave⟩ := hunattended
        refine .inl ⟨hflushed, hsubscriber, hgroup, ?_⟩
        rintro (hmem | hdeparts)
        · rw [hleft] at hmem
          exact hleave (.inl ((List.mem_cons.mp hmem).resolve_left heq))
        · rw [CommandPhase.departs_of_drains hdrains] at hdeparts
          contradiction

/-- A call of the command that the worker runs. -/
private theorem callStep (hinv : FlushInv s) (hleft : s.left = [])
    (hstep : s.workerStep = some next) : FlushKept s next := by
  rw [FlushState.workerStep, hleft] at hstep
  obtain ⟨⟨service, phase, response⟩, hadvance, heq⟩ := Option.map_eq_some_iff.mp hstep
  cases heq
  have hdrains : s.worker.drains = false := by
    rw [← Bool.not_eq_true, ← hinv.left_iff, not_not]
    exact hleft
  have hleftIff : ∀ drains : Bool,
      (if drains then popOrder ++ popOrder else []) ≠ [] ↔ drains = true := by decide
  cases CallEffect.of_advance hdrains hadvance with
  | other hchannels hpipeline hpolls hphase hdeparts =>
      refine hinv.calls hpipeline (hchannels ▸ hinv.exact) (hleftIff _) ?_
      intro hflushed g ⟨hsubscriber, hgroup, hleave⟩
      dsimp only at hflushed hsubscriber hgroup
      rw [hpolls, Bool.or_false] at hflushed
      rw [hchannels] at hsubscriber hgroup
      refine .inl ⟨hflushed, hsubscriber, hgroup, ?_⟩
      rintro (hmem | hbefore)
      · rw [hleft] at hmem
        exact List.not_mem_nil hmem
      · rw [hdeparts (Bool.eq_false_iff.mpr fun hnow => hleave (.inr hnow))] at hbefore
        contradiction
  | subscribes hchannels hpipeline hpolls hbefore hidle =>
      refine hinv.calls hpipeline (hchannels ▸ hinv.exact.startCapture _ _) (hleftIff _) ?_
      intro hflushed g ⟨hsubscriber, hgroup, _⟩
      dsimp only at hflushed hsubscriber hgroup
      rw [hpolls, Bool.or_false] at hflushed
      rw [hchannels] at hsubscriber hgroup
      refine .inl ⟨hflushed, ?_, ?_, ?_⟩
      · rw [Bool.eq_false_iff] at hsubscriber ⊢
        exact fun hany => hsubscriber (hinv.exact.anySubscriber_startCapture hany)
      · rw [Bool.eq_false_iff] at hgroup ⊢
        exact fun hactive => hgroup (hinv.exact.groupActive_startCapture hactive)
      · rw [FlushState.ToDrain, hleft, hbefore]
        simp
  | unsubscribes hexact hpipeline hpolls hphase hdeparts =>
      refine hinv.calls hpipeline (hexact hinv.exact) (hleftIff _) ?_
      intro _ g ⟨_, _, hleave⟩
      exact absurd (.inr hdeparts) hleave
  | stays hservice hany hidle =>
      refine hinv.calls (hservice ▸ rfl) (hservice ▸ hinv.exact) (hleftIff _) ?_
      intro _ g ⟨hsubscriber, _, _⟩
      dsimp only at hsubscriber
      rw [hservice, hany] at hsubscriber
      contradiction
  | flushes hservice hphase =>
      refine hinv.calls (hservice ▸ rfl) (hservice ▸ hinv.exact) (hleftIff _) ?_
      intro _ g ⟨_, _, hleave⟩
      refine absurd (.inl ?_) hleave
      dsimp only
      rw [hphase, if_pos rfl]
      exact List.mem_append_left _ (DataPipeline.mem_popOrder g)

theorem workerStep (hinv : FlushInv s) (hstep : s.workerStep = some next) : FlushKept s next := by
  cases hleft : s.left with
  | cons g rest => exact hinv.drainStep hleft hstep
  | nil => exact hinv.callStep hleft hstep

/-- A step between commands that may change activity. -/
private theorem between (hinv : FlushInv s) (hidle : s.worker = .idle)
    (hpipeline : next.service.pipeline = s.service.pipeline)
    (hexact : next.service.channels.Exact) (hleft : next.left = s.left)
    (hflushed : next.flushed = s.flushed) (hworker : next.worker.drains = false)
    (hunattended : ∀ g, next.Unattended g → s.service.channels.anySubscriber = false ∧
      s.service.channels.groupActive g = false ∨ (s.service.pipeline.queues g).isEmpty = true) :
    FlushKept s next := by
  have hnone : s.left = [] := by
    by_contra hsome
    have hdrains := hinv.left_iff.mp hsome
    rw [hidle] at hdrains
    contradiction
  refine hinv.calls hpipeline hexact ?_ ?_
  · rw [hleft, hnone, hworker]
    simp
  · intro hnow g hnext
    rcases hunattended g hnext with ⟨hsubscriber, hgroup⟩ | hempty
    · refine .inl ⟨hflushed ▸ hnow, hsubscriber, hgroup, ?_⟩
      rw [FlushState.ToDrain, hnone, hidle]
      simp [CommandPhase.departs]
    · exact .inr hempty

/-- Whoever is subscribed before a deactivation is subscribed after it. -/
private theorem deactivated (hinv : FlushInv s) (t : DataType)
    (hsubscriber : (s.service.channels.deactivateChannel t).1.anySubscriber = false) :
    s.service.channels.anySubscriber = false := by
  rw [Bool.eq_false_iff] at hsubscriber ⊢
  exact fun hany => hsubscriber (hinv.exact.anySubscriber_mono
    (hinv.exact.set_force t false) (fun _ => Finset.Subset.refl _) hany)

theorem deactivate (hinv : FlushInv s) {t : DataType} (hidle : s.worker = .idle)
    (hmove : some
      (if (s.setChannels (s.service.channels.deactivateChannel t).1).service.channels.groupActive
          (dataTypeToGroup t) then s.setChannels (s.service.channels.deactivateChannel t).1
        else (s.setChannels (s.service.channels.deactivateChannel t).1).setPipeline
          (s.service.pipeline.drainGroup (dataTypeToGroup t))) = some next) :
    FlushKept s next := by
  split at hmove
  next hactive =>
    cases hmove
    refine hinv.between hidle rfl (hinv.exact.set_force t false) rfl rfl (hidle ▸ rfl) ?_
    intro g ⟨hsubscriber, hgroup, _⟩
    have hne : g ≠ dataTypeToGroup t := by
      rintro rfl
      rw [hactive] at hgroup
      contradiction
    refine .inl ⟨hinv.deactivated t hsubscriber, ?_⟩
    exact (ChannelManager.groupActive_deactivateChannel_of_ne hne).symm.trans hgroup
  next hinactive =>
    cases hmove
    -- the other queues are not touched, and the drained one is empty
    have hdrained : ∀ g, (s.service.pipeline.queues g).isEmpty = true ∨ g = dataTypeToGroup t →
        ((s.service.pipeline.drainGroup (dataTypeToGroup t)).queues g).isEmpty = true := by
      intro g hor
      rw [DataPipeline.drainGroup_queues]
      split
      next => exact ChannelFrameQueue.clear_isEmpty (hinv.words _)
      next hne => exact hor.resolve_right hne
    refine ⟨⟨hinv.words.drainGroup _, hinv.exact.set_force t false, hinv.left_iff, ?_⟩, ?_⟩
    · intro hflushed g ⟨hsubscriber, hgroup, hleave⟩
      apply hdrained
      by_cases hsame : g = dataTypeToGroup t
      · exact .inr hsame
      · refine .inl (hinv.drained hflushed g ⟨hinv.deactivated t hsubscriber, ?_, hleave⟩)
        exact (ChannelManager.groupActive_deactivateChannel_of_ne hsame).symm.trans hgroup
    · intro hquiet g
      exact hdrained g (.inl (hinv.quiet_empty hquiet g))

/-- A step that empties the queues. -/
private theorem emptied (hinv : FlushInv s) {popped : DataPipeline ChannelFrame}
    (hwords : popped.Words) (hempty : ∀ g, (popped.queues g).isEmpty = true) :
    FlushKept s (s.setPipeline popped) :=
  hinv.pops rfl rfl rfl rfl hwords fun g _ => hempty g

theorem step {action : FlushAction} (hinv : FlushInv s) (hpushes : PushesInTime s action)
    (hmove : s.move samples action = some next) : FlushKept s next := by
  cases action with
  | beginTick secClock nsecClock =>
      simp only [FlushState.move] at hmove
      split at hmove
      next =>
        cases hmove
        exact hinv.pops rfl rfl rfl rfl hinv.words fun _ hempty => hempty
      next => contradiction
  | tick => exact hinv.tickStep hpushes hmove
  | handle command =>
      simp only [FlushState.move] at hmove
      split at hmove
      next hidle =>
        cases hmove
        refine hinv.between (CommandPhase.isIdle_iff.mp hidle) rfl hinv.exact rfl rfl ?_ ?_
        · cases command <;> rfl
        · exact fun g hnext => .inl ⟨hnext.1, hnext.2.1⟩
      next => contradiction
  | worker => exact hinv.workerStep hmove
  | activate t =>
      simp only [FlushState.move] at hmove
      split at hmove
      next hidle =>
        cases hmove
        refine hinv.between (CommandPhase.isIdle_iff.mp hidle) rfl (hinv.exact.set_force t true)
          rfl rfl (CommandPhase.isIdle_iff.mp hidle ▸ rfl) ?_
        intro g ⟨hsubscriber, hgroup, _⟩
        refine .inl ⟨?_, ?_⟩
        · rw [Bool.eq_false_iff] at hsubscriber ⊢
          exact fun hany => hsubscriber (hinv.exact.anySubscriber_mono
            (hinv.exact.set_force t true) (fun _ => Finset.Subset.refl _) hany)
        · rw [Bool.eq_false_iff] at hgroup ⊢
          exact fun hactive => hgroup (ChannelManager.groupActive_activateChannel hactive)
      next => contradiction
  | deactivate t =>
      simp only [FlushState.move] at hmove
      split at hmove
      next hidle =>
        exact hinv.deactivate (CommandPhase.isIdle_iff.mp hidle) hmove
      next => contradiction
  | publish =>
      obtain ⟨hwords, hempty⟩ := DataPipeline.popAll_isEmpty hinv.words
      simp only [FlushState.move] at hmove
      have hnext : next = s.setPipeline s.service.pipeline.popAll.1 := (Option.some.inj hmove).symm
      rw [hnext]
      exact hinv.emptied hwords hempty

end FlushInv

/-- Once a departing command has drained, it has. -/
theorem FlushState.flushed_of_move {samples : Samples} {s next : FlushState} {action : FlushAction}
    (hmove : s.move samples action = some next) (hflushed : s.flushed = true) :
    next.flushed = true := by
  cases action with
  | beginTick secClock nsecClock =>
      simp only [move] at hmove
      split at hmove
      next =>
        cases hmove
        exact hflushed
      next => contradiction
  | tick =>
      simp only [move, tickStep] at hmove
      split at hmove
      next => contradiction
      next =>
        cases hmove
        exact hflushed
      next =>
        cases hmove
        exact hflushed
      next =>
        cases hmove
        exact hflushed
      next =>
        split at hmove
        next => contradiction
        next =>
          cases hmove
          exact hflushed
      next =>
        cases hmove
        exact hflushed
  | worker =>
      simp only [move, workerStep] at hmove
      split at hmove
      next =>
        split at hmove
        next =>
          cases hmove
          exact hflushed
        next =>
          cases hmove
          exact hflushed
      next =>
        obtain ⟨_, _, heq⟩ := Option.map_eq_some_iff.mp hmove
        cases heq
        dsimp only
        rw [hflushed, Bool.true_or]
  | handle command =>
      simp only [move] at hmove
      split at hmove
      next =>
        cases hmove
        exact hflushed
      next => contradiction
  | activate t =>
      simp only [move] at hmove
      split at hmove
      next =>
        cases hmove
        exact hflushed
      next => contradiction
  | deactivate t =>
      simp only [move] at hmove
      split at hmove
      next =>
        rw [← Option.some.inj hmove]
        split
        next => exact hflushed
        next =>
          rw [setPipeline_flushed]
          exact hflushed
      next => contradiction
  | publish =>
      simp only [move] at hmove
      rw [← Option.some.inj hmove, setPipeline_flushed]
      exact hflushed

section Runs

variable {lib : JsonLibrary} {samples : Samples} {cfg : Config} {cameraFile : Option Bytes}
  {source : SimDataSource} {history : List Unit} {s : FlushState}

theorem flushInv_of_reaches
    (hreach : (flushRace lib samples cfg cameraFile source).Reaches PushesInTime history s) :
    FlushInv s := by
  apply hreach.invariant fun _ s => FlushInv s
  · refine ⟨⟨.create _, (ChannelManager.run_exact []).2, ?_, nofun⟩, nofun, nofun, nofun⟩
    exact iff_of_false (absurd rfl) nofun
  · intro _ before action after _ _ hbefore hpushes hstep
    obtain ⟨next, hmove, heq⟩ := Option.map_eq_some_iff.mp hstep
    cases heq
    obtain ⟨hsound, hempty⟩ := hbefore.step hpushes hmove
    exact hsound.observed hempty

/-- In every run whose pushes are in time, all is quiet from the return of a
departing command with nothing active for as long as nothing is, and while all is
quiet the queues are empty. -/
theorem quiet_queues_empty
    (hreach : (flushRace lib samples cfg cameraFile source).Reaches PushesInTime history s) :
    (s.flushed = true → s.worker = .idle → (∀ t, s.service.channels.isActive t = false) →
        s.quiet = true) ∧
      (s.quiet = true → ∀ action next events,
        (flushRace lib samples cfg cameraFile source).step s action = some (next, events) →
        (∀ t, next.service.channels.isActive t = false) → next.quiet = true) ∧
      (s.quiet = true → ∀ g, (s.service.pipeline.queues g).isEmpty = true) := by
  have hinv := flushInv_of_reaches hreach
  refine ⟨fun hflushed hidle hinactive => ?_, ?_, hinv.quiet_empty⟩
  · exact hinv.idle_quiet hflushed hidle (ChannelManager.activeTypes_isEmpty_iff.mpr hinactive)
  · intro hquiet action next events hstep hinactive
    obtain ⟨moved, hmove, heq⟩ := Option.map_eq_some_iff.mp hstep
    cases heq
    have hflushed := FlushState.flushed_of_move hmove (hinv.quiet_flushed hquiet)
    dsimp only at hinactive ⊢
    rw [FlushState.isQuiet, hflushed, ChannelManager.activeTypes_isEmpty_iff.mpr hinactive, hquiet,
      Bool.or_true]
    rfl

end Runs

/-! ## A push before the drains and one after them -/

def defaultRace : Machine FlushState FlushAction Unit := flushRace .plain zeroSamples {} none {}

/-- Client `A` captures `imu`, and a tick comes to the push of its frame. -/
def captureToPush : List FlushAction :=
  [.handle (.connect (lit "A")), .worker, .worker,
    .handle (.startCapture (typeBody "imu") (lit "A")), .worker, .worker, .beginTick 0 0] ++
    List.replicate 8 .tick

/-- `A` stops, and the drains empty the queues. -/
def stopWhole (tries : Nat) : List FlushAction :=
  .handle (.stopCapture (typeBody "imu") (lit "A")) :: List.replicate (3 + tries) .worker

/-- The frame is pushed before the stop. -/
def pushThenStop : List FlushAction := captureToPush ++ [.tick, .tick] ++ stopWhole 7

theorem pushThenStop_empties :
    ∃ s history, defaultRace.runFrom defaultRace.init pushThenStop = some (s, history) ∧
      s.quiet = true ∧
      (s.flushed = true → s.worker = .idle → (∀ t, s.service.channels.isActive t = false) →
        s.quiet = true) ∧
      (s.quiet = true → ∀ action next events,
        defaultRace.step s action = some (next, events) →
        (∀ t, next.service.channels.isActive t = false) → next.quiet = true) ∧
      (s.quiet = true → ∀ g, (s.service.pipeline.queues g).isEmpty = true) := by
  have hruns : (defaultRace.runFrom defaultRace.init pushThenStop).map
      (fun result => result.1.quiet) = some true := by
    decide +kernel
  obtain ⟨⟨s, history⟩, hrun, hquiet⟩ := Option.map_eq_some_iff.mp hruns
  have hguarded : defaultRace.Guarded PushesInTime defaultRace.init pushThenStop := by
    decide +kernel
  exact ⟨s, history, hrun, hquiet, quiet_queues_empty (.runGuarded .init hguarded hrun)⟩

/-- The whole stop falls between the lookups of a tick and its push. -/
def stopThenPush : List FlushAction := captureToPush ++ stopWhole 6 ++ [.tick]

/-- The frame then stays in the queue. -/
theorem stopThenPush_stale :
    ¬ ∀ (lib : JsonLibrary) (samples : Samples) (cfg : Config) (cameraFile : Option Bytes)
        (source : SimDataSource) (history : List Unit) (s : FlushState),
        (flushRace lib samples cfg cameraFile source).Reachable history s →
        s.flushed = true → s.worker = .idle → (∀ t, s.service.channels.isActive t = false) →
        ∀ g, (s.service.pipeline.queues g).isEmpty = true := by
  intro hclaim
  have hruns : (defaultRace.runFrom defaultRace.init stopThenPush).map
      (fun result => (result.1.flushed, result.1.worker.isIdle,
        result.1.service.channels.activeTypes.isEmpty,
        (result.1.service.pipeline.queues .sensorData).isEmpty)) =
      some (true, true, true, false) := by
    decide +kernel
  obtain ⟨⟨s, history⟩, hrun, hview⟩ := Option.map_eq_some_iff.mp hruns
  simp only [Prod.mk.injEq] at hview
  obtain ⟨hflushed, hidle, hnone, hqueued⟩ := hview
  have hempty := hclaim .plain zeroSamples {} none {} history s (Machine.reachable_of_runFrom hrun)
    hflushed (CommandPhase.isIdle_iff.mp hidle)
    (ChannelManager.activeTypes_isEmpty_iff.mp hnone) .sensorData
  rw [hqueued] at hempty
  contradiction

end SimVision
