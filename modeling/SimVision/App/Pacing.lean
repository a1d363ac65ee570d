import SimVision.App.Restarts
import SimVision.Common.ConfigDocument

/-! # The pace of the capture loop

After a tick `run` reads the parameter `fps` and waits for what is left of the period
since the tick began. The period is a whole number of milliseconds, and so is the time
that has passed, both rounded down. The pacer is never woken, so a wait ends at its
timeout at the earliest, and maybe later.
-/

namespace SimVision

open Foundation CommandHandler JsonLibrary

/-! ## Periods -/

/-- A millisecond of the steady clock, which counts nanoseconds. -/
def millisecond : Nat := 1000000

/-- The rate that is read of the parameter `fps`, with its default. -/
def readRate : Option Parameter → Int
  | some p =>
      match p.value with
      | .integer v => castInt v
      | _ => 15
  | none => 15

/-- The frame rate of an iteration, from 1 to 240. -/
def frameRate (fps : Option Parameter) : Int :=
  if readRate fps < 1 then 1 else if 240 < readRate fps then 240 else readRate fps

/-- An iteration of `run`: the steady clock before the tick and after it, and what the
iteration reads of `fps`. -/
structure PacedTick where
  start : Nat
  finish : Nat
  fps : Option Parameter

namespace PacedTick

/-- The period in milliseconds. -/
def period (tick : PacedTick) : Nat := (1000 / frameRate tick.fps).toNat

/-- The milliseconds that are left to wait. -/
def remaining (tick : PacedTick) : Int :=
  tick.period - ((tick.finish - tick.start) / millisecond : Nat)

/-- The earliest end of the wait. The wait itself may take longer than its timeout. -/
def due (tick : PacedTick) : Nat :=
  if 0 < tick.remaining then tick.finish + tick.remaining.toNat * millisecond else tick.finish

end PacedTick

theorem frameRate_bounds (fps : Option Parameter) : 1 ≤ frameRate fps ∧ frameRate fps ≤ 240 := by
  unfold frameRate
  split_ifs
  next => exact ⟨le_rfl, by decide⟩
  next => exact ⟨by decide, le_rfl⟩
  next hlow hhigh => exact ⟨not_lt.mp hlow, not_lt.mp hhigh⟩

/-- A stored rate within the limits is taken as it is. -/
theorem frameRate_of_integer {p : Parameter} {v : Int} (hvalue : p.value = .integer v)
    (hlow : 1 ≤ v) (hhigh : v ≤ 240) : frameRate (some p) = v := by
  have hread : readRate (some p) = v := by
    rw [readRate, hvalue]
    exact castInt_of_range (by omega) (by omega)
  rw [frameRate, hread, if_neg (not_lt.mpr hlow), if_neg (not_lt.mpr hhigh)]

/-- A wait may end a period after the start of the tick or less than a millisecond after
that; without a wait the tick itself has taken longer. -/
theorem PacedTick.due_spec {tick : PacedTick} (hle : tick.start ≤ tick.finish) :
    tick.start + tick.period * millisecond ≤ tick.due ∧
      (tick.due < tick.start + (tick.period + 1) * millisecond ∨ tick.due = tick.finish) := by
  unfold due remaining millisecond
  split
  next hwaits =>
    refine ⟨?_, .inl ?_⟩ <;> omega
  next => exact ⟨by omega, .inr rfl⟩

/-- A rate of at most `most` makes a period of at least `1000 / most`. -/
theorem PacedTick.period_ge {tick : PacedTick} {most : Nat} (hrate : frameRate tick.fps ≤ most) :
    1000 / most ≤ tick.period := by
  obtain ⟨hlow, -⟩ := frameRate_bounds tick.fps
  obtain ⟨rate, hnat⟩ := Int.eq_ofNat_of_zero_le (Int.le_trans (by decide) hlow)
  rw [hnat] at hrate hlow
  have hperiod : tick.period = 1000 / rate := by
    rw [period, hnat]
    rfl
  rw [hperiod]
  exact Nat.div_le_div_left (Int.ofNat_le.mp hrate) (Int.ofNat_le.mp hlow)

/-! ## Points that keep a gap -/

/-- Points that keep a gap fill a window with less than one gap over. -/
theorem spaced_fit {gap low span : Nat} {points : List Nat} (hgap : 0 < gap)
    (hspaced : points.Pairwise fun first second => first + gap ≤ second)
    (hwindow : ∀ point ∈ points, low ≤ point ∧ point < low + span) :
    gap * points.length < span + gap := by
  induction points generalizing low span with
  | nil => exact Nat.lt_of_lt_of_le hgap (Nat.le_add_left gap span)
  | cons first rest ih =>
      obtain ⟨hlow, hhigh⟩ := hwindow first List.mem_cons_self
      obtain ⟨hfirst, hrest⟩ := List.pairwise_cons.mp hspaced
      cases rest with
      | nil =>
          rw [List.length_singleton]
          omega
      | cons second later =>
          have hsecond := hfirst second List.mem_cons_self
          have hend := (hwindow second (List.mem_cons_of_mem _ List.mem_cons_self)).2
          have hshorter : ∀ point ∈ second :: later, first + gap ≤ point ∧
              point < first + gap + (low + span - (first + gap)) := by
            intro point hpoint
            have hpast := hfirst point hpoint
            have hbound := (hwindow point (List.mem_cons_of_mem _ hpoint)).2
            omega
          have hlater := ih hrest hshorter
          rw [List.length_cons, Nat.mul_succ]
          omega

/-! ## The paced service -/

/-- The service, and the earliest end of the wait of the capture loop. -/
structure PacedState where
  serial : SerialState
  due : Nat := 0

inductive PacedAction where
  | command (request : Request)
  | publish (sends : Nat → SendReads)
  /-- A tick, with the steady clock before and after it. -/
  | tick (secClock nsecClock : Int) (start finish : Nat)

section Step

variable (lib : JsonLibrary) (samples : Samples) (cfg : Config)

def pacedStep (s : PacedState) : PacedAction → Option (PacedState × List PacedTick)
  | .command q => (serialStep lib samples cfg s.serial (.command q)).map fun result =>
      ({ s with serial := result.1 }, [])
  | .publish sends => (serialStep lib samples cfg s.serial (.publish sends)).map fun result =>
      ({ s with serial := result.1 }, [])
  | .tick secClock nsecClock start finish =>
      if s.due ≤ start ∧ start ≤ finish then
        (serialStep lib samples cfg s.serial (.tick secClock nsecClock)).map fun result =>
          let tick : PacedTick := ⟨start, finish, result.1.service.params.get (lit "fps")⟩
          ({ serial := result.1, due := tick.due }, [tick])
      else none

/-- The history lists the ticks. -/
def pacedService (cameraFile : Option Bytes) (source : SimDataSource) :
    Machine PacedState PacedAction PacedTick where
  init := { serial := (serialService lib samples cfg cameraFile source).init }
  step := pacedStep lib samples cfg

end Step

section Runs

variable {lib : JsonLibrary} {samples : Samples} {cfg : Config} {cameraFile : Option Bytes}
  {source : SimDataSource} {guard : PacedState → PacedAction → Prop} {history : List PacedTick}
  {s next : PacedState}

/-- A command that returns rewrites parameters at most. -/
theorem RewrittenAll.handle {registered : ParameterManager} {q : Request} {before after : Service}
    {r : Response} (hrewritten : RewrittenAll registered before.params)
    (hhandle : CommandHandler.handle lib q.command q.body q.clientId before = .ok (after, r)) :
    RewrittenAll registered after.params := by
  by_cases hset : q.command = lit "set_parameter"
  · rw [hset] at hhandle
    have hcmd : cmdSetParameter lib before q.body = .ok (after, r) := hhandle
    cases cmdSetParameter_returns hcmd with
    | missing => exact hrewritten
    | unknown => exact hrewritten
    | refused => exact hrewritten
    | stored _ _ _ _ hstore => exact hrewritten.setValue hstore
  · rw [(handle_handled hhandle).params_eq hset]
    exact hrewritten

/-- A step of the service rewrites parameters at most. -/
theorem RewrittenAll.serialStep {registered : ParameterManager} {before after : SerialState}
    {action : SerialAction} {responses : List Response}
    (hrewritten : RewrittenAll registered before.service.params)
    (hstep : SimVision.serialStep lib samples cfg before action = some (after, responses)) :
    RewrittenAll registered after.service.params := by
  rcases serialStep_answered hstep with ⟨q, r, rfl, rfl, houtcome, hafter⟩ | ⟨-, -, -, hparams⟩
  · rw [hafter]
    exact hrewritten.handle (Request.handle_of_outcome houtcome)
  · rw [hparams]
    exact hrewritten

/-- The stored rate is an integer within the limits of the configuration. -/
theorem RewrittenAll.fps {m : ParameterManager}
    (hrewritten : RewrittenAll (registerParameters {} cfg) m)
    (hchecked : ConfigLoader.FpsChecked cfg) :
    ∃ p v, m.get (lit "fps") = some p ∧ p.value = .integer v ∧ 1 ≤ v ∧ v ≤ 240 := by
  obtain ⟨p, hget, value, rfl, hvalue⟩ := hrewritten.of_registered (get_fps cfg)
  rcases hvalue with rfl | ⟨-, hadmits⟩
  · exact ⟨_, cfg.capture.fps, hget, rfl, hchecked.1, hchecked.2⟩
  · cases value with
    | integer v =>
        obtain ⟨hlow, hhigh⟩ := hadmits.2 1 120 rfl rfl
        exact ⟨_, v, hget, rfl, hlow, Int.le_trans hhigh (by decide)⟩
    | float v => simp [Parameter.Admits, addInt, ParamValue.float?] at hadmits
    | enum v => simp [Parameter.Admits, addInt, ParamValue.enum?] at hadmits

/-- What a tick of the history is known by. -/
structure PacedTick.Sound (tick : PacedTick) : Prop where
  forward : tick.start ≤ tick.finish
  stored : ∃ p v, tick.fps = some p ∧ p.value = .integer v ∧ 1 ≤ v ∧ v ≤ 240

/-- What holds along every run. -/
structure PacedInv (cfg : Config) (history : List PacedTick) (s : PacedState) : Prop where
  rewritten : RewrittenAll (registerParameters {} cfg) s.serial.service.params
  sound : ∀ tick ∈ history, tick.Sound
  past : ∀ tick ∈ history, tick.due ≤ s.due
  ordered : history.Pairwise fun first second => first.due ≤ second.start

theorem PacedInv.step {action : PacedAction} {ticks : List PacedTick}
    (hinv : PacedInv cfg history s) (hchecked : ConfigLoader.FpsChecked cfg)
    (hstep : pacedStep lib samples cfg s action = some (next, ticks)) :
    PacedInv cfg (history ++ ticks) next := by
  cases action with
  | command q =>
      obtain ⟨⟨serial, responses⟩, hserial, hnext⟩ := Option.map_eq_some_iff.mp hstep
      obtain ⟨rfl, rfl⟩ := Prod.mk.inj hnext
      rw [List.append_nil]
      exact ⟨hinv.rewritten.serialStep hserial, hinv.sound, hinv.past, hinv.ordered⟩
  | publish sends =>
      obtain ⟨⟨serial, responses⟩, hserial, hnext⟩ := Option.map_eq_some_iff.mp hstep
      obtain ⟨rfl, rfl⟩ := Prod.mk.inj hnext
      rw [List.append_nil]
      exact ⟨hinv.rewritten.serialStep hserial, hinv.sound, hinv.past, hinv.ordered⟩
  | tick secClock nsecClock start finish =>
      simp only [pacedStep] at hstep
      split at hstep
      next htimes =>
        obtain ⟨hstart, hfinish⟩ := htimes
        obtain ⟨⟨serial, responses⟩, hserial, hnext⟩ := Option.map_eq_some_iff.mp hstep
        obtain ⟨rfl, rfl⟩ := Prod.mk.inj hnext
        have hrewritten := hinv.rewritten.serialStep hserial
        have hdue := (@PacedTick.due_spec ⟨start, finish, serial.service.params.get (lit "fps")⟩
          hfinish).1
        have hlater : start ≤
            PacedTick.due ⟨start, finish, serial.service.params.get (lit "fps")⟩ :=
          Nat.le_trans (Nat.le_add_right _ _) hdue
        constructor
        case rewritten => exact hrewritten
        case sound =>
          intro tick htick
          rcases List.mem_append.mp htick with hbefore | hnew
          · exact hinv.sound tick hbefore
          · obtain rfl := List.mem_singleton.mp hnew
            exact ⟨hfinish, hrewritten.fps hchecked⟩
        case past =>
          intro tick htick
          rcases List.mem_append.mp htick with hbefore | hnew
          · exact Nat.le_trans (hinv.past tick hbefore) (Nat.le_trans hstart hlater)
          · obtain rfl := List.mem_singleton.mp hnew
            exact le_rfl
        case ordered =>
          refine List.pairwise_append.mpr ⟨hinv.ordered, List.pairwise_singleton _ _, ?_⟩
          intro first hfirst second hsecond
          obtain rfl := List.mem_singleton.mp hsecond
          exact Nat.le_trans (hinv.past first hfirst) hstart
      next => contradiction

theorem pacedInv_of_reaches {configDir : Bytes} {configFile : Option Bytes}
    (hload : ConfigLoader.load lib configDir configFile = (cfg, []))
    (hreach : (pacedService lib samples cfg cameraFile source).Reaches guard history s) :
    PacedInv cfg history s := by
  apply hreach.invariant (PacedInv cfg)
  · constructor
    case rewritten => exact rewrittenAll_loadCameraSetting lib cameraFile _
    case sound => exact fun _ htick => absurd htick List.not_mem_nil
    case past => exact fun _ htick => absurd htick List.not_mem_nil
    case ordered => exact List.Pairwise.nil
  · intro history s action next ticks _ hinv _ hstep
    exact hinv.step (ConfigLoader.load_fps hload) hstep

/-- The ticks that begin in `span` milliseconds from a point on. -/
def ticksWithin (low span : Nat) (history : List PacedTick) : List PacedTick :=
  history.filter fun tick => low ≤ tick.start && tick.start < low + span * millisecond

/-- In every run the loop takes the stored rate as it is, no tick begins before the earliest
end of the wait of an earlier one, and this earliest end is within a millisecond of the
period. So at rates up to `most` a window has room for one tick in every `1000 / most`
milliseconds at most. -/
theorem ticks_paced {configDir : Bytes} {configFile : Option Bytes}
    (hload : ConfigLoader.load lib configDir configFile = (cfg, []))
    (hreach : (pacedService lib samples cfg cameraFile source).Reaches guard history s) :
    (∀ tick ∈ history, (∃ p, tick.fps = some p ∧ p.value = .integer (frameRate tick.fps)) ∧
      tick.start + tick.period * millisecond ≤ tick.due ∧
      (tick.due < tick.start + (tick.period + 1) * millisecond ∨ tick.due = tick.finish)) ∧
    history.Pairwise (fun first second => first.due ≤ second.start) ∧
    ∀ low span most, 1 ≤ most → most ≤ 1000 →
      (∀ tick ∈ ticksWithin low span history, frameRate tick.fps ≤ (most : Nat)) →
      (ticksWithin low span history).length ≤ (span + 1000 / most - 1) / (1000 / most) := by
  have hinv := pacedInv_of_reaches hload hreach
  refine ⟨fun tick htick => ?_, hinv.ordered, fun low span most hone hmost hrates => ?_⟩
  · obtain ⟨p, v, hfps, hvalue, hlow, hhigh⟩ := (hinv.sound tick htick).stored
    refine ⟨⟨p, hfps, ?_⟩, PacedTick.due_spec (hinv.sound tick htick).forward⟩
    rw [hfps, frameRate_of_integer hvalue hlow hhigh, hvalue]
  · have hgap : 0 < 1000 / most := Nat.div_pos hmost hone
    have hsub : (ticksWithin low span history).Sublist history := List.filter_sublist
    -- the ticks of the window are a period apart
    have hspaced : ((ticksWithin low span history).map PacedTick.start).Pairwise
        fun first second => first + 1000 / most * millisecond ≤ second := by
      rw [List.pairwise_map]
      refine (hinv.ordered.sublist hsub).imp_of_mem fun {first second} hfirst _ hdue => ?_
      have hperiod := PacedTick.period_ge (hrates first hfirst)
      have hstart := (PacedTick.due_spec (hinv.sound first (hsub.subset hfirst)).forward).1
      have hscaled := Nat.mul_le_mul_right millisecond hperiod
      omega
    have hwindow : ∀ point ∈ (ticksWithin low span history).map PacedTick.start,
        low ≤ point ∧ point < low + span * millisecond := by
      intro point hpoint
      obtain ⟨tick, htick, rfl⟩ := List.mem_map.mp hpoint
      obtain ⟨hlow, hhigh⟩ := Bool.and_eq_true_iff.mp (List.mem_filter.mp htick).2
      exact ⟨of_decide_eq_true hlow, of_decide_eq_true hhigh⟩
    have hfit := spaced_fit (Nat.mul_pos hgap (by decide)) hspaced hwindow
    rw [List.length_map] at hfit
    have hscaled : 1000 / most * (ticksWithin low span history).length * millisecond <
        (span + 1000 / most) * millisecond := by
      rw [Nat.mul_right_comm, Nat.add_mul]
      exact hfit
    have hroom := Nat.lt_of_mul_lt_mul_right hscaled
    rw [Nat.le_div_iff_mul_le hgap, Nat.mul_comm]
    exact Nat.le_sub_one_of_lt hroom

end Runs

/-- The service with 15 frames per second. -/
def fifteenPerSecond : Machine PacedState PacedAction PacedTick :=
  pacedService (.reading (configOfFps 15)) zeroSamples (loadedConfig 15) none {}

/-- Ticks that take no time, each at the earliest end of the wait before it. -/
def ticksOnTime : List PacedAction :=
  (List.range 16).map fun k => .tick 0 0 (k * 66 * millisecond) (k * 66 * millisecond)

/-- The period of 15 frames per second has room for a sixteenth. -/
theorem ticksOnTime_paced :
    ∃ s history, fifteenPerSecond.runFrom fifteenPerSecond.init ticksOnTime = some (s, history) ∧
      ((ticksWithin 0 1000 history).length = 16 ∧
        history.map (fun tick => frameRate tick.fps) = List.replicate 16 15) ∧
      (∀ tick ∈ history, (∃ p, tick.fps = some p ∧ p.value = .integer (frameRate tick.fps)) ∧
        tick.start + tick.period * millisecond ≤ tick.due ∧
        (tick.due < tick.start + (tick.period + 1) * millisecond ∨ tick.due = tick.finish)) ∧
      history.Pairwise (fun first second => first.due ≤ second.start) ∧
      ∀ low span most, 1 ≤ most → most ≤ 1000 →
        (∀ tick ∈ ticksWithin low span history, frameRate tick.fps ≤ (most : Nat)) →
        (ticksWithin low span history).length ≤ (span + 1000 / most - 1) / (1000 / most) := by
  have herr : (ConfigLoader.load (.reading (configOfFps 15)) (lit "config")
      (some (configOfFps 15).text)).2 = [] := by decide
  have hruns : (fifteenPerSecond.runFrom fifteenPerSecond.init ticksOnTime).map (fun result =>
      ((ticksWithin 0 1000 result.2).length, result.2.map fun tick => frameRate tick.fps)) =
        some (16, List.replicate 16 15) := by
    decide +kernel
  obtain ⟨⟨s, history⟩, hrun, hticks⟩ := Option.map_eq_some_iff.mp hruns
  exact ⟨s, history, hrun, Prod.mk.inj hticks,
    ticks_paced (Prod.ext rfl herr) (Machine.reachable_of_runFrom hrun)⟩

end SimVision
