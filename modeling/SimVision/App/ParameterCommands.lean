import SimVision.App.Main

/-! # Parameter commands on several workers

`set_parameter` looks its parameter up, converts the value and stores it, with the lock
of the parameters released in between, so other workers store values of their own in the
meantime. A value that is stored does not change how another one is converted, so each
command answers as if it had run at once when it answers.
-/

namespace SimVision

open Foundation CommandHandler

/-! ## Commands and calls -/

/-- A request for one of the three commands on parameters. -/
inductive ParameterCommand where
  | setParameter (body : Json)
  | getParameter (body : Json)
  | listParameters

/-- The next call a worker makes into the parameters. -/
inductive ParameterPhase where
  | idle
  | setLooksUp (body : Json)
  | setStores (body : Json) (name : Bytes) (v : ParamValue) (needsReopen : Bool)
  | getLooksUp (body : Json)
  | listCopies

def ParameterCommand.begin : ParameterCommand → ParameterPhase
  | .setParameter body => .setLooksUp body
  | .getParameter body => .getLooksUp body
  | .listParameters => .listCopies

/-- What `set_parameter` answers once its value is stored. -/
def setAnswer (name : Bytes) (v : ParamValue) (needsReopen : Bool) : Response where
  code := .success
  message := lit "Parameter set"
  detail := ((Json.emptyObject.set (lit "name") (.string name)).set
    (lit "value") (valueToJson v)).set (lit "needs_reopen") (.boolean needsReopen)

variable (lib : JsonLibrary)

/-- `set_parameter` up to the value it will store: an answer without a store, or the
next call. -/
def setPrepare (s : Service) (body : Json) : Except Bytes (Response ⊕ ParameterPhase) :=
  match body.lookup (lit "name"), body.lookup (lit "value") with
  | some nameJson, some value =>
      match lib.getString nameJson with
      | .error what => .error what
      | .ok name =>
          match s.params.get name with
          | none => .ok (.inl (.fromError .invalidParam (lit "unknown parameter")))
          | some p => (convertValue lib p.value value).map fun v =>
              .inr (.setStores body name v p.needsReopen)
  | _, _ => .ok (.inl (.fromError .invalidParam (lit "missing 'name' or 'value'")))

/-- One call of a command: the parameters after it, what the worker does next, and the
answer once the command returns. An exception ends the process. -/
def ParameterPhase.advance (s : Service) :
    ParameterPhase → Option (Service × ParameterPhase × Option (ParameterCommand × Response))
  | idle => none
  | setLooksUp body =>
      match setPrepare lib s body with
      | .error _ => none
      | .ok (.inl r) => some (s, idle, some (.setParameter body, r))
      | .ok (.inr next) => some (s, next, none)
  | setStores body name v needsReopen =>
      match s.params.setValue name v with
      | .error err => some (s, idle, some (.setParameter body, .fromError .invalidParam err))
      | .ok params => some ({ s with params := params }, idle,
          some (.setParameter body, setAnswer name v needsReopen))
  | getLooksUp body =>
      match cmdGetParameter lib s body with
      | .error _ => none
      | .ok r => some (s, idle, some (.getParameter body, r))
  | listCopies => some (s, idle, some (.listParameters, cmdListParameters s))

structure ParameterState where
  service : Service
  workers : List ParameterPhase

inductive ParameterAction where
  /-- An idle worker takes a request from the queue. -/
  | handle (worker : Nat) (command : ParameterCommand)
  /-- A worker makes its next call. -/
  | advance (worker : Nat)

def parameterStep (state : ParameterState) :
    ParameterAction → Option (ParameterState × List (ParameterCommand × Response))
  | .handle worker command =>
      match state.workers[worker]? with
      | some .idle => some ({ state with workers := state.workers.set worker command.begin }, [])
      | _ => none
  | .advance worker =>
      match state.workers[worker]? with
      | none => none
      | some phase =>
          (phase.advance lib state.service).map fun result =>
            ({ service := result.1, workers := state.workers.set worker result.2.1 },
              result.2.2.toList)

/-- The commands on `threads` workers; the history lists them as they answer. -/
def parameterMachine (threads : Nat) (start : Service) :
    Machine ParameterState ParameterAction (ParameterCommand × Response) where
  init := { service := start, workers := List.replicate threads .idle }
  step := parameterStep lib

/-! ## One command at a time -/

/-- What the handler does with a command that no other one interrupts. -/
def ParameterCommand.serial (s : Service) : ParameterCommand → Except Bytes (Service × Response)
  | .setParameter body => cmdSetParameter lib s body
  | .getParameter body => (cmdGetParameter lib s body).map fun r => (s, r)
  | .listParameters => .ok (s, cmdListParameters s)

def serialParameters (start : Service) : Machine Service ParameterCommand Response where
  init := start
  step s command :=
    match command.serial lib s with
    | .error _ => none
    | .ok (next, r) => some (next, [r])

/-! ## A value that waits to be stored -/

section Prepared

variable {lib : JsonLibrary} {s next : Service} {body : Json} {name : Bytes} {v : ParamValue}
  {needsReopen : Bool}

/-- What `set_parameter` has read still holds. -/
structure Prepared (lib : JsonLibrary) (s : Service) (body : Json) (name : Bytes) (v : ParamValue)
    (needsReopen : Bool) : Prop where
  reads : ∃ nameJson value p, body.lookup (lit "name") = some nameJson ∧
    body.lookup (lit "value") = some value ∧ lib.getString nameJson = .ok name ∧
    s.params.get name = some p ∧ convertValue lib p.value value = .ok v ∧
    p.needsReopen = needsReopen

/-- The conversion depends on the alternative only. -/
theorem convertValue_congr {first second : ParamValue} (hindex : first.index = second.index)
    (value : Json) : convertValue lib first value = convertValue lib second value := by
  cases first with
  | integer a =>
      cases second with
      | integer b => rfl
      | float b => simp [ParamValue.index] at hindex
      | enum b => simp [ParamValue.index] at hindex
  | float a =>
      cases second with
      | integer b => simp [ParamValue.index] at hindex
      | float b => rfl
      | enum b => simp [ParamValue.index] at hindex
  | enum a =>
      cases second with
      | integer b => simp [ParamValue.index] at hindex
      | float b => simp [ParamValue.index] at hindex
      | enum b => rfl

/-- A value that waits is converted the same after other values are stored. -/
theorem Prepared.rewritten (hprepared : Prepared lib s body name v needsReopen)
    (hrewritten : RewrittenAll s.params next.params) :
    Prepared lib next body name v needsReopen := by
  obtain ⟨nameJson, value, p, hname, hvalue, hstring, hget, hconvert, hreopen⟩ := hprepared.reads
  obtain ⟨q, hq, hparameter⟩ := hrewritten.of_registered hget
  refine ⟨nameJson, value, q, hname, hvalue, hstring, hq, ?_, ?_⟩
  · rw [convertValue_congr hparameter.index_eq, hconvert]
  · obtain ⟨stored, rfl, -⟩ := hparameter
    exact hreopen

theorem setPrepare_prepared {phase : ParameterPhase}
    (hprepare : setPrepare lib s body = .ok (.inr phase)) :
    ∃ name v needsReopen, phase = .setStores body name v needsReopen ∧
      Prepared lib s body name v needsReopen := by
  unfold setPrepare at hprepare
  split at hprepare
  next nameJson value hname hvalue =>
    split at hprepare
    next => contradiction
    next name hstring =>
      split at hprepare
      next =>
        cases hprepare
      next p hget =>
        obtain ⟨v, hconvert, hphase⟩ := map_eq_ok.mp hprepare
        exact ⟨name, v, p.needsReopen, (Sum.inr.inj hphase).symm,
          ⟨nameJson, value, p, hname, hvalue, hstring, hget, hconvert, rfl⟩⟩
  next => cases hprepare

/-- An answer without a store is that of the handler. -/
theorem setPrepare_answers {r : Response} (hprepare : setPrepare lib s body = .ok (.inl r)) :
    cmdSetParameter lib s body = .ok (s, r) := by
  unfold setPrepare at hprepare
  unfold cmdSetParameter
  cases hname : body.lookup (lit "name") with
  | none =>
      rw [hname] at hprepare
      rw [Sum.inl.inj (Except.ok.inj hprepare)]
  | some nameJson =>
      cases hvalue : body.lookup (lit "value") with
      | none =>
          rw [hname, hvalue] at hprepare
          rw [Sum.inl.inj (Except.ok.inj hprepare)]
      | some value =>
          rw [hname, hvalue] at hprepare
          dsimp only at hprepare ⊢
          cases hstring : lib.getString nameJson with
          | error what =>
              rw [hstring] at hprepare
              contradiction
          | ok name =>
              rw [hstring] at hprepare
              dsimp only at hprepare ⊢
              cases hget : s.params.get name with
              | none =>
                  rw [hget] at hprepare
                  rw [Sum.inl.inj (Except.ok.inj hprepare)]
              | some p =>
                  rw [hget] at hprepare
                  obtain ⟨v, -, hphase⟩ := map_eq_ok.mp hprepare
                  contradiction

/-- A prepared value that is refused is refused by the handler. -/
theorem Prepared.refused (hprepared : Prepared lib s body name v needsReopen) {err : Bytes}
    (hset : s.params.setValue name v = .error err) :
    cmdSetParameter lib s body = .ok (s, .fromError .invalidParam err) := by
  obtain ⟨nameJson, value, p, hname, hvalue, hstring, hget, hconvert, -⟩ := hprepared.reads
  simp only [cmdSetParameter, hname, hvalue, hstring, hget, hconvert, hset, Except.map]

/-- A prepared value that is stored is stored by the handler. -/
theorem Prepared.stored (hprepared : Prepared lib s body name v needsReopen)
    {params : ParameterManager} (hset : s.params.setValue name v = .ok params) :
    cmdSetParameter lib s body =
      .ok ({ s with params := params }, setAnswer name v needsReopen) := by
  obtain ⟨nameJson, value, p, hname, hvalue, hstring, hget, hconvert, rfl⟩ := hprepared.reads
  simp only [cmdSetParameter, hname, hvalue, hstring, hget, hconvert, hset, Except.map, setAnswer]

end Prepared

/-! ## Runs -/

/-- Every value that waits on a worker is still the one it would be converted to now. -/
def ParameterState.Ready (lib : JsonLibrary) (state : ParameterState) : Prop :=
  ∀ body name v needsReopen, ParameterPhase.setStores body name v needsReopen ∈ state.workers →
    Prepared lib state.service body name v needsReopen

section Runs

variable {lib : JsonLibrary} {threads : Nat} {start : Service}
  {history : List (ParameterCommand × Response)} {state next : ParameterState}

/-- A call stores a value or leaves the parameters, and leaves a prepared value at most
behind. -/
theorem ParameterPhase.advance_ready {s final : Service} {phase later : ParameterPhase}
    {answer : Option (ParameterCommand × Response)}
    (hadvance : phase.advance lib s = some (final, later, answer)) :
    RewrittenAll s.params final.params ∧ ∀ body name v needsReopen,
      later = .setStores body name v needsReopen → Prepared lib final body name v needsReopen := by
  cases phase with
  | idle => contradiction
  | setLooksUp body =>
      simp only [advance] at hadvance
      split at hadvance
      next => contradiction
      next =>
        cases hadvance
        exact ⟨.refl _, fun _ _ _ _ heq => by contradiction⟩
      next hprepare =>
        cases hadvance
        refine ⟨.refl _, fun other name v needsReopen heq => ?_⟩
        obtain ⟨name, v, needsReopen, rfl, hprepared⟩ := setPrepare_prepared hprepare
        cases heq
        exact hprepared
  | setStores body name v needsReopen =>
      simp only [advance] at hadvance
      split at hadvance
      next =>
        cases hadvance
        exact ⟨.refl _, fun _ _ _ _ heq => by contradiction⟩
      next hset =>
        cases hadvance
        exact ⟨(RewrittenAll.refl _).setValue hset, fun _ _ _ _ heq => by contradiction⟩
  | getLooksUp body =>
      simp only [advance] at hadvance
      split at hadvance
      next => contradiction
      next =>
        cases hadvance
        exact ⟨.refl _, fun _ _ _ _ heq => by contradiction⟩
  | listCopies =>
      cases hadvance
      exact ⟨.refl _, fun _ _ _ _ heq => by contradiction⟩

theorem ready_of_reaches (hreach : (parameterMachine lib threads start).Reachable history state) :
    state.Ready lib := by
  apply hreach.invariant fun _ state => state.Ready lib
  · intro body name v needsReopen hmem
    exact ParameterPhase.noConfusion (List.eq_of_mem_replicate hmem)
  · intro log before action after answers _ hready _ hstep
    change parameterStep lib before action = some (after, answers) at hstep
    cases action with
    | handle worker command =>
        simp only [parameterStep] at hstep
        split at hstep
        next =>
          obtain ⟨rfl, -⟩ := Prod.mk.inj (Option.some.inj hstep)
          intro body name v needsReopen hmem
          rcases List.mem_or_eq_of_mem_set hmem with hmem | heq
          · exact hready body name v needsReopen hmem
          · cases command <;> exact ParameterPhase.noConfusion heq
        next => contradiction
    | advance worker =>
        simp only [parameterStep] at hstep
        split at hstep
        next => contradiction
        next phase hphase =>
          obtain ⟨⟨final, later, answer⟩, hadvance, hnext⟩ := Option.map_eq_some_iff.mp hstep
          obtain ⟨rfl, -⟩ := Prod.mk.inj hnext
          obtain ⟨hrewritten, hprepared⟩ := ParameterPhase.advance_ready hadvance
          intro body name v needsReopen hmem
          rcases List.mem_or_eq_of_mem_set hmem with hmem | heq
          · exact (hready body name v needsReopen hmem).rewritten hrewritten
          · exact hprepared body name v needsReopen heq.symm

/-- A call that answers does what the whole command would do now, and one that does not
answer changes nothing. -/
theorem ParameterPhase.advance_serial {s final : Service} {phase later : ParameterPhase}
    {answer : Option (ParameterCommand × Response)}
    (hready : ∀ body name v needsReopen, phase = .setStores body name v needsReopen →
      Prepared lib s body name v needsReopen)
    (hadvance : phase.advance lib s = some (final, later, answer)) :
    (answer = none ∧ final = s) ∨
      ∃ command r, answer = some (command, r) ∧ command.serial lib s = .ok (final, r) := by
  cases phase with
  | idle => contradiction
  | setLooksUp body =>
      simp only [advance] at hadvance
      split at hadvance
      next => contradiction
      next r hprepare =>
        cases hadvance
        exact .inr ⟨_, _, rfl, setPrepare_answers hprepare⟩
      next =>
        cases hadvance
        exact .inl ⟨rfl, rfl⟩
  | setStores body name v needsReopen =>
      have hprepared := hready body name v needsReopen rfl
      simp only [advance] at hadvance
      split at hadvance
      next hset =>
        cases hadvance
        exact .inr ⟨_, _, rfl, hprepared.refused hset⟩
      next hset =>
        cases hadvance
        exact .inr ⟨_, _, rfl, hprepared.stored hset⟩
  | getLooksUp body =>
      simp only [advance] at hadvance
      split at hadvance
      next => contradiction
      next r hget =>
        cases hadvance
        exact .inr ⟨_, _, rfl, congrArg (Except.map fun r => (s, r)) hget⟩
  | listCopies =>
      cases hadvance
      exact .inr ⟨_, _, rfl, rfl⟩

/-- Whatever the workers do between their calls, every command has the answer and the
effect it has when the commands run one at a time, in the order of their answers. -/
theorem parameter_answers_serial
    (hreach : (parameterMachine lib threads start).Reachable history state) :
    (serialParameters lib start).runFrom start (history.map Prod.fst) =
      some (state.service, history.map Prod.snd) := by
  refine hreach.serial (serialParameters lib start) ParameterState.service rfl ?_
  intro log before action after answers hbefore _ hstep
  change parameterStep lib before action = some (after, answers) at hstep
  cases action with
  | handle worker command =>
      simp only [parameterStep] at hstep
      split at hstep
      next =>
        obtain ⟨rfl, rfl⟩ := Prod.mk.inj (Option.some.inj hstep)
        rfl
      next => contradiction
  | advance worker =>
      simp only [parameterStep] at hstep
      split at hstep
      next => contradiction
      next phase hphase =>
        obtain ⟨⟨final, later, answer⟩, hadvance, hnext⟩ := Option.map_eq_some_iff.mp hstep
        obtain ⟨rfl, rfl⟩ := Prod.mk.inj hnext
        have hready : ∀ body name v needsReopen, phase = .setStores body name v needsReopen →
            Prepared lib before.service body name v needsReopen := by
          rintro body name v needsReopen rfl
          exact ready_of_reaches hbefore body name v needsReopen (List.mem_of_getElem? hphase)
        rcases ParameterPhase.advance_serial hready hadvance with
          ⟨rfl, rfl⟩ | ⟨command, r, rfl, hserial⟩
        · rfl
        · simp only [Option.toList_some, List.map_cons, List.map_nil, Machine.runFrom,
            serialParameters, hserial, List.append_nil]

end Runs

/-- A service with the parameters of a default configuration. -/
def gainService : Service where
  params := registerParameters {} {}
  pipeline := .create 1

def gainBody (v : Int) : Json :=
  .object [(lit "name", .string (lit "gain")), (lit "value", .integer v)]

/-- Two workers set the gain, one while the value of the other waits, and the gain is
read between the stores. -/
def gainRaces : List ParameterAction :=
  [.handle 0 (.setParameter (gainBody 60)), .advance 0, .handle 1 (.setParameter (gainBody 70)),
    .advance 1, .advance 1, .handle 1 (.getParameter (gainBody 0)), .advance 1, .advance 0]

theorem gainRaces_serial :
    ∃ state history, (parameterMachine .plain 2 gainService).runFrom
        (parameterMachine .plain 2 gainService).init gainRaces = some (state, history) ∧
      (serialParameters .plain gainService).runFrom gainService (history.map Prod.fst) =
        some (state.service, history.map Prod.snd) := by
  have hruns : ((parameterMachine .plain 2 gainService).runFrom
      (parameterMachine .plain 2 gainService).init gainRaces).isSome = true := by
    decide +kernel
  obtain ⟨⟨state, history⟩, hrun⟩ := Option.isSome_iff_exists.mp hruns
  exact ⟨state, history, hrun, parameter_answers_serial (Machine.reachable_of_runFrom hrun)⟩

end SimVision
