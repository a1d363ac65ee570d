import Mathlib.Data.List.Perm.Basic
import Mathlib.Tactic.Common

/-! # Machines driven by a schedule

A machine moves only when the schedule names an enabled action, so a list of
actions is one interleaving of the parties the actions belong to. The events of
the steps form the history of the run. Invariants may speak of that history, and
a guard on steps restricts attention to the runs that respect it.
-/

namespace SimVision.Foundation

universe u v w x

/-- One transition system: `step` is undefined exactly when the action is not
enabled in the state. -/
structure Machine (State : Type u) (Action : Type v) (Event : Type w) where
  init : State
  step : State → Action → Option (State × List Event)

namespace Machine

variable {State : Type u} {Action : Type v} {Event : Type w}
variable (M : Machine State Action Event)

/-- Execute a schedule, collecting the events of its steps. -/
def runFrom : State → List Action → Option (State × List Event)
  | state, [] => some (state, [])
  | state, action :: rest =>
      match M.step state action with
      | none => none
      | some (next, events) =>
          match runFrom next rest with
          | none => none
          | some (final, later) => some (final, events ++ later)

/-- Every step of the schedule satisfies `guard` in the state it is taken from. -/
def Guarded (guard : State → Action → Prop) : State → List Action → Prop
  | _, [] => True
  | state, action :: rest =>
      guard state action ∧
        match M.step state action with
        | none => True
        | some (next, _) => Guarded guard next rest

theorem guarded_of_mem {guard : State → Action → Prop} {schedule : List Action}
    (hguard : ∀ action ∈ schedule, ∀ state, guard state action) (state : State) :
    M.Guarded guard state schedule := by
  induction schedule generalizing state with
  | nil => trivial
  | cons action rest ih =>
      refine ⟨hguard action List.mem_cons_self state, ?_⟩
      split
      · trivial
      · exact ih (fun other hother => hguard other (List.mem_cons_of_mem action hother)) _

theorem guarded_of_forall {guard : State → Action → Prop}
    (hguard : ∀ state action, guard state action) (state : State) (schedule : List Action) :
    M.Guarded guard state schedule :=
  M.guarded_of_mem (fun action _ state => hguard state action) state

instance decidableGuarded (guard : State → Action → Prop)
    [hguard : ∀ state action, Decidable (guard state action)] :
    ∀ state schedule, Decidable (M.Guarded guard state schedule)
  | _, [] => isTrue trivial
  | state, action :: rest =>
      match hguard state action with
      | isFalse hnot => isFalse fun hall => hnot hall.1
      | isTrue hfirst =>
          match hstep : M.step state action with
          | none => isTrue ⟨hfirst, by rw [hstep]; trivial⟩
          | some (next, _) =>
              match decidableGuarded guard next rest with
              | isTrue hrest => isTrue ⟨hfirst, by rw [hstep]; exact hrest⟩
              | isFalse hnot => isFalse fun hall => hnot (by simpa only [hstep] using hall.2)

/-- Histories and states reached from `init` by steps that all satisfy `guard`. -/
inductive Reaches (guard : State → Action → Prop) : List Event → State → Prop
  | init : Reaches guard [] M.init
  | step {history : List Event} {state next : State} {action : Action} {events : List Event} :
      Reaches guard history state → guard state action →
      M.step state action = some (next, events) → Reaches guard (history ++ events) next

/-- Reachability with no restriction on the steps taken. -/
def Reachable : List Event → State → Prop :=
  M.Reaches fun _ _ => True

variable {M} {guard : State → Action → Prop}

namespace Reaches

theorem mono {guard' : State → Action → Prop}
    (himp : ∀ state action, guard state action → guard' state action)
    {history : List Event} {state : State} (hreach : M.Reaches guard history state) :
    M.Reaches guard' history state := by
  induction hreach with
  | init => exact .init
  | step _ hguard hstep ih => exact .step ih (himp _ _ hguard) hstep

theorem reachable {history : List Event} {state : State}
    (hreach : M.Reaches guard history state) : M.Reachable history state :=
  hreach.mono fun _ _ _ => trivial

/-- The invariant rule: a predicate of history and state that holds initially
and is kept by every guarded step holds wherever guarded steps lead. -/
theorem invariant (inv : List Event → State → Prop) (hinit : inv [] M.init)
    (hstep : ∀ history state action next events, M.Reaches guard history state →
      inv history state → guard state action → M.step state action = some (next, events) →
      inv (history ++ events) next)
    {history : List Event} {state : State} (hreach : M.Reaches guard history state) :
    inv history state := by
  induction hreach with
  | init => exact hinit
  | step hbefore hguard hnext ih => exact hstep _ _ _ _ _ hbefore ih hguard hnext

/-- A guarded schedule leads where guarded steps lead. -/
theorem runGuarded {history : List Event} {state : State} (hreach : M.Reaches guard history state)
    {schedule : List Action} (hguarded : M.Guarded guard state schedule) {final : State}
    {later : List Event} (hrun : M.runFrom state schedule = some (final, later)) :
    M.Reaches guard (history ++ later) final := by
  induction schedule generalizing history state later with
  | nil =>
      simp only [runFrom, Option.some.injEq, Prod.mk.injEq] at hrun
      obtain ⟨rfl, rfl⟩ := hrun
      simpa using hreach
  | cons action rest ih =>
      obtain ⟨hguard, hrest⟩ := hguarded
      simp only [runFrom] at hrun
      split at hrun
      next => contradiction
      next next events hstep =>
        rw [hstep] at hrest
        split at hrun
        next => contradiction
        next last events' hlast =>
          simp only [Option.some.injEq, Prod.mk.injEq] at hrun
          obtain ⟨rfl, rfl⟩ := hrun
          rw [← List.append_assoc]
          exact ih (.step hreach hguard hstep) hrest hlast

end Reaches

/-- What is kept by every step of a kind of action is kept by schedules of such actions. -/
theorem runFrom_invariant {allowed : Action → Prop} (inv : State → Prop)
    (hstep : ∀ state action next events, inv state → allowed action →
      M.step state action = some (next, events) → inv next)
    {state final : State} {schedule : List Action} {events : List Event}
    (hallowed : ∀ action ∈ schedule, allowed action) (hstate : inv state)
    (hrun : M.runFrom state schedule = some (final, events)) : inv final := by
  induction schedule generalizing state events with
  | nil =>
      simp only [runFrom, Option.some.injEq, Prod.mk.injEq] at hrun
      rw [← hrun.1]
      exact hstate
  | cons action rest ih =>
      simp only [runFrom] at hrun
      split at hrun
      next => contradiction
      next next events hnext =>
        split at hrun
        next => contradiction
        next last later hlast =>
          obtain ⟨rfl, -⟩ := Prod.mk.inj (Option.some.inj hrun)
          have hkept := hstep _ _ _ _ hstate (hallowed action List.mem_cons_self) hnext
          exact ih (fun other hother => hallowed other (List.mem_cons_of_mem action hother)) hkept
            hlast

theorem runFrom_append {state middle : State} {first second : List Action} {events : List Event}
    (hfirst : M.runFrom state first = some (middle, events)) :
    M.runFrom state (first ++ second) =
      (M.runFrom middle second).map fun result => (result.1, events ++ result.2) := by
  induction first generalizing state events with
  | nil =>
      obtain ⟨rfl, rfl⟩ := Prod.mk.inj (Option.some.inj hfirst)
      exact Option.map_id'.symm
  | cons action rest ih =>
      simp only [runFrom] at hfirst
      split at hfirst
      next => contradiction
      next next earlier hstep =>
        split at hfirst
        next => contradiction
        next last later hrest =>
          obtain ⟨rfl, rfl⟩ := Prod.mk.inj (Option.some.inj hfirst)
          rw [List.cons_append, runFrom, hstep]
          dsimp only
          rw [ih hrest]
          cases M.runFrom last second with
          | none => rfl
          | some result => simp only [Option.map_some, List.append_assoc]

/-- A machine whose steps answer operations behaves as a serial one: when every step
answers as the serial machine does from the state that is seen then, so does every run. -/
theorem Reaches.serial {Seen Op Ret : Type*}
    {N : Machine State Action (Op × Ret)}
    (A : Machine Seen Op Ret) (view : State → Seen) (hinit : view N.init = A.init)
    (hstep : ∀ history state action next answers, N.Reaches guard history state →
      guard state action → N.step state action = some (next, answers) →
      A.runFrom (view state) (answers.map Prod.fst) = some (view next, answers.map Prod.snd))
    {history : List (Op × Ret)} {state : State} (hreach : N.Reaches guard history state) :
    A.runFrom A.init (history.map Prod.fst) = some (view state, history.map Prod.snd) := by
  induction hreach with
  | init => rw [← hinit]; rfl
  | step hbefore hguard hnext ih =>
      rw [List.map_append, List.map_append, A.runFrom_append ih,
        hstep _ _ _ _ _ hbefore hguard hnext]
      rfl

/-- An executed schedule is a reachable history. -/
theorem reachable_of_runFrom {schedule : List Action} {final : State} {history : List Event}
    (hrun : M.runFrom M.init schedule = some (final, history)) : M.Reachable history final := by
  have hguarded : M.Guarded (fun _ _ => True) M.init schedule :=
    M.guarded_of_forall (fun _ _ => trivial) M.init schedule
  exact Reaches.init.runGuarded hguarded hrun

/-- Forward simulation: when a schedule of another machine matches every step of a kind of
action, a schedule matches every run of such actions. What is kept may speak of the
actions taken and of the events of the other machine. -/
theorem runFrom_simulated {State' Action' Event' : Type*} {N : Machine State' Action' Event'}
    {allowed : Action → Prop} (rel : List Action → State → List Event' → State' → Prop)
    (hstep : ∀ actions state history matched action next events,
      rel actions state history matched → allowed action →
      M.step state action = some (next, events) →
      ∃ steps later following, N.runFrom matched steps = some (following, later) ∧
        rel (actions ++ [action]) next (history ++ later) following)
    {state final : State} {actions schedule : List Action} {events : List Event}
    {history : List Event'} {matched : State'} (hallowed : ∀ action ∈ schedule, allowed action)
    (hrel : rel actions state history matched)
    (hrun : M.runFrom state schedule = some (final, events)) :
    ∃ steps later following, N.runFrom matched steps = some (following, later) ∧
      rel (actions ++ schedule) final (history ++ later) following := by
  induction schedule generalizing state actions history matched events with
  | nil =>
      obtain ⟨rfl, -⟩ := Prod.mk.inj (Option.some.inj hrun)
      exact ⟨[], [], matched, rfl, by simpa using hrel⟩
  | cons action rest ih =>
      simp only [runFrom] at hrun
      split at hrun
      next => contradiction
      next next first hnext =>
        split at hrun
        next => contradiction
        next last second hlast =>
          obtain ⟨rfl, -⟩ := Prod.mk.inj (Option.some.inj hrun)
          obtain ⟨hfirst, hrest⟩ := List.forall_mem_cons.mp hallowed
          obtain ⟨steps, later, following, hsteps, hfollowing⟩ :=
            hstep _ _ _ _ _ _ _ hrel hfirst hnext
          obtain ⟨more, latest, reached, hmore, hreached⟩ := ih hrest hfollowing hlast
          refine ⟨steps ++ more, later ++ latest, reached, ?_, ?_⟩
          · rw [N.runFrom_append hsteps, hmore]
            rfl
          · rwa [List.append_assoc, List.append_assoc, List.singleton_append] at hreached

/-- From the start, the run of the other machine is reachable. -/
theorem reachable_simulated {State' Action' Event' : Type*} {N : Machine State' Action' Event'}
    (rel : List Action → State → List Event' → State' → Prop) (hinit : rel [] M.init [] N.init)
    (hstep : ∀ actions state history matched action next events,
      rel actions state history matched → M.step state action = some (next, events) →
      ∃ steps later following, N.runFrom matched steps = some (following, later) ∧
        rel (actions ++ [action]) next (history ++ later) following)
    {final : State} {schedule : List Action} {events : List Event}
    (hrun : M.runFrom M.init schedule = some (final, events)) :
    ∃ history matched, N.Reachable history matched ∧ rel schedule final history matched := by
  have hall : ∀ action ∈ schedule, True := fun _ _ => trivial
  obtain ⟨steps, later, following, hsteps, hrel⟩ := runFrom_simulated rel
    (fun _ _ _ _ _ _ _ hbefore _ hnext => hstep _ _ _ _ _ _ _ hbefore hnext) hall hinit hrun
  exact ⟨later, following, reachable_of_runFrom hsteps, hrel⟩

end Machine

/-! ## Acceptors as abstract specifications -/

/-- An abstract object that accepts or refuses each event. -/
structure Acceptor (Abstract : Type x) (Event : Type w) where
  init : Abstract
  accept : Abstract → Event → Option Abstract

namespace Acceptor

variable {Abstract : Type x} {Event : Type w} (A : Acceptor Abstract Event)

/-- Replay a history on the abstract object. -/
def replayFrom : Abstract → List Event → Option Abstract
  | state, [] => some state
  | state, event :: rest => (A.accept state event).bind fun next => replayFrom next rest

/-- Replay a whole history from the initial abstract state. -/
def replay (history : List Event) : Option Abstract :=
  A.replayFrom A.init history

@[simp] theorem replayFrom_nil (state : Abstract) : A.replayFrom state [] = some state := rfl

theorem replayFrom_append (state : Abstract) (first second : List Event) :
    A.replayFrom state (first ++ second) =
      (A.replayFrom state first).bind fun next => A.replayFrom next second := by
  induction first generalizing state with
  | nil => rfl
  | cons event rest ih =>
      simp only [List.cons_append, replayFrom]
      cases A.accept state event with
      | none => rfl
      | some next => exact ih next

end Acceptor

/-- Refinement through an abstraction function: when every concrete step is
accepted by the abstract object, so is every concrete history. The visible part
of an event is selected by `visible`. -/
theorem Machine.Reaches.refines {State : Type u} {Action : Type v} {Event : Type w}
    {Abstract : Type x} {Visible : Type*} {M : Machine State Action Event}
    {guard : State → Action → Prop} (A : Acceptor Abstract Visible)
    (visible : Event → Option Visible) (abs : State → Abstract) (hinit : abs M.init = A.init)
    (bound : List Event → Prop)
    (hbound : ∀ history events, bound (history ++ events) → bound history)
    (hstep : ∀ history state action next events, M.Reaches guard history state →
      guard state action → M.step state action = some (next, events) →
      bound (history ++ events) →
      A.replayFrom (abs state) (events.filterMap visible) = some (abs next))
    {history : List Event} {state : State} (hreach : M.Reaches guard history state)
    (hbounded : bound history) :
    A.replay (history.filterMap visible) = some (abs state) := by
  induction hreach with
  | init => simp [Acceptor.replay, hinit]
  | step hbefore hguard hnext ih =>
      have hprior := ih (hbound _ _ hbounded)
      rw [Acceptor.replay] at hprior ⊢
      rw [List.filterMap_append, Acceptor.replayFrom_append, hprior]
      exact hstep _ _ _ _ _ hbefore hguard hnext hbounded

/-! ## Pools of workers

The phases of a pool are a list with one entry for each worker, and a step of one
worker replaces its entry. What a step does to a count over the pool, or to what
the pool holds together, depends on the two phases only.
-/

section Pool

variable {Phase : Type u} {Item : Type v} {workers : List Phase} {worker : Nat} {old : Phase}

/-- A step changes a count by what the two phases count for. -/
theorem countP_step (p : Phase → Bool) (hworker : workers[worker]? = some old) (new : Phase) :
    (workers.set worker new).countP p + (p old).toNat = workers.countP p + (p new).toNat := by
  induction workers generalizing worker with
  | nil => simp at hworker
  | cons first rest ih =>
      cases worker with
      | zero =>
          obtain rfl : first = old := by simpa using hworker
          simp only [List.set_cons_zero, List.countP_cons]
          cases p first <;> cases p new <;> rfl
      | succ worker =>
          have hold : rest[worker]? = some old := by simpa using hworker
          have hrest := ih hold
          simp only [List.set_cons_succ, List.countP_cons]
          omega

/-- A step exchanges what the old phase holds for what the new one holds. -/
theorem flatMap_step_perm (held : Phase → List Item) (hworker : workers[worker]? = some old)
    (new : Phase) : ((workers.set worker new).flatMap held ++ held old).Perm
      (workers.flatMap held ++ held new) := by
  induction workers generalizing worker with
  | nil => simp at hworker
  | cons first rest ih =>
      cases worker with
      | zero =>
          obtain rfl : first = old := by simpa using hworker
          simp only [List.set_cons_zero, List.flatMap_cons]
          refine (List.perm_append_comm).trans ?_
          rw [List.append_assoc]
          exact (List.perm_append_comm.append_left _)
      | succ worker =>
          have hold : rest[worker]? = some old := by simpa using hworker
          have hrest := ih hold
          simp only [List.set_cons_succ, List.flatMap_cons, List.append_assoc]
          exact hrest.append_left _

end Pool

end SimVision.Foundation
