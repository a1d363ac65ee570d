import Mathlib.Tactic.Common

/-! # Computations with a state that may stop early

`Effect` threads a state through a computation that can be left by an exit. The
state reached survives the exit, as members assigned before a C++ `throw` or an
early `return` do. Two judgements speak of the state a computation leaves; a third, in
the manner of a Hoare triple, also of the condition under which it is not left early.
-/

namespace SimVision.Foundation

universe u

/-- A mapped result returns what its value is mapped to. -/
theorem map_eq_ok {ε α β : Type*} {f : α → β} {result : Except ε α} {value : β} :
    result.map f = .ok value ↔ ∃ inner, result = .ok inner ∧ f inner = value := by
  cases result with
  | error e => simp [Except.map]
  | ok inner => simp [Except.map]

/-- A computation on `State` with exits of type `Exit`. -/
abbrev Effect (Exit State : Type u) := ExceptT Exit (StateM State)

namespace Effect

variable {Exit State α β : Type u}

/-- The outcome and the final state from a starting state. -/
def execute (program : Effect Exit State α) (state : State) : Except Exit α × State :=
  program.run.run state

/-- The value of a conversion that may throw. -/
def ofExcept {ε : Type u} (exit : ε → Exit) : Except ε α → Effect Exit State α
  | .ok value => pure value
  | .error e => throw (exit e)

@[simp] theorem execute_pure (value : α) (state : State) :
    execute (pure value : Effect Exit State α) state = (.ok value, state) := rfl

@[simp] theorem execute_throw (exit : Exit) (state : State) :
    execute (throw exit : Effect Exit State α) state = (.error exit, state) := rfl

@[simp] theorem execute_modify (f : State → State) (state : State) :
    execute (modify f : Effect Exit State PUnit) state = (.ok ⟨⟩, f state) := rfl

@[simp] theorem execute_get (state : State) :
    execute (get : Effect Exit State State) state = (.ok state, state) := rfl

theorem execute_bind (program : Effect Exit State α) (next : α → Effect Exit State β)
    (state : State) :
    execute (program >>= next) state =
      match execute program state with
      | (.ok value, middle) => execute (next value) middle
      | (.error exit, middle) => (.error exit, middle) := by
  change (StateT.bind program.run (ExceptT.bindCont next)).run state = _
  rcases hrun : program.run.run state with ⟨outcome, middle⟩
  have hexecute : execute program state = (outcome, middle) := hrun
  rw [hexecute]
  change (match program.run.run state with
    | (a, s) => (ExceptT.bindCont next a).run s) = _
  rw [hrun]
  cases outcome with
  | ok value => rfl
  | error exit => rfl

/-- Whatever the outcome, the final state satisfies what the initial one did. -/
def Keeps (inv : State → Prop) (program : Effect Exit State α) : Prop :=
  ∀ state, inv state → inv (execute program state).2

/-- A computation that was not left early ends in a state of the predicate. -/
def Establishes (post : State → Prop) (program : Effect Exit State α) : Prop :=
  ∀ state value, (execute program state).1 = .ok value → post (execute program state).2

namespace Keeps

variable {inv : State → Prop}

theorem pure (value : α) : Keeps inv (Pure.pure value : Effect Exit State α) :=
  fun _ hinv => hinv

theorem throw (exit : Exit) : Keeps inv (MonadExcept.throw exit : Effect Exit State α) :=
  fun _ hinv => hinv

theorem modify {f : State → State} (hkeep : ∀ state, inv state → inv (f state)) :
    Keeps inv (modify f : Effect Exit State PUnit) :=
  hkeep

theorem get : Keeps inv (MonadState.get : Effect Exit State State) :=
  fun _ hinv => hinv

theorem ofExcept {ε : Type u} (exit : ε → Exit) (result : Except ε α) :
    Keeps inv (Effect.ofExcept exit result : Effect Exit State α) := by
  cases result with
  | ok value => exact pure value
  | error e => exact throw (exit e)

theorem bind {program : Effect Exit State α} {next : α → Effect Exit State β}
    (hfirst : Keeps inv program) (hnext : ∀ value, Keeps inv (next value)) :
    Keeps inv (program >>= next) := by
  intro state hinv
  have hmiddle := hfirst state hinv
  rw [execute_bind]
  split
  next value middle hrun =>
    rw [hrun] at hmiddle
    exact hnext value middle hmiddle
  next exit middle hrun =>
    rw [hrun] at hmiddle
    exact hmiddle

theorem ite {condition : Prop} [Decidable condition] {first second : Effect Exit State α}
    (hfirst : condition → Keeps inv first) (hsecond : ¬ condition → Keeps inv second) :
    Keeps inv (if condition then first else second) := by
  split
  next hcondition => exact hfirst hcondition
  next hcondition => exact hsecond hcondition

end Keeps

namespace Establishes

variable {post : State → Prop}

/-- A later part that keeps the predicate may follow the part that establishes it. -/
theorem then_keeps {program : Effect Exit State α} {next : α → Effect Exit State β}
    (hfirst : Establishes post program) (hnext : ∀ value, Keeps post (next value)) :
    Establishes post (program >>= next) := by
  intro state value hrun
  rw [execute_bind] at hrun ⊢
  split at hrun
  next middle state' hmiddle =>
    have hpost := hfirst state middle (by rw [hmiddle])
    rw [hmiddle] at hpost
    exact hnext middle state' hpost
  next => contradiction

/-- Whatever comes before, a last part that establishes the predicate does so. -/
theorem after {program : Effect Exit State α} {next : α → Effect Exit State β}
    (hnext : ∀ value, Establishes post (next value)) : Establishes post (program >>= next) := by
  intro state value hrun
  rw [execute_bind] at hrun ⊢
  split at hrun
  next middle state' hmiddle => exact hnext middle state' value hrun
  next => contradiction

end Establishes

/-- From the states of `pre`, a computation is not left early exactly under the
condition, and then it ends in a state of `post`. -/
def Returns (pre : State → Prop) (condition : Prop) (program : Effect Exit State α)
    (post : State → Prop) : Prop :=
  ∀ state, pre state → ((∃ value, (execute program state).1 = .ok value) ↔ condition) ∧
    ∀ value, (execute program state).1 = .ok value → post (execute program state).2

namespace Returns

variable {pre post : State → Prop} {condition second : Prop}

theorem pure (value : α) : Returns pre True (Pure.pure value : Effect Exit State α) pre :=
  fun _ hpre => ⟨iff_true_intro ⟨value, rfl⟩, fun _ _ => hpre⟩

theorem throw (exit : Exit) :
    Returns pre False (MonadExcept.throw exit : Effect Exit State α) post :=
  fun _ _ => ⟨iff_false_intro fun ⟨_, hrun⟩ => by contradiction, fun _ hrun => by contradiction⟩

theorem modify {f : State → State} (hassign : ∀ state, pre state → post (f state)) :
    Returns pre True (modify f : Effect Exit State PUnit) post :=
  fun state hpre => ⟨iff_true_intro ⟨⟨⟩, rfl⟩, fun _ _ => hassign state hpre⟩

theorem ofExcept {ε : Type u} (exit : ε → Exit) (result : Except ε α) :
    Returns pre (∃ value, result = .ok value) (Effect.ofExcept exit result : Effect Exit State α)
      pre := by
  cases result with
  | ok value => exact fun _ hpre => ⟨iff_of_true ⟨value, rfl⟩ ⟨value, rfl⟩, fun _ _ => hpre⟩
  | error e =>
      refine fun _ _ => ⟨iff_of_false ?_ ?_, fun _ hrun => by contradiction⟩
      · exact fun ⟨_, hrun⟩ => by contradiction
      · exact fun ⟨_, hvalue⟩ => by contradiction

theorem of_iff {other : Prop} {program : Effect Exit State α}
    (hprogram : Returns pre condition program post) (hiff : condition ↔ other) :
    Returns pre other program post :=
  fun state hpre => ⟨(hprogram state hpre).1.trans hiff, (hprogram state hpre).2⟩

theorem mono {later : State → Prop} {program : Effect Exit State α}
    (hprogram : Returns pre condition program post) (hpost : ∀ state, post state → later state) :
    Returns pre condition program later :=
  fun state hpre =>
    ⟨(hprogram state hpre).1, fun value hrun => hpost _ ((hprogram state hpre).2 value hrun)⟩

/-- The second part runs in the states that the first one ends in. -/
theorem bind (mid : State → Prop) {program : Effect Exit State α} {next : α → Effect Exit State β}
    (hfirst : Returns pre condition program mid)
    (hnext : ∀ value, Returns mid second (next value) post) :
    Returns pre (condition ∧ second) (program >>= next) post := by
  intro state hpre
  obtain ⟨hreturns, hmid⟩ := hfirst state hpre
  rw [execute_bind]
  rcases hrun : execute program state with ⟨outcome, middle⟩
  rw [hrun] at hreturns hmid
  cases outcome with
  | ok value =>
      obtain ⟨hsecond, hpost⟩ := hnext value middle (hmid value rfl)
      refine ⟨hsecond.trans ?_, hpost⟩
      exact (and_iff_right (hreturns.mp ⟨value, rfl⟩)).symm
  | error exit =>
      refine ⟨iff_of_false (fun ⟨_, hok⟩ => by contradiction) fun ⟨hcondition, _⟩ => ?_,
        fun _ hok => by contradiction⟩
      obtain ⟨value, hok⟩ := hreturns.mpr hcondition
      contradiction

/-- What is read of the state may decide. -/
theorem get_bind {next : State → Effect Exit State β}
    (hnext : ∀ state, pre state → Returns (· = state) condition (next state) post) :
    Returns pre condition (MonadState.get >>= next) post := by
  intro state hpre
  rw [execute_bind]
  exact hnext state hpre state rfl

theorem ite {test : Prop} [Decidable test] {first last : Effect Exit State α}
    (hfirst : test → Returns pre condition first post)
    (hlast : ¬ test → Returns pre second last post) :
    Returns pre ((test → condition) ∧ (¬ test → second)) (if test then first else last) post := by
  by_cases htest : test
  · rw [if_pos htest]
    refine (hfirst htest).of_iff ⟨fun hholds => ⟨fun _ => hholds, ?_⟩, fun hboth => hboth.1 htest⟩
    exact fun hnot => absurd htest hnot
  · rw [if_neg htest]
    refine (hlast htest).of_iff ⟨fun hholds => ⟨?_, fun _ => hholds⟩, fun hboth => hboth.2 htest⟩
    exact fun hyes => absurd hyes htest

/-- A check that leaves early. -/
theorem check {test : Prop} [Decidable test] {exit : Exit} {value : α} :
    Returns pre (¬ test)
      (if test then MonadExcept.throw exit else Pure.pure value : Effect Exit State α) pre := by
  refine (ite (fun _ => throw exit) fun _ => pure value).of_iff ?_
  exact ⟨fun hboth => hboth.1, fun hnot => ⟨hnot, fun _ => trivial⟩⟩

end Returns

end Effect

end SimVision.Foundation
