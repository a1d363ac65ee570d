import Mathlib.Tactic.Common

/-! # Parties that do not see each other

A shared state serves inputs one after another, and every input belongs to one
party. When an input moves the view of its own party as a function of that view
alone and leaves the other views as they are, the inputs of one party determine
what that party ends up with and is answered.
-/

namespace SimVision.Foundation

universe u v w x y

variable {State : Type u} {Input : Type v} {Output : Type w}

/-- The state after a list of inputs, and each input with its output. -/
def serveAll (step : State → Input → State × Output) :
    State → List Input → State × List (Input × Output)
  | state, [] => (state, [])
  | state, input :: rest =>
      ((serveAll step (step state input).1 rest).1,
        (input, (step state input).2) :: (serveAll step (step state input).1 rest).2)

theorem serveAll_cons (step : State → Input → State × Output) (state : State) (input : Input)
    (rest : List Input) : serveAll step state (input :: rest) =
      ((serveAll step (step state input).1 rest).1,
        (input, (step state input).2) :: (serveAll step (step state input).1 rest).2) := rfl

theorem serveAll_append (step : State → Input → State × Output) (state : State)
    (first second : List Input) : serveAll step state (first ++ second) =
      ((serveAll step (serveAll step state first).1 second).1,
        (serveAll step state first).2 ++
          (serveAll step (serveAll step state first).1 second).2) := by
  induction first generalizing state with
  | nil => rfl
  | cons input rest ih =>
      rw [List.cons_append, serveAll, ih, serveAll]
      rfl

/-- What holds of a state and is kept by every step holds after all inputs. -/
theorem serveAll_invariant {step : State → Input → State × Output} {inv : State → Prop}
    (hstep : ∀ state input, inv state → inv (step state input).1) (state : State)
    (inputs : List Input) (hstate : inv state) : inv (serveAll step state inputs).1 := by
  induction inputs generalizing state with
  | nil => exact hstate
  | cons input rest ih => exact ih _ (hstep state input hstate)

/-- Views of the parties with the two conditions on a single step. -/
structure Isolation (step : State → Input → State × Output) (Party : Type x) (View : Type y) where
  owner : Input → Party
  view : Party → State → View
  /-- What an input does to the view of its owner. -/
  move : View → Input → View × Output
  own : ∀ state input,
    (view (owner input) (step state input).1, (step state input).2) =
      move (view (owner input) state) input
  other : ∀ state input party, party ≠ owner input →
    view party (step state input).1 = view party state

namespace Isolation

variable {step : State → Input → State × Output} {Party : Type x} {View : Type y}
variable [DecidableEq Party] (iso : Isolation step Party View)

/-- The inputs of one party. -/
def inputsOf (party : Party) (inputs : List Input) : List Input :=
  inputs.filter fun input => iso.owner input = party

/-- What one party is answered. -/
def answersTo (party : Party) (answers : List (Input × Output)) : List (Input × Output) :=
  answers.filter fun answer => iso.owner answer.1 = party

/-- A party is left with what its own inputs alone would leave it with, and is
answered the same. -/
theorem serveAll_project (party : Party) (state : State) (inputs : List Input) :
    (iso.view party (serveAll step state inputs).1,
        iso.answersTo party (serveAll step state inputs).2) =
      serveAll iso.move (iso.view party state) (iso.inputsOf party inputs) := by
  induction inputs generalizing state with
  | nil => rfl
  | cons input rest ih =>
      have hrest := ih (step state input).1
      by_cases howner : iso.owner input = party
      · have hown := iso.own state input
        rw [howner] at hown
        rw [inputsOf, List.filter_cons_of_pos (by simpa using howner), serveAll, serveAll, ← hown,
          answersTo, List.filter_cons_of_pos (by simpa using howner)]
        dsimp only
        rw [← inputsOf, ← hrest, answersTo]
      · have hother := iso.other state input party (Ne.symm howner)
        rw [inputsOf, List.filter_cons_of_neg (by simpa using howner), serveAll, answersTo,
          List.filter_cons_of_neg (by simpa using howner), ← inputsOf, ← hother, ← hrest, answersTo]

/-- Two orders of inputs are the same to a party whose own inputs come in the
same order. -/
theorem serveAll_congr {party : Party} {first second : List Input} (state : State)
    (hsame : iso.inputsOf party first = iso.inputsOf party second) :
    iso.view party (serveAll step state first).1 = iso.view party (serveAll step state second).1 ∧
      iso.answersTo party (serveAll step state first).2 =
        iso.answersTo party (serveAll step state second).2 := by
  have hfirst := iso.serveAll_project party state first
  rw [hsame, ← iso.serveAll_project party state second] at hfirst
  exact Prod.mk.inj hfirst

theorem inputsOf_append (party : Party) (first second : List Input) :
    iso.inputsOf party (first ++ second) =
      iso.inputsOf party first ++ iso.inputsOf party second := by
  rw [inputsOf, List.filter_append]
  rfl

/-- An input that comes again before the next other input of its owner, if its move
changes a view once only: every view is the same as without the repetition, and
nothing is added but the repeated answer. -/
theorem serveAll_retry {input : Input}
    (honce : ∀ v, (iso.move (iso.move v input).1 input).1 = (iso.move v input).1)
    (state : State) (before between after : List Input)
    (hothers : ∀ other ∈ between, iso.owner other ≠ iso.owner input) (party : Party) :
    iso.view party (serveAll step state (before ++ input :: between ++ input :: after)).1 =
        iso.view party (serveAll step state (before ++ input :: between ++ after)).1 ∧
      ∃ earlier later repeated,
        iso.answersTo party (serveAll step state (before ++ input :: between ++ after)).2 =
          earlier ++ later ∧
        iso.answersTo party (serveAll step state (before ++ input :: between ++ input :: after)).2 =
          earlier ++ repeated ++ later ∧
        ∀ answer ∈ repeated, answer.1 = input := by
  have hwith := iso.serveAll_project party state (before ++ input :: between ++ input :: after)
  have hwithout := iso.serveAll_project party state (before ++ input :: between ++ after)
  by_cases howner : iso.owner input = party
  · have hnone : iso.inputsOf party between = [] := by
      rw [inputsOf, List.filter_eq_nil_iff]
      intro other hother heq
      exact hothers other hother ((of_decide_eq_true heq).trans howner.symm)
    have hcons : ∀ rest, iso.inputsOf party (input :: rest) = input :: iso.inputsOf party rest :=
      fun rest => List.filter_cons_of_pos (decide_eq_true howner)
    have hown : iso.inputsOf party (before ++ input :: between ++ input :: after) =
        iso.inputsOf party before ++ input :: input :: iso.inputsOf party after := by
      rw [inputsOf_append, inputsOf_append, hcons, hcons, hnone, List.append_assoc]
      rfl
    have honly : iso.inputsOf party (before ++ input :: between ++ after) =
        iso.inputsOf party before ++ input :: iso.inputsOf party after := by
      rw [inputsOf_append, inputsOf_append, hcons, hnone, List.append_assoc]
      rfl
    rw [hown, serveAll_append iso.move, serveAll_cons iso.move, serveAll_cons iso.move, honce]
      at hwith
    rw [honly, serveAll_append iso.move, serveAll_cons iso.move] at hwithout
    generalize serveAll iso.move (iso.view party state) (iso.inputsOf party before) = started
      at hwith hwithout
    obtain ⟨hview, hanswers⟩ := Prod.mk.inj hwith
    obtain ⟨hviewOnly, hanswersOnly⟩ := Prod.mk.inj hwithout
    refine ⟨hview.trans hviewOnly.symm, started.2 ++ [(input, (iso.move started.1 input).2)],
      (serveAll iso.move (iso.move started.1 input).1 (iso.inputsOf party after)).2,
      [(input, (iso.move (iso.move started.1 input).1 input).2)], ?_, ?_, ?_⟩
    · rw [hanswersOnly, List.append_assoc]
      rfl
    · rw [hanswers, List.append_assoc, List.append_assoc]
      rfl
    · exact fun answer hanswer => congrArg Prod.fst (List.mem_singleton.mp hanswer)
  · have hskip : iso.inputsOf party (input :: after) = iso.inputsOf party after :=
      List.filter_cons_of_neg fun heq => howner (of_decide_eq_true heq)
    have hsame : iso.inputsOf party (before ++ input :: between ++ input :: after) =
        iso.inputsOf party (before ++ input :: between ++ after) := by
      rw [inputsOf_append, hskip, ← inputsOf_append]
    obtain ⟨hview, hanswers⟩ := iso.serveAll_congr state hsame
    refine ⟨hview, _, [], [], (List.append_nil _).symm, ?_, fun _ hanswer => ?_⟩
    · rw [hanswers, List.append_nil, List.append_nil]
    · exact absurd hanswer List.not_mem_nil

end Isolation

end SimVision.Foundation
