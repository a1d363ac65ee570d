import Mathlib.Data.List.Induction
import Mathlib.Data.List.Perm.Basic
import SimVision.Foundation.Machine

/-! # Registers

A part of a state that some operations overwrite and all others leave alone. After
any operations it holds what the last one of the first kind has written, so it can
be read off a log of them.
-/

namespace SimVision.Foundation

universe u v w x

variable {State : Type u} {Op : Type v} {Value : Type w} {writes : Op → Option Value}

/-- What the last operation that writes has written. -/
def lastWrite (writes : Op → Option Value) (ops : List Op) : Option Value :=
  ops.reverse.findSome? writes

@[simp] theorem lastWrite_nil : lastWrite writes [] = none := rfl

theorem lastWrite_append (first second : List Op) :
    lastWrite writes (first ++ second) = (lastWrite writes second).or (lastWrite writes first) := by
  rw [lastWrite, List.reverse_append, List.findSome?_append]
  rfl

theorem lastWrite_singleton (op : Op) : lastWrite writes [op] = writes op := by
  rw [lastWrite, List.reverse_singleton, List.findSome?_singleton]

theorem exists_of_lastWrite {ops : List Op} {value : Value}
    (hlast : lastWrite writes ops = some value) : ∃ op ∈ ops, writes op = some value := by
  obtain ⟨op, hop, hwrites⟩ := List.exists_of_findSome?_eq_some hlast
  exact ⟨op, List.mem_reverse.mp hop, hwrites⟩

/-- A register after a sequence of operations. -/
theorem register_foldl (view : State → Value) {step : State → Op → State}
    (hstep : ∀ state op, view (step state op) = (writes op).getD (view state)) (state : State)
    (ops : List Op) : view (ops.foldl step state) = (lastWrite writes ops).getD (view state) := by
  induction ops using List.reverseRecOn with
  | nil => rfl
  | append_singleton ops op ih =>
      rw [List.foldl_append, List.foldl_cons, List.foldl_nil, hstep, ih, lastWrite_append,
        lastWrite_singleton]
      cases writes op with
      | none => rfl
      | some value => rfl

namespace Machine

variable {Action : Type v} {Event : Type x} {M : Machine State Action Event}
variable {guard : State → Action → Prop}

/-- The same machine, with each event beside the action it is from. -/
def logged (M : Machine State Action Event) : Machine State Action (Action × Event) where
  init := M.init
  step state action :=
    (M.step state action).map fun result => (result.1, result.2.map (Prod.mk action))

theorem logged_step {state next : State} {action : Action} {entries : List (Action × Event)}
    (hstep : M.logged.step state action = some (next, entries)) :
    ∃ events, M.step state action = some (next, events) ∧
      entries = events.map (Prod.mk action) := by
  obtain ⟨⟨final, events⟩, hfinal, heq⟩ := Option.map_eq_some_iff.mp hstep
  cases heq
  exact ⟨events, hfinal, rfl⟩

namespace Reaches

/-- When a step has at most one event, every event of a history is from a step that
starts where the events before it lead. -/
theorem exists_step (hone : ∀ state action next events, M.step state action = some (next, events) →
      events.length ≤ 1) {history : List Event} {state : State}
    (hreach : M.Reaches guard history state) {before after : List Event} {event : Event}
    (hsplit : history = before ++ event :: after) :
    ∃ start action next, M.Reaches guard before start ∧ guard start action ∧
      M.step start action = some (next, [event]) := by
  induction hreach generalizing after with
  | init => exact absurd hsplit.symm (List.append_ne_nil_of_right_ne_nil _ (List.cons_ne_nil _ _))
  | @step _ _ _ action events hbefore hguard hstep ih =>
      cases events with
      | nil =>
          rw [List.append_nil] at hsplit
          exact ih hsplit
      | cons first rest =>
          obtain rfl := List.eq_nil_of_length_eq_zero (Nat.le_zero.mp (Nat.le_of_succ_le_succ
            (hone _ _ _ _ hstep)))
          rcases List.eq_nil_or_concat' after with rfl | ⟨later, last, rfl⟩
          · obtain ⟨rfl, hlast⟩ := List.append_inj' hsplit rfl
            obtain ⟨rfl, -⟩ := List.cons.inj hlast
            exact ⟨_, action, _, hbefore, hguard, hstep⟩
          · rw [← List.cons_append, ← List.append_assoc] at hsplit
            exact ih (List.append_inj' hsplit rfl).1

/-- A register along the runs of a machine whose events write it. -/
theorem register {view : State → Value} {writes : Event → Option Value}
    (hstep : ∀ history state action next events, M.Reaches guard history state →
      M.step state action = some (next, events) →
      view next = (lastWrite writes events).getD (view state))
    {history : List Event} {state : State} (hreach : M.Reaches guard history state) :
    view state = (lastWrite writes history).getD (view M.init) := by
  induction hreach with
  | init => rfl
  | step hbefore _ hnext ih =>
      rw [hstep _ _ _ _ _ hbefore hnext, ih, lastWrite_append]
      cases lastWrite writes _ with
      | none => rfl
      | some value => rfl

end Reaches

end Machine

/-! ## The latest of several entries

Of the entries that satisfy a predicate, the last one in a list. What is read of
it does not depend on the order of the list exactly when all of them read alike.
-/

section Latest

variable {α : Type u} {β : Type v} {p : α → Bool} {entries : List α} {a : α}

/-- The last entry that satisfies the predicate. -/
def latest (p : α → Bool) (entries : List α) : Option α := (entries.filter p).getLast?

@[simp] theorem latest_nil (p : α → Bool) : latest p [] = none := rfl

theorem latest_append_singleton (p : α → Bool) (entries : List α) (a : α) :
    latest p (entries ++ [a]) = if p a then some a else latest p entries := by
  rw [latest, List.filter_append, List.filter_singleton]
  split
  next ha => rw [ha, cond_true, List.getLast?_concat]
  next ha =>
    rw [Bool.not_eq_true] at ha
    rw [ha, cond_false, List.append_nil]
    rfl

theorem mem_of_latest (hlatest : latest p entries = some a) : a ∈ entries ∧ p a = true :=
  List.mem_filter.mp (List.mem_of_getLast? hlatest)

theorem latest_eq_none_iff : latest p entries = none ↔ ∀ a ∈ entries, p a = false := by
  rw [latest, List.getLast?_eq_none_iff, List.filter_eq_nil_iff]
  simp only [Bool.not_eq_true]

/-- Any entry that satisfies the predicate is the latest in some order. -/
theorem exists_perm_latest (ha : a ∈ entries) (hpa : p a = true) :
    ∃ listed, listed.Perm entries ∧ latest p listed = some a := by
  obtain ⟨before, after, rfl⟩ := List.append_of_mem ha
  refine ⟨before ++ after ++ [a], ?_, ?_⟩
  · rw [List.append_assoc]
    exact (List.perm_append_singleton a after).append_left before
  · rw [latest_append_singleton, if_pos hpa]

/-- Entries that read alike may be listed in any order. -/
theorem map_latest_perm {f : α → β} {listed : List α} (hperm : listed.Perm entries)
    (halike : ∀ a ∈ entries, ∀ b ∈ entries, p a = true → p b = true → f a = f b) :
    (latest p listed).map f = (latest p entries).map f := by
  cases hlisted : latest p listed with
  | none =>
      have hnone : latest p entries = none := by
        rw [latest_eq_none_iff] at hlisted ⊢
        exact fun a ha => hlisted a (hperm.mem_iff.mpr ha)
      rw [hnone]
  | some a =>
      obtain ⟨ha, hpa⟩ := mem_of_latest hlisted
      have ha := hperm.mem_iff.mp ha
      cases hentries : latest p entries with
      | none =>
          rw [latest_eq_none_iff.mp hentries a ha] at hpa
          contradiction
      | some b =>
          obtain ⟨hb, hpb⟩ := mem_of_latest hentries
          exact congrArg some (halike a ha b hb hpa hpb)

end Latest

end SimVision.Foundation
