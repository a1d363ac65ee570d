import SimVision.Data.ChannelManager
import SimVision.Foundation.Register

/-! # The channel manager as a log of its calls

Every query of `ChannelManager` is answered by the calls made before it: the last
call about a client and a type decides the subscription, the last one about a type
its force flag, and the last one about a client whether it is listed.
-/

namespace SimVision

open Foundation

namespace ChannelCall

/-- What a call makes of the subscription of a client to a type. -/
def subscribes? (client : Bytes) (t : DataType) : ChannelCall → Option Bool
  | .startCapture caller types => if client = caller ∧ t ∈ types then some true else none
  | .stopCapture caller types => if client = caller ∧ t ∈ types then some false else none
  | .disconnectClient caller => if client = caller then some false else none
  | _ => none

/-- Whether a call puts a client into `clients_` or takes it out. Stopping the last
capture of a client leaves it in. -/
def lists? (client : Bytes) : ChannelCall → Option Bool
  | .startCapture caller _ => if client = caller then some true else none
  | .disconnectClient caller => if client = caller then some false else none
  | _ => none

/-- A call after which `states_` has an entry for a type. -/
def mentions (t : DataType) : ChannelCall → Bool
  | .startCapture _ types => t ∈ types
  | .activateChannel u => u = t
  | .deactivateChannel u => u = t
  | _ => false

end ChannelCall

namespace ChannelManager

variable {m : ChannelManager}

/-! ## Subscriptions -/

theorem applyWith_subscribes (m : ChannelManager) (call : ChannelCall) (client : Bytes)
    (t : DataType) :
    decide (t ∈ (m.applyWith ChannelStates.decrement call).subscriptions client) =
      (call.subscribes? client t).getD (decide (t ∈ m.subscriptions client)) := by
  cases call with
  | startCapture caller types =>
      simp only [applyWith, ChannelCall.subscribes?, subscriptions_startCapture]
      by_cases hclient : client = caller
      · subst hclient
        by_cases ht : t ∈ types <;> simp [ht]
      · simp [hclient]
  | stopCapture caller types =>
      have hstop : m.applyWith ChannelStates.decrement (.stopCapture caller types) =
          m.stopCapture caller types := rfl
      rw [hstop, subscriptions_stopCapture]
      by_cases hclient : client = caller
      · subst hclient
        by_cases ht : t ∈ types <;> simp [ChannelCall.subscribes?, ht]
      · simp [ChannelCall.subscribes?, hclient]
  | disconnectClient caller =>
      have hdisconnect : m.applyWith ChannelStates.decrement (.disconnectClient caller) =
          (m.disconnectClient caller).1 := rfl
      rw [hdisconnect, subscriptions_disconnectClient]
      by_cases hclient : client = caller
      · simp [ChannelCall.subscribes?, hclient]
      · simp [ChannelCall.subscribes?, hclient]
  | activateChannel u => rfl
  | deactivateChannel u => rfl

theorem run_subscribes (calls : List ChannelCall) (client : Bytes) (t : DataType) :
    t ∈ (run calls).subscriptions client ↔
      lastWrite (ChannelCall.subscribes? client t) calls = some true := by
  have hregister := register_foldl (fun m : ChannelManager => decide (t ∈ m.subscriptions client))
    (fun m call => applyWith_subscribes m call client t) {} calls
  rw [← decide_eq_true_iff (p := t ∈ (run calls).subscriptions client), run, hregister]
  have hnone : decide (t ∈ ({} : ChannelManager).subscriptions client) = false := rfl
  rw [hnone]
  cases lastWrite (ChannelCall.subscribes? client t) calls with
  | none => simp
  | some listed => simp

/-! ## Listed clients -/

theorem mem_clients_addType {client other : Bytes} {t : DataType} (hclient : client ∈ m.clients) :
    other ∈ (m.addType client t).clients ↔ other ∈ m.clients := by
  unfold addType
  split
  next => rfl
  next =>
    rw [AList.mem_insert]
    constructor
    · rintro (rfl | hother)
      · exact hclient
      · exact hother
    · exact .inr

theorem mem_clients_startCapture (client other : Bytes) (types : List DataType) :
    other ∈ (m.startCapture client types).clients ↔ other = client ∨ other ∈ m.clients := by
  have hfold : ∀ start : ChannelManager, client ∈ start.clients →
      (other ∈ (types.foldl (addType client) start).clients ↔ other ∈ start.clients) := by
    induction types with
    | nil => exact fun _ _ => Iff.rfl
    | cons t rest ih =>
        intro start hclient
        rw [List.foldl_cons, ih _ ((mem_clients_addType hclient).mpr hclient),
          mem_clients_addType hclient]
  rw [startCapture, hfold _ (AList.mem_insert _ |>.mpr (.inl rfl)), AList.mem_insert]

theorem mem_clients_stopCapture (client other : Bytes) (types : List DataType) :
    other ∈ (m.stopCapture client types).clients ↔ other ∈ m.clients := by
  have hremove : ∀ (start : ChannelManager) (t : DataType), client ∈ start.clients →
      (other ∈ (start.removeTypeWith ChannelStates.decrement client t).clients ↔
        other ∈ start.clients) ∧
      client ∈ (start.removeTypeWith ChannelStates.decrement client t).clients := by
    intro start t hclient
    unfold removeTypeWith
    split
    next =>
      rw [AList.mem_insert, AList.mem_insert]
      refine ⟨⟨?_, .inr⟩, .inl rfl⟩
      rintro (rfl | hother)
      · exact hclient
      · exact hother
    next => exact ⟨Iff.rfl, hclient⟩
  have hfold : ∀ start : ChannelManager, client ∈ start.clients →
      (other ∈ (types.foldl (removeTypeWith ChannelStates.decrement client) start).clients ↔
        other ∈ start.clients) := by
    induction types with
    | nil => exact fun _ _ => Iff.rfl
    | cons t rest ih =>
        intro start hclient
        obtain ⟨hsame, hnext⟩ := hremove start t hclient
        rw [List.foldl_cons, ih _ hnext, hsame]
  unfold stopCapture stopCaptureWith
  split
  next => rfl
  next subs hsubs => exact hfold m (AList.lookup_isSome.mp (by rw [hsubs]; rfl))

theorem mem_clients_disconnectClient (client other : Bytes) :
    other ∈ (m.disconnectClient client).1.clients ↔ other ≠ client ∧ other ∈ m.clients := by
  unfold disconnectClient disconnectClientWith
  split
  next hnone =>
    have hclient := AList.lookup_eq_none.mp hnone
    constructor
    · intro hother
      exact ⟨fun heq => hclient (heq ▸ hother), hother⟩
    · exact And.right
  next => exact AList.mem_erase

theorem applyWith_lists (m : ChannelManager) (call : ChannelCall) (client : Bytes) :
    decide (client ∈ (m.applyWith ChannelStates.decrement call).clients) =
      (call.lists? client).getD (decide (client ∈ m.clients)) := by
  cases call with
  | startCapture caller types =>
      simp only [applyWith, ChannelCall.lists?, mem_clients_startCapture]
      by_cases hclient : client = caller <;> simp [hclient]
  | stopCapture caller types => exact decide_eq_decide.mpr (mem_clients_stopCapture _ _ _)
  | disconnectClient caller =>
      have hdisconnect : m.applyWith ChannelStates.decrement (.disconnectClient caller) =
          (m.disconnectClient caller).1 := rfl
      have hmem := mem_clients_disconnectClient (m := m) caller client
      rw [hdisconnect]
      by_cases hclient : client = caller
      · have hgone : client ∉ (m.disconnectClient caller).1.clients :=
          fun hlisted => (hmem.mp hlisted).1 hclient
        rw [decide_eq_false hgone, ChannelCall.lists?, if_pos hclient, Option.getD_some]
      · rw [decide_eq_decide.mpr (hmem.trans (and_iff_right hclient)), ChannelCall.lists?,
          if_neg hclient, Option.getD_none]
  | activateChannel u => rfl
  | deactivateChannel u => rfl

theorem run_lists (calls : List ChannelCall) (client : Bytes) :
    client ∈ (run calls).clients ↔ lastWrite (ChannelCall.lists? client) calls = some true := by
  have hregister := register_foldl (fun m : ChannelManager => decide (client ∈ m.clients))
    (fun m call => applyWith_lists m call client) {} calls
  rw [← decide_eq_true_iff (p := client ∈ (run calls).clients), run, hregister]
  have hnone : decide (client ∈ ({} : ChannelManager).clients) = false := rfl
  rw [hnone]
  cases lastWrite (ChannelCall.lists? client) calls with
  | none => simp
  | some listed => simp

/-! ## Entries -/

theorem isSome_set (states : ChannelStates) (t u : DataType) (state : ChannelState) :
    (states.set t state u).isSome = (decide (u = t) || (states u).isSome) := by
  unfold ChannelStates.set
  by_cases hu : u = t
  · subst u
    rw [Function.update_self, decide_eq_true rfl]
    rfl
  · rw [Function.update_of_ne hu, decide_eq_false hu, Bool.false_or]

theorem isSome_decrement (states : ChannelStates) (t u : DataType) :
    (states.decrement t u).isSome = (states u).isSome := by
  cases hstate : states t with
  | none => rw [ChannelStates.decrement, hstate]
  | some state =>
      by_cases hpos : 0 < state.subscriberCount
      · simp only [ChannelStates.decrement, hstate, if_pos hpos]
        rw [isSome_set]
        by_cases hu : u = t
        · rw [hu, hstate, decide_eq_true rfl]
          rfl
        · rw [decide_eq_false hu, Bool.false_or]
      · simp only [ChannelStates.decrement, hstate, if_neg hpos]

/-- `start_capture` leaves an entry of every type it is given: one that was there,
or the one it makes for a new subscription. -/
theorem isSome_startCapture (hexact : m.Exact) (client : Bytes) (types : List DataType)
    (u : DataType) : ((m.startCapture client types).states u).isSome =
      (decide (u ∈ types) || (m.states u).isSome) := by
  by_cases hu : u ∈ types
  · have hmem : u ∈ (m.startCapture client types).subscriptions client := by
      rw [subscriptions_startCapture, if_pos rfl]
      exact Finset.mem_union_right _ (List.mem_toFinset.mpr hu)
    have hpos := (hexact.startCapture client types).count_pos hmem
    rw [decide_eq_true hu, Bool.true_or]
    cases hstate : (m.startCapture client types).states u with
    | none => simp [ChannelStates.entry, hstate] at hpos
    | some state => rfl
  · have hfold : ∀ (rest : List DataType) (start : ChannelManager), u ∉ rest →
        (rest.foldl (addType client) start).states u = start.states u := by
      intro rest
      induction rest with
      | nil => exact fun _ _ => rfl
      | cons t rest ih =>
          intro start hnot
          have hadd : (start.addType client t).states u = start.states u := by
            unfold addType
            split
            next => rfl
            next => exact Function.update_of_ne (List.ne_of_not_mem_cons hnot) _ _
          rw [List.foldl_cons, ih _ (List.not_mem_of_not_mem_cons hnot), hadd]
    rw [startCapture, hfold _ _ hu, decide_eq_false hu, Bool.false_or]

theorem isSome_stopCapture (client : Bytes) (types : List DataType) (u : DataType) :
    ((m.stopCapture client types).states u).isSome = (m.states u).isSome := by
  have hfold : ∀ start : ChannelManager,
      ((types.foldl (removeTypeWith ChannelStates.decrement client) start).states u).isSome =
        (start.states u).isSome := by
    induction types with
    | nil => exact fun _ => rfl
    | cons t rest ih =>
        intro start
        rw [List.foldl_cons, ih, removeTypeWith]
        split
        next => exact isSome_decrement _ _ _
        next => rfl
  unfold stopCapture stopCaptureWith
  split
  next => rfl
  next => exact hfold m

theorem isSome_disconnectClient (client : Bytes) (u : DataType) :
    ((m.disconnectClient client).1.states u).isSome = (m.states u).isSome := by
  unfold disconnectClient disconnectClientWith
  split
  next => rfl
  next subs _ =>
    have hfold : ∀ (types : List DataType) (states : ChannelStates),
        (types.foldl ChannelStates.decrement states u).isSome = (states u).isSome := by
      intro types
      induction types with
      | nil => exact fun _ => rfl
      | cons t rest ih =>
          intro states
          rw [List.foldl_cons, ih, isSome_decrement]
    exact hfold _ m.states

theorem run_isSome (calls : List ChannelCall) (t : DataType) :
    ((run calls).states t).isSome = calls.any (ChannelCall.mentions t) := by
  induction calls using List.reverseRecOn with
  | nil => rfl
  | append_singleton calls call ih =>
      rw [run_append, List.any_append, List.any_cons, List.any_nil, Bool.or_false, ← ih,
        Bool.or_comm]
      cases call with
      | startCapture client types => exact isSome_startCapture (run_exact calls).2 client types t
      | stopCapture client types => exact isSome_stopCapture client types t
      | disconnectClient client => exact isSome_disconnectClient client t
      | activateChannel u =>
          exact (isSome_set _ _ _ _).trans (by simp [ChannelCall.mentions, eq_comm])
      | deactivateChannel u =>
          exact (isSome_set _ _ _ _).trans (by simp [ChannelCall.mentions, eq_comm])

end ChannelManager

/-! ## The log -/

namespace ChannelCall

/-- The client a call is about. -/
def caller? : ChannelCall → Option Bytes
  | .startCapture caller _ => some caller
  | .stopCapture caller _ => some caller
  | .disconnectClient caller => some caller
  | _ => none

theorem caller_of_subscribes {call : ChannelCall} {client : Bytes} {t : DataType} {on : Bool}
    (hcall : call.subscribes? client t = some on) : call.caller? = some client := by
  cases call with
  | startCapture caller types =>
      obtain ⟨hboth, -⟩ := Option.ite_none_right_eq_some.mp hcall
      rw [hboth.1, caller?]
  | stopCapture caller types =>
      obtain ⟨hboth, -⟩ := Option.ite_none_right_eq_some.mp hcall
      rw [hboth.1, caller?]
  | disconnectClient caller =>
      obtain ⟨hclient, -⟩ := Option.ite_none_right_eq_some.mp hcall
      rw [hclient, caller?]
  | activateChannel u => cases hcall
  | deactivateChannel u => cases hcall

theorem caller_of_lists {call : ChannelCall} {client : Bytes} {on : Bool}
    (hcall : call.lists? client = some on) : call.caller? = some client := by
  cases call with
  | startCapture caller types =>
      obtain ⟨hclient, -⟩ := Option.ite_none_right_eq_some.mp hcall
      rw [hclient, caller?]
  | stopCapture caller types => cases hcall
  | disconnectClient caller =>
      obtain ⟨hclient, -⟩ := Option.ite_none_right_eq_some.mp hcall
      rw [hclient, caller?]
  | activateChannel u => cases hcall
  | deactivateChannel u => cases hcall

end ChannelCall

/-- The clients for whom a log of calls ends with a given kind of setting on. -/
def loggedClients (setting : Bytes → ChannelCall → Option Bool) (calls : List ChannelCall) :
    List Bytes :=
  (calls.filterMap ChannelCall.caller?).dedup.filter fun client =>
    lastWrite (setting client) calls = some true

/-- The entries of `states_` as a log of calls gives them. -/
def loggedEntries (calls : List ChannelCall) : List (DataType × ChannelState) :=
  (allDataTypes.filter fun t => calls.any (ChannelCall.mentions t)).map fun t =>
    (t, { subscriberCount :=
            ((loggedClients (fun client => ChannelCall.subscribes? client t) calls).length : Nat)
          forceActive := (lastForce t calls).getD false })

section Log

variable {setting : Bytes → ChannelCall → Option Bool} {calls : List ChannelCall}

theorem loggedClients_nodup : (loggedClients setting calls).Nodup :=
  (List.nodup_dedup _).filter _

theorem mem_loggedClients (hcaller : ∀ call client on, setting client call = some on →
      call.caller? = some client) {client : Bytes} :
    client ∈ loggedClients setting calls ↔ lastWrite (setting client) calls = some true := by
  rw [loggedClients, List.mem_filter, decide_eq_true_iff, List.mem_dedup, List.mem_filterMap]
  refine and_iff_right_of_imp fun hlast => ?_
  obtain ⟨call, hcall, hset⟩ := exists_of_lastWrite hlast
  exact ⟨call, hcall, hcaller _ _ _ hset⟩

end Log

namespace ChannelManager

theorem run_subscriberCount (calls : List ChannelCall) (t : DataType) :
    ((run calls).states.entry t).subscriberCount =
      ((loggedClients (fun client => ChannelCall.subscribes? client t) calls).length : Nat) := by
  have hset : (run calls).subscribers t =
      (loggedClients (fun client => ChannelCall.subscribes? client t) calls).toFinset := by
    ext client
    rw [mem_subscribers, run_subscribes, List.mem_toFinset,
      mem_loggedClients fun _ _ _ => ChannelCall.caller_of_subscribes]
  rw [(run_exact calls).2 t, hset, List.toFinset_card_of_nodup loggedClients_nodup]

theorem run_stateEntries (calls : List ChannelCall) :
    (run calls).stateEntries = loggedEntries calls := by
  unfold stateEntries loggedEntries
  induction allDataTypes with
  | nil => rfl
  | cons t rest ih =>
      have hsome := run_isSome calls t
      rw [List.filterMap_cons, List.filter_cons, ih]
      cases hstate : (run calls).states t with
      | none =>
          rw [hstate] at hsome
          rw [← hsome]
          rfl
      | some state =>
          have hentry : state =
              { subscriberCount :=
                  ((loggedClients (fun client => ChannelCall.subscribes? client t)
                    calls).length : Nat)
                forceActive := (lastForce t calls).getD false } := by
            rw [← run_subscriberCount, ← run_force, ChannelStates.entry, hstate, Option.getD_some]
          rw [hstate] at hsome
          rw [← hsome, hentry]
          rfl

theorem run_totalClients (calls : List ChannelCall) :
    (run calls).totalClients = (loggedClients ChannelCall.lists? calls).length := by
  have hset : (run calls).clients.keys.toFinset =
      (loggedClients ChannelCall.lists? calls).toFinset := by
    ext client
    rw [List.mem_toFinset, List.mem_toFinset, ← AList.mem_keys, run_lists,
      mem_loggedClients fun _ _ _ => ChannelCall.caller_of_lists]
  rw [totalClients, ← List.toFinset_card_of_nodup (run calls).clients.keys_nodup, hset,
    List.toFinset_card_of_nodup loggedClients_nodup]

/-- Every query of the manager is answered by the log of the calls. -/
theorem run_eq_log (calls : List ChannelCall) :
    (∀ client t, t ∈ (run calls).subscriptions client ↔
        lastWrite (ChannelCall.subscribes? client t) calls = some true) ∧
      (∀ t, (run calls).isActive t = true ↔
        (∃ client, lastWrite (ChannelCall.subscribes? client t) calls = some true) ∨
          lastForce t calls = some true) ∧
      (run calls).totalClients = (loggedClients ChannelCall.lists? calls).length ∧
      (run calls).stateEntries = loggedEntries calls := by
  refine ⟨run_subscribes calls, fun t => ?_, run_totalClients calls, run_stateEntries calls⟩
  rw [isActive_eq, Bool.or_eq_true, decide_eq_true_eq, (run_exact calls).2.count_pos_iff, run_force]
  simp only [run_subscribes]
  cases lastForce t calls with
  | none => simp
  | some force => simp

end ChannelManager

end SimVision
