import Mathlib.Data.List.AList
import Mathlib.Data.Finset.Card
import SimVision.Common.Types
import SimVision.Foundation.Json

/-! # Channel activation

`ChannelManager` stores every subscription twice: in the set of its client and
in the count of its type. A channel is active while it has a subscriber or is
forced active.
-/

namespace SimVision

open Foundation

/-- `ChannelManager::State`. -/
structure ChannelState where
  subscriberCount : Int := 0
  forceActive : Bool := false
  deriving DecidableEq

/-- The map `states_`, keyed by data type; `none` is an absent entry. -/
abbrev ChannelStates := DataType → Option ChannelState

namespace ChannelStates

/-- `states_[k]`, which creates an absent entry with default members. -/
def entry (states : ChannelStates) (t : DataType) : ChannelState := (states t).getD {}

/-- Assignment to `states_[k]`. -/
def set (states : ChannelStates) (t : DataType) (state : ChannelState) : ChannelStates :=
  Function.update states t (some state)

/-- The decrement of `stop_capture` and `disconnect_client` with its guards. -/
def decrement (states : ChannelStates) (t : DataType) : ChannelStates :=
  match states t with
  | some state =>
      if 0 < state.subscriberCount then
        states.set t { state with subscriberCount := state.subscriberCount - 1 }
      else states
  | none => states

/-- The decrement without its guards. -/
def decrementUnguarded (states : ChannelStates) (t : DataType) : ChannelStates :=
  states.set t
    { states.entry t with subscriberCount := (states.entry t).subscriberCount - 1 }

@[simp] theorem entry_set_self (states : ChannelStates) (t : DataType) (state : ChannelState) :
    (states.set t state).entry t = state := by
  simp [entry, set]

theorem entry_set_of_ne (states : ChannelStates) {t u : DataType} (state : ChannelState)
    (hne : u ≠ t) : (states.set t state).entry u = states.entry u := by
  simp [entry, set, hne]

/-- A positive count belongs to an entry that exists, so no guard interferes. -/
theorem decrement_eq_unguarded (states : ChannelStates) {t : DataType}
    (hpos : 0 < (states.entry t).subscriberCount) :
    states.decrement t = states.decrementUnguarded t := by
  unfold decrement decrementUnguarded
  cases hentry : states t with
  | none => simp [entry, hentry] at hpos
  | some state =>
      simp only [entry, hentry, Option.getD_some] at hpos ⊢
      rw [if_pos hpos]

theorem decrementUnguarded_count (states : ChannelStates) (t u : DataType) :
    ((states.decrementUnguarded t).entry u).subscriberCount =
      (states.entry u).subscriberCount - if u = t then 1 else 0 := by
  unfold decrementUnguarded
  by_cases hu : u = t
  · subst u
    simp
  · rw [entry_set_of_ne _ _ hu, if_neg hu, Int.sub_zero]

@[simp] theorem decrementUnguarded_force (states : ChannelStates) (t u : DataType) :
    ((states.decrementUnguarded t).entry u).forceActive = (states.entry u).forceActive := by
  unfold decrementUnguarded
  by_cases hu : u = t
  · subst u
    simp
  · rw [entry_set_of_ne _ _ hu]

/-- Distinct types with positive counts are decremented once each. -/
theorem foldl_decrement {types : List DataType} (hnodup : types.Nodup) (states : ChannelStates)
    (hpos : ∀ t ∈ types, 0 < (states.entry t).subscriberCount) :
    types.foldl decrement states = types.foldl decrementUnguarded states ∧
      ∀ u, ((types.foldl decrement states).entry u).subscriberCount =
        (states.entry u).subscriberCount - if u ∈ types then 1 else 0 := by
  induction types generalizing states with
  | nil => simp
  | cons t rest ih =>
      obtain ⟨hfresh, hrest⟩ := List.nodup_cons.mp hnodup
      have hhead := decrement_eq_unguarded states (hpos t List.mem_cons_self)
      have hlater : ∀ u ∈ rest, 0 < ((states.decrementUnguarded t).entry u).subscriberCount := by
        intro u hu
        -- a type that comes later differs from `t`, so its count is still the old one
        have hne : u ≠ t := fun heq => hfresh (heq ▸ hu)
        rw [decrementUnguarded_count, if_neg hne, Int.sub_zero]
        exact hpos u (List.mem_cons_of_mem t hu)
      obtain ⟨hsame, hcount⟩ := ih hrest (states.decrementUnguarded t) hlater
      simp only [List.foldl_cons, hhead]
      refine ⟨hsame, fun u => ?_⟩
      rw [hcount u, decrementUnguarded_count]
      by_cases hu : u = t
      · subst u
        simp [hfresh]
      · simp [hu]

end ChannelStates

/-- The members of `ChannelManager`. -/
structure ChannelManager where
  states : ChannelStates := fun _ => none
  clients : AList (fun _ : Bytes => Finset DataType) := ∅

namespace ChannelManager

/-- The set of a client, empty for a client without one. -/
def subscriptions (m : ChannelManager) (client : Bytes) : Finset DataType :=
  (m.clients.lookup client).getD ∅

/-- One iteration of the loop of `start_capture`. -/
def addType (client : Bytes) (m : ChannelManager) (t : DataType) : ChannelManager :=
  if t ∈ m.subscriptions client then m
  else
    { states := m.states.set t
        { m.states.entry t with subscriberCount := (m.states.entry t).subscriberCount + 1 }
      clients := m.clients.insert client (insert t (m.subscriptions client)) }

def startCapture (m : ChannelManager) (client : Bytes) (types : List DataType) : ChannelManager :=
  types.foldl (addType client)
    { m with clients := m.clients.insert client (m.subscriptions client) }

section Release

/- How a released subscription is subtracted from the count of its type. -/
variable (release : ChannelStates → DataType → ChannelStates)

/-- One iteration of the loop of `stop_capture`. -/
def removeTypeWith (client : Bytes) (m : ChannelManager) (t : DataType) : ChannelManager :=
  if t ∈ m.subscriptions client then
    { states := release m.states t
      clients := m.clients.insert client ((m.subscriptions client).erase t) }
  else m

def stopCaptureWith (m : ChannelManager) (client : Bytes) (types : List DataType) :
    ChannelManager :=
  match m.clients.lookup client with
  | none => m
  | some _ => types.foldl (removeTypeWith release client) m

/-- The set of the client is walked in key order. -/
def disconnectClientWith (m : ChannelManager) (client : Bytes) : ChannelManager × Bool :=
  match m.clients.lookup client with
  | none => (m, false)
  | some subs =>
      ({ states := (allDataTypes.filter fun t => t ∈ subs).foldl release m.states
         clients := m.clients.erase client }, true)

end Release

def stopCapture : ChannelManager → Bytes → List DataType → ChannelManager :=
  stopCaptureWith ChannelStates.decrement

def disconnectClient : ChannelManager → Bytes → ChannelManager × Bool :=
  disconnectClientWith ChannelStates.decrement

def activateChannel (m : ChannelManager) (t : DataType) : ChannelManager × Bool :=
  ({ m with states := m.states.set t { m.states.entry t with forceActive := true } },
    !(m.states.entry t).forceActive)

def deactivateChannel (m : ChannelManager) (t : DataType) : ChannelManager × Bool :=
  ({ m with states := m.states.set t { m.states.entry t with forceActive := false } },
    (m.states.entry t).forceActive)

def isActive (m : ChannelManager) (t : DataType) : Bool :=
  match m.states t with
  | none => false
  | some state => 0 < state.subscriberCount || state.forceActive

def groupActive (m : ChannelManager) (g : DataGroup) : Bool := (groupMembers g).any m.isActive

def activeTypes (m : ChannelManager) : List DataType := allDataTypes.filter m.isActive

/-- The entries of `states_` in key order. -/
def stateEntries (m : ChannelManager) : List (DataType × ChannelState) :=
  allDataTypes.filterMap fun t => (m.states t).map (Prod.mk t)

def forcedTypes (m : ChannelManager) : List DataType :=
  (m.stateEntries.filter fun kv => kv.2.forceActive).map Prod.fst

def subscriberCount (m : ChannelManager) (t : DataType) : Int :=
  match m.states t with
  | none => 0
  | some state => state.subscriberCount

def totalClients (m : ChannelManager) : Nat := m.clients.keys.length

def anySubscriber (m : ChannelManager) : Bool :=
  m.stateEntries.any fun kv => 0 < kv.2.subscriberCount

def lastSubscriberLeft (m : ChannelManager) (g : DataGroup) : Bool :=
  (groupMembers g).all fun t => !m.isActive t

def statusJson (m : ChannelManager) : Json :=
  Json.ofAssignments
    [(lit "total_clients", .unsigned m.totalClients),
      (lit "channels", .array (m.stateEntries.map fun kv => Json.ofAssignments
        [(lit "data_type", .string (dataTypeToString kv.1)),
          (lit "group", .string (groupToString (dataTypeToGroup kv.1))),
          (lit "subscribers", .integer kv.2.subscriberCount),
          (lit "activated", .boolean (0 < kv.2.subscriberCount || kv.2.forceActive)),
          (lit "force_active", .boolean kv.2.forceActive)]))]

end ChannelManager

/-! ## Runs of calls -/

inductive ChannelCall where
  | startCapture (client : Bytes) (types : List DataType)
  | stopCapture (client : Bytes) (types : List DataType)
  | disconnectClient (client : Bytes)
  | activateChannel (t : DataType)
  | deactivateChannel (t : DataType)

/-- The setting a call makes to the force flag of a type. -/
def ChannelCall.force? (t : DataType) : ChannelCall → Option Bool
  | .activateChannel u => if u = t then some true else none
  | .deactivateChannel u => if u = t then some false else none
  | _ => none

/-- The most recent setting of the force flag of a type. -/
def lastForce (t : DataType) (calls : List ChannelCall) : Option Bool :=
  calls.reverse.findSome? (ChannelCall.force? t)

namespace ChannelManager

/-- A call with the given way of releasing subscriptions. -/
def applyWith (release : ChannelStates → DataType → ChannelStates) (m : ChannelManager) :
    ChannelCall → ChannelManager
  | .startCapture client types => m.startCapture client types
  | .stopCapture client types => m.stopCaptureWith release client types
  | .disconnectClient client => (m.disconnectClientWith release client).1
  | .activateChannel t => (m.activateChannel t).1
  | .deactivateChannel t => (m.deactivateChannel t).1

/-- A fresh manager after a sequence of calls. -/
def run (calls : List ChannelCall) : ChannelManager :=
  calls.foldl (applyWith ChannelStates.decrement) {}

/-- The same calls with decrements that have no guards. -/
def runUnguarded (calls : List ChannelCall) : ChannelManager :=
  calls.foldl (applyWith ChannelStates.decrementUnguarded) {}

/-- The clients whose set contains a type. -/
def subscribers (m : ChannelManager) (t : DataType) : Finset Bytes :=
  m.clients.keys.toFinset.filter fun client => t ∈ m.subscriptions client

@[simp] theorem mem_subscribers {m : ChannelManager} {t : DataType} {client : Bytes} :
    client ∈ m.subscribers t ↔ t ∈ m.subscriptions client := by
  simp only [subscribers, Finset.mem_filter, List.mem_toFinset, and_iff_right_iff_imp]
  intro hmem
  by_contra hnot
  have hnone : m.clients.lookup client = none := AList.lookup_eq_none.mpr hnot
  simp [subscriptions, hnone] at hmem

theorem subscriptions_insert (m : ChannelManager) (states : ChannelStates) (client other : Bytes)
    (subs : Finset DataType) :
    ({ states := states, clients := m.clients.insert client subs } :
        ChannelManager).subscriptions other =
      if other = client then subs else m.subscriptions other := by
  unfold subscriptions
  split
  next heq =>
    subst other
    rw [AList.lookup_insert]
    rfl
  next hne => rw [AList.lookup_insert_ne hne]

theorem subscriptions_startCapture (m : ChannelManager) (client other : Bytes)
    (types : List DataType) : (m.startCapture client types).subscriptions other =
      if other = client then m.subscriptions client ∪ types.toFinset
      else m.subscriptions other := by
  have hfold : ∀ start : ChannelManager, (types.foldl (addType client) start).subscriptions other =
      if other = client then start.subscriptions client ∪ types.toFinset
      else start.subscriptions other := by
    induction types with
    | nil =>
        intro start
        split
        next heq => simp [heq]
        next => rfl
    | cons t rest ih =>
        intro start
        have hadd : ∀ other, (start.addType client t).subscriptions other =
            if other = client then insert t (start.subscriptions client)
            else start.subscriptions other := by
          intro other
          unfold addType
          split
          next hmem =>
            rw [Finset.insert_eq_of_mem hmem]
            split
            next heq => rw [heq]
            next => rfl
          next => rw [subscriptions_insert]
        rw [List.foldl_cons, ih, hadd, hadd, if_pos rfl, List.toFinset_cons]
        split
        next => rw [Finset.insert_union, Finset.union_insert]
        next => rfl
  unfold startCapture
  rw [hfold, subscriptions_insert, subscriptions_insert, if_pos rfl]
  split <;> rfl

theorem subscriptions_stopCapture (m : ChannelManager) (client other : Bytes)
    (types : List DataType) : (m.stopCapture client types).subscriptions other =
      if other = client then m.subscriptions client \ types.toFinset
      else m.subscriptions other := by
  have hfold : ∀ start : ChannelManager,
      (types.foldl (removeTypeWith ChannelStates.decrement client) start).subscriptions other =
        if other = client then start.subscriptions client \ types.toFinset
        else start.subscriptions other := by
    induction types with
    | nil =>
        intro start
        split
        next heq => simp [heq]
        next => rfl
    | cons t rest ih =>
        intro start
        have hremove : ∀ other,
            (removeTypeWith ChannelStates.decrement client start t).subscriptions other =
              if other = client then (start.subscriptions client).erase t
              else start.subscriptions other := by
          intro other
          unfold removeTypeWith
          split
          next => rw [subscriptions_insert]
          next hfresh =>
            rw [Finset.erase_eq_of_notMem hfresh]
            split
            next heq => rw [heq]
            next => rfl
        rw [List.foldl_cons, ih, hremove, hremove, if_pos rfl, List.toFinset_cons]
        split
        next => rw [Finset.erase_sdiff_comm, Finset.sdiff_insert]
        next => rfl
  unfold stopCapture stopCaptureWith
  split
  next hnone =>
    split
    next heq =>
      subst other
      rw [subscriptions, hnone, Option.getD_none, Finset.empty_sdiff]
    next => rfl
  next => exact hfold m

theorem subscriptions_stopCapture_subset (m : ChannelManager) (client other : Bytes)
    (types : List DataType) :
    (m.stopCapture client types).subscriptions other ⊆ m.subscriptions other := by
  rw [subscriptions_stopCapture]
  split
  next heq =>
    rw [heq]
    exact Finset.sdiff_subset
  next => exact Finset.Subset.refl _

theorem subscriptions_disconnectClient (m : ChannelManager) (client other : Bytes) :
    (m.disconnectClient client).1.subscriptions other =
      if other = client then ∅ else m.subscriptions other := by
  unfold disconnectClient disconnectClientWith
  split
  next hnone =>
    split
    next heq =>
      subst other
      rw [subscriptions, hnone]
      rfl
    next => rfl
  next =>
    dsimp only [subscriptions]
    split
    next heq =>
      subst other
      rw [AList.lookup_erase]
      rfl
    next hne => rw [AList.lookup_erase_ne hne]

/-- Replacing the set of one client changes the subscribers of a type by at most
that client. -/
theorem subscribers_insert (m : ChannelManager) (states : ChannelStates) (client : Bytes)
    (subs : Finset DataType) (t : DataType) :
    ({ states := states, clients := m.clients.insert client subs } : ChannelManager).subscribers t =
      if t ∈ subs then insert client (m.subscribers t) else (m.subscribers t).erase client := by
  ext other
  rw [mem_subscribers, subscriptions_insert]
  by_cases hother : other = client
  · subst other
    rw [if_pos rfl]
    split
    next hmem => simp [hmem]
    next hmem => simp [hmem]
  · rw [if_neg hother]
    split
    next => simp [hother]
    next => simp [hother]

/-- A set that agrees with the old one on a type keeps the subscribers of the type. -/
theorem subscribers_insert_same (m : ChannelManager) (states : ChannelStates) {client : Bytes}
    {subs : Finset DataType} {t : DataType} (hsame : t ∈ subs ↔ t ∈ m.subscriptions client) :
    ({ states := states, clients := m.clients.insert client subs } : ChannelManager).subscribers t =
      m.subscribers t := by
  rw [subscribers_insert]
  split
  next hmem => exact Finset.insert_eq_of_mem (mem_subscribers.mpr (hsame.mp hmem))
  next hmem => exact Finset.erase_eq_of_notMem (by simpa [← hsame] using hmem)

theorem subscribers_erase (m : ChannelManager) (states : ChannelStates) (client : Bytes)
    (t : DataType) :
    ({ states := states, clients := m.clients.erase client } : ChannelManager).subscribers t =
      (m.subscribers t).erase client := by
  ext other
  rw [mem_subscribers, Finset.mem_erase, mem_subscribers, subscriptions]
  by_cases hother : other = client
  · subst other
    simp
  · rw [AList.lookup_erase_ne hother]
    simp [subscriptions, hother]

/-- Every count is the number of clients whose set contains the type. -/
def Exact (m : ChannelManager) : Prop :=
  ∀ t, (m.states.entry t).subscriberCount = (m.subscribers t).card

namespace Exact

variable {m : ChannelManager}

theorem count_pos (hexact : m.Exact) {t : DataType} {client : Bytes}
    (hmem : t ∈ m.subscriptions client) : 0 < (m.states.entry t).subscriberCount := by
  rw [hexact t]
  have hclient : client ∈ m.subscribers t := mem_subscribers.mpr hmem
  exact Int.natCast_pos.mpr (Finset.card_pos.mpr ⟨client, hclient⟩)

/-- Creating the empty set of a client changes no count. -/
private theorem create_client (hexact : m.Exact) (client : Bytes) :
    Exact { m with clients := m.clients.insert client (m.subscriptions client) } := by
  intro t
  rw [subscribers_insert_same m m.states Iff.rfl]
  exact hexact t

private theorem addType (hexact : m.Exact) (client : Bytes) (t : DataType) :
    (m.addType client t).Exact := by
  unfold ChannelManager.addType
  split
  next => exact hexact
  next hfresh =>
    have hclient : client ∉ m.subscribers t := by rwa [mem_subscribers]
    intro u
    by_cases hu : u = t
    · subst u
      rw [ChannelStates.entry_set_self, subscribers_insert, if_pos (Finset.mem_insert_self ..),
        Finset.card_insert_of_notMem hclient]
      dsimp only
      rw [hexact t]
      rfl
    · rw [ChannelStates.entry_set_of_ne _ _ hu, subscribers_insert_same _ _ (by simp [hu])]
      exact hexact u

theorem startCapture (hexact : m.Exact) (client : Bytes) (types : List DataType) :
    (m.startCapture client types).Exact := by
  unfold ChannelManager.startCapture
  have hbegin := hexact.create_client client
  generalize ({ m with clients := m.clients.insert client (m.subscriptions client) } :
    ChannelManager) = start at hbegin
  induction types generalizing start with
  | nil => exact hbegin
  | cons t rest ih =>
      rw [List.foldl_cons]
      apply ih
      exact hbegin.addType client t

/-- Setting a force flag changes no count. -/
theorem set_force (hexact : m.Exact) (t : DataType) (force : Bool) :
    Exact { m with states := m.states.set t { m.states.entry t with forceActive := force } } := by
  intro u
  have hsame : ({ m with states := m.states.set t { m.states.entry t with forceActive := force } } :
      ChannelManager).subscribers u = m.subscribers u := rfl
  rw [hsame, ← hexact u]
  by_cases hu : u = t
  · subst u
    rw [ChannelStates.entry_set_self]
  · rw [ChannelStates.entry_set_of_ne _ _ hu]

private theorem removeType (hexact : m.Exact) (client : Bytes) (t : DataType) :
    m.removeTypeWith ChannelStates.decrement client t =
        m.removeTypeWith ChannelStates.decrementUnguarded client t ∧
      (m.removeTypeWith ChannelStates.decrement client t).Exact := by
  unfold removeTypeWith
  split
  next hmem =>
    -- the client is one of the subscribers counted, so the count is positive
    have hguards := ChannelStates.decrement_eq_unguarded m.states (hexact.count_pos hmem)
    rw [hguards]
    refine ⟨rfl, fun u => ?_⟩
    rw [ChannelStates.decrementUnguarded_count, hexact u]
    by_cases hu : u = t
    · subst u
      have hclient : client ∈ m.subscribers t := mem_subscribers.mpr hmem
      have hcard := Finset.card_erase_add_one hclient
      rw [subscribers_insert, if_neg (Finset.notMem_erase _ _), if_pos rfl]
      omega
    · rw [subscribers_insert_same _ _ (by simp [hu]), if_neg hu, Int.sub_zero]
  next => exact ⟨rfl, hexact⟩

theorem stopCapture (hexact : m.Exact) (client : Bytes) (types : List DataType) :
    m.stopCaptureWith ChannelStates.decrement client types =
        m.stopCaptureWith ChannelStates.decrementUnguarded client types ∧
      (m.stopCaptureWith ChannelStates.decrement client types).Exact := by
  unfold stopCaptureWith
  split
  next => exact ⟨rfl, hexact⟩
  next hlookup =>
    clear hlookup
    induction types generalizing m with
    | nil => exact ⟨rfl, hexact⟩
    | cons t rest ih =>
        obtain ⟨hsame, hnext⟩ := hexact.removeType client t
        rw [List.foldl_cons, List.foldl_cons, ← hsame]
        exact ih hnext

theorem disconnectClient (hexact : m.Exact) (client : Bytes) :
    m.disconnectClientWith ChannelStates.decrement client =
        m.disconnectClientWith ChannelStates.decrementUnguarded client ∧
      (m.disconnectClientWith ChannelStates.decrement client).1.Exact := by
  unfold disconnectClientWith
  split
  next => exact ⟨rfl, hexact⟩
  next subs hsubs =>
    have hset : m.subscriptions client = subs := by rw [subscriptions, hsubs, Option.getD_some]
    have hpos : ∀ t ∈ allDataTypes.filter (fun t => t ∈ subs),
        0 < (m.states.entry t).subscriberCount := by
      intro t ht
      have hmem : t ∈ m.subscriptions client := by
        rw [hset]
        simpa using ht
      exact hexact.count_pos hmem
    obtain ⟨hguards, hcount⟩ := ChannelStates.foldl_decrement
      (allDataTypes_nodup.filter _) m.states hpos
    refine ⟨by rw [hguards], fun u => ?_⟩
    rw [hcount u, hexact u, subscribers_erase]
    by_cases hu : u ∈ subs
    · have hclient : client ∈ m.subscribers u := by
        rw [mem_subscribers, hset]
        exact hu
      have hcard := Finset.card_erase_add_one hclient
      rw [if_pos (by simpa using hu)]
      omega
    · have hclient : client ∉ m.subscribers u := by
        rw [mem_subscribers, hset]
        exact hu
      rw [if_neg (by simpa using hu), Finset.erase_eq_of_notMem hclient, Int.sub_zero]

end Exact

/-- One call keeps the counts exact, and its guards never interfere. -/
theorem applyWith_exact {m : ChannelManager} (hexact : m.Exact) (call : ChannelCall) :
    m.applyWith ChannelStates.decrement call = m.applyWith ChannelStates.decrementUnguarded call ∧
      (m.applyWith ChannelStates.decrement call).Exact := by
  cases call with
  | startCapture client types => exact ⟨rfl, hexact.startCapture client types⟩
  | stopCapture client types => exact hexact.stopCapture client types
  | disconnectClient client =>
      obtain ⟨hsame, hnext⟩ := hexact.disconnectClient client
      exact ⟨congrArg Prod.fst hsame, hnext⟩
  | activateChannel t => exact ⟨rfl, hexact.set_force t true⟩
  | deactivateChannel t => exact ⟨rfl, hexact.set_force t false⟩

theorem run_append (calls : List ChannelCall) (call : ChannelCall) :
    run (calls ++ [call]) = (run calls).applyWith ChannelStates.decrement call := by
  rw [run, List.foldl_append]
  rfl

/-- Along every run the counts are exact and the guards never interfere. -/
theorem run_exact (calls : List ChannelCall) :
    run calls = runUnguarded calls ∧ (run calls).Exact := by
  induction calls using List.reverseRecOn with
  | nil =>
      refine ⟨rfl, fun t => ?_⟩
      rfl
  | append_singleton calls call ih =>
      obtain ⟨hsame, hexact⟩ := ih
      obtain ⟨hguards, hnext⟩ := applyWith_exact hexact call
      rw [run_append]
      refine ⟨?_, hnext⟩
      rw [hguards, hsame, runUnguarded, runUnguarded, List.foldl_append]
      rfl

/-! ## Force activation -/

@[simp] theorem decrement_force (states : ChannelStates) (t u : DataType) :
    ((states.decrement t).entry u).forceActive = (states.entry u).forceActive := by
  unfold ChannelStates.decrement
  split
  next state hstate =>
    split
    next =>
      by_cases hu : u = t
      · subst u
        rw [ChannelStates.entry_set_self, ChannelStates.entry, hstate, Option.getD_some]
      · rw [ChannelStates.entry_set_of_ne _ _ hu]
    next => rfl
  next => rfl

private theorem addType_force (m : ChannelManager) (client : Bytes) (t u : DataType) :
    ((m.addType client t).states.entry u).forceActive = (m.states.entry u).forceActive := by
  unfold addType
  split
  next => rfl
  next =>
    by_cases hu : u = t
    · subst u
      rw [ChannelStates.entry_set_self]
    · rw [ChannelStates.entry_set_of_ne _ _ hu]

private theorem removeType_force (m : ChannelManager) (client : Bytes) (t u : DataType) :
    ((m.removeTypeWith ChannelStates.decrement client t).states.entry u).forceActive =
      (m.states.entry u).forceActive := by
  unfold removeTypeWith
  split
  next => exact decrement_force m.states t u
  next => rfl

/-- A call changes a force flag exactly by the setting it makes. -/
theorem applyWith_force (m : ChannelManager) (call : ChannelCall) (u : DataType) :
    ((m.applyWith ChannelStates.decrement call).states.entry u).forceActive =
      (call.force? u).getD (m.states.entry u).forceActive := by
  have hfold : ∀ (f : ChannelManager → DataType → ChannelManager) (types : List DataType)
      (start : ChannelManager),
      (∀ m t, ((f m t).states.entry u).forceActive = (m.states.entry u).forceActive) →
      ((types.foldl f start).states.entry u).forceActive =
        (start.states.entry u).forceActive := by
    intro f types start hkeep
    induction types generalizing start with
    | nil => rfl
    | cons t rest ih => rw [List.foldl_cons, ih, hkeep]
  have hset : ∀ t force,
      ((m.states.set t { m.states.entry t with forceActive := force }).entry u).forceActive =
        (if t = u then some force else none).getD (m.states.entry u).forceActive := by
    intro t force
    by_cases hu : u = t
    · subst u
      rw [ChannelStates.entry_set_self, if_pos rfl, Option.getD_some]
    · rw [ChannelStates.entry_set_of_ne _ _ hu, if_neg (Ne.symm hu), Option.getD_none]
  cases call with
  | startCapture client types => exact hfold _ types _ fun m t => addType_force m client t u
  | stopCapture client types =>
      simp only [applyWith, stopCaptureWith]
      split
      next => rfl
      next => exact hfold _ types m fun m t => removeType_force m client t u
  | disconnectClient client =>
      simp only [applyWith, disconnectClientWith]
      split
      next => rfl
      next subs _ =>
        have hstates : ∀ (types : List DataType) (states : ChannelStates),
            ((types.foldl ChannelStates.decrement states).entry u).forceActive =
              (states.entry u).forceActive := by
          intro types
          induction types with
          | nil => exact fun _ => rfl
          | cons t rest ih =>
              intro states
              rw [List.foldl_cons, ih, decrement_force]
        exact hstates _ m.states
  | activateChannel t => exact hset t true
  | deactivateChannel t => exact hset t false

/-- The flag of a type is the most recent setting made to it. -/
theorem run_force (calls : List ChannelCall) (t : DataType) :
    ((run calls).states.entry t).forceActive = (lastForce t calls).getD false := by
  induction calls using List.reverseRecOn with
  | nil => rfl
  | append_singleton calls call ih =>
      rw [run_append, applyWith_force, ih, lastForce, lastForce, List.reverse_append]
      simp only [List.reverse_singleton, List.singleton_append, List.findSome?_cons]
      cases call.force? t with
      | none => rfl
      | some force => rfl

/-! ## Queries -/

variable {m : ChannelManager}

theorem subscriberCount_eq (m : ChannelManager) (t : DataType) :
    m.subscriberCount t = (m.states.entry t).subscriberCount := by
  unfold subscriberCount ChannelStates.entry
  cases m.states t with
  | none => rfl
  | some state => rfl

theorem isActive_eq (m : ChannelManager) (t : DataType) :
    m.isActive t = (decide (0 < (m.states.entry t).subscriberCount) ||
      (m.states.entry t).forceActive) := by
  unfold isActive ChannelStates.entry
  cases m.states t with
  | none => rfl
  | some state => rfl

theorem mem_stateEntries {t : DataType} {state : ChannelState} :
    (t, state) ∈ m.stateEntries ↔ m.states t = some state := by
  simp only [stateEntries, List.mem_filterMap, mem_allDataTypes, true_and, Option.map_eq_some_iff,
    Prod.mk.injEq]
  constructor
  · rintro ⟨u, found, hfound, rfl, rfl⟩
    exact hfound
  · intro hfound
    exact ⟨t, state, hfound, rfl, rfl⟩

theorem mem_forcedTypes {t : DataType} :
    t ∈ m.forcedTypes ↔ (m.states.entry t).forceActive = true := by
  simp only [forcedTypes, List.mem_map, List.mem_filter, Prod.exists, exists_and_right,
    exists_eq_right, mem_stateEntries, ChannelStates.entry]
  cases m.states t with
  | none => simp
  | some state => simp

theorem forcedTypes_nodup (m : ChannelManager) : m.forcedTypes.Nodup := by
  have hfst : m.stateEntries.map Prod.fst = allDataTypes.filter fun t => (m.states t).isSome := by
    unfold stateEntries
    induction allDataTypes with
    | nil => rfl
    | cons t rest ih =>
        rw [List.filterMap_cons, List.filter_cons]
        cases hstate : m.states t with
        | none => simpa [hstate] using ih
        | some state => simpa [hstate] using ih
  have hsub : m.forcedTypes.Sublist (m.stateEntries.map Prod.fst) :=
    List.filter_sublist.map Prod.fst
  rw [hfst] at hsub
  exact hsub.nodup (allDataTypes_nodup.filter _)

namespace Exact

theorem count_pos_iff (hexact : m.Exact) (t : DataType) :
    0 < (m.states.entry t).subscriberCount ↔ ∃ client, t ∈ m.subscriptions client := by
  rw [hexact t, Int.natCast_pos, Finset.card_pos]
  constructor
  · rintro ⟨client, hclient⟩
    exact ⟨client, mem_subscribers.mp hclient⟩
  · rintro ⟨client, hmem⟩
    exact ⟨client, mem_subscribers.mpr hmem⟩

theorem anySubscriber_iff (hexact : m.Exact) :
    m.anySubscriber = true ↔ ∃ client, m.subscriptions client ≠ ∅ := by
  simp only [anySubscriber, List.any_eq_true, decide_eq_true_eq, Prod.exists, mem_stateEntries]
  constructor
  · rintro ⟨t, state, hstate, hpos⟩
    have hentry : 0 < (m.states.entry t).subscriberCount := by
      rwa [ChannelStates.entry, hstate, Option.getD_some]
    obtain ⟨client, hmem⟩ := (hexact.count_pos_iff t).mp hentry
    exact ⟨client, Finset.ne_empty_of_mem hmem⟩
  · rintro ⟨client, hnonempty⟩
    obtain ⟨t, hmem⟩ := Finset.nonempty_iff_ne_empty.mpr hnonempty
    have hpos := hexact.count_pos hmem
    cases hstate : m.states t with
    | none => simp [ChannelStates.entry, hstate] at hpos
    | some state =>
        refine ⟨t, state, hstate, ?_⟩
        rwa [ChannelStates.entry, hstate, Option.getD_some] at hpos

end Exact

theorem groupActive_iff {g : DataGroup} :
    m.groupActive g = true ↔ ∃ t, dataTypeToGroup t = g ∧ m.isActive t = true := by
  simp only [groupActive, List.any_eq_true, mem_groupMembers]

theorem isActive_activateChannel_self (t : DataType) :
    (m.activateChannel t).1.isActive t = true := by
  simp [isActive_eq, activateChannel]

/-- Setting a force flag leaves the activity of the other types alone. -/
theorem isActive_set_of_ne {t u : DataType} (state : ChannelState) (hne : u ≠ t) :
    ({ m with states := m.states.set t state } : ChannelManager).isActive u = m.isActive u := by
  simp only [isActive_eq, ChannelStates.entry_set_of_ne _ _ hne]

theorem groupActive_activateChannel {t : DataType} {g : DataGroup}
    (hactive : m.groupActive g = true) : (m.activateChannel t).1.groupActive g = true := by
  obtain ⟨u, hgroup, hu⟩ := groupActive_iff.mp hactive
  refine groupActive_iff.mpr ⟨u, hgroup, ?_⟩
  by_cases heq : u = t
  · rw [heq]
    exact isActive_activateChannel_self t
  · exact (isActive_set_of_ne _ heq).trans hu

/-- Deactivating a type leaves the groups it does not belong to alone. -/
theorem groupActive_deactivateChannel_of_ne {t : DataType} {g : DataGroup}
    (hne : g ≠ dataTypeToGroup t) : (m.deactivateChannel t).1.groupActive g = m.groupActive g := by
  unfold groupActive
  rw [Bool.eq_iff_iff]
  simp only [List.any_eq_true, mem_groupMembers]
  have hother : ∀ u, dataTypeToGroup u = g →
      (m.deactivateChannel t).1.isActive u = m.isActive u := by
    intro u hu
    apply isActive_set_of_ne
    rintro rfl
    exact hne hu.symm
  constructor
  · rintro ⟨u, hu, hactive⟩
    exact ⟨u, hu, (hother u hu).symm.trans hactive⟩
  · rintro ⟨u, hu, hactive⟩
    exact ⟨u, hu, (hother u hu).trans hactive⟩

/-- With exact counts a group is active by a subscription or by a force flag. -/
theorem Exact.groupActive_iff (hexact : m.Exact) {g : DataGroup} :
    m.groupActive g = true ↔ ∃ t, dataTypeToGroup t = g ∧
      ((∃ client, t ∈ m.subscriptions client) ∨ (m.states.entry t).forceActive = true) := by
  rw [ChannelManager.groupActive_iff]
  simp only [isActive_eq, Bool.or_eq_true, decide_eq_true_eq, hexact.count_pos_iff]

theorem Exact.groupActive_startCapture (hexact : m.Exact) {client : Bytes}
    {types : List DataType} {g : DataGroup} (hactive : m.groupActive g = true) :
    (m.startCapture client types).groupActive g = true := by
  obtain ⟨t, hgroup, hheld⟩ := hexact.groupActive_iff.mp hactive
  refine (hexact.startCapture client types).groupActive_iff.mpr ⟨t, hgroup, ?_⟩
  rcases hheld with ⟨other, hother⟩ | hforce
  · refine .inl ⟨other, ?_⟩
    rw [subscriptions_startCapture]
    split
    next heq =>
      rw [← heq]
      exact Finset.mem_union_left _ hother
    next => exact hother
  · exact .inr ((applyWith_force m (.startCapture client types) t).trans hforce)

theorem activeTypes_isEmpty_iff :
    m.activeTypes.isEmpty = true ↔ ∀ t, m.isActive t = false := by
  rw [List.isEmpty_iff, activeTypes, List.filter_eq_nil_iff]
  constructor
  · exact fun hnone t => Bool.eq_false_iff.mpr (hnone t (mem_allDataTypes t))
  · exact fun hnone t _ => Bool.eq_false_iff.mp (hnone t)

/-- Without an active type nobody is subscribed and no group is active. -/
theorem inactive_of_activeTypes (hnone : m.activeTypes.isEmpty = true) :
    m.anySubscriber = false ∧ ∀ g, m.groupActive g = false := by
  have hinactive := activeTypes_isEmpty_iff.mp hnone
  constructor
  · rw [anySubscriber, List.any_eq_false]
    rintro ⟨t, state⟩ hentry hpos
    apply Bool.eq_false_iff.mp (hinactive t)
    rw [isActive, mem_stateEntries.mp hentry]
    dsimp only at hpos ⊢
    rw [hpos, Bool.true_or]
  · intro g
    rw [groupActive, List.any_eq_false]
    exact fun t _ => Bool.eq_false_iff.mp (hinactive t)

/-- More subscriptions keep somebody subscribed. -/
theorem Exact.anySubscriber_mono {after : ChannelManager} (hexact : m.Exact) (hafter : after.Exact)
    (hsub : ∀ client, m.subscriptions client ⊆ after.subscriptions client)
    (hany : m.anySubscriber = true) : after.anySubscriber = true := by
  obtain ⟨client, hsome⟩ := hexact.anySubscriber_iff.mp hany
  obtain ⟨t, ht⟩ := Finset.nonempty_iff_ne_empty.mpr hsome
  exact hafter.anySubscriber_iff.mpr ⟨client, Finset.ne_empty_of_mem (hsub client ht)⟩

theorem Exact.anySubscriber_startCapture (hexact : m.Exact) {client : Bytes}
    {types : List DataType} (hany : m.anySubscriber = true) :
    (m.startCapture client types).anySubscriber = true := by
  refine hexact.anySubscriber_mono (hexact.startCapture client types) (fun other => ?_) hany
  rw [subscriptions_startCapture]
  split
  next heq =>
    rw [heq]
    exact Finset.subset_union_left
  next => exact Finset.Subset.refl _

/-- In every reachable manager the counts, the activity of channels and the
forced types are those of the client sets and of the calls made. -/
theorem run_refcounts_exact (calls : List ChannelCall) :
    (∀ t, (run calls).subscriberCount t = ((run calls).subscribers t).card) ∧
      run calls = runUnguarded calls ∧
      (∀ t, (run calls).isActive t = true ↔
        (∃ client, t ∈ (run calls).subscriptions client) ∨ t ∈ (run calls).forcedTypes) ∧
      ((run calls).anySubscriber = true ↔ ∃ client, (run calls).subscriptions client ≠ ∅) ∧
      (run calls).forcedTypes.Nodup ∧
      ∀ t, t ∈ (run calls).forcedTypes ↔ lastForce t calls = some true := by
  obtain ⟨hguards, hexact⟩ := run_exact calls
  refine ⟨fun t => ?_, hguards, fun t => ?_, hexact.anySubscriber_iff, forcedTypes_nodup _,
    fun t => ?_⟩
  · rw [subscriberCount_eq]
    exact hexact t
  · rw [isActive_eq, Bool.or_eq_true, decide_eq_true_eq, hexact.count_pos_iff, mem_forcedTypes]
  · rw [mem_forcedTypes, run_force]
    cases lastForce t calls with
    | none => simp
    | some force => simp

end ChannelManager

end SimVision
