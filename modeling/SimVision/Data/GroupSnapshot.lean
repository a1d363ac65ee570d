import SimVision.Data.ChannelManager
import SimVision.Foundation.Scan

/-! # `group_active` beside other threads

Every `is_active` takes the lock of the channels and releases it, so other threads
may change them between two members of the group. A group that is active
throughout is reported inactive when its activity moves behind the reader.
-/

namespace SimVision

open Foundation

/-- One call of the channels by another thread. -/
def ChannelManager.change (m : ChannelManager) (call : ChannelCall) : ChannelManager :=
  m.applyWith ChannelStates.decrement call

/-- A thread calls `group_active`, with each `is_active` as one step, and the
others change the channels. -/
def groupScans : Machine (ScanState ChannelManager DataGroup DataType)
    (ScanAction DataGroup ChannelCall) (ScanResult DataGroup) :=
  scans groupMembers ChannelManager.isActive ChannelManager.change {}

/-- Without interference the steps compute `group_active`. -/
theorem groupActive_alone (m : ChannelManager) (g : DataGroup) :
    ∃ reads result, groupScans.runFrom { shared := m }
        (.start g :: List.replicate reads .read) = some ({ shared := m }, [result]) ∧
      result.group = g ∧ result.found = m.groupActive g :=
  scan_alone groupMembers ChannelManager.isActive ChannelManager.change m {} g

/-- The condition on a change during the call: as long as the group has been
active throughout, the change does not leave it active only by members that have
already been read. -/
def ActivityAhead : ScanState ChannelManager DataGroup DataType →
    ScanAction DataGroup ChannelCall → Prop :=
  HoldsAhead groupMembers ChannelManager.isActive ChannelManager.change

instance (s : ScanState ChannelManager DataGroup DataType)
    (action : ScanAction DataGroup ChannelCall) : Decidable (ActivityAhead s action) :=
  inferInstanceAs (Decidable (HoldsAhead _ _ _ s action))

/-- A group that was active at every moment of the call is reported active, as
long as no change leaves its activity behind the reader, and one that was active
at no moment is reported inactive. -/
theorem group_active_consistent {history : List (ScanResult DataGroup)}
    {s : ScanState ChannelManager DataGroup DataType}
    (hreach : groupScans.Reaches ActivityAhead history s) :
    ∀ result ∈ history, (result.always = true → result.found = true) ∧
      (result.never = true → result.found = false) :=
  scans_consistent hreach

/-- Whatever the other threads do, a group that was active at no moment of the
call is reported inactive. -/
theorem group_active_founded {history : List (ScanResult DataGroup)}
    {s : ScanState ChannelManager DataGroup DataType}
    (hreach : groupScans.Reachable history s) :
    ∀ result ∈ history, result.never = true → result.found = false :=
  scans_found hreach

/-- `temperature` is active, and `barometer`, which is read later, takes over. -/
def activityMovesOn : List (ScanAction DataGroup ChannelCall) :=
  [.change (.activateChannel .temperature), .start .sensorData, .read,
    .change (.activateChannel .barometer), .change (.deactivateChannel .temperature), .read, .read,
    .read]

theorem activityMovesOn_consistent :
    ∃ history s, groupScans.runFrom groupScans.init activityMovesOn = some (s, history) ∧
      history = [⟨.sensorData, true, true, false⟩] ∧
      ∀ result ∈ history, (result.always = true → result.found = true) ∧
        (result.never = true → result.found = false) := by
  have hruns : (groupScans.runFrom groupScans.init activityMovesOn).map Prod.snd =
      some [⟨.sensorData, true, true, false⟩] := by
    decide +kernel
  obtain ⟨⟨s, history⟩, hrun, hview⟩ := Option.map_eq_some_iff.mp hruns
  have hguarded : groupScans.Guarded ActivityAhead groupScans.init activityMovesOn := by
    decide +kernel
  exact ⟨history, s, hrun, hview, group_active_consistent (.runGuarded .init hguarded hrun)⟩

/-- `temperature` is active, and `imu`, which has already been read, takes over. -/
def activityMovesBack : List (ScanAction DataGroup ChannelCall) :=
  [.change (.activateChannel .temperature), .start .sensorData, .read,
    .change (.activateChannel .imu), .change (.deactivateChannel .temperature), .read, .read, .read]

/-- The group is active at every moment, and the call returns false. -/
theorem activityMovesBack_missed :
    ¬ ∀ (history : List (ScanResult DataGroup)) (s : ScanState ChannelManager DataGroup DataType),
      groupScans.Reachable history s →
        ∀ result ∈ history, (result.always = true → result.found = true) ∧
          (result.never = true → result.found = false) := by
  intro hclaim
  have hruns : (groupScans.runFrom groupScans.init activityMovesBack).map Prod.snd =
      some [⟨.sensorData, false, true, false⟩] := by
    decide +kernel
  obtain ⟨⟨s, history⟩, hrun, hview⟩ := Option.map_eq_some_iff.mp hruns
  obtain rfl : history = [⟨.sensorData, false, true, false⟩] := hview
  have hfound := (hclaim _ s (Machine.reachable_of_runFrom hrun) _ List.mem_cons_self).1 rfl
  contradiction

end SimVision
