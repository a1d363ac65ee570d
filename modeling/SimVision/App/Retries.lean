import SimVision.App.ClientIsolation

/-! # Requests sent again

A client whose reply is lost cannot tell whether its request was handled, so it
sends the request again. Handling a request a second time leaves the service as the
first time has left it. For the four capture commands this is so even when the
repetition comes after commands of other clients.
-/

namespace SimVision

open Foundation CommandHandler

/-! ## The stores, changed twice -/

namespace ChannelManager

variable {m : ChannelManager} {client : Bytes} {types : List DataType}

theorem foldl_addType_of_mem (hall : ∀ t ∈ types, t ∈ m.subscriptions client) :
    types.foldl (addType client) m = m := by
  induction types with
  | nil => rfl
  | cons t rest ih =>
      rw [List.foldl_cons, addType, if_pos (hall t List.mem_cons_self)]
      exact ih fun u hu => hall u (List.mem_cons_of_mem t hu)

/-- The last write to `clients_` was to the set of the client. -/
def Fronted (client : Bytes) (m : ChannelManager) : Prop :=
  ∃ base : AList fun _ : Bytes => Finset DataType,
    m.clients = base.insert client (m.subscriptions client)

theorem Fronted.rewrite {states : ChannelStates} {subs : Finset DataType} :
    Fronted client { states := states, clients := m.clients.insert client subs } :=
  ⟨m.clients, by rw [subscriptions_insert, if_pos rfl]⟩

theorem Fronted.startCapture : Fronted client (m.startCapture client types) := by
  have hfold : ∀ start : ChannelManager, Fronted client start →
      Fronted client (types.foldl (addType client) start) := by
    induction types with
    | nil => exact fun _ hstart => hstart
    | cons t rest ih =>
        intro start hstart
        apply ih
        unfold addType
        split
        next => exact hstart
        next => exact .rewrite
  exact hfold _ .rewrite

theorem startCapture_again :
    (m.startCapture client types).startCapture client types = m.startCapture client types := by
  generalize hnext : m.startCapture client types = next
  have hall : ∀ t ∈ types, t ∈ next.subscriptions client := by
    intro t ht
    rw [← hnext, subscriptions_startCapture, if_pos rfl]
    exact Finset.mem_union_right _ (List.mem_toFinset.mpr ht)
  obtain ⟨base, hbase⟩ : Fronted client next := hnext ▸ Fronted.startCapture
  have hsame : { next with clients := next.clients.insert client (next.subscriptions client) } =
      next := by
    have hclients : next.clients.insert client (next.subscriptions client) = next.clients := by
      rw [hbase, AList.insert_insert]
    rw [hclients]
  rw [startCapture, hsame, foldl_addType_of_mem hall]

theorem stopCapture_of_notMem (hnone : ∀ t ∈ types, t ∉ m.subscriptions client) :
    m.stopCapture client types = m := by
  unfold stopCapture stopCaptureWith
  split
  next => rfl
  next =>
    induction types with
    | nil => rfl
    | cons t rest ih =>
        rw [List.foldl_cons, removeTypeWith, if_neg (hnone t List.mem_cons_self)]
        exact ih fun u hu => hnone u (List.mem_cons_of_mem t hu)

theorem stopCapture_again :
    (m.stopCapture client types).stopCapture client types = m.stopCapture client types := by
  apply stopCapture_of_notMem
  intro t ht
  rw [subscriptions_stopCapture, if_pos rfl, Finset.mem_sdiff]
  exact fun hmem => hmem.2 (List.mem_toFinset.mpr ht)

/-- Setting the force flag to what it is. -/
theorem force_again (m : ChannelManager) (t : DataType) (force : Bool) :
    let next := { m with states := m.states.set t { m.states.entry t with forceActive := force } }
    ({ next with states := next.states.set t { next.states.entry t with forceActive := force } } :
      ChannelManager) = next := by
  dsimp only
  rw [ChannelStates.entry_set_self, ChannelStates.set, ChannelStates.set, Function.update_idem]

end ChannelManager

theorem ParameterManager.setValue_again {m next : ParameterManager} {name : Bytes}
    {value : ParamValue} (hset : m.setValue name value = .ok next) :
    next.setValue name value = .ok next := by
  obtain ⟨p, hget, hwritable, hadmits, rfl⟩ := setValue_ok hset
  have hstored : (m.store name p value).get name = some { p with value := value } := by
    rw [get_store hget, if_pos rfl]
  have hagain : ({ p with value := value } : Parameter).Admits value := by
    cases value with
    | integer v => exact ⟨rfl, hadmits.2⟩
    | float v => exact ⟨rfl, hadmits.2⟩
    | enum v => exact ⟨rfl, hadmits.2⟩
  rw [setValue_of_admits hstored hwritable hagain]
  exact congrArg Except.ok (store_self hstored)

/-- A value that was converted for a parameter is converted the same for itself. -/
theorem convertValue_again {lib : JsonLibrary} {current v : ParamValue} {value : Json}
    (hconvert : convertValue lib current value = .ok v) : convertValue lib v value = .ok v := by
  cases current with
  | integer i =>
      cases hvalue : lib.getInt64 value with
      | error what => simp [convertValue, hvalue, Except.map] at hconvert
      | ok got =>
          rw [convertValue, hvalue] at hconvert
          obtain rfl := Except.ok.inj hconvert
          rw [convertValue, hvalue]
          rfl
  | float f =>
      cases hvalue : lib.getDouble value with
      | error what => simp [convertValue, hvalue, Except.map] at hconvert
      | ok got =>
          rw [convertValue, hvalue] at hconvert
          obtain rfl := Except.ok.inj hconvert
          rw [convertValue, hvalue]
          rfl
  | enum e =>
      cases hvalue : lib.getString value with
      | error what => simp [convertValue, hvalue, Except.map] at hconvert
      | ok got =>
          rw [convertValue, hvalue] at hconvert
          obtain rfl := Except.ok.inj hconvert
          rw [convertValue, hvalue]
          rfl

/-! ## Commands, handled twice -/

/-- The code of a repeated request, by the code of the first one. -/
def retryCode (command : Bytes) (first : Code) : Code :=
  if first = .success then
    if command = lit "connect" then .alreadyInit
    else if command = lit "disconnect" then .notReady
    else .success
  else first

/-- What a command leaves, and the code it answers. -/
def leftAndCode (result : Except Bytes (Service × Response)) : Except Bytes (Service × Code) :=
  result.map fun done => (done.1, done.2.code)

section Commands

variable {lib : JsonLibrary} {s next : Service} {r : Response} {body : Json} {clientId : Bytes}

/-- The drain of a departed last subscriber finds nothing more to drain. -/
theorem drainAll_again (hwords : s.pipeline.Words) : drainAll (drainAll s) = drainAll s := by
  have hempty : ∀ group, (s.pipeline.drain.drain.queues group).isEmpty = true :=
    DataPipeline.drain_isEmpty hwords.drain
  simp only [drainAll, DataPipeline.drain_of_isEmpty hempty]

theorem cmdStopCapture_again (hwords : s.pipeline.Words)
    (hcmd : cmdStopCapture s body clientId = (next, r)) (hcode : r.code = .success) :
    cmdStopCapture next body clientId = (next, r) := by
  unfold cmdStopCapture at hcmd ⊢
  by_cases htypes : expandTypes body = []
  · simp only [if_pos htypes] at hcmd
    rw [← (Prod.mk.inj hcmd).2] at hcode
    contradiction
  · simp only [if_neg htypes] at hcmd ⊢
    obtain ⟨hnext, rfl⟩ := Prod.mk.inj hcmd
    have hchannels : next.channels = s.channels.stopCapture clientId (expandTypes body) := by
      rw [← hnext]
      split <;> rfl
    have hagain : next.channels.stopCapture clientId (expandTypes body) = next.channels := by
      rw [hchannels, ChannelManager.stopCapture_again]
    have hsame : ({ next with channels := next.channels } : Service) = next := rfl
    rw [hagain]
    by_cases hany : next.channels.anySubscriber = true
    · rw [if_pos hany]
    · rw [if_neg hany, hsame]
      rw [hchannels] at hany
      rw [if_neg hany] at hnext
      have hdrained : drainAll next = next := by
        rw [← hnext]
        exact drainAll_again hwords
      rw [hdrained]

theorem cmdActivateChannel_again (hcmd : cmdActivateChannel lib s body = .ok (next, r))
    (hcode : r.code = .success) :
    leftAndCode (cmdActivateChannel lib next body) = .ok (next, .success) := by
  unfold cmdActivateChannel at hcmd ⊢
  cases hchannel : channelOf lib body with
  | error what =>
      rw [hchannel] at hcmd
      contradiction
  | ok channel =>
      rw [hchannel] at hcmd
      cases channel with
      | none =>
          rw [← (Prod.mk.inj (Except.ok.inj hcmd)).2] at hcode
          contradiction
      | some t =>
          obtain ⟨rfl, -⟩ := Prod.mk.inj (Except.ok.inj hcmd)
          have hagain : ((s.channels.activateChannel t).1.activateChannel t).1 =
              (s.channels.activateChannel t).1 := s.channels.force_again t true
          exact congrArg (fun channels => Except.ok ({ s with channels := channels }, Code.success))
            hagain

theorem cmdDeactivateChannel_again (hwords : s.pipeline.Words)
    (hcmd : cmdDeactivateChannel lib s body = .ok (next, r)) (hcode : r.code = .success) :
    cmdDeactivateChannel lib next body = .ok (next, r) := by
  unfold cmdDeactivateChannel at hcmd ⊢
  cases hchannel : channelOf lib body with
  | error what =>
      rw [hchannel] at hcmd
      contradiction
  | ok channel =>
      rw [hchannel] at hcmd
      cases channel with
      | none =>
          rw [← (Prod.mk.inj (Except.ok.inj hcmd)).2] at hcode
          contradiction
      | some t =>
          obtain ⟨hnext, rfl⟩ := Prod.mk.inj (Except.ok.inj hcmd)
          have hchannels : next.channels = (s.channels.deactivateChannel t).1 := by
            rw [← hnext]
            dsimp only
            split <;> rfl
          have hagain : (next.channels.deactivateChannel t).1 = next.channels := by
            rw [hchannels]
            exact s.channels.force_again t false
          have hsame : ({ next with channels := next.channels } : Service) = next := rfl
          dsimp only
          rw [hagain]
          by_cases hactive : next.channels.groupActive (dataTypeToGroup t) = true
          · rw [if_pos hactive]
          · rw [if_neg hactive, hsame]
            rw [hchannels] at hactive
            rw [if_neg hactive] at hnext
            have hempty : (next.pipeline.queues (dataTypeToGroup t)).isEmpty = true := by
              rw [← hnext]
              dsimp only
              rw [DataPipeline.drainGroup_queues, if_pos rfl]
              exact ChannelFrameQueue.clear_isEmpty (hwords _)
            rw [DataPipeline.drainGroup_of_isEmpty hempty]

theorem cmdSetParameter_again (hcmd : cmdSetParameter lib s body = .ok (next, r))
    (hcode : r.code = .success) :
    leftAndCode (cmdSetParameter lib next body) = .ok (next, .success) := by
  cases cmdSetParameter_returns hcmd with
  | missing => contradiction
  | unknown => contradiction
  | refused => contradiction
  | @stored nameJson value name p v params hname hstring hvalue hconvert hset =>
      obtain ⟨stored, hget, hwritable, hadmits, hstore⟩ := ParameterManager.setValue_ok hset
      have hfound : params.get name = some { stored with value := v } := by
        rw [hstore, ParameterManager.get_store hget, if_pos rfl]
      unfold cmdSetParameter
      rw [hname, hvalue]
      dsimp only
      rw [hstring]
      dsimp only
      rw [hfound]
      dsimp only
      rw [convertValue_again hconvert]
      simp only [Except.map, ParameterManager.setValue_again hset]
      rfl

/-- An answered request that is handled again leaves the service alone. -/
theorem handle_again {command : Bytes} (hwords : s.pipeline.Words)
    (hhandle : handle lib command body clientId s = .ok (next, r)) :
    leftAndCode (handle lib command body clientId next) = .ok (next, retryCode command r.code) := by
  have hhandled := handle_handled hhandle
  by_cases hcode : r.code = .success
  swap
  · obtain rfl := hhandled.eq_of_refused hcode
    rw [hhandle, retryCode, if_neg hcode]
    rfl
  rw [hcode]
  cases hhandled with
  | connect hcmd =>
      unfold cmdConnect at hcmd
      split at hcmd
      next =>
        rw [← (Prod.mk.inj hcmd).2] at hcode
        contradiction
      next =>
        obtain ⟨rfl, rfl⟩ := Prod.mk.inj hcmd
        refine congrArg (fun done => leftAndCode (.ok done)) (if_pos ?_)
        exact decide_eq_true (Finset.mem_insert_self _ _)
  | disconnect hcmd =>
      unfold cmdDisconnect at hcmd
      split at hcmd
      next =>
        obtain ⟨hnext, rfl⟩ := Prod.mk.inj hcmd
        have hsessions : next.sessions = (s.sessions.disconnect clientId).1 := by
          rw [← hnext]
          dsimp only
          split <;> rfl
        refine congrArg (fun done => leftAndCode (.ok done)) (if_neg ?_)
        rw [hsessions, Bool.not_eq_true]
        exact decide_eq_false (Finset.notMem_erase _ _)
      next =>
        rw [← (Prod.mk.inj hcmd).2] at hcode
        contradiction
  | startCapture hcmd =>
      unfold cmdStartCapture at hcmd
      dsimp only at hcmd
      split_ifs at hcmd with hconnected htypes
      · rw [← (Prod.mk.inj hcmd).2] at hcode
        contradiction
      · obtain ⟨rfl, rfl⟩ := Prod.mk.inj hcmd
        change leftAndCode (.ok (cmdStartCapture _ body clientId)) = _
        unfold cmdStartCapture
        dsimp only
        rw [if_pos hconnected, if_neg htypes, ChannelManager.startCapture_again]
        rfl
      · rw [← (Prod.mk.inj hcmd).2] at hcode
        contradiction
  | stopCapture hcmd =>
      change leftAndCode (.ok (cmdStopCapture next body clientId)) = _
      rw [cmdStopCapture_again hwords hcmd hcode, leftAndCode, Except.map, hcode]
      rfl
  | activateChannel hcmd => exact cmdActivateChannel_again hcmd hcode
  | deactivateChannel hcmd =>
      change leftAndCode (cmdDeactivateChannel lib next body) = _
      rw [cmdDeactivateChannel_again hwords hcmd hcode, leftAndCode, Except.map, hcode]
      rfl
  | setParameter hcmd => exact cmdSetParameter_again hcmd hcode
  | checkStatus => rfl
  | listChannels => rfl
  | listParameters => rfl
  | getParameter hcmd =>
      rw [hhandle, leftAndCode, Except.map, hcode]
      rfl
  | init => contradiction
  | dispose => contradiction
  | unknown => contradiction

end Commands

/-- In every state that the service reaches, a request that is handled again leaves
what it left the first time, and is answered with the code for a repetition. -/
theorem after_again {lib : JsonLibrary} {samples : Samples} {cfg : Config}
    {cameraFile : Option Bytes} {source : SimDataSource}
    {guard : SerialState → SerialAction → Prop} {history : List Response} {state : SerialState}
    (hreach : (serialService lib samples cfg cameraFile source).Reaches guard history state)
    (q : Request) :
    q.after lib (q.after lib state.service) = q.after lib state.service ∧
      (q.outcome lib (q.after lib state.service)).map Response.code =
        (q.outcome lib state.service).map fun r => retryCode q.command r.code := by
  have hwords := (sound_of_reaches hreach).words
  cases houtcome : q.outcome lib state.service with
  | error what =>
      rw [Request.after_of_thrown houtcome, Request.after_of_thrown houtcome, houtcome]
      exact ⟨rfl, rfl⟩
  | ok r =>
      have hagain := handle_again hwords (Request.handle_of_outcome houtcome)
      cases hhandle : handle lib q.command q.body q.clientId (q.after lib state.service) with
      | error what =>
          rw [hhandle] at hagain
          contradiction
      | ok done =>
          rw [hhandle] at hagain
          obtain ⟨hleft, hcode⟩ := Prod.mk.inj (Except.ok.inj hagain)
          obtain ⟨hanswer, hafter⟩ := Request.outcome_of_handle hhandle
          exact ⟨hafter.trans hleft, by rw [hanswer]; exact congrArg Except.ok hcode⟩

theorem stopWhileForced_again :
    ∃ state history, defaultService.runFrom defaultService.init stopWhileForced =
        some (state, history) ∧
      (stopBy "A" "imu").after .plain ((stopBy "A" "imu").after .plain state.service) =
        (stopBy "A" "imu").after .plain state.service ∧
      ((stopBy "A" "imu").outcome .plain ((stopBy "A" "imu").after .plain
          state.service)).map Response.code =
        ((stopBy "A" "imu").outcome .plain state.service).map fun r =>
          retryCode (stopBy "A" "imu").command r.code := by
  have hruns : (defaultService.runFrom defaultService.init stopWhileForced).isSome = true := by
    decide +kernel
  obtain ⟨⟨state, history⟩, hrun⟩ := Option.isSome_iff_exists.mp hruns
  exact ⟨state, history, hrun, after_again (Machine.reachable_of_runFrom hrun) _⟩

/-! ## Repetitions that come late -/

/-- A command changes the view of its client once only. -/
theorem ClientView.move_again (v : ClientView) (command : CaptureCommand) :
    ((v.move command).1.move command).1 = (v.move command).1 := by
  cases command with
  | connect clientId =>
      by_cases hconnected : v.connected = true
      · simp only [move, if_pos hconnected]
      · simp only [move, if_neg hconnected, if_true]
  | disconnect clientId =>
      by_cases hconnected : v.connected = true
      · simp only [move, if_pos hconnected, Bool.false_eq_true, if_false]
      · simp only [move, if_neg hconnected]
  | startCapture body clientId =>
      by_cases hconnected : v.connected = true
      · by_cases htypes : expandTypes body = []
        · simp only [move, if_pos hconnected, if_pos htypes]
        · simp only [move, if_pos hconnected, if_neg htypes, Finset.union_assoc, Finset.union_self]
      · simp only [move, if_neg hconnected]
  | stopCapture body clientId =>
      by_cases htypes : expandTypes body = []
      · simp only [move, if_pos htypes]
      · simp only [move, if_neg htypes, sdiff_idem]

/-- Services with the same views have the same sessions, subscriptions and counters. -/
theorem stores_eq_of_views {s other : Service} (hexact : s.channels.Exact)
    (hother : other.channels.Exact)
    (hview : ∀ clientId, s.clientView clientId = other.clientView clientId) :
    s.sessions = other.sessions ∧
      (∀ clientId, s.channels.subscriptions clientId = other.channels.subscriptions clientId) ∧
      ∀ t, s.channels.subscriberCount t = other.channels.subscriberCount t := by
  have hsubscriptions : ∀ clientId,
      s.channels.subscriptions clientId = other.channels.subscriptions clientId :=
    fun clientId => congrArg ClientView.subscriptions (hview clientId)
  refine ⟨?_, hsubscriptions, fun t => ?_⟩
  · ext clientId
    exact decide_eq_decide.mp (congrArg ClientView.connected (hview clientId))
  · have hsubscribers : s.channels.subscribers t = other.channels.subscribers t := by
      ext clientId
      rw [ChannelManager.mem_subscribers, ChannelManager.mem_subscribers, hsubscriptions clientId]
    rw [ChannelManager.subscriberCount_eq, ChannelManager.subscriberCount_eq, hexact t, hother t,
      hsubscribers]

/-- A capture command that is repeated, with nothing of its client in between, leaves
sessions, subscriptions and counters as without the repetition, and every client is
answered the same but for the repetition itself. -/
theorem retry_unseen (lib : JsonLibrary) (cfg : Config) (cameraFile : Option Bytes)
    (source : SimDataSource) (command : CaptureCommand)
    (before between after : List CaptureCommand)
    (hothers : ∀ other ∈ between, other.clientId ≠ command.clientId) :
    let once := serveCommands lib cfg cameraFile source (before ++ command :: between ++ after)
    let twice := serveCommands lib cfg cameraFile source
      (before ++ command :: between ++ command :: after)
    twice.1.sessions = once.1.sessions ∧
      (∀ clientId, twice.1.channels.subscriptions clientId =
        once.1.channels.subscriptions clientId) ∧
      (∀ t, twice.1.channels.subscriberCount t = once.1.channels.subscriberCount t) ∧
      ∀ clientId, ∃ earlier later repeated,
        answersTo clientId once.2 = earlier ++ later ∧
        answersTo clientId twice.2 = earlier ++ repeated ++ later ∧
        ∀ answer ∈ repeated, answer.1 = command := by
  intro once twice
  have hretry := fun clientId => clientIsolation.serveAll_retry
    (fun v => ClientView.move_again v command) (mainService lib cfg cameraFile source) before
    between after hothers clientId
  obtain ⟨hsessions, hsubscriptions, hcounts⟩ := stores_eq_of_views
    (serveCommands_exact lib cfg cameraFile source _)
    (serveCommands_exact lib cfg cameraFile source _) fun clientId => (hretry clientId).1
  exact ⟨hsessions, hsubscriptions, hcounts, fun clientId => (hretry clientId).2⟩

theorem startAgain_unseen :
    (∀ other ∈ [CaptureCommand.connect (lit "B")],
        other.clientId ≠ (CaptureCommand.startCapture (typeBody "imu") (lit "A")).clientId) ∧
      (serveCommands .plain {} none {} ([.connect (lit "A")] ++
          .startCapture (typeBody "imu") (lit "A") :: [.connect (lit "B")] ++
          .startCapture (typeBody "imu") (lit "A") :: [.disconnect (lit "A")])).1.sessions =
        (serveCommands .plain {} none {} ([.connect (lit "A")] ++
          .startCapture (typeBody "imu") (lit "A") :: [.connect (lit "B")] ++
          [.disconnect (lit "A")])).1.sessions := by
  have hothers : ∀ other ∈ [CaptureCommand.connect (lit "B")],
      other.clientId ≠ (CaptureCommand.startCapture (typeBody "imu") (lit "A")).clientId := by
    intro other hother
    rw [List.mem_singleton.mp hother]
    decide
  exact ⟨hothers, (retry_unseen .plain {} none {} (.startCapture (typeBody "imu") (lit "A")) _ _ _
    hothers).1⟩

end SimVision
