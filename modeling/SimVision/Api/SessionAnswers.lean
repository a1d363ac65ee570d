import SimVision.Api.CommandInterleaving

/-! # Answers to connects and disconnects

A command checks the session set and changes it later without looking at what
the change returns. The answers balance as long as every check still holds when
the change is made.
-/

namespace SimVision

open Foundation CommandHandler

/-! ## Counting answers -/

/-- The success of a `connect`. -/
def Answer.connected (a : Answer) : Bool :=
  a.response.code = .success && a.response.message = lit "Connected"

/-- The success of a `disconnect`. -/
def Answer.disconnected (a : Answer) : Bool :=
  a.response.code = .success && a.response.message = lit "Disconnected"

/-- One session for a client that is connected. -/
def sessionsOf (s : Service) (clientId : Bytes) : Nat := (s.sessions.isConnected clientId).toNat

/-- The worker has erased the session and not answered yet. -/
def CommandPhase.hasErased : CommandPhase → Bool
  | disconnectPolls => true
  | disconnectDrains => true
  | _ => false

/-- The phases of a connect or a disconnect of one client. -/
def CommandPhase.OfSession (clientId : Bytes) : CommandPhase → Prop
  | idle => True
  | connectChecks client => client = clientId
  | connectInserts client => client = clientId
  | disconnectChecks client => client = clientId
  | disconnectUnsubscribes client => client = clientId
  | disconnectErases client => client = clientId
  | disconnectPolls => True
  | disconnectDrains => True
  | _ => False

/-- Requests are connects and disconnects of one client. -/
def OnlySession (clientId : Bytes) (_ : CommandState) : CommandAction → Prop
  | .handle _ command => command = .connect clientId ∨ command = .disconnect clientId
  | .advance _ => True

/-- A session is inserted while it is absent and erased while it is present. -/
def CheckStillHolds (state : CommandState) : CommandAction → Prop
  | .handle _ _ => True
  | .advance worker =>
      match state.workers[worker]? with
      | some (.connectInserts clientId) => state.service.sessions.isConnected clientId = false
      | some (.disconnectErases clientId) => state.service.sessions.isConnected clientId = true
      | _ => True

def SessionGuard (clientId : Bytes) (state : CommandState) (action : CommandAction) : Prop :=
  OnlySession clientId state action ∧ CheckStillHolds state action

/-- What one call does to the balance of a client: what it answers, what it
leaves unanswered, and the session. -/
structure SessionStep (clientId : Bytes) (s next : Service) (p q : CommandPhase)
    (answers : List Answer) : Prop where
  ofSession : q.OfSession clientId
  balance : answers.countP Answer.connected + p.hasErased.toNat + sessionsOf s clientId =
    answers.countP Answer.disconnected + q.hasErased.toNat + sessionsOf next clientId
  settles : p.hasErased.toNat ≤ answers.countP Answer.disconnected + q.hasErased.toNat
  alreadyInit : ∀ a ∈ answers, a.response.code = .alreadyInit → sessionsOf s clientId = 1
  notReady : ∀ a ∈ answers, a.response.code = .notReady → sessionsOf s clientId = 0

theorem SessionStep.of_advance {clientId : Bytes} {s next : Service} {p q : CommandPhase}
    {r : Option Response} (worker : Nat) (hof : p.OfSession clientId)
    (hadvance : p.advance s = some (next, q, r))
    (hinserts : p = .connectInserts clientId → s.sessions.isConnected clientId = false)
    (herases : p = .disconnectErases clientId → s.sessions.isConnected clientId = true) :
    SessionStep clientId s next p q (r.toList.map (Answer.mk worker)) := by
  cases p with
  | idle => contradiction
  | connectChecks client =>
      obtain rfl : client = clientId := hof
      rw [CommandPhase.advance] at hadvance
      split at hadvance
      next hconnected =>
        cases hadvance
        have hone : sessionsOf s client = 1 := by
          rw [sessionsOf, hconnected]
          rfl
        exact ⟨trivial, rfl, Nat.zero_le _, fun _ _ _ => hone, by simp⟩
      next =>
        cases hadvance
        exact ⟨rfl, rfl, Nat.zero_le _, by simp, by simp⟩
  | connectInserts client =>
      obtain rfl : client = clientId := hof
      cases hadvance
      refine ⟨trivial, ?_, Nat.zero_le _, by simp, by simp⟩
      have habsent := hinserts rfl
      have hpresent : (s.sessions.connect client).1.isConnected client = true := by
        simp [SessionManager.isConnected, SessionManager.connect]
      rw [sessionsOf, sessionsOf, habsent, hpresent]
      rfl
  | disconnectChecks client =>
      obtain rfl : client = clientId := hof
      rw [CommandPhase.advance] at hadvance
      split at hadvance
      next =>
        cases hadvance
        exact ⟨rfl, rfl, Nat.zero_le _, by simp, by simp⟩
      next hconnected =>
        cases hadvance
        have hnone : sessionsOf s client = 0 := by
          rw [sessionsOf, Bool.eq_false_iff.mpr hconnected]
          rfl
        exact ⟨trivial, rfl, Nat.zero_le _, by simp [Response.fromError], fun _ _ _ => hnone⟩
  | disconnectUnsubscribes client =>
      cases hadvance
      exact ⟨hof, rfl, Nat.zero_le _, by simp, by simp⟩
  | disconnectErases client =>
      obtain rfl : client = clientId := hof
      cases hadvance
      refine ⟨trivial, ?_, Nat.zero_le _, by simp, by simp⟩
      have hpresent := herases rfl
      have habsent : (s.sessions.disconnect client).1.isConnected client = false := by
        simp [SessionManager.isConnected, SessionManager.disconnect]
      rw [sessionsOf, sessionsOf, habsent, hpresent]
      rfl
  | disconnectPolls =>
      rw [CommandPhase.advance] at hadvance
      split at hadvance
      next =>
        cases hadvance
        exact ⟨trivial, rfl, Nat.le_refl 1, by simp, by simp⟩
      next =>
        cases hadvance
        exact ⟨trivial, rfl, Nat.le_refl 1, by simp, by simp⟩
  | disconnectDrains =>
      cases hadvance
      exact ⟨trivial, rfl, Nat.le_refl 1, by simp, by simp⟩
  | _ => exact absurd hof id

/-! ## The balance along a run -/

/-- What the answers given so far say about the session of a client. -/
structure SessionTally (clientId : Bytes) (start : Service) (history : List Answer)
    (state : CommandState) : Prop where
  ofSession : ∀ phase ∈ state.workers, phase.OfSession clientId
  balance : history.countP Answer.connected + sessionsOf start clientId =
    history.countP Answer.disconnected + state.workers.countP CommandPhase.hasErased +
      sessionsOf state.service clientId
  alreadyInit : ∀ a ∈ history, a.response.code = .alreadyInit →
    0 < history.countP Answer.connected + sessionsOf start clientId
  notReady : ∀ a ∈ history, a.response.code = .notReady →
    sessionsOf start clientId ≤
      history.countP Answer.disconnected + state.workers.countP CommandPhase.hasErased

namespace SessionTally

variable {clientId : Bytes} {start : Service} {history : List Answer} {state next : CommandState}

theorem init (threads : Nat) :
    SessionTally clientId start [] (commandMachine threads start).init where
  ofSession := by
    intro phase hphase
    rw [List.eq_of_mem_replicate hphase]
    trivial
  balance := by
    have herased : (List.replicate threads CommandPhase.idle).countP CommandPhase.hasErased =
        0 := by
      rw [List.countP_replicate]
      rfl
    change 0 + sessionsOf start clientId =
      0 + (List.replicate threads CommandPhase.idle).countP CommandPhase.hasErased +
        sessionsOf start clientId
    rw [herased]
  alreadyInit := by simp
  notReady := by simp

/-- A worker that moves on by a balanced step keeps the tally. -/
theorem step {worker : Nat} {service : Service} {p q : CommandPhase} {answers : List Answer}
    (htally : SessionTally clientId start history state)
    (hworker : state.workers[worker]? = some p)
    (hstep : SessionStep clientId state.service service p q answers) :
    SessionTally clientId start (history ++ answers)
      { service := service, workers := state.workers.set worker q } := by
  obtain ⟨hofSession, hbalance, halreadyInit, hnotReady⟩ := htally
  have hpending := countP_step CommandPhase.hasErased hworker q
  have hstepBalance := hstep.balance
  have hsettles := hstep.settles
  constructor
  · intro phase hphase
    rcases List.mem_or_eq_of_mem_set hphase with hphase | rfl
    · exact hofSession phase hphase
    · exact hstep.ofSession
  · simp only [List.countP_append]
    omega
  · intro a ha hcode
    rw [List.countP_append]
    rcases List.mem_append.mp ha with ha | ha
    · have hbefore := halreadyInit a ha hcode
      omega
    · have hconnected := hstep.alreadyInit a ha hcode
      omega
  · intro a ha hcode
    dsimp only
    rw [List.countP_append]
    rcases List.mem_append.mp ha with ha | ha
    · have hbefore := hnotReady a ha hcode
      omega
    · have hconnected := hstep.notReady a ha hcode
      omega

end SessionTally

theorem sessionTally_of_reaches {threads : Nat} {start : Service} {clientId : Bytes}
    {history : List Answer} {state : CommandState}
    (hreach : (commandMachine threads start).Reaches (SessionGuard clientId) history state) :
    SessionTally clientId start history state := by
  apply hreach.invariant (SessionTally clientId start)
  · exact SessionTally.init threads
  · intro history state action next answers _ htally hguard hstep
    obtain ⟨honly, hcheck⟩ := hguard
    cases action with
    | handle worker command =>
        simp only [commandMachine, commandStep] at hstep
        split at hstep
        next hworker =>
          cases hstep
          apply htally.step hworker
          rcases honly with rfl | rfl
          · exact ⟨rfl, rfl, Nat.zero_le _, by simp, by simp⟩
          · exact ⟨rfl, rfl, Nat.zero_le _, by simp, by simp⟩
        next => contradiction
    | advance worker =>
        simp only [commandMachine, commandStep] at hstep
        split at hstep
        next => contradiction
        next p hworker =>
          obtain ⟨⟨service, q, r⟩, hadvance, heq⟩ := Option.map_eq_some_iff.mp hstep
          cases heq
          have hof := htally.ofSession p (List.mem_of_getElem? hworker)
          simp only [CheckStillHolds, hworker] at hcheck
          apply htally.step hworker
          apply SessionStep.of_advance worker hof hadvance
          · rintro rfl
            exact hcheck
          · rintro rfl
            exact hcheck

/-- An answer that a `connect` can have. -/
def Answer.ToConnect (a : Answer) : Prop :=
  a.connected = true ∨ a.response.code = .alreadyInit

/-- An answer that a `disconnect` can have. -/
def Answer.ToDisconnect (a : Answer) : Prop :=
  a.disconnected = true ∨ a.response.code = .notReady

theorem Answer.connected_iff {a : Answer} : a.connected = true ↔
    a.response.code = .success ∧ a.response.message = lit "Connected" := by
  simp [Answer.connected]

theorem Answer.disconnected_iff {a : Answer} : a.disconnected = true ↔
    a.response.code = .success ∧ a.response.message = lit "Disconnected" := by
  simp [Answer.disconnected]

theorem Answer.ToConnect.not_disconnected {a : Answer} (ha : a.ToConnect) :
    ¬ a.disconnected = true := by
  rw [Answer.disconnected_iff]
  rintro ⟨hcode, hmessage⟩
  rcases ha with hconnected | halready
  · rw [(Answer.connected_iff.mp hconnected).2] at hmessage
    exact absurd hmessage (by decide)
  · rw [hcode] at halready
    contradiction

theorem Answer.ToDisconnect.not_connected {a : Answer} (ha : a.ToDisconnect) :
    ¬ a.connected = true := by
  rw [Answer.connected_iff]
  rintro ⟨hcode, hmessage⟩
  rcases ha with hdisconnected | hnotReady
  · rw [(Answer.disconnected_iff.mp hdisconnected).2] at hmessage
    exact absurd hmessage (by decide)
  · rw [hcode] at hnotReady
    contradiction

/-- When every check still holds at its change, the answered successes of a
client balance with its session whenever no command is in progress. Of several
racing connects one succeeds, and of several racing disconnects. -/
theorem session_answers_balance (threads : Nat) {start : Service} {clientId : Bytes}
    {history : List Answer} {state : CommandState}
    (hreach : (commandMachine threads start).Reaches (SessionGuard clientId) history state)
    (hidle : ∀ phase ∈ state.workers, phase = .idle) :
    (history.countP Answer.connected : Int) - history.countP Answer.disconnected =
        sessionsOf state.service clientId - sessionsOf start clientId ∧
      (sessionsOf start clientId = 0 → history ≠ [] → (∀ a ∈ history, a.ToConnect) →
        history.countP Answer.connected = 1) ∧
      (sessionsOf start clientId = 1 → history ≠ [] → (∀ a ∈ history, a.ToDisconnect) →
        history.countP Answer.disconnected = 1) := by
  obtain ⟨_, hbalance, halreadyInit, hnotReady⟩ := sessionTally_of_reaches hreach
  have herased : state.workers.countP CommandPhase.hasErased = 0 := by
    rw [List.countP_eq_zero]
    intro phase hphase
    rw [hidle phase hphase]
    exact Bool.false_ne_true
  have hone : sessionsOf state.service clientId ≤ 1 := Bool.toNat_le _
  rw [herased] at hbalance hnotReady
  refine ⟨by omega, fun hstart hsome hconnects => ?_, fun hstart hsome hdisconnects => ?_⟩
  · have hnone : history.countP Answer.disconnected = 0 :=
      List.countP_eq_zero.mpr fun a ha => (hconnects a ha).not_disconnected
    obtain ⟨a, ha⟩ := List.exists_mem_of_ne_nil history hsome
    have hpos : 0 < history.countP Answer.connected := by
      rcases hconnects a ha with hconnected | halready
      · exact List.countP_pos_iff.mpr ⟨a, ha, hconnected⟩
      · have hpast := halreadyInit a ha halready
        omega
    omega
  · have hnone : history.countP Answer.connected = 0 :=
      List.countP_eq_zero.mpr fun a ha => (hdisconnects a ha).not_connected
    obtain ⟨a, ha⟩ := List.exists_mem_of_ne_nil history hsome
    have hpos : 0 < history.countP Answer.disconnected := by
      rcases hdisconnects a ha with hdisconnected | hrefused
      · exact List.countP_pos_iff.mpr ⟨a, ha, hdisconnected⟩
      · have hpast := hnotReady a ha hrefused
        omega
    omega

/-- Two connects of client `A`, one after the other, and its disconnect. -/
def connectTwice : List CommandAction :=
  [.handle 0 (.connect (lit "A")), .handle 1 (.connect (lit "A")), .advance 0, .advance 0,
    .advance 1, .handle 0 (.disconnect (lit "A")), .advance 0, .advance 0, .advance 0, .advance 0,
    .advance 0]

theorem connectTwice_balances :
    ∃ state history, (commandMachine 2 emptyStores).runFrom (commandMachine 2 emptyStores).init
      connectTwice = some (state, history) ∧
      (history.countP Answer.connected : Int) - history.countP Answer.disconnected =
        sessionsOf state.service (lit "A") - sessionsOf emptyStores (lit "A") := by
  have hruns : ((commandMachine 2 emptyStores).runFrom (commandMachine 2 emptyStores).init
      connectTwice).map (fun result => result.1.workers.all CommandPhase.isIdle) = some true := by
    decide
  obtain ⟨⟨state, history⟩, hrun, hidle⟩ := Option.map_eq_some_iff.mp hruns
  have hguarded : (commandMachine 2 emptyStores).Guarded (SessionGuard (lit "A"))
      (commandMachine 2 emptyStores).init connectTwice := by
    refine ⟨⟨.inl rfl, trivial⟩, ⟨.inl rfl, trivial⟩, ⟨trivial, trivial⟩, ⟨trivial, rfl⟩,
      ⟨trivial, trivial⟩, ⟨.inr rfl, trivial⟩, ⟨trivial, trivial⟩, ⟨trivial, trivial⟩,
      ⟨trivial, rfl⟩, ⟨trivial, trivial⟩, ⟨trivial, trivial⟩, trivial⟩
  have hbalance := (session_answers_balance 2 (Machine.Reaches.init.runGuarded hguarded hrun)
    fun phase hphase => CommandPhase.isIdle_iff.mp (List.all_eq_true.mp hidle phase hphase)).1
  exact ⟨state, history, hrun, hbalance⟩

/-- The same two connects, both checked before either inserts. -/
def connectTogether : List CommandAction :=
  [.handle 0 (.connect (lit "A")), .handle 1 (.connect (lit "A")), .advance 0, .advance 1,
    .advance 0, .advance 1]

/-- Two connects of one client are both told `Success`. -/
theorem connectTogether_unbalanced :
    ¬ ∀ (threads : Nat) (start : Service) (clientId : Bytes),
      start.sessions.isConnected clientId = false →
      ∀ (history : List Answer) (state : CommandState),
        (commandMachine threads start).Reaches (OnlySession clientId) history state →
        (∀ phase ∈ state.workers, phase = .idle) →
        (history.countP Answer.connected : Int) - history.countP Answer.disconnected =
          sessionsOf state.service clientId := by
  intro hclaim
  have hrun : ((commandMachine 2 emptyStores).runFrom (commandMachine 2 emptyStores).init
      connectTogether).map (fun result =>
        (result.1.workers.all CommandPhase.isIdle, result.2.countP Answer.connected,
          result.2.countP Answer.disconnected, sessionsOf result.1.service (lit "A"))) =
      some (true, 2, 0, 1) := by decide
  obtain ⟨⟨state, history⟩, hresult, hview⟩ := Option.map_eq_some_iff.mp hrun
  simp only [Prod.mk.injEq, List.all_eq_true] at hview
  obtain ⟨hidle, hconnected, hdisconnected, hsession⟩ := hview
  have hguarded : (commandMachine 2 emptyStores).Guarded (OnlySession (lit "A"))
      (commandMachine 2 emptyStores).init connectTogether :=
    ⟨.inl rfl, .inl rfl, trivial, trivial, trivial, trivial, trivial⟩
  have hbalance := hclaim 2 emptyStores (lit "A") rfl history state
    (Machine.Reaches.init.runGuarded hguarded hresult)
    fun phase hphase => CommandPhase.isIdle_iff.mp (hidle phase hphase)
  rw [hconnected, hdisconnected, hsession] at hbalance
  contradiction

end SimVision
