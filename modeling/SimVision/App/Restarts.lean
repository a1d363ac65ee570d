import SimVision.App.Shutdown

/-! # Settings across restarts

The process runs, ends and is started again with the file that it left. A run that is
killed before it saves leaves the file as it found it; a run that comes past that writes
what its clients have set. So the parameters of the next start are those that the answers
of the runs that saved tell of.
-/

namespace SimVision

open Foundation CommandHandler

/-! ## What a file leaves of the parameters -/

/-- Whatever the file says, the parameters of a start are a rewriting. -/
theorem rewrittenAll_loadCameraSetting (lib : JsonLibrary) (file : Option Bytes)
    (registered : ParameterManager) :
    RewrittenAll registered (loadCameraSetting lib file registered) := by
  obtain ⟨entries, hentries⟩ := loadCameraSetting_writes lib file
    { params := registered, pipeline := .create 1 }
  have hwrites := @rewrittenAll_writes lib { params := registered, pipeline := .create 1 } entries
  rw [← hentries] at hwrites
  exact hwrites

theorem RewrittenAll.trans {registered start current : ParameterManager}
    (hstart : RewrittenAll registered start) (hcurrent : RewrittenAll start current) :
    RewrittenAll registered current := by
  intro name
  cases hget : current.get name with
  | none =>
      rw [hstart.get_eq_none (hcurrent.get_eq_none hget)]
      exact .none
  | some p =>
      obtain ⟨q, hq, value, rfl, hvalue⟩ := hcurrent.of_current hget
      obtain ⟨p₀, hregistered, hrewritten⟩ := hstart.of_current hq
      rw [hregistered]
      refine .some ?_
      rcases hvalue with rfl | ⟨hwritable, hadmits⟩
      · exact hrewritten
      · have hadmits₀ := Parameter.admits_of_rewritten hrewritten hadmits
        obtain ⟨old, rfl, -⟩ := hrewritten
        exact ⟨value, rfl, .inr ⟨hwritable, hadmits₀⟩⟩

/-! ## Runs one after another -/

/-- The parameters with which a process starts that finds this file. -/
def startParameters (lib : JsonLibrary) (cfg : Config) (file : Option Bytes) : ParameterManager :=
  loadCameraSetting lib file (registerParameters {} cfg)

/-- The file that a sequence of runs has left, with the answers of those that saved.
A file that is saved is read again as what was printed. -/
inductive Lives (lib : JsonLibrary) (calls : NodeCalls) (workers : Nat) (cfg : Config)
    (first : Option Bytes) : List LogEntry → Option Bytes → Prop
  | start : Lives lib calls workers cfg first [] first
  /-- The run ends, by itself or not, after it has saved. -/
  | saved {before log : List LogEntry} {file : Option Bytes} {state : NodeState} :
      Lives lib calls workers cfg first before file →
      (node lib calls workers cfg (startParameters lib cfg file) file).Reachable log state →
      MainPc.destroysContext.position ≤ state.main.position →
      JsonLibrary.PrintsBack calls.dump lib.parseStream (cameraSettingJson state.params) →
      Lives lib calls workers cfg first (before ++ log) state.file
  /-- The run ends before it saves. -/
  | killed {before log : List LogEntry} {file : Option Bytes} {state : NodeState} :
      Lives lib calls workers cfg first before file →
      (node lib calls workers cfg (startParameters lib cfg file) file).Reachable log state →
      state.main.position < MainPc.destroysContext.position →
      Lives lib calls workers cfg first before state.file

/-- A log that goes on from what another one tells. -/
theorem loggedParameter_trans {first start : ParameterManager} {before log : List LogEntry}
    {name : Bytes} (hstart : start.get name = loggedParameter first name before) :
    loggedParameter start name log = loggedParameter first name (before ++ log) := by
  rw [loggedParameter, loggedParameter, hstart, loggedParameter, Option.map_map, lastWrite_append]
  congr 1
  ext p
  cases lastWrite (settingWrite? name) log with
  | none => rfl
  | some value => rfl

variable {lib : JsonLibrary} {calls : NodeCalls} {workers : Nat} {cfg : Config}
  {configDir : Bytes} {configFile first file : Option Bytes} {log : List LogEntry}

/-- After any number of runs, saved or killed, the process starts with the parameters
that the answers of the saved runs tell of. -/
theorem settings_survive (hstrings : lib.ConvertsStrings) (hints : lib.ConvertsInt64)
    (hdump : ∀ j : Json, j.utf8 = true → ∃ text, calls.dump j = .ok text)
    (hload : ConfigLoader.load lib configDir configFile = (cfg, []))
    (hlives : Lives lib calls workers cfg first log file) (name : Bytes) :
    (startParameters lib cfg file).get name =
      loggedParameter (startParameters lib cfg first) name log := by
  obtain ⟨hlow, hhigh⟩ := ConfigLoader.load_fps hload
  induction hlives generalizing name with
  | start => exact Option.map_id'.symm
  | @saved before log file state _ hreach hmain hprints ih =>
      have hinv := NodeInv.of_reaches hreach
      have hrewritten := (rewrittenAll_loadCameraSetting lib _ _).trans hinv.rewritten
      have hsaved : state.file = some (saveCameraSetting calls.dump state.params) :=
        hinv.entry .destroysContext hmain
      rw [startParameters, hsaved,
        hrewritten.restored hstrings hints hdump hlow hhigh hprints, hinv.params]
      exact loggedParameter_trans (ih name)
  | killed _ hreach hmain ih =>
      rw [(NodeInv.of_reaches hreach).unsaved hmain]
      exact ih name

/-- What the process has saved after its gain was set to 70. -/
def fastFile : Bytes :=
  saveCameraSetting fastLibrary.dump (fastService.settingSteps fastLibrary [gainRequest]).params

def gainThenSaved : List NodeAction :=
  .setParameter 0 (Json.ofAssignments [(lit "name", .string (lit "gain")),
    (lit "value", .integer 70)]) (lit "A") :: stopSteps 6

/-- The gain is set again, and `main` has been told to stop. -/
def gainThenKilled : List NodeAction :=
  [.setParameter 0 setGain.body (lit "A"), .main]

def fastCalls : NodeCalls :=
  blockingCalls fastLibrary.dump

/-- The process as it starts with the file. -/
def fastNode (file : Option Bytes) : Machine NodeState NodeAction LogEntry :=
  node fastLibrary fastCalls 1 (loadedConfig 240)
    (startParameters fastLibrary (loadedConfig 240) file) file

theorem gain_survives :
    ∃ log file, Lives fastLibrary fastCalls 1 (loadedConfig 240) none log file ∧
      (startParameters fastLibrary (loadedConfig 240) file).get (lit "gain") =
        loggedParameter (startParameters fastLibrary (loadedConfig 240) none) (lit "gain") log := by
  have hdump : ∀ j : Json, j.utf8 = true → ∃ text, fastCalls.dump j = .ok text :=
    fun j hutf8 => ⟨j.text, JsonLibrary.plain_dump hutf8⟩
  have hprints : JsonLibrary.PrintsBack fastCalls.dump fastLibrary.parseStream fastSaved :=
    settingsLibrary_printsBack (by decide +kernel)
  have hset : ((fastNode none).runFrom (fastNode none).init gainThenSaved).map
      (fun result => (result.1.main, cameraSettingJson result.1.params, result.1.file)) =
        some (.destroysContext, fastSaved, some fastFile) :=
    rfl
  have hkilled : ((fastNode (some fastFile)).runFrom (fastNode (some fastFile)).init
      gainThenKilled).map (fun result => (result.1.main, result.1.file)) =
        some (.stopsServer, some fastFile) := by
    decide +kernel
  obtain ⟨⟨first, log⟩, hrun, hfirst⟩ := Option.map_eq_some_iff.mp hset
  obtain ⟨⟨second, lost⟩, hlost, hsecond⟩ := Option.map_eq_some_iff.mp hkilled
  simp only [Prod.mk.injEq] at hfirst hsecond
  have hlives : Lives fastLibrary fastCalls 1 (loadedConfig 240) none ([] ++ log) second.file := by
    have hsaved := Lives.saved .start (Machine.reachable_of_runFrom hrun)
      (hfirst.1 ▸ le_rfl) (hfirst.2.1 ▸ hprints)
    rw [hfirst.2.2] at hsaved
    have hunsaved : second.main.position < MainPc.destroysContext.position := by
      rw [hsecond.1]
      decide
    exact .killed hsaved (Machine.reachable_of_runFrom hlost) hunsaved
  refine ⟨_, _, hlives, ?_⟩
  have hstrings : fastLibrary.ConvertsStrings :=
    ⟨fun _ => rfl, JsonLibrary.plain_convertsStrings.getString_ok⟩
  exact settings_survive hstrings ⟨fun _ _ => rfl, fun _ _ => rfl⟩ hdump fastLibrary_loads hlives _

end SimVision
