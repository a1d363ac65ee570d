import Mathlib.Data.List.AList
import SimVision.Foundation.Effect
import SimVision.Foundation.Json

/-! # Configuration

`ConfigLoader.load` fills a configuration field by field from a JSON document
and stops at the first field it rejects. A field that is absent keeps its
default.
-/

namespace SimVision

open Foundation

structure AdminServerConfig where
  host : Bytes := lit "0.0.0.0"
  port : Int := 8443
  certPath : Bytes := lit "certs/server.crt"
  keyPath : Bytes := lit "certs/server.key"
  workerThreads : Int := 4
  serverId : Bytes := lit "sim_vision_01"

structure CaptureConfig where
  fps : Int := 15
  dataSourceDir : Bytes := lit "DataSource"
  stereoImageDir : Bytes := lit "DataSource/StereoImage"
  imageWidth : Int := 1280
  imageHeight : Int := 720
  imageChannels : Int := 4

structure ZmqConfig where
  transport : Bytes := lit "ipc"
  hwm : Int := 10
  immediate : Bool := true
  lingerMs : Int := 1000
  pubId : Bytes := lit "sim_vision_pub_01"
  endpoints : AList (fun _ : Bytes => Bytes) := ∅

structure SpscConfig where
  queueSize : Int := 8
  dropPolicy : Bytes := lit "newest"
  cvTimeoutMs : Int := 10

structure Config where
  version : Int := 1
  admin : AdminServerConfig := {}
  capture : CaptureConfig := {}
  zmq : ZmqConfig := {}
  spsc : SpscConfig := {}
  logLevel : Bytes := lit "info"

namespace ConfigLoader

/-- The checks by which a document is rejected. -/
inductive Rejection where
  | missingAdminServer
  | invalidPort
  | invalidFps
  | missingEndpoints

/-- The text a rejection leaves in `err`. -/
def Rejection.err : Rejection → Bytes
  | .missingAdminServer => lit "missing required config field: " ++ lit "admin_server"
  | .invalidPort => lit "invalid admin_server port"
  | .invalidFps => lit "invalid capture.fps (must be 1..240)"
  | .missingEndpoints => lit "zmq.endpoints must define visual_2d, visual_3d, sensor_data"

theorem Rejection.err_ne_nil (rejection : Rejection) : rejection.err ≠ [] := by
  cases rejection <;> decide

/-- How loading is left early: by an exception, caught by the `try` block, or by
a `return` after a check. -/
inductive Exit where
  | thrown (what : Bytes)
  | rejected (rejection : Rejection)

/-- The body of the `try` block, which assigns the members of `cfg`. -/
abbrev LoadM := Effect Exit Config

/-- `if (j.contains(key)) member = j[key].get<T>();` -/
def optField {T : Type} (convert : Json → Except Bytes T) (j : Json) (key : Bytes)
    (assign : T → Config → Config) : LoadM Unit :=
  if j.contains key then
    Effect.ofExcept Exit.thrown (convert (j.field key)) >>= fun value => modify (assign value)
  else pure ()

variable (lib : JsonLibrary)

def loadAdmin (j : Json) : LoadM Unit :=
  if j.contains (lit "admin_server") then do
    let a := j.field (lit "admin_server")
    optField lib.getString a (lit "host") fun v c => { c with admin := { c.admin with host := v } }
    optField lib.getInt a (lit "port") fun v c => { c with admin := { c.admin with port := v } }
    optField lib.getString a (lit "cert_path")
      fun v c => { c with admin := { c.admin with certPath := v } }
    optField lib.getString a (lit "key_path")
      fun v c => { c with admin := { c.admin with keyPath := v } }
    optField lib.getInt a (lit "worker_threads")
      fun v c => { c with admin := { c.admin with workerThreads := v } }
    optField lib.getString a (lit "server_id")
      fun v c => { c with admin := { c.admin with serverId := v } }
  else pure ()

/-- `check` of `admin_server`, and the check of the port. -/
def checkAdmin (j : Json) : LoadM Unit :=
  if j.contains (lit "admin_server") then do
    let cfg ← get
    if cfg.admin.port ≤ 0 then throw (.rejected .invalidPort) else pure ()
  else throw (.rejected .missingAdminServer)

def loadCapture (j : Json) : LoadM Unit :=
  if j.contains (lit "capture") then do
    let c := j.field (lit "capture")
    optField lib.getInt c (lit "fps") fun v c => { c with capture := { c.capture with fps := v } }
    optField lib.getString c (lit "data_source_dir")
      fun v c => { c with capture := { c.capture with dataSourceDir := v } }
    optField lib.getString c (lit "stereo_image_dir")
      fun v c => { c with capture := { c.capture with stereoImageDir := v } }
    optField lib.getInt c (lit "image_width")
      fun v c => { c with capture := { c.capture with imageWidth := v } }
    optField lib.getInt c (lit "image_height")
      fun v c => { c with capture := { c.capture with imageHeight := v } }
    optField lib.getInt c (lit "image_channels")
      fun v c => { c with capture := { c.capture with imageChannels := v } }
  else pure ()

def checkFps : LoadM Unit := do
  let cfg ← get
  if cfg.capture.fps ≤ 0 ∨ 240 < cfg.capture.fps then
    throw (.rejected .invalidFps)
  else pure ()

/-- The loop over the members of `endpoints`. An array or a scalar is iterated as well:
its first value is converted, and then `it.key()` throws. -/
def loadEndpoints : Json → LoadM Unit
  | .object members => assignAll members
  | .null => pure ()
  | .array [] => pure ()
  | .array (first :: _) => keyless first
  | scalar => keyless scalar
where
  /-- The right-hand side of the assignment is evaluated before the key. -/
  keyless (value : Json) : LoadM Unit :=
    Effect.ofExcept Exit.thrown (lib.getString value) >>= fun _ => throw (.thrown lib.keyError)
  assignAll : List (Bytes × Json) → LoadM Unit
    | [] => pure ()
    | (key, value) :: rest =>
        Effect.ofExcept Exit.thrown (lib.getString value) >>= fun v =>
        (modify fun c =>
          { c with zmq := { c.zmq with endpoints := c.zmq.endpoints.insert key v } }) >>= fun _ =>
        assignAll rest

def loadZmq (j : Json) : LoadM Unit :=
  if j.contains (lit "zmq") then do
    let z := j.field (lit "zmq")
    optField lib.getString z (lit "transport")
      fun v c => { c with zmq := { c.zmq with transport := v } }
    optField lib.getInt z (lit "hwm") fun v c => { c with zmq := { c.zmq with hwm := v } }
    optField lib.getBool z (lit "immediate")
      fun v c => { c with zmq := { c.zmq with immediate := v } }
    optField lib.getInt z (lit "linger_ms")
      fun v c => { c with zmq := { c.zmq with lingerMs := v } }
    optField lib.getString z (lit "pub_id") fun v c => { c with zmq := { c.zmq with pubId := v } }
    if z.contains (lit "endpoints") then loadEndpoints lib (z.field (lit "endpoints")) else pure ()
  else pure ()

/-- The high-water mark is raised to one; fewer than three endpoints are rejected. -/
def checkZmq : LoadM Unit := do
  modify fun c => { c with zmq := { c.zmq with hwm := if c.zmq.hwm < 1 then 1 else c.zmq.hwm } }
  let cfg ← get
  if cfg.zmq.endpoints.keys.length < 3 then
    throw (.rejected .missingEndpoints)
  else pure ()

def loadSpsc (j : Json) : LoadM Unit :=
  if j.contains (lit "spsc") then do
    let s := j.field (lit "spsc")
    optField lib.getInt s (lit "queue_size")
      fun v c => { c with spsc := { c.spsc with queueSize := v } }
    optField lib.getString s (lit "drop_policy")
      fun v c => { c with spsc := { c.spsc with dropPolicy := v } }
    optField lib.getInt s (lit "cv_timeout_ms")
      fun v c => { c with spsc := { c.spsc with cvTimeoutMs := v } }
  else pure ()

/-- The queue size is raised to one. -/
def checkSpsc : LoadM Unit :=
  modify fun c =>
    { c with spsc := { c.spsc with
        queueSize := if c.spsc.queueSize < 1 then 1 else c.spsc.queueSize } }

/-- What follows the checks of `capture`. -/
def loadTransport (j : Json) : LoadM Unit := do
  loadZmq lib j
  checkZmq
  loadSpsc lib j
  checkSpsc
  optField lib.getString j (lit "log_level") fun v c => { c with logLevel := v }

def loadFields (j : Json) : LoadM Unit := do
  optField lib.getInt j (lit "version") fun v c => { c with version := v }
  loadAdmin lib j
  checkAdmin j
  loadCapture lib j
  checkFps
  loadTransport lib j

/-- `load_json_file`, with `none` for a file that cannot be opened. -/
def loadJsonFile (path : Bytes) : Option Bytes → Except Bytes Json
  | none => .error (lit "cannot open config file: " ++ path)
  | some text =>
      match lib.parseStream text with
      | .ok j => .ok j
      | .error what => .error (lit "config parse error: " ++ what)

/-- `load`: the configuration and `err`, which is empty exactly on acceptance. -/
def load (configDir : Bytes) (file : Option Bytes) : Config × Bytes :=
  match loadJsonFile lib (configDir ++ lit "/config.json") file with
  | .error err => ({}, err)
  | .ok j =>
      match Effect.execute (loadFields lib j) {} with
      | (.ok _, cfg) => (cfg, [])
      | (.error (.rejected rejection), cfg) => (cfg, rejection.err)
      | (.error (.thrown what), cfg) => (cfg, lit "config field error: " ++ what)

/-! ## The checked frame rate -/

/-- The frame rates that pass the check. -/
def FpsChecked (cfg : Config) : Prop := 1 ≤ cfg.capture.fps ∧ cfg.capture.fps ≤ 240

variable {lib}

theorem optField_keeps {inv : Config → Prop} {T : Type} (convert : Json → Except Bytes T)
    (j : Json) (key : Bytes) {assign : T → Config → Config}
    (hassign : ∀ value cfg, inv cfg → inv (assign value cfg)) :
    Effect.Keeps inv (optField convert j key assign) := by
  unfold optField
  apply Effect.Keeps.ite
  · intro _
    refine .bind (.ofExcept _ _) fun value => ?_
    exact .modify (hassign value)
  · intro _
    exact .pure ()

theorem checkFps_establishes : Effect.Establishes FpsChecked checkFps := by
  intro cfg value hrun
  unfold checkFps at hrun ⊢
  rw [Effect.execute_bind, Effect.execute_get] at hrun ⊢
  dsimp only at hrun ⊢
  split at hrun
  next => simp at hrun
  next hrange =>
    rw [if_neg hrange]
    change FpsChecked cfg
    unfold FpsChecked
    omega

private theorem endpoints_keeps (members : List (Bytes × Json)) :
    Effect.Keeps FpsChecked (loadEndpoints.assignAll lib members) := by
  induction members with
  | nil => exact Effect.Keeps.pure ()
  | cons member rest ih =>
      rcases member with ⟨key, value⟩
      refine .bind (.ofExcept _ _) fun v => ?_
      refine .bind (.modify fun _ hfps => hfps) fun _ => ?_
      exact ih

private theorem loadEndpoints_keeps (endpoints : Json) :
    Effect.Keeps FpsChecked (loadEndpoints lib endpoints) := by
  have hkeyless : ∀ value, Effect.Keeps FpsChecked (loadEndpoints.keyless lib value) :=
    fun _ => .bind (.ofExcept _ _) fun _ => .throw _
  unfold loadEndpoints
  split
  · exact endpoints_keeps _
  · exact Effect.Keeps.pure ()
  · exact Effect.Keeps.pure ()
  · exact hkeyless _
  · exact hkeyless _

private theorem loadZmq_keeps (j : Json) : Effect.Keeps FpsChecked (loadZmq lib j) := by
  unfold loadZmq
  apply Effect.Keeps.ite
  · intro _
    refine .bind (optField_keeps _ _ _ fun _ _ hfps => hfps) fun _ => ?_
    refine .bind (optField_keeps _ _ _ fun _ _ hfps => hfps) fun _ => ?_
    refine .bind (optField_keeps _ _ _ fun _ _ hfps => hfps) fun _ => ?_
    refine .bind (optField_keeps _ _ _ fun _ _ hfps => hfps) fun _ => ?_
    refine .bind (optField_keeps _ _ _ fun _ _ hfps => hfps) fun _ => ?_
    exact .ite (fun _ => loadEndpoints_keeps _) fun _ => .pure ()
  · intro _
    exact .pure ()

private theorem loadTransport_keeps (j : Json) :
    Effect.Keeps FpsChecked (loadTransport lib j) := by
  unfold loadTransport
  refine .bind (loadZmq_keeps j) fun _ => ?_
  refine .bind ?_ fun _ => ?_
  · unfold checkZmq
    refine .bind (.modify fun _ hfps => hfps) fun _ => ?_
    refine .bind .get fun _ => ?_
    exact .ite (fun _ => .throw _) fun _ => .pure ()
  · refine .bind ?_ fun _ => .bind (.modify fun _ hfps => hfps) fun _ => ?_
    · unfold loadSpsc
      apply Effect.Keeps.ite
      · intro _
        refine .bind (optField_keeps _ _ _ fun _ _ hfps => hfps) fun _ => ?_
        refine .bind (optField_keeps _ _ _ fun _ _ hfps => hfps) fun _ => ?_
        exact optField_keeps _ _ _ fun _ _ hfps => hfps
      · intro _
        exact .pure ()
    · exact optField_keeps _ _ _ fun _ _ hfps => hfps

/-- A file that cannot be read as JSON is never accepted. -/
theorem loadJsonFile_err {path : Bytes} {file : Option Bytes} {err : Bytes}
    (hload : loadJsonFile lib path file = .error err) : err ≠ [] := by
  unfold loadJsonFile at hload
  split at hload
  next =>
    obtain rfl := Except.error.inj hload
    exact List.append_ne_nil_of_left_ne_nil (by decide) path
  next =>
    split at hload
    next => contradiction
    next what _ =>
      obtain rfl := Except.error.inj hload
      exact List.append_ne_nil_of_left_ne_nil (by decide) what

/-- An accepted configuration is the one left by the whole `try` block. -/
theorem load_accepted {configDir : Bytes} {file : Option Bytes} {cfg : Config}
    (hload : load lib configDir file = (cfg, [])) :
    ∃ j, loadJsonFile lib (configDir ++ lit "/config.json") file = .ok j ∧
      Effect.execute (loadFields lib j) {} = (.ok (), cfg) := by
  unfold load at hload
  split at hload
  next err herr => exact absurd (Prod.mk.inj hload).2 (loadJsonFile_err herr)
  next j hparse =>
    split at hload
    next value final hrun =>
      obtain rfl := (Prod.mk.inj hload).1
      exact ⟨j, hparse, hrun⟩
    next rejection _ _ => exact absurd (Prod.mk.inj hload).2 rejection.err_ne_nil
    next what _ _ =>
      exact absurd (Prod.mk.inj hload).2 (List.append_ne_nil_of_left_ne_nil (by decide) what)

/-- A configuration that was accepted has passed the frame-rate check. -/
theorem load_fps {configDir : Bytes} {file : Option Bytes} {cfg : Config}
    (hload : load lib configDir file = (cfg, [])) : FpsChecked cfg := by
  obtain ⟨j, _, hrun⟩ := load_accepted hload
  have hfields : Effect.Establishes FpsChecked (loadFields lib j) := by
    -- the check of the rate decides; what is read after it assigns other fields
    unfold loadFields
    refine .after fun _ => .after fun _ => .after fun _ => .after fun _ => ?_
    exact .then_keeps checkFps_establishes fun _ => loadTransport_keeps j
  have hpost := hfields {} () (by rw [hrun])
  rwa [hrun] at hpost

end ConfigLoader

end SimVision
