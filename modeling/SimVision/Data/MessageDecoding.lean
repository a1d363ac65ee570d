import SimVision.Capture.CaptureEngine
import SimVision.Data.DataPublisher
import SimVision.Foundation.JsonReread

/-! # Decoding a published message

The header and the payloads of a frame are built by two components, one byte
format inside another. A subscriber that knows both formats gets the frame back:
the names, formats and payloads of its parts in order, and the two images of a
stereo pair.
-/

namespace SimVision

open Foundation

/-- A part as the bytes that a subscriber receives. -/
def Part.bytes (lib : JsonLibrary) : Part → Bytes
  | .json value => (lib.dump value).toOption.getD []
  | .payload bundle => bundle.data

/-- A payload with what its entry of `parts[]` says about it. -/
structure ReceivedPart where
  partId : Bytes
  size : Nat
  format : Bytes
  payload : Bytes
  deriving DecidableEq

structure Received where
  group : DataGroup
  pairId : Nat
  frameIndex : Nat
  parts : List ReceivedPart
  deriving DecidableEq

/-! ## The subscriber -/

namespace Subscriber

def readPart (entry : Json) (payload : Bytes) : Option ReceivedPart :=
  match entry.lookup (lit "id"), entry.lookup (lit "size"), entry.lookup (lit "format") with
  | some (.string partId), some (.unsigned size), some (.string format) =>
      some ⟨partId, size, format, payload⟩
  | _, _, _ => none

/-- Entries and payloads in step; one without the other is an error. -/
def readParts : List Json → List Bytes → Option (List ReceivedPart)
  | [], [] => some []
  | entry :: entries, payload :: payloads =>
      match readPart entry payload, readParts entries payloads with
      | some part, some parts => some (part :: parts)
      | _, _ => none
  | _, _ => none

def readGroup (name : Bytes) : Option DataGroup :=
  [DataGroup.visual2D, .visual3D, .sensorData].find? fun group => groupToString group = name

def readHeader (header : Json) (payloads : List Bytes) : Option Received :=
  match header.lookup (lit "group"), header.lookup (lit "pair_id"),
    header.lookup (lit "frame_index"), header.lookup (lit "parts") with
  | some (.string name), some (.unsigned pairId), some (.unsigned frameIndex),
      some (.array entries) =>
      match readGroup name, readParts entries payloads with
      | some group, some parts => some ⟨group, pairId, frameIndex, parts⟩
      | _, _ => none
  | _, _, _, _ => none

/-- What a subscriber makes of the parts of a message. -/
def receive (lib : JsonLibrary) : List Bytes → Option Received
  | [] => none
  | text :: payloads =>
      match lib.parse text with
      | .ok header => readHeader header payloads
      | .error _ => none

/-- The two images of a `stereo_image` payload: four bytes give the size of the
left one, least significant first. -/
def splitStereo : Bytes → Option (Bytes × Bytes)
  | b₀ :: b₁ :: b₂ :: b₃ :: images =>
      let size := b₀.toNat + 2 ^ 8 * b₁.toNat + 2 ^ 16 * b₂.toNat + 2 ^ 24 * b₃.toNat
      if size ≤ images.length then some (images.take size, images.drop size) else none
  | _ => none

/-- The images of every stereo part. -/
def images (received : Received) : List (Option (Bytes × Bytes)) :=
  (received.parts.filter fun part => part.partId = lit "stereo_image").map fun part =>
    splitStereo part.payload

end Subscriber

/-- The part that a bundle becomes. -/
def ReceivedPart.ofBundle (bundle : DataBundle) : ReceivedPart :=
  ⟨bundle.partId, bundle.data.length, bundle.format, bundle.data⟩

namespace CaptureEngine

/-- The pair that `build_frame` takes from the source. -/
def takenPair (group : DataGroup) (isActive : DataType → Bool) (source : SimDataSource) :
    Option StereoPair :=
  if .stereoImage ∈ groupMembers group ∧ isActive .stereoImage = true then source.nextStereo.2
  else none

/-- The frame comes from a call of `build_frame` that took that pair, if any. -/
def BuiltWith (frame : ChannelFrame) (taken : Option StereoPair) : Prop :=
  ∃ (samples : Samples) (group : DataGroup) (tsSec tsNsec : Int) (frameIndex : Nat)
    (pubId : Bytes) (isActive : DataType → Bool) (depthMode : Option Parameter)
    (source : SimDataSource),
    (buildFrame samples group tsSec tsNsec frameIndex pubId isActive depthMode source).2 =
      .ok frame ∧ taken = takenPair group isActive source

end CaptureEngine

/-- A subscriber that receives the message gets the frame back. -/
def Recovers (lib : JsonLibrary) (message : List Part) (frame : ChannelFrame) : Prop :=
  ∃ received, Subscriber.receive lib (message.map (Part.bytes lib)) = some received ∧
    received.group = frame.group ∧
    received.pairId = frame.pairId ∧
    received.frameIndex = frame.frameIndex ∧
    received.parts = frame.bundles.map .ofBundle ∧
    ∀ taken, CaptureEngine.BuiltWith frame taken →
      (∀ pair, taken = some pair → pair.left.length < 2 ^ 32) →
      Subscriber.images received = taken.toList.map fun pair => some (pair.left, pair.right)

/-- Every part of the call's message but its last is sent with `ZMQ_SNDMORE`. -/
def PublishCall.MarksLast (lib : JsonLibrary) (pubId : Bytes) (call : PublishCall) : Prop :=
  ∃ front last, call.message pubId = front ++ [last] ∧
    ∀ sock : Socket, sock.afterCall lib pubId call =
      (front.foldl (fun before part => before.send part true) sock).send last false

/-! ## Reading the entries of `parts[]` -/

/-- The members of an entry of `parts[]`, in the order they are assigned. -/
def partMembers (b : DataBundle) : List (Bytes × Json) :=
  [(lit "id", .string b.partId), (lit "size", .unsigned b.data.length),
    (lit "format", .string b.format)] ++
  if 0 < b.width then
    [(lit "is_encoded", .boolean b.isEncoded), (lit "channels", .integer b.channels),
      (lit "channel_layout", .string b.code), (lit "width", .integer b.width),
      (lit "height", .integer b.height)] ++
    (if 0 < b.rightChannels then [(lit "right_channels", .integer b.rightChannels)] else []) ++
    (if b.rightCode ≠ [] then [(lit "right_channel_layout", .string b.rightCode)] else [])
  else []

theorem partJson_eq (b : DataBundle) : partJson b = Json.ofAssignments (partMembers b) := rfl

theorem partMembers_keys (b : DataBundle) : ((partMembers b).map Prod.fst).Nodup := by
  unfold partMembers
  simp only [List.map_append, apply_ite (List.map Prod.fst), List.map_cons, List.map_nil]
  split_ifs <;> decide

theorem lookup_partJson {b : DataBundle} {key : Bytes} {value : Json}
    (hmem : (key, value) ∈ partMembers b) : (partJson b).lookup key = some value := by
  rw [partJson_eq]
  exact Json.lookup_ofAssignments (partMembers_keys b) hmem

theorem readPart_partJson (b : DataBundle) :
    Subscriber.readPart (partJson b).reread b.data = some (.ofBundle b) := by
  have hid : (partJson b).lookup (lit "id") = some (.string b.partId) :=
    lookup_partJson (by simp [partMembers])
  have hsize : (partJson b).lookup (lit "size") = some (.unsigned b.data.length) :=
    lookup_partJson (by simp [partMembers])
  have hformat : (partJson b).lookup (lit "format") = some (.string b.format) :=
    lookup_partJson (by simp [partMembers])
  unfold Subscriber.readPart
  rw [Json.lookup_reread, Json.lookup_reread, Json.lookup_reread, hid, hsize, hformat]
  simp only [Option.map_some, Json.reread_string, Json.reread_unsigned]
  rfl

theorem readParts_partJson (bundles : List DataBundle) :
    Subscriber.readParts ((bundles.map partJson).map Json.reread) (bundles.map DataBundle.data) =
      some (bundles.map .ofBundle) := by
  induction bundles with
  | nil => rfl
  | cons b rest ih =>
      rw [List.map_cons, List.map_cons, List.map_cons, List.map_cons, Subscriber.readParts,
        readPart_partJson, ih]

theorem readGroup_toString (group : DataGroup) :
    Subscriber.readGroup (groupToString group) = some group := by
  cases group <;> decide

/-! ## Reading the header -/

section Header

variable (pubId : Bytes) (frame : ChannelFrame) (pubSec pubNsec : Int)

theorem lookup_headerJson {key : Bytes} {value : Json}
    (hmem : (key, value) ∈ [(lit "group", Json.string (groupToString frame.group)),
      (lit "pair_id", .unsigned frame.pairId), (lit "frame_index", .unsigned frame.frameIndex),
      (lit "parts", .array (frame.bundles.map partJson))]) :
    (headerJson pubId frame pubSec pubNsec).lookup key = some value := by
  apply Json.lookup_ofAssignments
  · simp only [List.map_cons, List.map_nil]
    decide
  · simp only [List.mem_cons, List.not_mem_nil, or_false] at hmem ⊢
    tauto

/-- A header that is read again beside its payloads gives the frame back. -/
theorem readHeader_headerJson :
    Subscriber.readHeader (headerJson pubId frame pubSec pubNsec).reread
        (frame.bundles.map DataBundle.data) =
      some ⟨frame.group, frame.pairId, frame.frameIndex, frame.bundles.map .ofBundle⟩ := by
  have hgroup := @lookup_headerJson pubId frame pubSec pubNsec (lit "group")
    (.string (groupToString frame.group)) (by simp)
  have hpair := @lookup_headerJson pubId frame pubSec pubNsec (lit "pair_id")
    (.unsigned frame.pairId) (by simp)
  have hindex := @lookup_headerJson pubId frame pubSec pubNsec (lit "frame_index")
    (.unsigned frame.frameIndex) (by simp)
  unfold Subscriber.readHeader
  rw [Json.lookup_reread, Json.lookup_reread, Json.lookup_reread, Json.lookup_reread, hgroup, hpair,
    hindex, header_parts]
  simp only [Option.map_some, Json.reread_string, Json.reread_unsigned, Json.reread_array]
  rw [readGroup_toString, readParts_partJson]

end Header

/-! ## The stereo payload -/

/-- Splitting gives both images back, whatever they hold. -/
theorem splitStereo_stereoData {pair : StereoPair} (hleft : pair.left.length < 2 ^ 32) :
    Subscriber.splitStereo (CaptureEngine.stereoData pair) = some (pair.left, pair.right) := by
  obtain ⟨b₀, b₁, b₂, b₃, hbytes, hvalue⟩ := leBytes_value hleft
  rw [CaptureEngine.stereoData, hbytes]
  simp only [List.cons_append, List.nil_append, Subscriber.splitStereo]
  rw [hvalue, if_pos (by simp), List.take_left, List.drop_left]

namespace CaptureEngine

section Bundles

variable {samples : Samples} {tsSec tsNsec : Int} {frameIndex : Nat} {depthMode : Bytes}
  {isActive : DataType → Bool}

theorem generatedBundle_partId {t : DataType} {partId format : Bytes} {data : Except Bytes Bytes}
    {b : DataBundle} (hbuilt : generatedBundle tsSec tsNsec t partId format data = .ok (some b)) :
    b.partId = partId := by
  cases data with
  | error what => contradiction
  | ok bytes =>
      obtain rfl := Option.some.inj (Except.ok.inj hbuilt)
      rfl

/-- A bundle is named after the data type it was built for. -/
theorem buildBundle_partId {source : SimDataSource} {t : DataType} {b : DataBundle}
    (hbuilt : (buildBundle samples tsSec tsNsec frameIndex depthMode source t).2 = .ok (some b)) :
    b.partId = dataTypeToString t := by
  cases t with
  | stereoImage =>
      obtain ⟨pair, _, rfl⟩ := Option.map_eq_some_iff.mp (Except.ok.inj hbuilt)
      have hname : lit "stereo_image" = dataTypeToString .stereoImage := by decide
      exact hname
  -- every other case generates its payload under the name of its type
  | _ =>
      simp only [buildBundle] at hbuilt
      rw [generatedBundle_partId hbuilt]
      decide

/-- What the loop yields for one more member. -/
theorem buildBundles_cons {source : SimDataSource} {t : DataType} {rest : List DataType}
    {bundles : List DataBundle} (hactive : isActive t = true)
    (hbuilt : (buildBundles samples tsSec tsNsec frameIndex depthMode isActive source
      (t :: rest)).2 = .ok bundles) :
    ∃ bundle later,
      (buildBundle samples tsSec tsNsec frameIndex depthMode source t).2 = .ok bundle ∧
      (buildBundles samples tsSec tsNsec frameIndex depthMode isActive
        (buildBundle samples tsSec tsNsec frameIndex depthMode source t).1 rest).2 = .ok later ∧
      bundles = bundle.toList ++ later := by
  rw [buildBundles, if_pos hactive] at hbuilt
  rcases hfirst : buildBundle samples tsSec tsNsec frameIndex depthMode source t
    with ⟨next, what | bundle⟩
  · rw [hfirst] at hbuilt
    contradiction
  · rw [hfirst] at hbuilt
    dsimp only [Prod.map_snd] at hbuilt
    cases hlater : (buildBundles samples tsSec tsNsec frameIndex depthMode isActive next rest).2
      with
    | error what =>
        rw [hlater] at hbuilt
        contradiction
    | ok later =>
        rw [hlater] at hbuilt
        exact ⟨bundle, later, rfl, rfl, (Except.ok.inj hbuilt).symm⟩

/-- Every bundle of a frame is named after an active member. -/
theorem buildBundles_partId {types : List DataType} {source : SimDataSource}
    {bundles : List DataBundle}
    (hbuilt : (buildBundles samples tsSec tsNsec frameIndex depthMode isActive source types).2 =
      .ok bundles) :
    ∀ b ∈ bundles, ∃ t ∈ types, isActive t = true ∧ b.partId = dataTypeToString t := by
  induction types generalizing source bundles with
  | nil =>
      obtain rfl := Except.ok.inj hbuilt
      exact fun _ hmem => absurd hmem List.not_mem_nil
  | cons t rest ih =>
      by_cases hactive : isActive t = true
      · obtain ⟨bundle, later, hfirst, hlater, rfl⟩ := buildBundles_cons hactive hbuilt
        intro b hb
        rcases List.mem_append.mp hb with hb | hb
        · rw [Option.mem_toList.mp hb] at hfirst
          exact ⟨t, List.mem_cons_self .., hactive, buildBundle_partId hfirst⟩
        · obtain ⟨member, hmember, hname⟩ := ih hlater b hb
          exact ⟨member, List.mem_cons_of_mem _ hmember, hname⟩
      · rw [buildBundles, if_neg hactive] at hbuilt
        intro b hb
        obtain ⟨member, hmember, hname⟩ := ih hbuilt b hb
        exact ⟨member, List.mem_cons_of_mem _ hmember, hname⟩

/-- The bundles that become stereo parts. -/
def stereoBundles (bundles : List DataBundle) : List DataBundle :=
  bundles.filter fun b => b.partId = lit "stereo_image"

theorem stereoBundles_of_inactive {types : List DataType} {source : SimDataSource}
    {bundles : List DataBundle}
    (hinactive : .stereoImage ∈ types → isActive .stereoImage = false)
    (hbuilt : (buildBundles samples tsSec tsNsec frameIndex depthMode isActive source types).2 =
      .ok bundles) : stereoBundles bundles = [] := by
  apply List.filter_eq_nil_iff.mpr
  intro b hb hstereo
  obtain ⟨t, ht, hactive, hname⟩ := buildBundles_partId hbuilt b hb
  have hsame : dataTypeToString .stereoImage = dataTypeToString t := by
    rw [← hname, of_decide_eq_true hstereo]
    decide
  have htype : DataType.stereoImage = t := by
    rw [← Option.some.injEq, ← dataTypeFromString_toString, hsame, dataTypeFromString_toString]
  subst htype
  rw [hinactive ht] at hactive
  contradiction

theorem stereoBundles_of_active {rest : List DataType} {source : SimDataSource}
    {bundles : List DataBundle} (hactive : isActive .stereoImage = true)
    (hrest : .stereoImage ∉ rest)
    (hbuilt : (buildBundles samples tsSec tsNsec frameIndex depthMode isActive source
      (.stereoImage :: rest)).2 = .ok bundles) :
    stereoBundles bundles = (source.nextStereo.2.map (stereoBundle tsSec tsNsec)).toList := by
  obtain ⟨bundle, later, hfirst, hlater, rfl⟩ := buildBundles_cons hactive hbuilt
  obtain rfl := Except.ok.inj hfirst
  have hnone : stereoBundles later = [] :=
    stereoBundles_of_inactive (fun hmem => absurd hmem hrest) hlater
  rw [stereoBundles, List.filter_append, ← stereoBundles, ← stereoBundles, hnone, List.append_nil]
  apply List.filter_eq_self.mpr
  intro b hb
  obtain ⟨pair, _, rfl⟩ := Option.map_eq_some_iff.mp (Option.mem_toList.mp hb)
  exact decide_eq_true rfl

end Bundles

/-- The stereo parts of a frame hold the images of the pair that was taken. -/
theorem images_ofFrame {frame : ChannelFrame} {taken : Option StereoPair}
    (hbuilt : BuiltWith frame taken)
    (hleft : ∀ pair, taken = some pair → pair.left.length < 2 ^ 32) :
    (stereoBundles frame.bundles).map (fun b => Subscriber.splitStereo b.data) =
      taken.toList.map fun pair => some (pair.left, pair.right) := by
  obtain ⟨samples, group, tsSec, tsNsec, frameIndex, pubId, isActive, depthMode, source, hframe,
    rfl⟩ := hbuilt
  rw [buildFrame_snd] at hframe
  cases hbundles : (buildBundles samples tsSec tsNsec frameIndex (depthModeOf depthMode) isActive
    source (groupMembers group)).2 with
  | error what =>
      rw [hbundles] at hframe
      contradiction
  | ok bundles =>
      rw [hbundles] at hframe
      obtain rfl := Except.ok.inj hframe
      change (stereoBundles bundles).map _ = _
      by_cases htaken : .stereoImage ∈ groupMembers group ∧ isActive .stereoImage = true
      · have hmembers : groupMembers group = [.stereoImage, .depthMap] := by
          cases group with
          | visual2D => decide
          | visual3D => exact absurd htaken.1 (by decide)
          | sensorData => exact absurd htaken.1 (by decide)
        rw [hmembers] at hbundles
        rw [takenPair, if_pos htaken] at hleft ⊢
        rw [stereoBundles_of_active htaken.2 (by decide) hbundles]
        cases hpair : source.nextStereo.2 with
        | none => rfl
        | some pair =>
            simp only [Option.map_some, Option.toList_some, List.map_cons, List.map_nil]
            rw [stereoBundle, splitStereo_stereoData (hleft pair hpair)]
      · have hinactive : .stereoImage ∈ groupMembers group → isActive .stereoImage = false := by
          intro hmem
          rw [← Bool.not_eq_true]
          exact fun hactive => htaken ⟨hmem, hactive⟩
        rw [takenPair, if_neg htaken, stereoBundles_of_inactive hinactive hbundles]
        rfl

end CaptureEngine

/-! ## Messages whose sends all succeed -/

/-- Parts sent with `ZMQ_SNDMORE` stay in the open message. -/
theorem Socket.foldl_send_more (front : List Part) (sock : Socket) :
    front.foldl (fun before part => before.send part true) sock =
      { sock with opened := sock.opened ++ front } := by
  induction front generalizing sock with
  | nil => simp
  | cons part rest ih =>
      rw [List.foldl_cons, ih]
      simp [Socket.send]

section Complete

variable {lib : JsonLibrary} {pubId : Bytes}

theorem PublishCall.marksLast {call : PublishCall} (hcomplete : call.Completes lib pubId) :
    call.MarksLast lib pubId := by
  have hnonempty : call.message pubId ≠ [] := List.cons_ne_nil _ _
  have hsplit := List.dropLast_append_getLast hnonempty
  refine ⟨(call.message pubId).dropLast, (call.message pubId).getLast hnonempty, hsplit.symm, ?_⟩
  intro sock
  rw [Socket.afterCall_completes sock hcomplete, Socket.foldl_send_more]
  simp only [Socket.send, Bool.false_eq_true, if_false, List.append_assoc]
  rw [hsplit]

/-- Each complete call closes exactly its own message. -/
theorem sendAll_completes {calls : List PublishCall}
    (hcalls : ∀ call ∈ calls, call.Completes lib pubId) :
    sendAll lib pubId calls =
      { closed := calls.map fun call => call.message pubId, opened := [] } := by
  have hfold : ∀ sock : Socket, sock.opened = [] →
      calls.foldl (Socket.afterCall lib pubId) sock =
        { closed := sock.closed ++ calls.map fun call => call.message pubId, opened := [] } := by
    induction calls with
    | nil =>
        intro sock hopened
        rw [List.foldl_nil, List.map_nil, List.append_nil, ← hopened]
    | cons call rest ih =>
        rw [List.forall_mem_cons] at hcalls
        intro sock hopened
        rw [List.foldl_cons, Socket.afterCall_completes sock hcalls.1, ih hcalls.2 _ rfl, hopened]
        simp
  exact hfold {} rfl

/-- The message of a complete call decodes to its frame. -/
theorem PublishCall.message_recovers {call : PublishCall} (hcomplete : call.Completes lib pubId)
    (hprints : JsonLibrary.PrintsBack lib.dump lib.parse (call.header pubId)) :
    Recovers lib (call.message pubId) call.frame := by
  obtain ⟨⟨⟨text, hdump⟩, _⟩, _⟩ := hcomplete
  refine ⟨⟨call.frame.group, call.frame.pairId, call.frame.frameIndex,
    call.frame.bundles.map .ofBundle⟩, ?_, rfl, rfl, rfl, rfl, ?_⟩
  · have hheader : Part.bytes lib (.json (call.header pubId)) = text := by
      rw [Part.bytes, hdump]
      rfl
    have hpayloads : (call.frame.bundles.map Part.payload).map (Part.bytes lib) =
        call.frame.bundles.map DataBundle.data := by
      rw [List.map_map]
      rfl
    rw [message, List.map_cons, hheader, hpayloads, Subscriber.receive, hprints text hdump]
    exact readHeader_headerJson pubId call.frame _ _
  · intro taken hbuilt hleft
    rw [← CaptureEngine.images_ofFrame hbuilt hleft, Subscriber.images, List.filter_map,
      List.map_map]
    rfl

/-- Over any sequence of calls whose sends all succeed, a subscriber receives one
message a call, closed by its last part, and decodes each to its frame and images. -/
theorem messages_decode {calls : List PublishCall}
    (hcalls : ∀ call ∈ calls, call.Completes lib pubId ∧
      JsonLibrary.PrintsBack lib.dump lib.parse (call.header pubId)) :
    (∀ call ∈ calls, call.MarksLast lib pubId) ∧
      (sendAll lib pubId calls).opened = [] ∧
      List.Forall₂ (Recovers lib) (sendAll lib pubId calls).closed
        (calls.map PublishCall.frame) := by
  have hcomplete : ∀ call ∈ calls, call.Completes lib pubId :=
    fun call hcall => (hcalls call hcall).1
  rw [sendAll_completes hcomplete]
  refine ⟨fun call hcall => PublishCall.marksLast (hcomplete call hcall), rfl, ?_⟩
  rw [List.forall₂_map_left_iff, List.forall₂_map_right_iff, List.forall₂_same]
  exact fun call hcall => PublishCall.message_recovers (hcomplete call hcall) (hcalls call hcall).2

end Complete

/-- A frame with one stereo pair, whose right image is empty. -/
def stereoCall : PublishCall where
  frame := CaptureEngine.frameOf .visual2D 1 2 7 []
    [CaptureEngine.stereoBundle 1 2 { left := [0xFF, 0xD8, 0x00], right := [] }]
  secClock := 1500000000
  nsecClock := 1500000200
  succeeds := fun _ => true

theorem stereoCall_decodes :
    List.Forall₂ (Recovers (.rereading (stereoCall.header (lit "sim_pub"))))
      (sendAll (.rereading (stereoCall.header (lit "sim_pub"))) (lit "sim_pub") [stereoCall]).closed
      [stereoCall.frame] := by
  refine (messages_decode ?_).2.2
  intro call hcall
  obtain rfl := List.mem_singleton.mp hcall
  have hdump : ∃ text, (JsonLibrary.rereading (stereoCall.header (lit "sim_pub"))).dump
      (stereoCall.header (lit "sim_pub")) = .ok text :=
    ⟨_, @JsonLibrary.plain_dump (stereoCall.header (lit "sim_pub")) (by decide)⟩
  exact ⟨⟨⟨hdump, rfl⟩, fun _ _ => rfl⟩, JsonLibrary.rereading_printsBack _⟩

end SimVision
