import TwinScreen.Host.Inject
import TwinScreen.Host.Payload
import TwinScreen.Host.Server
import TwinScreen.Tablet.Sender

/-!
# TwinScreen.Roundtrip

What one side packs the other side unpacks: the payloads of the host read by the
tablet's parsers, and the tablet's input read by `ReadFrame` and `InjectBatch`.

* `host_payloads_roundtrip` — video, audio and ack payloads come back as they
  were, when their fields fit the signed numbers Kotlin reads.
* `input_batch_roundtrip` — a list of input events comes back as one frame, and
  from the frame as the same events.
-/

namespace TwinScreen

open Lib Host Tablet

/-! ## host to tablet -/

/-- One turn of the NAL loop. -/
theorem getNals_succ_run {n : Nat} {len : Int} {nal bs bs₁ bs₂ rest : List UInt8}
    {nals : List (List UInt8)} (hlen : Get.int.run bs = .ok (len, bs₁))
    (hnal : (Get.array len).run bs₁ = .ok (nal, bs₂))
    (hnals : (getNals n).run bs₂ = .ok (nals, rest)) :
    (getNals (n + 1)).run bs = .ok (nal :: nals, rest) := by
  rw [getNals, Get.bind_run_of_ok hlen, Get.bind_run_of_ok hnal, Get.bind_run_of_ok hnals,
    Get.pure_run]

/-- The NAL loop reads back a list of NALs of any lengths. -/
theorem getNals_run (nals : List (List UInt8)) (rest : List UInt8)
    (h : ∀ nal ∈ nals, nal.length < 2 ^ 31) :
    (getNals nals.length).run (nals.flatMap appendNal ++ rest) = .ok (nals, rest) := by
  induction nals with
  | nil => rfl
  | cons nal nals ih =>
      have hnal : nal.length < 2 ^ 31 := h nal List.mem_cons_self
      rw [List.flatMap_cons, appendNal, appendU32_ofNat (by omega), List.append_assoc,
        List.append_assoc, List.length_cons]
      exact getNals_succ_run (Get.num_run_of_lt (by omega) _) (Get.array_run_append nal _)
        (ih fun nal' hmem => h nal' (List.mem_cons_of_mem _ hmem))

/-- A video payload is read field by field, then NAL by NAL. -/
theorem parseVideoFrame_bytes (v : SpVideoFrame) (f : EncodedFrame) (hcodec : v.codec.toNat < 128)
    (hw : v.displayW.toNat < 2 ^ 31) (hh : v.displayH.toNat < 2 ^ 31)
    (hcount : f.nals.length < 2 ^ 31) (hnals : ∀ nal ∈ f.nals, nal.length < 2 ^ 31) :
    parseVideoFrame (v.bytes ++ buildVideoPayload f) =
      .ok ⟨decide (v.keyframe ≠ 0), v.codec.toNat, v.displayW.toNat, v.displayH.toNat, f.nals⟩ := by
  have hloop := getNals_run f.nals [] hnals
  rw [List.append_nil] at hloop
  have hkey : leInt (leBytes 1 v.keyframe.toNat) = 0 ↔ v.keyframe = 0 := by
    have hlt := v.keyframe.toNat_lt
    rw [leInt, leNat_leBytes_of_lt (by omega), length_leBytes, ← UInt8.toNat_inj]
    exact bmod_eq_natCast_iff (m := 0) (by omega) (by decide)
  rw [parseVideoFrame, SpVideoFrame.bytes, SpVideoFrame.fields, buildVideoPayload,
    appendU32_ofNat (by omega)]
  simp only [packed, List.append_assoc, List.nil_append, getVideoFrame, Get.byte, Get.short,
    Get.int]
  rw [Get.bind_run_of_ok (Get.num_run_append 1 _ _),
    Get.bind_run_of_ok (Get.num_run_of_lt (by omega) _),
    Get.bind_run_of_ok (Get.num_run_append 2 _ _),
    Get.bind_run_of_ok (Get.num_run_of_lt (by omega) _),
    Get.bind_run_of_ok (Get.num_run_of_lt (by omega) _),
    Get.bind_run_of_ok (Get.num_run_of_lt (by omega) _), Int.toNat_natCast,
    Get.bind_run_of_ok hloop, Get.pure_run]
  simp [Except.map, hkey]

/-- What `main` sends as a video message comes back as the frame it was made of. -/
theorem parseVideoFrame_videoPayload (cur : Size) (f : EncodedFrame) (hcodec : f.codec.toNat < 128)
    (hw : cur.1.toNat < 2 ^ 31) (hh : cur.2.toNat < 2 ^ 31) (hcount : f.nals.length < 2 ^ 31)
    (hnals : ∀ nal ∈ f.nals, nal.length < 2 ^ 31) :
    parseVideoFrame (videoPayload cur f) =
      .ok ⟨f.keyframe, f.codec.toNat, cur.1.toNat, cur.2.toNat, f.nals⟩ := by
  rw [videoPayload, parseVideoFrame_bytes _ f hcodec hw hh hcount hnals]
  cases f.keyframe <;> rfl

/-- An audio payload is its fixed fields and the rest. -/
theorem parseAudioFrame_bytes (a : SpAudioFrame) (data : List UInt8)
    (hrate : a.sampleRate.toNat < 2 ^ 31) (hcodec : a.codec.toNat < 128)
    (hchannels : a.channels.toNat < 128) :
    parseAudioFrame (a.bytes ++ data) =
      .ok ⟨a.sampleRate.toNat, a.codec.toNat, a.channels.toNat, data⟩ := by
  rw [parseAudioFrame, SpAudioFrame.bytes, SpAudioFrame.fields]
  simp only [packed, List.append_assoc, List.nil_append, getAudioFrame, Get.byte, Get.short,
    Get.int]
  rw [Get.bind_run_of_ok (Get.num_run_of_lt (by omega) _),
    Get.bind_run_of_ok (Get.num_run_of_lt (by omega) _),
    Get.bind_run_of_ok (Get.num_run_of_lt (by omega) _),
    Get.bind_run_of_ok (Get.num_run_append 2 _ _)]
  rfl

/-- The fields that `readAck` masks come back whole, the two it does not below 128. -/
theorem readAck_bytes (a : SpHandshakeAck) (hcodec : a.codec.toNat < 128)
    (hprofile : a.profile.toNat < 128) :
    readAck a.bytes =
      .ok ⟨a.protoVersion.toNat, a.caps.toNat, a.modeW.toNat, a.modeH.toNat, a.modeRefresh.toNat,
        a.codec.toNat, a.profile.toNat, a.bitrate.toNat, a.fps.toNat⟩ := by
  have hshort : ∀ v : UInt16, maskBytes 2 (leInt (leBytes 2 v.toNat)) = v.toNat :=
    fun v => maskBytes_leInt_leBytes v.toNat_lt
  have hint : ∀ v : UInt32, maskBytes 4 (leInt (leBytes 4 v.toNat)) = v.toNat :=
    fun v => maskBytes_leInt_leBytes v.toNat_lt
  rw [readAck, SpHandshakeAck.bytes, SpHandshakeAck.fields]
  simp only [packed, getAck, Get.byte, Get.short, Get.int]
  rw [Get.bind_run_of_ok (Get.num_run_append 2 _ _), Get.bind_run_of_ok (Get.num_run_append 4 _ _),
    Get.bind_run_of_ok (Get.num_run_append 2 _ _), Get.bind_run_of_ok (Get.num_run_append 2 _ _),
    Get.bind_run_of_ok (Get.num_run_append 2 _ _),
    Get.bind_run_of_ok (Get.num_run_of_lt (by omega) _),
    Get.bind_run_of_ok (Get.num_run_of_lt (by omega) _),
    Get.bind_run_of_ok (Get.num_run_append 4 _ _), Get.bind_run_of_ok (Get.num_run_append 2 _ _)]
  simp [Except.map, hshort, hint]

/-- **The host's payloads round-trip**: every video frame whose NALs and sizes fit
31 bits, every audio frame and every ack is read as it was packed. -/
theorem host_payloads_roundtrip :
    (∀ (cur : Size) (f : EncodedFrame), f.codec.toNat < 128 → cur.1.toNat < 2 ^ 31 →
      cur.2.toNat < 2 ^ 31 → f.nals.length < 2 ^ 31 → (∀ nal ∈ f.nals, nal.length < 2 ^ 31) →
      parseVideoFrame (videoPayload cur f) =
        .ok ⟨f.keyframe, f.codec.toNat, cur.1.toNat, cur.2.toNat, f.nals⟩) ∧
      (∀ (a : SpAudioFrame) (data : List UInt8), a.sampleRate.toNat < 2 ^ 31 →
        a.codec.toNat < 128 → a.channels.toNat < 128 →
        parseAudioFrame (a.bytes ++ data) =
          .ok ⟨a.sampleRate.toNat, a.codec.toNat, a.channels.toNat, data⟩) ∧
      ∀ a : SpHandshakeAck, a.codec.toNat < 128 → a.profile.toNat < 128 →
        readAck a.bytes =
          .ok ⟨a.protoVersion.toNat, a.caps.toNat, a.modeW.toNat, a.modeH.toNat,
            a.modeRefresh.toNat, a.codec.toNat, a.profile.toNat, a.bitrate.toNat, a.fps.toNat⟩ :=
  ⟨parseVideoFrame_videoPayload, parseAudioFrame_bytes, readAck_bytes⟩

/-- A keyframe of two NALs, one of them empty. -/
theorem host_payloads_roundtrip_keyframe :
    parseVideoFrame (videoPayload (1920, 1080) ⟨true, spCodecHevc, [[0x26, 1], []], []⟩) =
      .ok ⟨true, 1, 1920, 1080, [[0x26, 1], []]⟩ :=
  host_payloads_roundtrip.1 _ _ (by decide) (by decide) (by decide) (by decide) (by decide)

/-! ## tablet to host -/

/-- A message with the protocol's magic and version is read as one frame. -/
theorem readFrame_message {h : SpHeader} (hmagic : h.magic = spMagic)
    (hversion : h.version = spVersion) {p : List UInt8} (hlen : h.payloadLen.toNat = p.length)
    (hp : p.length < 2 ^ 31) (srv : TcpServer) {s : Socket} {rest : List UInt8}
    (hs : flatten s = h.bytes ++ p ++ rest) (type : UInt16) (buf : List UInt8) :
    ∃ s', flatten s' = rest ∧
      readFrame (srv.accepted s) type buf true = ⟨true, srv.accepted s', h.type, p⟩ := by
  have hdec : wireFraming.decode h.bytes = some (h.type, p.length) := by
    simp [wireFraming, SpHeader.ofBytes_bytes, hmagic, hversion, hlen]
  have hnext : wireFraming.next (flatten s) = some ((h.type, p), rest) := by
    rw [hs]
    exact wireFraming.next_encode h.length_bytes hdec rest
  have hfits : ¬ Oversize (flatten s) := by
    intro ho
    obtain ⟨h', hh, hge⟩ := ho
    rw [hs, List.append_assoc, wireFraming.header_encode h.length_bytes hdec] at hh
    cases hh
    exact absurd hp (Nat.not_lt.mpr hge)
  exact readFrame_of_next rfl hfits hnext type buf

/-- **Input round-trips.**  For every list of events in range the header and the
payload of `sendInputBatch`, which sends them unless the list is empty, are read
as one frame with the payload's own length, and the struct view of that payload is
the list. -/
theorem input_batch_roundtrip (events : List InputEvent) (hrange : ∀ e ∈ events, e.InRange)
    (hlen : 4 + 12 * events.length < 2 ^ 31) :
    ∃ header payload,
      packHeader spMsgInputBatch.toNat (toInt (4 + events.length * 12)) 0 0 = .ok header ∧
      packInputBatch events = .ok payload ∧
      (∀ c : Client, c.connected = true → c.out ≠ none →
        c.sendInputBatch events = .ok (if events = [] then [] else rawBytes header payload)) ∧
      (SpHeader.ofBytes header).payloadLen.toNat = payload.length ∧
      (∀ (srv : TcpServer) (s : Socket) (rest : List UInt8) (type : UInt16) (buf : List UInt8),
        flatten s = rawBytes header payload ++ rest →
          ∃ s', flatten s' = rest ∧
            readFrame (srv.accepted s) type buf true =
              ⟨true, srv.accepted s', spMsgInputBatch, payload⟩) ∧
      ∀ (inj : InputInjector) (scr : VirtualScreen) (beyond : Memory),
        (injectBatch inj scr (memoryOf payload beyond)).injected =
            (batchEvents (memoryOf payload beyond)).filterMap (injectEvent inj scr) ∧
          (batchEvents (memoryOf payload beyond)).map InputEvent.ofStruct = events := by
  have hsize := length_sentBatch events
  have hannounced : (sentHeader spMsgInputBatch (4 + 12 * events.length)).payloadLen.toNat =
      (inputBatchBytes (events.map InputEvent.struct)).length := by
    rw [payloadLen_sentHeader _ hlen, hsize]
  refine ⟨_, _, packHeader_inputBatch hlen, packInputBatch_eq hlen, fun c hc hout => ?_, ?_,
    fun srv s rest type buf hs => ?_, fun inj scr beyond => ⟨injected_injectBatch inj scr _, ?_⟩⟩
  · rw [c.sendInputBatch_eq hlen, rawBytes_eq, ← batchFrame]
    simp [hc, hout]
  · rw [SpHeader.ofBytes_bytes, hannounced]
  · rw [rawBytes_eq] at hs
    exact readFrame_message rfl rfl hannounced (by omega) srv hs type buf
  · rw [batchEvents_inputBatchBytes (by rw [List.length_map]; omega), List.map_map]
    exact (List.map_congr_left fun e he => InputEvent.ofStruct_struct (hrange e he)).trans
      (List.map_id events)

/-- A pen event at the limits of its fields. -/
def penAtLimits : InputEvent := ⟨65535, 0, 4, 255, 255, 0, -32768, 32767⟩

/-- A finger that goes down. -/
def fingerDown : InputEvent := ⟨640, 480, 1, 1, 0, 128, 0, 0⟩

theorem input_batch_roundtrip_pen :
    ∃ header payload,
      packHeader spMsgInputBatch.toNat (toInt (4 + (2 : Nat) * 12)) 0 0 = .ok header ∧
      packInputBatch [fingerDown, penAtLimits] = .ok payload ∧
      (batchEvents (memoryOf payload fun _ => 0)).map InputEvent.ofStruct =
        [fingerDown, penAtLimits] := by
  have hrange : ∀ e ∈ [fingerDown, penAtLimits], e.InRange := by
    rw [List.forall_mem_cons, List.forall_mem_singleton]
    constructor <;> constructor <;> decide
  obtain ⟨header, payload, hheader, hpayload, -, -, -, hview⟩ :=
    input_batch_roundtrip [fingerDown, penAtLimits] hrange (by decide)
  exact ⟨header, payload, hheader, hpayload, (hview ⟨0, 0, true, true⟩ ⟨0, 0, 1, 1⟩ fun _ => 0).2⟩

end TwinScreen
