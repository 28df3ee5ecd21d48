import RuseonCore.Foundation.Bytes
import RuseonCore.Rtsp.Timestamp

/-!
# Packets of the WebSocket stream

Model of `StreamWS` of `internal/api/ws.go`: the header packet with the codec
parameters and the data packet of a frame, both written at explicit positions of
a buffer.  The buffer of data packets is reused from frame to frame; a packet
does not depend on what the buffer held before.  A connection sends the header
and then the frames from the first keyframe on.
-/

namespace RuseonCore
namespace StreamWS

open Buffer Rtsp ByteBuffer

/-- Codec parameters as `GetParams` returns them; a missing set has length 0. -/
structure Params where
  vps : List UInt8
  sps : List UInt8
  pps : List UInt8
  deriving DecidableEq

/-- Poll the parameters until there is a sequence parameter set; the last answer
is kept if there is none. -/
def awaitParams : Params → List Params → Params
  | last, [] => last
  | _, answer :: later =>
      if answer.sps.length > 0 then answer else awaitParams answer later

/-- H.265 streams have a video parameter set. -/
def codecType (params : Params) : UInt8 :=
  if params.vps.length > 0 then 2 else 1

/-- Parameters that the 16-bit length fields can describe. -/
def Params.Encodable (params : Params) : Prop :=
  params.vps.length ≤ 0xFFFF ∧ params.sps.length ≤ 0xFFFF ∧ params.pps.length ≤ 0xFFFF

instance (params : Params) : Decidable params.Encodable :=
  inferInstanceAs (Decidable (_ ∧ _ ∧ _))

/-- The header packet; nothing is sent for parameters that are too long. -/
def headerPacket (params : Params) : Option (List UInt8) := do
  let ⟨vps, sps, pps⟩ := params
  if vps.length > 0xFFFF || sps.length > 0xFFFF || pps.length > 0xFFFF then none
  let headerSize := 1 + 1 + 2 + vps.length + 2 + sps.length + 2 + pps.length
  let buf := List.replicate headerSize 0
  let buf ← put buf 0 [0x01]
  let buf ← put buf 1 [codecType params]
  let offset := 2
  let buf ← put buf offset (encode 2 vps.length)
  let offset := offset + 2
  let buf ← copyAt buf offset vps
  let offset := offset + vps.length
  let buf ← put buf offset (encode 2 sps.length)
  let offset := offset + 2
  let buf ← copyAt buf offset sps
  let offset := offset + sps.length
  let buf ← put buf offset (encode 2 pps.length)
  let offset := offset + 2
  copyAt buf offset pps

/-- Start code in front of every NAL unit. -/
def annexBHeader : List UInt8 :=
  [0x00, 0x00, 0x00, 0x01]

/-- Length of the payload of a frame. -/
def totalPayloadLen (nalus : List (List UInt8)) : Nat :=
  nalus.foldl (fun total nalu => total + (annexBHeader.length + nalu.length)) 0

/-- Whole microseconds of a duration. -/
def microseconds (d : Int64) : Int64 :=
  d / 1000

/-- Timestamp of a data packet: negative ones are sent as zero. -/
def tsMicro (frame : Frame) : Int64 :=
  if microseconds (timestamp frame) < 0 then 0 else microseconds (timestamp frame)

/-- Write the NAL units with their start codes from a position on. -/
def writeNalus : List UInt8 → Nat → List (List UInt8) → Option (List UInt8)
  | buf, _, [] => some buf
  | buf, writePos, nalu :: nalus => do
      let buf ← copyAt buf writePos annexBHeader
      let writePos := writePos + annexBHeader.length
      let buf ← copyAt buf writePos nalu
      let writePos := writePos + nalu.length
      writeNalus buf writePos nalus

/-- The data packet of a frame, written into the first bytes of `packetBuf` if
its capacity suffices and into a new buffer otherwise. -/
def dataPacket (packetBuf : List UInt8) (frame : Frame) : Option (List UInt8) := do
  let reqLen := 1 + 1 + 8 + totalPayloadLen frame.nalus
  let buf :=
    if packetBuf.length < reqLen then List.replicate reqLen 0 else packetBuf.take reqLen
  let buf ← put buf 0 [0x02]
  let buf ← put buf 1 [if frame.isKeyFrame then 0x01 else 0x00]
  let buf ← put buf 2 (encode 8 (tsMicro frame).toUInt64.toNat)
  writeNalus buf 10 frame.nalus

/-- What one connection keeps between frames: the memory of `packetBuf` and
whether a keyframe has been sent. -/
structure Connection where
  packetBuf : List UInt8
  syncedKeyFrame : Bool

/-- A connection after its header packet. -/
def newConnection : Connection where
  packetBuf := []
  syncedKeyFrame := false

/-- Memory of `packetBuf` after a packet was written into it. -/
def reuse (packetBuf packet : List UInt8) : List UInt8 :=
  if packetBuf.length < packet.length then packet
  else packet ++ packetBuf.drop packet.length

/-- Handle a frame: frames before the first keyframe are skipped. -/
def handleFrame (conn : Connection) (frame : Frame) :
    Option (Connection × List (List UInt8)) := do
  if !conn.syncedKeyFrame && !frame.isKeyFrame then
    return (conn, [])
  let packet ← dataPacket conn.packetBuf frame
  return (⟨reuse conn.packetBuf packet, true⟩, [packet])

/-- Packets that the frames of a subscription put on the connection. -/
def handleFrames : Connection → List Frame → Option (List (List UInt8))
  | _, [] => some []
  | conn, frame :: frames => do
      let (conn, packets) ← handleFrame conn frame
      let later ← handleFrames conn frames
      return packets ++ later

/-- Packets of a connection: the header with the parameters that the first thirty
polls find, then the frames. -/
def streamWS (polls : List Params) (frames : List Frame) : Option (List (List UInt8)) := do
  let header ← headerPacket (awaitParams ⟨[], [], []⟩ (polls.take 30))
  let packets ← handleFrames newConnection frames
  return header :: packets

/-! ## What the packets contain -/

/-- NAL units in Annex B form. -/
def annexB (nalus : List (List UInt8)) : List UInt8 :=
  (nalus.map (annexBHeader ++ ·)).flatten

@[simp] theorem annexB_nil : annexB [] = [] := rfl

@[simp] theorem annexB_cons (nalu : List UInt8) (nalus : List (List UInt8)) :
    annexB (nalu :: nalus) = annexBHeader ++ nalu ++ annexB nalus := rfl

theorem totalPayloadLen_eq (nalus : List (List UInt8)) :
    totalPayloadLen nalus = (annexB nalus).length := by
  have general : ∀ total, nalus.foldl
      (fun total nalu => total + (annexBHeader.length + nalu.length)) total =
        total + (annexB nalus).length := by
    induction nalus with
    | nil => simp
    | cons nalu nalus inductionHypothesis =>
        intro total
        simp [inductionHypothesis, Nat.add_assoc]
  rw [totalPayloadLen, general, Nat.zero_add]

/-- The bytes of the header packet. -/
def headerBytes (params : Params) : List UInt8 :=
  [0x01] ++ [codecType params] ++
    encode 2 params.vps.length ++ params.vps ++
    encode 2 params.sps.length ++ params.sps ++
    encode 2 params.pps.length ++ params.pps

/-- The bytes of the data packet of a frame. -/
def dataBytes (frame : Frame) : List UInt8 :=
  [0x02] ++ [if frame.isKeyFrame then 0x01 else 0x00] ++
    encode 8 (tsMicro frame).toUInt64.toNat ++ annexB frame.nalus

/-- Parameters of encodable length are sent field by field. -/
theorem headerPacket_eq
    {params : Params}
    (encodable : params.Encodable) :
    headerPacket params = some (headerBytes params) := by
  obtain ⟨vps, sps, pps⟩ := params
  have short : (vps.length > 0xFFFF || sps.length > 0xFFFF || pps.length > 0xFFFF) = false := by
    obtain ⟨vpsShort, spsShort, ppsShort⟩ := encodable
    simp only [Bool.or_eq_false_iff, decide_eq_false_iff_not, Nat.not_lt, gt_iff_lt]
    exact ⟨⟨vpsShort, spsShort⟩, ppsShort⟩
  have filled : Filled (1 + 1 + 2 + vps.length + 2 + sps.length + 2 + pps.length) []
      (List.replicate (1 + 1 + 2 + vps.length + 2 + sps.length + 2 + pps.length)
        (0 : UInt8)) := ⟨List.nil_prefix, List.length_replicate⟩
  obtain ⟨_, kind, filled⟩ := filled.put 0 [0x01] rfl (by simp; omega)
  obtain ⟨_, codec, filled⟩ :=
    filled.put 1 [codecType ⟨vps, sps, pps⟩] rfl (by simp; omega)
  obtain ⟨_, vpsLen, filled⟩ := filled.put 2 (encode 2 vps.length) rfl (by simp; omega)
  obtain ⟨_, vpsSet, filled⟩ := filled.copyAt (2 + 2) vps (by simp) (by omega)
  obtain ⟨_, spsLen, filled⟩ :=
    filled.put (2 + 2 + vps.length) (encode 2 sps.length) (by simp; omega) (by simp; omega)
  obtain ⟨_, spsSet, filled⟩ :=
    filled.copyAt (2 + 2 + vps.length + 2) sps (by simp; omega) (by omega)
  obtain ⟨_, ppsLen, filled⟩ :=
    filled.put (2 + 2 + vps.length + 2 + sps.length) (encode 2 pps.length)
      (by simp; omega) (by simp)
  obtain ⟨_, ppsSet, filled⟩ :=
    filled.copyAt (2 + 2 + vps.length + 2 + sps.length + 2) pps (by simp; omega) (by omega)
  have complete := filled.eq (by simp; omega)
  simp only [headerPacket, short, Bool.false_eq_true, if_false, kind, codec,
    vpsLen, vpsSet, spsLen, spsSet, ppsLen, ppsSet, Option.bind_eq_bind, Option.bind_some]
  rw [complete]
  rfl

/-- The NAL units are appended to what was written before them. -/
theorem writeNalus_filled
    {size : Nat}
    {written buf : List UInt8}
    (filled : Filled size written buf)
    (writePos : Nat)
    (nalus : List (List UInt8))
    (place : writePos = written.length)
    (fits : writePos + (annexB nalus).length ≤ size) :
    ∃ next, writeNalus buf writePos nalus = some next ∧
      Filled size (written ++ annexB nalus) next := by
  induction nalus generalizing written buf writePos with
  | nil =>
      refine ⟨buf, rfl, ?_⟩
      rw [annexB_nil, List.append_nil]
      exact filled
  | cons nalu nalus inductionHypothesis =>
      simp only [annexB_cons, List.length_append] at fits
      obtain ⟨_, code, filled⟩ := filled.copyAt writePos annexBHeader place (by omega)
      obtain ⟨_, unit, filled⟩ := filled.copyAt (writePos + annexBHeader.length) nalu
        (by simp [place]) (by omega)
      obtain ⟨next, others, filled⟩ := inductionHypothesis filled
        (writePos + annexBHeader.length + nalu.length) (by simp [place]; omega) (by omega)
      refine ⟨next, ?_, ?_⟩
      · simp only [writeNalus, code, unit, others, Option.bind_eq_bind, Option.bind_some]
      · simpa only [annexB_cons, List.append_assoc] using filled

/-- The data packet of a frame, whatever the reused buffer contained. -/
theorem dataPacket_eq (packetBuf : List UInt8) (frame : Frame) :
    dataPacket packetBuf frame = some (dataBytes frame) := by
  have payload := totalPayloadLen_eq frame.nalus
  set reqLen := 1 + 1 + 8 + totalPayloadLen frame.nalus with reqLenEq
  have filled : Filled reqLen []
      (if packetBuf.length < reqLen then List.replicate reqLen 0
        else packetBuf.take reqLen) := by
    refine ⟨List.nil_prefix, ?_⟩
    split
    · exact List.length_replicate
    · rw [List.length_take]
      omega
  obtain ⟨_, kind, filled⟩ := filled.put 0 [0x02] rfl (by simp; omega)
  obtain ⟨_, key, filled⟩ :=
    filled.put 1 [if frame.isKeyFrame then 0x01 else 0x00] rfl (by simp; omega)
  obtain ⟨_, stamp, filled⟩ :=
    filled.put 2 (encode 8 (tsMicro frame).toUInt64.toNat) rfl (by simp; omega)
  obtain ⟨next, units, filled⟩ :=
    writeNalus_filled filled 10 frame.nalus (by simp) (by omega)
  have complete := filled.eq (by simp; omega)
  simp only [dataPacket, ← reqLenEq, kind, key, stamp, units, Option.bind_eq_bind,
    Option.bind_some]
  rw [complete]
  rfl

/-! ## A whole connection -/

/-- The first answer with a sequence parameter set, or the last answer. -/
theorem awaitParams_eq (last : Params) (answers : List Params) :
    awaitParams last answers =
      (answers.find? (0 < ·.sps.length)).getD (answers.getLastD last) := by
  induction answers generalizing last with
  | nil => rfl
  | cons answer later inductionHypothesis =>
      by_cases found : 0 < answer.sps.length
      · simp [awaitParams, found]
      · rw [awaitParams, if_neg found, inductionHypothesis, List.getLastD_cons,
          List.find?_cons_of_neg (by simpa using found)]

/-- Parameters that are too long are not sent. -/
theorem headerPacket_eq_none {params : Params} (long : ¬ params.Encodable) :
    headerPacket params = none := by
  have refused : (params.vps.length > 0xFFFF || params.sps.length > 0xFFFF ||
      params.pps.length > 0xFFFF) = true := by
    simp only [Params.Encodable] at long
    simp only [Bool.or_eq_true, decide_eq_true_eq]
    omega
  simp [headerPacket, refused]

/-- Frames are sent from the first keyframe on, whatever the reused buffer held. -/
theorem handleFrames_eq (conn : Connection) (frames : List Frame) :
    handleFrames conn frames =
      some (((if conn.syncedKeyFrame then frames
        else frames.dropWhile (!·.isKeyFrame))).map dataBytes) := by
  induction frames generalizing conn with
  | nil => simp [handleFrames]
  | cons frame frames inductionHypothesis =>
      cases synced : conn.syncedKeyFrame <;> cases key : frame.isKeyFrame <;>
        simp [handleFrames, handleFrame, synced, key, dataPacket_eq, inductionHypothesis]

/-- A connection sends nothing if the parameters it has waited for are too long, and
otherwise the header and the frames from the first keyframe on. -/
theorem streamWS_sends (polls : List Params) (frames : List Frame) :
    streamWS polls frames =
      let answers := polls.take 30
      let params := (answers.find? (0 < ·.sps.length)).getD (answers.getLastD ⟨[], [], []⟩)
      if params.Encodable then
        some (headerBytes params :: (frames.dropWhile (!·.isKeyFrame)).map dataBytes)
      else none := by
  have sent : handleFrames newConnection frames =
      some ((frames.dropWhile (!·.isKeyFrame)).map dataBytes) :=
    handleFrames_eq newConnection frames
  simp only [streamWS, awaitParams_eq, sent]
  split
  · rename_i encodable
    rw [headerPacket_eq encodable]
    rfl
  · rename_i long
    rw [headerPacket_eq_none long]
    rfl

end StreamWS
end RuseonCore
