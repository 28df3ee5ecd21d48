import RuseonCore.Web.Player

/-!
# From frames to decoder chunks

The packets of `StreamWS` read by the player.  Header packets give back codec
type, SPS and PPS; data packets give the key flag, the clamped timestamp and the
NAL units with length prefixes.
-/

namespace RuseonCore
namespace Player

open Buffer Rtsp StreamWS ByteBuffer

/-- The header parser on the bytes of a header packet. -/
theorem parseHeader_headerBytes
    {params : Params}
    (encodable : params.Encodable) :
    parseHeader (headerBytes params) =
      some ⟨codecType params, params.sps, params.pps⟩ := by
  obtain ⟨vps, sps, pps⟩ := params
  obtain ⟨vpsShort, spsShort, ppsShort⟩ := encodable
  simp only at vpsShort spsShort ppsShort
  set codec := codecType ⟨vps, sps, pps⟩ with codecEq
  set data := headerBytes ⟨vps, sps, pps⟩ with dataEq
  have codecRead : data[1]? = some codec := rfl
  have fromVps : data = [0x01, codec] ++ (encode 2 vps.length ++
      (vps ++ (encode 2 sps.length ++ (sps ++ (encode 2 pps.length ++ pps))))) := by
    simp [dataEq, headerBytes, codecEq]
  have fromSps : data = ([0x01, codec] ++ encode 2 vps.length ++ vps) ++
      (encode 2 sps.length ++ (sps ++ (encode 2 pps.length ++ pps))) := by
    simp [fromVps]
  have fromSpsBytes : data = ([0x01, codec] ++ encode 2 vps.length ++ vps ++
      encode 2 sps.length) ++ (sps ++ (encode 2 pps.length ++ pps)) := by
    simp [fromVps]
  have fromPps : data = ([0x01, codec] ++ encode 2 vps.length ++ vps ++
      encode 2 sps.length ++ sps) ++ (encode 2 pps.length ++ (pps ++ [])) := by
    simp [fromVps]
  have fromPpsBytes : data = ([0x01, codec] ++ encode 2 vps.length ++ vps ++
      encode 2 sps.length ++ sps ++ encode 2 pps.length) ++ (pps ++ []) := by
    simp [fromVps]
  have vpsLen : read data 2 2 = some vps.length := read_encode fromVps rfl (by omega)
  have spsLen : read data (2 + 2 + vps.length) 2 = some sps.length :=
    read_encode fromSps (by simp; omega) (by omega)
  have spsBytes : (data.drop (2 + 2 + vps.length + 2)).take sps.length = sps :=
    slice_eq fromSpsBytes (by simp; omega)
  have ppsLen : read data (2 + 2 + vps.length + 2 + sps.length) 2 = some pps.length :=
    read_encode fromPps (by simp; omega) (by omega)
  have ppsBytes :
      (data.drop (2 + 2 + vps.length + 2 + sps.length + 2)).take pps.length = pps :=
    slice_eq fromPpsBytes (by simp; omega)
  simp only [parseHeader, codecRead, vpsLen, spsLen, spsBytes, ppsLen, ppsBytes,
    Option.bind_eq_bind, Option.bind_some, Option.pure_def]

/-- The timestamp that is sent: whole microseconds, zero if there are less. -/
theorem tsMicro_toNat (frame : Frame) :
    (tsMicro frame).toUInt64.toNat = (microseconds (timestamp frame)).toInt.toNat := by
  unfold tsMicro
  split
  · rename_i negative
    have low : (microseconds (timestamp frame)).toInt < 0 := Int64.lt_iff_toInt_lt.mp negative
    rw [Int.toNat_of_nonpos low.le]
    rfl
  · rename_i nonneg
    rw [Int64.toNat_toUInt64_of_le (Int64.not_lt.mp nonneg), Int64.toNat_toInt]

/-- The data parser on the bytes of a data packet. -/
theorem parseData_dataBytes
    {frame : Frame}
    (clean : ∀ nalu ∈ frame.nalus, ¬ annexBHeader <:+: nalu)
    (bounded : (microseconds (timestamp frame)).toInt < 2 ^ 53) :
    parseData (dataBytes frame) =
      some ⟨frame.isKeyFrame, (microseconds (timestamp frame)).toInt.toNat,
        avcc frame.nalus⟩ := by
  set key : UInt8 := if frame.isKeyFrame then 0x01 else 0x00 with keyEq
  set stamp := (tsMicro frame).toUInt64.toNat with stampEq
  have micros : stamp = (microseconds (timestamp frame)).toInt.toNat := tsMicro_toNat frame
  have keyRead : ((dataBytes frame)[1]? == some 1) = frame.isKeyFrame := by
    change (some key == some 1) = frame.isKeyFrame
    rw [keyEq]
    cases frame.isKeyFrame <;> rfl
  have contents : dataBytes frame = [0x02, key] ++ (encode 8 stamp ++ annexB frame.nalus) := by
    simp [dataBytes, keyEq, stampEq]
  have stampRead : read (dataBytes frame) 2 8 = some stamp :=
    read_encode contents rfl (by omega)
  have payload : (dataBytes frame).drop 10 = annexB frame.nalus := by
    rw [contents, ← List.append_assoc]
    exact List.drop_left' (by simp)
  have rounded : number stamp = stamp := if_pos (by omega)
  simp only [parseData, keyRead, stampRead, payload, rounded, annexBToAvcc_annexB clean,
    Option.bind_eq_bind, Option.bind_some, Option.pure_def, ← micros]

theorem onMessage_headerBytes
    {params : Params}
    (encodable : params.Encodable)
    (configured : Bool) :
    onMessage configured (headerBytes params) =
      .configure ⟨codecType params, params.sps, params.pps⟩ := by
  have long : ¬ (headerBytes params).length < 2 := by
    simp [headerBytes]
  have kind : ((headerBytes params)[0]? == some 0x01) = true := rfl
  rw [onMessage, if_neg long, if_pos kind, parseHeader_headerBytes encodable]

theorem onMessage_dataBytes
    {frame : Frame}
    (clean : ∀ nalu ∈ frame.nalus, ¬ annexBHeader <:+: nalu)
    (bounded : (microseconds (timestamp frame)).toInt < 2 ^ 53) :
    onMessage true (dataBytes frame) =
      .decode ⟨frame.isKeyFrame, (microseconds (timestamp frame)).toInt.toNat,
        avcc frame.nalus⟩ := by
  have long : ¬ (dataBytes frame).length < 2 := by
    simp [dataBytes]
  have other : ¬ ((dataBytes frame)[0]? == some 0x01) = true := by
    change ¬ (some (0x02 : UInt8) == some 0x01) = true
    decide
  have kind : ((dataBytes frame)[0]? == some 0x02) = true := rfl
  rw [onMessage, if_neg long, if_neg other, if_pos kind, parseData_dataBytes clean bounded]
  rfl

/-- The player recovers what the packets were built from: codec type, SPS and PPS
from a header packet, and key flag, clamped timestamp and length-prefixed NAL
units from a data packet, whatever the packet buffer held before. -/
theorem player_reads_packets :
    (∀ params : Params,
      params.vps.length ≤ 65535 → params.sps.length ≤ 65535 → params.pps.length ≤ 65535 →
        ∃ packet, headerPacket params = some packet ∧
          ∀ configured, onMessage configured packet =
            .configure ⟨if params.vps = [] then 1 else 2, params.sps, params.pps⟩) ∧
    ∀ (packetBuf : List UInt8) (frame : Frame),
      (∀ nalu ∈ frame.nalus, ¬ [0x00, 0x00, 0x00, 0x01] <:+: nalu) →
      (microseconds (timestamp frame)).toInt < 2 ^ 53 →
        ∃ packet, dataPacket packetBuf frame = some packet ∧
          onMessage true packet =
            .decode ⟨frame.isKeyFrame,
              (max 0 (microseconds (timestamp frame)).toInt).toNat,
              (frame.nalus.map fun nalu => encode 4 nalu.length ++ nalu).flatten⟩ := by
  constructor
  · intro params vpsShort spsShort ppsShort
    have encodable : params.Encodable := ⟨vpsShort, spsShort, ppsShort⟩
    refine ⟨_, headerPacket_eq encodable, fun configured => ?_⟩
    have codec : codecType params = if params.vps = [] then 1 else 2 := by
      unfold codecType
      cases params.vps <;> rfl
    rw [onMessage_headerBytes encodable, codec]
  · intro packetBuf frame clean bounded
    refine ⟨_, dataPacket_eq packetBuf frame, ?_⟩
    have clamped : (max 0 (microseconds (timestamp frame)).toInt).toNat =
        (microseconds (timestamp frame)).toInt.toNat := by
      omega
    rw [onMessage_dataBytes clean bounded, clamped]
    rfl

/-- An H.265 header, and a frame with an empty NAL unit and one that ends in
zeros, written over a longer packet. -/
theorem player_reads_packets_zeros :
    (∃ packet, headerPacket ⟨[64, 1], [66, 1, 1], []⟩ = some packet ∧
      ∀ configured, onMessage configured packet = .configure ⟨2, [66, 1, 1], []⟩) ∧
    ∃ packet, dataPacket (List.replicate 40 7) ⟨5000, true, [[], [103, 0, 0, 0], [1]]⟩ =
        some packet ∧
      onMessage true packet =
        .decode ⟨true, 5, [0, 0, 0, 0, 0, 0, 0, 4, 103, 0, 0, 0, 0, 0, 0, 1, 1]⟩ :=
  ⟨player_reads_packets.1 ⟨[64, 1], [66, 1, 1], []⟩ (by decide) (by decide) (by decide),
    player_reads_packets.2 (List.replicate 40 7) ⟨5000, true, [[], [103, 0, 0, 0], [1]]⟩
      (by decide) (by decide)⟩

end Player
end RuseonCore
