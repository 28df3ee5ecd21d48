import Mathlib.Data.List.AList
import RuseonCore.Foundation.Slots

/-!
# Batched writes to WebRTC peers

Model of `internal/webrtc/batch_linux.go`.  Packets for a peer are collected in
the slots of its batch and flushed by `WriteBatch` when a frame ends or the batch
is full; other packets are sent directly.  Batches live on a heap, since a writer
may hold one that the maps of the shards no longer reach.

Every packet carries the number of the `WriteToAddrPort` call it was handed to;
no operation reads it.
-/

namespace RuseonCore
namespace Webrtc

open Slots

def maxBatchSize : Nat := 32

theorem maxBatchSize_pos : 0 < maxBatchSize := by
  decide

def maxPacketSize : Nat := 1500

def numShards : Nat := 64

theorem numShards_pos : 0 < numShards := by
  decide

/-- Nanoseconds without traffic after which a peer is pruned. -/
def pruneAfter : Nat := 30000000000

/-- Address and port of a peer; an IPv4 address is kept in its 16-byte form. -/
structure AddrPort where
  ip16 : Vector UInt8 16
  is6 : Bool
  zone : String
  port : UInt16
  deriving DecidableEq

/-- A packet on its way to a peer. -/
structure Packet where
  call : Nat
  addr : AddrPort
  data : List UInt8
  deriving DecidableEq

/-! ## Batches -/

/-- A pre-allocated buffer and the length of the message in it. -/
structure Slot where
  storage : List UInt8
  len : Nat
  size : storage.length = maxPacketSize

/-- The message in a slot. -/
def Slot.bytes (slot : Slot) : List UInt8 :=
  slot.storage.take slot.len

/-- Copy a packet into a slot. -/
def Slot.fill (slot : Slot) (buf : List UInt8) : Slot where
  storage := buf.take maxPacketSize ++ slot.storage.drop buf.length
  len := min maxPacketSize buf.length
  size := by
    have := slot.size
    simp only [List.length_append, List.length_take, List.length_drop]
    omega

/-- The batch of a peer.  The first `count` slots hold packets; `calls` are the calls
they came from. -/
structure PeerBatch where
  slots : List Slot
  count : Nat
  calls : List Nat
  udpAddr : AddrPort
  lastUsed : Nat
  slots_length : slots.length = maxBatchSize
  calls_length : calls.length = count

/-- An empty batch. -/
def newPeerBatch (addr : AddrPort) (now : Nat) : PeerBatch where
  slots := List.replicate maxBatchSize
    ⟨List.replicate maxPacketSize 0, maxPacketSize, List.length_replicate⟩
  count := 0
  calls := []
  udpAddr := addr
  lastUsed := now
  slots_length := List.length_replicate
  calls_length := rfl

/-- The messages in the first slots, one for each call. -/
def messages (addr : AddrPort) (calls : List Nat) (slots : List Slot) : List Packet :=
  calls.zipWith (fun call slot => ⟨call, addr, slot.bytes⟩) slots

/-- The messages `msgs[:count]`. -/
def PeerBatch.pending (pb : PeerBatch) : List Packet :=
  messages pb.udpAddr pb.calls pb.slots

/-- Copy a packet into the next slot; there is no slot behind the last one. -/
def PeerBatch.append (pb : PeerBatch) (call : Nat) (buf : List UInt8) : Option PeerBatch :=
  (pb.slots[pb.count]?).map fun slot =>
    { pb with
      slots := pb.slots.set pb.count (slot.fill buf)
      count := pb.count + 1
      calls := pb.calls ++ [call]
      slots_length := by rw [List.length_set, pb.slots_length]
      calls_length := by rw [List.length_append, pb.calls_length, List.length_singleton] }

/-- The batch after a flush. -/
def PeerBatch.clear (pb : PeerBatch) : PeerBatch :=
  { pb with count := 0, calls := [], calls_length := rfl }

/-! ## The socket -/

/-- How the system calls end: `writeBatch` tells how many of the messages a call sends
and whether it fails, `writeTo` whether a single packet is sent.  Both may
depend on the number of system calls made before. -/
structure Network where
  writeBatch : Nat → Nat → Nat × Bool
  writeTo : Nat → Bool

/-- The socket accepts every packet, and `WriteBatch` always sends a non-empty part
of what it is given, from the front. -/
structure Network.Accepting (net : Network) : Prop where
  progress : ∀ call messages, 0 < messages →
    0 < (net.writeBatch call messages).1 ∧ (net.writeBatch call messages).1 ≤ messages
  batches : ∀ call messages, (net.writeBatch call messages).2 = false
  packets : ∀ call, net.writeTo call = true

/-- Outcome of sending messages: those that were sent, the number of system calls
made by then, and whether one failed. -/
structure Outcome where
  sent : List Packet
  sysCalls : Nat
  failed : Bool

/-- The loop of `flushLocked` around `WriteBatch`. -/
def flushLoop (net : Network) (messages : List Packet) (sysCalls : Nat) : Outcome :=
  if 0 < messages.length then
    let (n, failed) := net.writeBatch sysCalls messages.length
    if failed then ⟨messages.take n, sysCalls + 1, true⟩
    else if 0 < n then
      let rest := flushLoop net (messages.drop n) (sysCalls + 1)
      { rest with sent := messages.take n ++ rest.sent }
    else ⟨[], sysCalls + 1, false⟩
  else ⟨[], sysCalls, false⟩
termination_by messages.length

/-- The fallback of `flushLocked` without packet connections. -/
def sendEach (net : Network) : List Packet → Nat → Outcome
  | [], sysCalls => ⟨[], sysCalls, false⟩
  | message :: messages, sysCalls =>
      if net.writeTo sysCalls then
        let rest := sendEach net messages (sysCalls + 1)
        { rest with sent := message :: rest.sent }
      else ⟨[], sysCalls + 1, true⟩

/-! ## The batcher -/

/-- The peers of a shard, with their batches on the heap. -/
abbrev Shard := AList fun _ : AddrPort => Nat

/-- State of `platformBatcher`, with the clock and what was put on the socket. -/
structure Batcher where
  pc4 : Bool
  pc6 : Bool
  batches : List PeerBatch
  shards : Fin numShards → Shard
  closed : Bool
  clock : Nat
  socket : List Packet
  sysCalls : Nat

def newPlatformBatcher : Batcher where
  pc4 := true
  pc6 := true
  batches := []
  shards := fun _ => ∅
  closed := false
  clock := 0
  socket := []
  sysCalls := 0

/-- Shard of a peer. -/
def getShard (addr : AddrPort) : Fin numShards :=
  let low : UInt32 := addr.ip16[12].toUInt32 ||| addr.ip16[13].toUInt32 <<< 8 |||
    addr.ip16[14].toUInt32 <<< 16 ||| addr.ip16[15].toUInt32 <<< 24
  ⟨(addr.port.toUInt32 ^^^ low).toNat % numShards, Nat.mod_lt _ numShards_pos⟩

/-- Batch that the maps have for a peer. -/
def Batcher.lookup (b : Batcher) (addr : AddrPort) : Option Nat :=
  (b.shards (getShard addr)).lookup addr

/-- Register a new batch for a peer. -/
def Batcher.create (b : Batcher) (addr : AddrPort) : Batcher :=
  { b with
    batches := b.batches ++ [newPeerBatch addr b.clock]
    shards := Function.update b.shards (getShard addr)
      ((b.shards (getShard addr)).insert addr b.batches.length) }

/-- Take a peer out of its shard. -/
def Batcher.unregister (b : Batcher) (addr : AddrPort) : Batcher :=
  { b with
    shards := Function.update b.shards (getShard addr)
      ((b.shards (getShard addr)).erase addr) }

def Batcher.setBatch (b : Batcher) (p : Nat) (pb : PeerBatch) : Batcher :=
  { b with batches := b.batches.set p pb }

/-- The batch of a peer, made on its first use. -/
def Batcher.getOrCreatePeerBatch (b : Batcher) (addr : AddrPort) : Batcher × Nat :=
  match b.lookup addr with
  | some p => (b, p)
  | none => (b.create addr, b.batches.length)

/-- Send what a batch holds.  The batch is empty afterwards, whatever the outcome; the
flag tells whether sending failed. -/
def Batcher.flushLocked (net : Network) (b : Batcher) (p : Nat) (isIPv6 : Bool) :
    Batcher × Bool :=
  match b.batches[p]? with
  | none => (b, false)
  | some pb =>
      if pb.count == 0 then (b, false)
      else
        let outcome :=
          if isIPv6 && b.pc6 || b.pc4 then flushLoop net pb.pending b.sysCalls
          else sendEach net pb.pending b.sysCalls
        ({ b with
            batches := b.batches.set p pb.clear
            socket := b.socket ++ outcome.sent
            sysCalls := outcome.sysCalls }, outcome.failed)

/-- Errors of a write. -/
inductive WriteError where
  | closed
  | network
  deriving DecidableEq

/-- What a write returns. -/
structure Result where
  n : Nat
  err : Option WriteError
  deriving DecidableEq

/-- Send one packet on the UDP connection. -/
def Batcher.writeToUDPAddrPort (net : Network) (b : Batcher) (packet : Packet) :
    Batcher × Result :=
  if net.writeTo b.sysCalls then
    ({ b with socket := b.socket ++ [packet], sysCalls := b.sysCalls + 1 },
      ⟨packet.data.length, none⟩)
  else ({ b with sysCalls := b.sysCalls + 1 }, ⟨0, some .network⟩)

/-- STUN, DTLS and other packets that are not RTP. -/
def nonRTP (buf : List UInt8) : Bool :=
  buf.length < 12 || buf.getD 0 0 &&& 0xC0 != 0x80

/-- Last packet of a video frame. -/
def isMarker (buf : List UInt8) : Bool :=
  buf.getD 1 0 &&& 0x80 != 0

/-- The part of an RTP write under the lock of the batch. -/
def Batcher.writeRTP (net : Network) (b : Batcher) (p : Nat) (packet : Packet) :
    Option (Batcher × Result) := do
  let pb ← b.batches[p]?
  let pb := { pb with lastUsed := b.clock }
  if packet.data.length > maxPacketSize then
    let (b, _) := (b.setBatch p pb).flushLocked net p packet.addr.is6
    return b.writeToUDPAddrPort net packet
  let pb ← pb.append packet.call packet.data
  let n := min maxPacketSize packet.data.length
  let b := b.setBatch p pb
  if isMarker packet.data || pb.count ≥ maxBatchSize then
    let (b, failed) := b.flushLocked net p packet.addr.is6
    return (b, ⟨n, if failed then some .network else none⟩)
  return (b, ⟨n, none⟩)

/-- A write that is not interrupted by others. -/
def Batcher.writeToAddrPort (net : Network) (b : Batcher) (packet : Packet) :
    Option (Batcher × Result) :=
  if b.closed then some (b, ⟨0, some .closed⟩)
  else if packet.data.length == 0 then some (b, ⟨0, none⟩)
  else
    let (b, p) := b.getOrCreatePeerBatch packet.addr
    if nonRTP packet.data then
      let (b, _) := b.flushLocked net p packet.addr.is6
      some (b.writeToUDPAddrPort net packet)
    else b.writeRTP net p packet

/-- Visit of a peer by a cleanup pass that was started at the given time. -/
def Batcher.prune (net : Network) (now : Nat) (b : Batcher) (addr : AddrPort) : Batcher :=
  match b.lookup addr with
  | none => b
  | some p =>
      let (b, _) := b.flushLocked net p addr.is6
      match b.batches[p]? with
      | none => b
      | some pb => if now > pb.lastUsed + pruneAfter then b.unregister addr else b

/-- Visit of a peer by `Close`. -/
def Batcher.drain (net : Network) (b : Batcher) (addr : AddrPort) : Batcher :=
  match b.lookup addr with
  | none => b
  | some p => (b.flushLocked net p addr.is6).1

/-! ## Slots and batches -/

/-- A packet that fits is stored unchanged. -/
theorem Slot.bytes_fill
    (slot : Slot)
    {buf : List UInt8}
    (fits : buf.length ≤ maxPacketSize) :
    (slot.fill buf).bytes = buf := by
  change (buf.take maxPacketSize ++ slot.storage.drop buf.length).take
    (min maxPacketSize buf.length) = buf
  rw [Nat.min_eq_right fits, List.take_of_length_le fits, List.take_left]

/-- Filling the next slot appends its message. -/
theorem messages_concat
    (addr : AddrPort)
    {calls : List Nat}
    {slots : List Slot}
    (room : calls.length < slots.length)
    (call : Nat)
    (slot : Slot) :
    messages addr (calls ++ [call]) (slots.set calls.length slot) =
      messages addr calls slots ++ [⟨call, addr, slot.bytes⟩] := by
  induction calls generalizing slots with
  | nil =>
      cases slots with
      | nil => simp at room
      | cons first slots => simp [messages]
  | cons earlier calls inductionHypothesis =>
      cases slots with
      | nil => simp at room
      | cons first slots =>
          have later := inductionHypothesis (Nat.lt_of_succ_lt_succ room)
          simpa [messages] using later

@[simp] theorem PeerBatch.pending_clear (pb : PeerBatch) : pb.clear.pending = [] := rfl

/-- A batch holds as many packets as it counts. -/
theorem PeerBatch.length_pending
    {pb : PeerBatch}
    (bounded : pb.count ≤ maxBatchSize) :
    pb.pending.length = pb.count := by
  rw [PeerBatch.pending, messages, List.length_zipWith, pb.slots_length, pb.calls_length]
  omega

theorem PeerBatch.pending_of_count
    {pb : PeerBatch}
    (empty : pb.count = 0) :
    pb.pending = [] := by
  have none : pb.calls = [] := List.eq_nil_of_length_eq_zero (pb.calls_length.trans empty)
  simp [PeerBatch.pending, messages, none]

/-- A batch holds packets for its peer only. -/
theorem PeerBatch.addr_of_mem_pending
    {pb : PeerBatch}
    {packet : Packet}
    (member : packet ∈ pb.pending) :
    packet.addr = pb.udpAddr := by
  obtain ⟨i, found⟩ := List.mem_iff_getElem?.mp member
  rw [PeerBatch.pending, messages, List.getElem?_zipWith] at found
  split at found
  · obtain rfl := Option.some.inj found
    rfl
  · cases found

/-- A packet is appended to what the batch holds. -/
theorem PeerBatch.append_eq
    {pb next : PeerBatch}
    {call : Nat}
    {buf : List UInt8}
    (fits : buf.length ≤ maxPacketSize)
    (appended : pb.append call buf = some next) :
    next.pending = pb.pending ++ [⟨call, pb.udpAddr, buf⟩] ∧
      next.count = pb.count + 1 ∧ next.calls = pb.calls ++ [call] ∧
      next.udpAddr = pb.udpAddr ∧ next.lastUsed = pb.lastUsed := by
  obtain ⟨slot, found, rfl⟩ := Option.map_eq_some_iff.mp appended
  have inside := (List.getElem?_eq_some_iff.mp found).1
  have concat := messages_concat pb.udpAddr (pb.calls_length ▸ inside) call (slot.fill buf)
  rw [slot.bytes_fill fits, pb.calls_length] at concat
  exact ⟨concat, rfl, rfl, rfl, rfl⟩

theorem PeerBatch.append_isSome
    {pb : PeerBatch}
    (room : pb.count < maxBatchSize)
    (call : Nat)
    (buf : List UInt8) :
    (pb.append call buf).isSome = true := by
  have inside : pb.count < pb.slots.length := by
    rw [pb.slots_length]
    exact room
  simp [PeerBatch.append, inside]

/-! ## Flushes -/

/-- All messages are sent, in order. -/
theorem flushLoop_of_accepting
    {net : Network}
    (accepting : net.Accepting)
    (messages : List Packet)
    (sysCalls : Nat) :
    (flushLoop net messages sysCalls).sent = messages ∧
      (flushLoop net messages sysCalls).failed = false := by
  induction length : messages.length using Nat.strong_induction_on
    generalizing messages sysCalls with
  | _ size inductionHypothesis =>
      rw [flushLoop]
      split
      · rename_i nonempty
        obtain ⟨some_, inside⟩ := accepting.progress sysCalls messages.length nonempty
        have fine := accepting.batches sysCalls messages.length
        have later := inductionHypothesis _ (by rw [List.length_drop]; omega)
          (messages.drop (net.writeBatch sysCalls messages.length).1) (sysCalls + 1) rfl
        simp only [fine, Bool.false_eq_true, if_false, if_pos some_, later.1, later.2,
          List.take_append_drop, and_self]
      · rename_i none_
        have empty : messages = [] := List.eq_nil_of_length_eq_zero (by omega)
        exact ⟨empty.symm, rfl⟩

theorem PeerBatch.clear_of_count
    {pb : PeerBatch}
    (empty : pb.count = 0) :
    pb.clear = pb := by
  obtain ⟨slots, count, calls, udpAddr, lastUsed, slots_length, calls_length⟩ := pb
  simp only at empty
  subst empty
  obtain rfl := List.eq_nil_of_length_eq_zero calls_length
  rfl

/-! ## Operations under the lock of a batch -/

/-- A batcher with a changed batch and more packets on the socket. -/
def Batcher.replace
    (b : Batcher)
    (p : Nat)
    (changed : PeerBatch)
    (sent : List Packet)
    (sysCalls : Nat) : Batcher :=
  { b with
    batches := b.batches.set p changed
    socket := b.socket ++ sent
    sysCalls := sysCalls }

/-- A batch is changed to one of the same peer; what is sent and what it then holds are
its old contents and what is written. -/
structure PeerBatch.Works
    (pb changed : PeerBatch)
    (sent written : List Packet) : Prop where
  peer : changed.udpAddr = pb.udpAddr
  room : changed.count < maxBatchSize
  contents : sent ++ changed.pending = pb.pending ++ written

/-- A packet that stays in the batch. -/
def PeerBatch.buffers (pb : PeerBatch) (buf : List UInt8) : Bool :=
  buf.length ≤ maxPacketSize && !isMarker buf && pb.count + 1 < maxBatchSize

theorem PeerBatch.works_clear (pb : PeerBatch) (written : List Packet) :
    pb.Works pb.clear (pb.pending ++ written) written where
  peer := rfl
  room := maxBatchSize_pos
  contents := by rw [pending_clear, List.append_nil]

/-- A flush puts what the batch holds on the socket and empties the batch. -/
theorem Batcher.flushLocked_eq
    {net : Network}
    (accepting : net.Accepting)
    {b : Batcher}
    {p : Nat}
    {pb : PeerBatch}
    (found : b.batches[p]? = some pb)
    (connected : b.pc4 = true)
    (isIPv6 : Bool) :
    ∃ sysCalls, b.flushLocked net p isIPv6 =
      (b.replace p pb.clear pb.pending sysCalls, false) := by
  unfold Batcher.flushLocked Batcher.replace
  simp only [found]
  split
  · rename_i empty
    have none : pb.count = 0 := by simpa using empty
    refine ⟨b.sysCalls, ?_⟩
    rw [PeerBatch.clear_of_count none, set_of_getElem? found, PeerBatch.pending_of_count none,
      List.append_nil]
  · have batch : (isIPv6 && b.pc6 || b.pc4) = true := by simp [connected]
    obtain ⟨sent, failed⟩ := flushLoop_of_accepting accepting pb.pending b.sysCalls
    refine ⟨(flushLoop net pb.pending b.sysCalls).sysCalls, ?_⟩
    simp only [batch, if_true, sent, failed]

/-- A direct send after a flush. -/
theorem Batcher.sendAfterFlush_eq
    {net : Network}
    (accepting : net.Accepting)
    {b : Batcher}
    {p : Nat}
    {pb : PeerBatch}
    (found : b.batches[p]? = some pb)
    (connected : b.pc4 = true)
    (isIPv6 : Bool)
    (packet : Packet) :
    ∃ sysCalls, (b.flushLocked net p isIPv6).1.writeToUDPAddrPort net packet =
      (b.replace p pb.clear (pb.pending ++ [packet]) sysCalls, ⟨packet.data.length, none⟩) := by
  obtain ⟨sysCalls, flushed⟩ := b.flushLocked_eq accepting found connected isIPv6
  refine ⟨sysCalls + 1, ?_⟩
  rw [flushed, Batcher.writeToUDPAddrPort, if_pos (accepting.packets _)]
  simp only [Batcher.replace, List.append_assoc]

/-- A packet that fits is appended to a batch with room. -/
theorem PeerBatch.exists_append
    (pb : PeerBatch)
    (room : pb.count < maxBatchSize)
    {packet : Packet}
    (peer : pb.udpAddr = packet.addr)
    (fits : packet.data.length ≤ maxPacketSize) :
    ∃ appended, pb.append packet.call packet.data = some appended ∧
      appended.pending = pb.pending ++ [packet] ∧ appended.count = pb.count + 1 ∧
      appended.udpAddr = pb.udpAddr := by
  obtain ⟨appended, append⟩ := Option.isSome_iff_exists.mp
    (pb.append_isSome room packet.call packet.data)
  obtain ⟨pending, count, _, samePeer, _⟩ := PeerBatch.append_eq fits append
  rw [peer] at pending
  exact ⟨appended, append, pending, count, samePeer⟩

/-- A packet stays in the batch if it is neither too long nor a marker, and there is room
for another one. -/
theorem PeerBatch.buffers_eq_false
    {pb : PeerBatch}
    {buf : List UInt8}
    (flushes : isMarker buf = true ∨ maxBatchSize ≤ pb.count + 1) :
    pb.buffers buf = false := by
  rcases flushes with marker | full
  · simp [PeerBatch.buffers, marker]
  · simp [PeerBatch.buffers, Nat.not_lt.mpr full]

section Writes

variable {net : Network} {b : Batcher} {p : Nat} {pb : PeerBatch}

theorem Batcher.getElem?_setBatch
    (found : b.batches[p]? = some pb)
    (changed : PeerBatch) :
    (b.setBatch p changed).batches[p]? = some changed := by
  have inside := (List.getElem?_eq_some_iff.mp found).1
  simp [Batcher.setBatch, inside]

theorem Batcher.replace_setBatch
    (used changed : PeerBatch)
    (sent : List Packet)
    (sysCalls : Nat) :
    (b.setBatch p used).replace p changed sent sysCalls = b.replace p changed sent sysCalls := by
  simp only [Batcher.replace, Batcher.setBatch, List.set_set]

/-- An RTP write: its packet is sent with what the batch holds, or stays in the
batch. -/
theorem Batcher.writeRTP_eq
    (accepting : net.Accepting)
    (found : b.batches[p]? = some pb)
    (connected : b.pc4 = true)
    (packet : Packet)
    (peer : pb.udpAddr = packet.addr)
    (room : pb.count < maxBatchSize) :
    ∃ changed sent sysCalls,
      b.writeRTP net p packet =
        some (b.replace p changed sent sysCalls, ⟨packet.data.length, none⟩) ∧
      pb.Works changed sent [packet] ∧
      (changed.pending = [] ↔ pb.buffers packet.data = false) := by
  set used : PeerBatch := { pb with lastUsed := b.clock } with usedEq
  unfold Batcher.writeRTP
  simp only [found, Option.bind_eq_bind, Option.bind_some, ← usedEq]
  by_cases oversize : packet.data.length > maxPacketSize
  · obtain ⟨sysCalls, sent⟩ := Batcher.sendAfterFlush_eq accepting
      (b.getElem?_setBatch found used) connected packet.addr.is6 packet
    rw [b.replace_setBatch] at sent
    have works : pb.Works used.clear (used.pending ++ [packet]) [packet] :=
      ⟨rfl, maxBatchSize_pos, (used.works_clear [packet]).contents⟩
    refine ⟨used.clear, used.pending ++ [packet], sysCalls, ?_, works, ?_⟩
    · rw [if_pos oversize]
      exact congrArg some sent
    · simp [PeerBatch.buffers, Nat.not_le.mpr oversize]
  · rw [if_neg oversize]
    have fits : packet.data.length ≤ maxPacketSize := by omega
    obtain ⟨appended, append, contents, counts, samePeer⟩ :=
      used.exists_append room peer fits
    have counted : appended.count = pb.count + 1 := counts
    rw [append, Option.bind_some, Nat.min_eq_right fits]
    split
    · rename_i flushes
      obtain ⟨sysCalls, flushed⟩ := Batcher.flushLocked_eq accepting
        (b.getElem?_setBatch found appended) connected packet.addr.is6
      rw [b.replace_setBatch] at flushed
      refine ⟨appended.clear, appended.pending, sysCalls, ?_, ⟨samePeer, maxBatchSize_pos, ?_⟩, ?_⟩
      · rw [flushed]
        rfl
      · rw [PeerBatch.pending_clear, List.append_nil, contents]
        rfl
      · simp only [Bool.or_eq_true, decide_eq_true_eq, counted] at flushes
        simp [PeerBatch.buffers_eq_false flushes]
    · rename_i unflushed
      simp only [Bool.or_eq_true, decide_eq_true_eq, not_or] at unflushed
      refine ⟨appended, [], b.sysCalls, ?_, ⟨samePeer, by omega, contents⟩, ?_⟩
      · simp only [Batcher.replace, Batcher.setBatch, List.append_nil, Option.pure_def]
      · have stays : pb.buffers packet.data = true := by
          simp only [PeerBatch.buffers, Bool.and_eq_true, decide_eq_true_eq, Bool.not_eq_true']
          exact ⟨⟨fits, by simpa using unflushed.1⟩, by omega⟩
        simp [contents, stays]

end Writes

/-! ## Lookups -/

theorem Batcher.lookup_create (b : Batcher) (addr other : AddrPort) :
    (b.create addr).lookup other =
      if other = addr then some b.batches.length else b.lookup other := by
  unfold Batcher.lookup Batcher.create
  by_cases same : other = addr
  · subst same
    simp
  · by_cases shard : getShard other = getShard addr
    · simp [shard, AList.lookup_insert_ne same, same]
    · simp [Function.update_of_ne shard, same]

theorem Batcher.lookup_unregister (b : Batcher) (addr other : AddrPort) :
    (b.unregister addr).lookup other = if other = addr then none else b.lookup other := by
  unfold Batcher.lookup Batcher.unregister
  by_cases same : other = addr
  · subst same
    simp
  · by_cases shard : getShard other = getShard addr
    · simp [shard, AList.lookup_erase_ne same, same]
    · simp [Function.update_of_ne shard, same]

end Webrtc
end RuseonCore
