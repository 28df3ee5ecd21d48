import RuseonCore.Foundation.Routing
import RuseonCore.Foundation.Transition
import RuseonCore.Webrtc.Batch

/-!
# Order of packets to a peer

`WriteToAddrPort`, cleanup passes and `Close`, executed one at a time on a socket
that accepts every packet.  What was put on the socket for a peer, followed by
what its batch holds, is what was written to the peer; every operation is shown
to append its packet to that list and to change nothing else.
-/

namespace RuseonCore
namespace Webrtc

open Routing Slots Transition

/-- Packets buffered for a peer. -/
def Batcher.buffered (b : Batcher) (addr : AddrPort) : List Packet :=
  ((b.lookup addr).bind fun p => b.batches[p]?).elim [] PeerBatch.pending

/-- Packets on the socket for a peer, then those buffered for it. -/
def Batcher.view (b : Batcher) (addr : AddrPort) : List Packet :=
  share Packet.addr addr b.socket ++ b.buffered addr

/-- Registered batches belong to their peer and have room. -/
structure Sound (b : Batcher) : Prop where
  connected : b.pc4 = true
  registered : ∀ addr p, b.lookup addr = some p →
    ∃ pb, b.batches[p]? = some pb ∧ pb.udpAddr = addr ∧ pb.count < maxBatchSize

/-- The packets written by an operation are appended for their peers, and what is on
the socket stays there. -/
structure Writes (b next : Batcher) (packets : List Packet) : Prop where
  sound : Sound next
  closed : next.closed = b.closed
  socket : b.socket <+: next.socket
  view : ∀ addr, next.view addr = b.view addr ++ share Packet.addr addr packets

theorem Writes.trans
    {b middle next : Batcher}
    {earlier later : List Packet}
    (first : Writes b middle earlier)
    (second : Writes middle next later) :
    Writes b next (earlier ++ later) where
  sound := second.sound
  closed := second.closed.trans first.closed
  socket := first.socket.trans second.socket
  view := by
    intro addr
    rw [second.view, first.view, share_append, List.append_assoc]

/-- A peer whose batch is empty stays without packets if none are written. -/
theorem Writes.buffered_eq_nil
    {b next : Batcher}
    {addr : AddrPort}
    (writes : Writes b next [])
    (empty : b.buffered addr = []) :
    next.buffered addr = [] := by
  obtain ⟨sent, socket⟩ := writes.socket
  have view := writes.view addr
  rw [Batcher.view, Batcher.view, empty, ← socket, share_append, share_nil, List.append_nil,
    List.append_nil, List.append_assoc] at view
  have nothing := List.self_eq_append_right.mp view.symm
  exact (List.append_eq_nil_iff.mp nothing).2

theorem Writes.refl
    {b : Batcher}
    (sound : Sound b) :
    Writes b b [] where
  sound := sound
  closed := rfl
  socket := List.prefix_rfl
  view := fun _ => (List.append_nil _).symm

theorem Batcher.buffered_of_lookup
    {b : Batcher}
    {addr : AddrPort}
    {p : Nat}
    {pb : PeerBatch}
    (found : b.lookup addr = some p)
    (batch : b.batches[p]? = some pb) :
    b.buffered addr = pb.pending := by
  simp [Batcher.buffered, found, batch]

theorem share_of_addressed
    {addr : AddrPort}
    {packets : List Packet}
    (addressed : ∀ packet ∈ packets, packet.addr = addr) :
    share Packet.addr addr packets = packets :=
  List.filter_eq_self.mpr fun packet member => by simp [addressed packet member]

theorem share_of_addressed_ne
    {addr other : AddrPort}
    {packets : List Packet}
    (addressed : ∀ packet ∈ packets, packet.addr = addr)
    (different : other ≠ addr) :
    share Packet.addr other packets = [] :=
  List.filter_eq_nil_iff.mpr fun packet member => by
    simp [addressed packet member, different.symm]

/-- What an operation sends is addressed to the peer of its batch. -/
theorem PeerBatch.Works.addressed
    {pb changed : PeerBatch}
    {sent written : List Packet}
    (works : pb.Works changed sent written)
    (addressed : ∀ packet ∈ written, packet.addr = pb.udpAddr) :
    ∀ packet ∈ sent, packet.addr = pb.udpAddr := by
  intro packet member
  have contained : packet ∈ pb.pending ++ written := by
    rw [← works.contents]
    exact List.mem_append_left _ member
  rcases List.mem_append.mp contained with old | new
  · exact PeerBatch.addr_of_mem_pending old
  · exact addressed packet new

/-- A batch belongs to one peer. -/
theorem Sound.ne_of_lookup
    {b : Batcher}
    (sound : Sound b)
    {addr other : AddrPort}
    {p q : Nat}
    (found : b.lookup addr = some p)
    (reached : b.lookup other = some q)
    (different : other ≠ addr) :
    p ≠ q := by
  rintro rfl
  obtain ⟨batch, there, peer, _⟩ := sound.registered addr p found
  obtain ⟨otherBatch, same, otherPeer, _⟩ := sound.registered other p reached
  obtain rfl := Option.some.inj (there.symm.trans same)
  exact different (otherPeer.symm.trans peer)

/-- An operation on the batch of one peer does not change those of others. -/
theorem Sound.buffered_replace
    {b : Batcher}
    (sound : Sound b)
    {addr other : AddrPort}
    {p : Nat}
    (found : b.lookup addr = some p)
    (different : other ≠ addr)
    (changed : PeerBatch)
    (sent : List Packet)
    (sysCalls : Nat) :
    (b.replace p changed sent sysCalls).buffered other = b.buffered other := by
  change ((b.lookup other).bind fun q => (b.batches.set p changed)[q]?).elim _ _ =
    ((b.lookup other).bind fun q => b.batches[q]?).elim _ _
  cases reached : b.lookup other with
  | none => rfl
  | some q =>
      rw [Option.bind_some, Option.bind_some,
        List.getElem?_set_ne (sound.ne_of_lookup found reached different)]

/-- An operation on the batch of one peer: it puts packets on the socket and leaves
others in the batch, which together are the old contents and what is written. -/
theorem Sound.update
    {b : Batcher}
    {addr : AddrPort}
    {p : Nat}
    {pb : PeerBatch}
    (sound : Sound b)
    (found : b.lookup addr = some p)
    (batch : b.batches[p]? = some pb)
    {changed : PeerBatch}
    {sent written : List Packet}
    (works : pb.Works changed sent written)
    (addressed : ∀ packet ∈ written, packet.addr = addr)
    (sysCalls : Nat) :
    Writes b (b.replace p changed sent sysCalls) written := by
  obtain ⟨own, ownBatch, rfl, _⟩ := sound.registered addr p found
  obtain rfl := Option.some.inj (batch.symm.trans ownBatch)
  have inside := (List.getElem?_eq_some_iff.mp batch).1
  have sentAddressed := works.addressed addressed
  refine ⟨⟨sound.connected, ?_⟩, rfl, List.prefix_append _ _, ?_⟩
  · intro other q reached
    by_cases same : other = pb.udpAddr
    · subst same
      obtain rfl := Option.some.inj (found.symm.trans reached)
      exact ⟨changed, by simp [Batcher.replace, inside], works.peer, works.room⟩
    · obtain ⟨otherBatch, there, otherPeer, otherRoom⟩ := sound.registered other q reached
      refine ⟨otherBatch, ?_, otherPeer, otherRoom⟩
      rw [Batcher.replace, List.getElem?_set_ne (sound.ne_of_lookup found reached same)]
      exact there
  · intro other
    by_cases same : other = pb.udpAddr
    · subst same
      have after : (b.replace p changed sent sysCalls).buffered pb.udpAddr = changed.pending :=
        Batcher.buffered_of_lookup found (by simp [Batcher.replace, inside])
      rw [Batcher.view, Batcher.view, after, Batcher.buffered_of_lookup found batch,
        Batcher.replace, share_append, share_of_addressed sentAddressed,
        share_of_addressed addressed, List.append_assoc, works.contents, List.append_assoc]
    · rw [Batcher.view, Batcher.view, sound.buffered_replace found same, Batcher.replace,
        share_append, share_of_addressed_ne sentAddressed same,
        share_of_addressed_ne addressed same, List.append_nil, List.append_nil]

/-! ## The operations -/

/-- A flush only moves packets from the batch to the socket. -/
theorem Sound.flush
    {net : Network}
    (accepting : net.Accepting)
    {b : Batcher}
    {addr : AddrPort}
    {p : Nat}
    (sound : Sound b)
    (found : b.lookup addr = some p)
    (isIPv6 : Bool) :
    ∃ next, b.flushLocked net p isIPv6 = (next, false) ∧ Writes b next [] ∧
      next.shards = b.shards ∧ next.buffered addr = [] := by
  obtain ⟨pb, batch, peer, _⟩ := sound.registered addr p found
  obtain ⟨sysCalls, flushed⟩ := b.flushLocked_eq accepting batch sound.connected isIPv6
  have inside := (List.getElem?_eq_some_iff.mp batch).1
  refine ⟨_, flushed, ?_, rfl, ?_⟩
  · have works := pb.works_clear []
    rw [List.append_nil] at works
    exact sound.update found batch works (by simp) sysCalls
  · have cleared : (b.batches.set p pb.clear)[p]? = some pb.clear := by simp [inside]
    change ((b.lookup addr).bind fun q => (b.batches.set p pb.clear)[q]?).elim _ _ = _
    rw [found, Option.bind_some, cleared]
    rfl

theorem Sound.unregister
    {b : Batcher}
    {addr : AddrPort}
    (sound : Sound b)
    (empty : b.buffered addr = []) :
    Writes b (b.unregister addr) [] := by
  refine ⟨⟨sound.connected, fun other p reached => ?_⟩, rfl, List.prefix_rfl, fun other => ?_⟩
  · rw [Batcher.lookup_unregister] at reached
    split at reached
    · cases reached
    · exact sound.registered other p reached
  · have same : (b.unregister addr).buffered other = b.buffered other := by
      unfold Batcher.buffered
      rw [Batcher.lookup_unregister]
      split
      · rename_i own
        rw [own]
        exact empty.symm
      · rfl
    rw [Batcher.view, same, share_nil, List.append_nil]
    rfl

theorem Sound.create
    {b : Batcher}
    {addr : AddrPort}
    (sound : Sound b)
    (missing : b.lookup addr = none) :
    Writes b (b.create addr) [] := by
  have old : ∀ other p, b.lookup other = some p →
      (b.create addr).batches[p]? = b.batches[p]? := by
    intro other p reached
    obtain ⟨_, batch, _⟩ := sound.registered other p reached
    exact List.getElem?_append_left (List.getElem?_eq_some_iff.mp batch).1
  have new : (b.create addr).batches[b.batches.length]? = some (newPeerBatch addr b.clock) :=
    List.getElem?_concat_length
  refine ⟨⟨sound.connected, fun other p reached => ?_⟩, rfl, List.prefix_rfl, fun other => ?_⟩
  · rw [Batcher.lookup_create] at reached
    split at reached
    · rename_i own
      obtain rfl := Option.some.inj reached
      exact ⟨_, new, own.symm, maxBatchSize_pos⟩
    · rw [old other p reached]
      exact sound.registered other p reached
  · have same : (b.create addr).buffered other = b.buffered other := by
      by_cases own : other = addr
      · subst own
        have before : b.buffered other = [] := by simp [Batcher.buffered, missing]
        rw [before, Batcher.buffered_of_lookup
          (by rw [Batcher.lookup_create, if_pos rfl]) new]
        rfl
      · unfold Batcher.buffered
        rw [Batcher.lookup_create, if_neg own]
        cases reached : b.lookup other with
        | none => rfl
        | some p => rw [Option.bind_some, Option.bind_some, old other p reached]
    rw [Batcher.view, same, share_nil, List.append_nil]
    rfl

theorem Sound.getOrCreatePeerBatch
    {b : Batcher}
    (sound : Sound b)
    (addr : AddrPort) :
    ∃ next p, b.getOrCreatePeerBatch addr = (next, p) ∧ Writes b next [] ∧
      next.lookup addr = some p := by
  unfold Batcher.getOrCreatePeerBatch
  cases found : b.lookup addr with
  | some p =>
      exact ⟨b, p, rfl, .refl sound, found⟩
  | none =>
      exact ⟨_, _, rfl, sound.create found, by rw [Batcher.lookup_create, if_pos rfl]⟩

/-- A direct send after a flush. -/
theorem Sound.sendAfterFlush
    {net : Network}
    (accepting : net.Accepting)
    {b : Batcher}
    {p : Nat}
    {pb : PeerBatch}
    {packet : Packet}
    (sound : Sound b)
    (found : b.lookup packet.addr = some p)
    (batch : b.batches[p]? = some pb)
    (isIPv6 : Bool) :
    ∃ next, ((b.flushLocked net p isIPv6).1.writeToUDPAddrPort net packet) =
        (next, ⟨packet.data.length, none⟩) ∧ Writes b next [packet] := by
  obtain ⟨sysCalls, sent⟩ :=
    b.sendAfterFlush_eq accepting batch sound.connected isIPv6 packet
  exact ⟨_, sent, sound.update found batch (pb.works_clear [packet]) (by simp) sysCalls⟩

/-- An RTP write appends its packet, flushed or not. -/
theorem Sound.writeRTP
    {net : Network}
    (accepting : net.Accepting)
    {b : Batcher}
    {p : Nat}
    {packet : Packet}
    (sound : Sound b)
    (found : b.lookup packet.addr = some p) :
    ∃ next, b.writeRTP net p packet = some (next, ⟨packet.data.length, none⟩) ∧
      Writes b next [packet] := by
  obtain ⟨pb, batch, peer, room⟩ := sound.registered packet.addr p found
  obtain ⟨changed, sent, sysCalls, written, works, _⟩ :=
    b.writeRTP_eq accepting batch sound.connected packet peer room
  exact ⟨_, written, sound.update found batch works (by simp) sysCalls⟩

/-- A write of a non-empty packet to an open batcher succeeds and appends the packet
for its peer. -/
theorem Sound.write
    {net : Network}
    (accepting : net.Accepting)
    {b : Batcher}
    (sound : Sound b)
    (opened : b.closed = false)
    (packet : Packet)
    (nonempty : packet.data ≠ []) :
    ∃ next, b.writeToAddrPort net packet = some (next, ⟨packet.data.length, none⟩) ∧
      Writes b next [packet] := by
  obtain ⟨created, p, got, made, found⟩ := sound.getOrCreatePeerBatch packet.addr
  unfold Batcher.writeToAddrPort
  rw [opened, if_neg Bool.false_ne_true, if_neg (by simpa using nonempty), got]
  by_cases direct : nonRTP packet.data = true
  · simp only [direct, if_true]
    obtain ⟨pb, batch, _⟩ := made.sound.registered packet.addr p found
    obtain ⟨next, sent, written⟩ :=
      made.sound.sendAfterFlush accepting found batch packet.addr.is6
    exact ⟨next, congrArg some sent, made.trans written⟩
  · simp only [direct, Bool.false_eq_true, if_false]
    obtain ⟨next, sent, written⟩ := made.sound.writeRTP accepting found
    exact ⟨next, sent, made.trans written⟩

/-- The visit of a cleanup pass writes nothing. -/
theorem Sound.prune
    {net : Network}
    (accepting : net.Accepting)
    {b : Batcher}
    (sound : Sound b)
    (now : Nat)
    (addr : AddrPort) :
    Writes b (b.prune net now addr) [] := by
  unfold Batcher.prune
  split
  · exact .refl sound
  · rename_i p found
    obtain ⟨next, flushed, written, _, empty⟩ := sound.flush accepting found addr.is6
    rw [flushed]
    simp only
    split
    · exact written
    · split
      · exact written.trans (written.sound.unregister empty)
      · exact written

/-- The visit of `Close` empties the batch of a peer. -/
theorem Sound.drain
    {net : Network}
    (accepting : net.Accepting)
    {b : Batcher}
    (sound : Sound b)
    (addr : AddrPort) :
    Writes b (b.drain net addr) [] ∧ (b.drain net addr).shards = b.shards ∧
      (b.drain net addr).buffered addr = [] := by
  unfold Batcher.drain
  split
  · rename_i missing
    exact ⟨.refl sound, rfl, by simp [Batcher.buffered, missing]⟩
  · rename_i p found
    obtain ⟨next, flushed, written, shards, empty⟩ := sound.flush accepting found addr.is6
    rw [flushed]
    exact ⟨written, shards, empty⟩

/-- A pass whose visits write nothing writes nothing. -/
theorem Sound.foldl
    {visit : Batcher → AddrPort → Batcher}
    (quiet : ∀ {b : Batcher}, Sound b → ∀ addr, Writes b (visit b addr) [])
    {b : Batcher}
    (sound : Sound b)
    (visits : List AddrPort) :
    Writes b (visits.foldl visit b) [] := by
  induction visits generalizing b with
  | nil => exact .refl sound
  | cons addr visits inductionHypothesis =>
      have first := quiet sound addr
      exact first.trans (inductionHypothesis first.sound)

/-- After the visits of `Close`, the batches of the visited peers are empty. -/
theorem Sound.foldl_drain
    {net : Network}
    (accepting : net.Accepting)
    {b : Batcher}
    (sound : Sound b)
    (visits : List AddrPort) :
    (visits.foldl (fun b addr => b.drain net addr) b).shards = b.shards ∧
      ∀ addr ∈ visits,
        (visits.foldl (fun b addr => b.drain net addr) b).buffered addr = [] := by
  induction visits generalizing b with
  | nil => simp
  | cons addr visits inductionHypothesis =>
      obtain ⟨first, shards, empty⟩ := sound.drain accepting addr
      obtain ⟨laterShards, others⟩ := inductionHypothesis first.sound
      refine ⟨laterShards.trans shards, fun other member => ?_⟩
      rcases List.mem_cons.mp member with rfl | later
      · have rest := first.sound.foldl (fun sound addr => (sound.drain accepting addr).1) visits
        exact rest.buffered_eq_nil empty
      · exact others other later

/-! ## Operations one at a time -/

/-- The peers in all shards. -/
def Batcher.peers (b : Batcher) : List AddrPort :=
  (List.finRange numShards).flatMap fun shard => (b.shards shard).keys

/-- A batcher and the number of writes made on it. -/
structure Serial where
  b : Batcher
  writes : Nat

/-- A call, executed without interruption, or a new reading of the clock.  Passes visit
the peers in any order. -/
inductive Op where
  | write (addr : AddrPort) (data : List UInt8)
  | cleanup (visits : List AddrPort)
  | close (visits : List AddrPort)
  | tick (now : Nat)

/-- `Close`, with the order in which it visits the peers. -/
def Batcher.close (net : Network) (b : Batcher) (visits : List AddrPort) : Batcher :=
  { visits.foldl (fun b addr => b.drain net addr) { b with closed := true } with
    shards := fun _ => ∅ }

def Serial.step (net : Network) (s : Serial) : Op → Option Serial
  | .write addr data =>
      (s.b.writeToAddrPort net ⟨s.writes, addr, data⟩).map fun (b, _) => ⟨b, s.writes + 1⟩
  | .cleanup visits =>
      if visits.Perm s.b.peers then
        some { s with b := visits.foldl (fun b addr => b.prune net s.b.clock addr) s.b }
      else none
  | .close visits =>
      if s.b.closed then some s
      else if visits.Perm s.b.peers then some { s with b := s.b.close net visits }
      else none
  | .tick now => some { s with b := { s.b with clock := now } }

/-- Packet that an operation is given. -/
def Op.input : Op → Option (AddrPort × List UInt8)
  | .write addr data => some (addr, data)
  | _ => none

/-- Writes are not empty, and the batcher is not closed. -/
def Op.Allowed : Op → Prop
  | .write _ data => data ≠ []
  | .close _ => False
  | _ => True

/-- Packets written by operations, numbered in order. -/
def written (ops : List Op) : List Packet :=
  (ops.filterMap Op.input).mapIdx fun call (addr, data) => ⟨call, addr, data⟩

/-- The batcher holds or has sent what it was given. -/
structure Serial.Keeps (inputs : List (AddrPort × List UInt8)) (s : Serial) : Prop where
  sound : Sound s.b
  opened : s.b.closed = false
  counted : s.writes = inputs.length
  view : ∀ addr, s.b.view addr =
    share Packet.addr addr (inputs.mapIdx fun call (addr, data) => ⟨call, addr, data⟩)

theorem Serial.Keeps.step
    {net : Network}
    (accepting : net.Accepting)
    {inputs : List (AddrPort × List UInt8)}
    {s next : Serial}
    {op : Op}
    (keeps : s.Keeps inputs)
    (allowed : op.Allowed)
    (taken : s.step net op = some next) :
    next.Keeps (inputs ++ op.input.toList) := by
  obtain ⟨sound, opened, counted, view⟩ := keeps
  cases op with
  | write addr data =>
      obtain ⟨b, sent, writes⟩ :=
        sound.write accepting opened ⟨s.writes, addr, data⟩ allowed
      simp only [Serial.step, sent, Option.map_some, Option.some.injEq] at taken
      subst taken
      refine ⟨writes.sound, writes.closed.trans opened, by simp [Op.input, counted], ?_⟩
      intro other
      simp only [writes.view, view, Op.input, Option.toList_some, List.mapIdx_concat,
        share_append, counted]
  | cleanup visits =>
      obtain ⟨_, pruned⟩ := Option.ite_none_right_eq_some.mp taken
      obtain rfl := Option.some.inj pruned
      have writes := sound.foldl
        (fun sound addr => sound.prune accepting s.b.clock addr) visits
      refine ⟨writes.sound, writes.closed.trans opened, by simpa [Op.input] using counted, ?_⟩
      intro other
      rw [writes.view other, view]
      simp [Op.input]
  | close visits => cases allowed
  | tick now =>
      obtain rfl := Option.some.inj taken
      refine ⟨⟨sound.connected, sound.registered⟩, opened, ?_, ?_⟩
      · simpa [Op.input] using counted
      · intro other
        simp only [Op.input, Option.toList_none, List.append_nil]
        exact view other

theorem keeps_new : Serial.Keeps [] ⟨newPlatformBatcher, 0⟩ where
  sound := ⟨rfl, fun addr p reached => by simp [Batcher.lookup, newPlatformBatcher] at reached⟩
  opened := rfl
  counted := rfl
  view := by
    intro addr
    simp [Batcher.view, Batcher.buffered, Batcher.lookup, newPlatformBatcher]

/-- A peer that the maps know is among the peers. -/
theorem mem_peers_of_lookup
    {b : Batcher}
    {addr : AddrPort}
    {p : Nat}
    (found : b.lookup addr = some p) :
    addr ∈ b.peers := by
  have known : addr ∈ b.shards (getShard addr) :=
    AList.lookup_isSome.mp (by rw [Batcher.lookup] at found; simp [found])
  exact List.mem_flatMap.mpr ⟨getShard addr, List.mem_finRange _, AList.mem_keys.mp known⟩

/-- `Close` puts everything that is still buffered on the socket. -/
theorem Sound.close
    {net : Network}
    (accepting : net.Accepting)
    {b : Batcher}
    (sound : Sound b)
    {visits : List AddrPort}
    (all : visits.Perm b.peers)
    (addr : AddrPort) :
    share Packet.addr addr (b.close net visits).socket = b.view addr ∧
      (b.close net visits).buffered addr = [] := by
  have start : Sound { b with closed := true } := ⟨sound.connected, sound.registered⟩
  set drained := visits.foldl (fun b addr => b.drain net addr) { b with closed := true }
    with drainedEq
  have writes : Writes { b with closed := true } drained [] :=
    start.foldl (fun sound addr => (sound.drain accepting addr).1) visits
  obtain ⟨shards, empty⟩ := start.foldl_drain accepting visits
  rw [← drainedEq] at shards empty
  have nothing : drained.buffered addr = [] := by
    cases found : b.lookup addr with
    | none =>
        have missing : drained.lookup addr = none := by
          rw [Batcher.lookup, shards]
          exact found
        simp [Batcher.buffered, missing]
    | some p => exact empty addr (all.mem_iff.mpr (mem_peers_of_lookup found))
  constructor
  · have view := writes.view addr
    rw [Batcher.view, nothing, List.append_nil, share_nil, List.append_nil] at view
    exact view
  · simp [Batcher.close, Batcher.buffered, Batcher.lookup]

/-- For every sequence of writes of non-empty packets, cleanup passes and clock ticks
on a socket that accepts everything: for each peer the packets on the socket
followed by those buffered are the packets written to it, once each and in order,
and fewer than 32 are buffered; the next write succeeds; and after `Close` all
of them are on the socket and none is buffered. -/
theorem packets_in_order
    (net : Network)
    (accepting : net.Accepting)
    (ops : List Op)
    (allowed : ∀ op ∈ ops, op.Allowed)
    (s : Serial)
    (reached : run (Serial.step net) ⟨newPlatformBatcher, 0⟩ ops = some s) :
    (∀ addr, share Packet.addr addr s.b.socket ++ s.b.buffered addr =
        share Packet.addr addr (written ops) ∧ (s.b.buffered addr).length < maxBatchSize) ∧
    (∀ addr data, data ≠ [] → ∃ next,
      s.b.writeToAddrPort net ⟨s.writes, addr, data⟩ = some (next, ⟨data.length, none⟩)) ∧
    ∀ visits closed, s.step net (.close visits) = some closed → ∀ addr,
      share Packet.addr addr closed.b.socket = share Packet.addr addr (written ops) ∧
        closed.b.buffered addr = [] := by
  have keeps : s.Keeps (ops.filterMap Op.input) :=
    run_invariant_input (fun _ _ _ _ keeps allowed taken => keeps.step accepting allowed taken)
      keeps_new allowed reached
  obtain ⟨sound, opened, _, view⟩ := keeps
  refine ⟨fun addr => ⟨view addr, ?_⟩, fun addr data nonempty => ?_,
    fun visits closed taken addr => ?_⟩
  · cases found : s.b.lookup addr with
    | none => simp [Batcher.buffered, found, maxBatchSize]
    | some p =>
        obtain ⟨pb, batch, _, room⟩ := sound.registered addr p found
        rw [Batcher.buffered_of_lookup found batch, PeerBatch.length_pending room.le]
        exact room
  · obtain ⟨next, sent, _⟩ := sound.write accepting opened ⟨s.writes, addr, data⟩ nonempty
    exact ⟨next, sent⟩
  · simp only [Serial.step, opened, Bool.false_eq_true, if_false] at taken
    obtain ⟨all, result⟩ := Option.ite_none_right_eq_some.mp taken
    obtain rfl := Option.some.inj result
    have closed := sound.close accepting all addr
    exact ⟨closed.1.trans (view addr), closed.2⟩

/-- A socket that takes one message at a time. -/
def oneByOne : Network where
  writeBatch := fun _ _ => (1, false)
  writeTo := fun _ => true

theorem oneByOne_accepting : oneByOne.Accepting where
  progress := fun _ _ some_ => ⟨Nat.one_pos, some_⟩
  batches := fun _ _ => rfl
  packets := fun _ => rfl

/-- A peer on the local network. -/
def localPeer (port : UInt16) : AddrPort :=
  ⟨#v[0, 0, 0, 0, 0, 0, 0, 0, 0, 0, 255, 255, 192, 168, 0, 7], false, "", port⟩

/-- An RTP packet of a video. -/
def videoPacket (marker : Bool) : List UInt8 :=
  [0x80, if marker then 0xE0 else 0x60, 0, 1, 0, 0, 0, 0, 0, 0, 0, 1, 0x65]

/-- A frame of two packets, a STUN packet, and a peer that is pruned while another one
waits for the end of its frame. -/
def pruned : List Op :=
  [.write (localPeer 5000) (videoPacket false), .write (localPeer 5000) (videoPacket true),
    .write (localPeer 5000) [0, 1], .tick 31000000000,
    .write (localPeer 5001) (videoPacket false), .cleanup [localPeer 5001, localPeer 5000],
    .write (localPeer 5000) (videoPacket false)]

theorem packets_in_order_pruned :
    (∀ op ∈ pruned, op.Allowed) ∧
    ∃ s, run (Serial.step oneByOne) ⟨newPlatformBatcher, 0⟩ pruned = some s ∧
      s.b.socket.map Packet.call = [0, 1, 2, 3] ∧
      (s.b.buffered (localPeer 5000)).map Packet.call = [4] ∧
      share Packet.addr (localPeer 5000) s.b.socket ++ s.b.buffered (localPeer 5000) =
        share Packet.addr (localPeer 5000) (written pruned) := by
  have allowed : ∀ op ∈ pruned, op.Allowed := by simp [pruned, Op.Allowed, videoPacket]
  have ends : (run (Serial.step oneByOne) ⟨newPlatformBatcher, 0⟩ pruned).map
      (fun s => (s.b.socket.map Packet.call,
        (s.b.buffered (localPeer 5000)).map Packet.call)) = some ([0, 1, 2, 3], [4]) := by
    decide +kernel
  obtain ⟨s, reached, calls⟩ := Option.map_eq_some_iff.mp ends
  obtain ⟨socket, buffered⟩ := Prod.mk.inj calls
  have ordered := packets_in_order oneByOne oneByOne_accepting pruned allowed s reached
  exact ⟨allowed, s, reached, socket, buffered, (ordered.1 (localPeer 5000)).1⟩

end Webrtc
end RuseonCore
