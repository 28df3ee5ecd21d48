import RuseonCore.Webrtc.BatchOrder

/-!
# Writers against cleanup passes and Close

`WriteToAddrPort` looks its batch up under the lock of the shard and fills it
under the lock of the batch, so the batch can leave the map in between.  Here any
number of writers, the cleanup goroutine and `Close` take their locked steps in
any order.  No accepted packet is ever lost from the batcher, but one that is left
in a batch outside the maps is never sent.  The runs in which this does not
happen are characterised exactly.
-/

namespace RuseonCore
namespace Webrtc

open Slots Transition

/-- Where a `WriteToAddrPort` call stands: before the check of `closed`, before the
lookup under the read lock and the one under the write lock of the shard, before
the lock of its batch, and before a direct send. -/
inductive Stage where
  | started
  | looking
  | creating
  | holding (p : Nat)
  | sending
  | returned (result : Result)
  deriving DecidableEq

/-- A `WriteToAddrPort` call. -/
structure Writer where
  addr : AddrPort
  buf : List UInt8
  stage : Stage
  deriving DecidableEq

/-- The call has returned without error for a packet. -/
def Writer.accepted (writer : Writer) : Bool :=
  match writer.stage with
  | .returned result => result.err == none && writer.buf != []
  | _ => false

/-- The packet of a call. -/
def Writer.packet (writer : Writer) (w : Nat) : Packet :=
  ⟨w, writer.addr, writer.buf⟩

/-- A walk over the shards: the shard it has come to and, once it holds the lock, the
peers it still has to visit there. -/
structure Sweep where
  shard : Fin numShards
  pending : Option (List AddrPort)

/-- Walk at the first shard. -/
def newSweep : Sweep where
  shard := ⟨0, numShards_pos⟩
  pending := none

/-- Walk at the next shard, if there is one. -/
def Sweep.next (sweep : Sweep) : Option Sweep :=
  if more : sweep.shard.val + 1 < numShards then some ⟨⟨sweep.shard.val + 1, more⟩, none⟩
  else none

def Sweep.locks (sweep : Sweep) (shard : Fin numShards) : Bool :=
  sweep.shard == shard && sweep.pending.isSome

/-- The goroutine of `cleanupLoop`. -/
inductive Cleaner where
  | idle
  | sweeping (now : Nat) (sweep : Sweep)
  | stopped

/-- A batcher with the goroutines that work on it. -/
structure Race where
  b : Batcher
  writers : List Writer
  cleaner : Cleaner
  closer : Option Sweep

def newRace : Race where
  b := newPlatformBatcher
  writers := []
  cleaner := .idle
  closer := none

/-- A cleanup pass or `Close` holds the lock of a shard. -/
def Race.locked (r : Race) (shard : Fin numShards) : Bool :=
  (match r.cleaner with
    | .sweeping _ sweep => sweep.locks shard
    | _ => false) || r.closer.any fun sweep => sweep.locks shard

/-- The new map that `Close` gives to a shard. -/
def Batcher.reset (b : Batcher) (shard : Fin numShards) : Batcher :=
  { b with shards := Function.update b.shards shard ∅ }

/-- Next step of a writer, with the stage it comes to. -/
def Race.advance (net : Network) (r : Race) (w : Nat) (writer : Writer) :
    Option (Batcher × Stage) :=
  match writer.stage with
  | .started =>
      if r.b.closed then some (r.b, .returned ⟨0, some .closed⟩)
      else if writer.buf.length == 0 then some (r.b, .returned ⟨0, none⟩)
      else some (r.b, .looking)
  | .looking =>
      if r.locked (getShard writer.addr) then none
      else
        match r.b.lookup writer.addr with
        | some p => some (r.b, .holding p)
        | none => some (r.b, .creating)
  | .creating =>
      if r.locked (getShard writer.addr) then none
      else
        let (b, p) := r.b.getOrCreatePeerBatch writer.addr
        some (b, .holding p)
  | .holding p =>
      if nonRTP writer.buf then
        some ((r.b.flushLocked net p writer.addr.is6).1, .sending)
      else
        (r.b.writeRTP net p (writer.packet w)).map fun (b, result) => (b, .returned result)
  | .sending =>
      let (b, result) := r.b.writeToUDPAddrPort net (writer.packet w)
      some (b, .returned result)
  | .returned _ => none

/-- Lock the shard of a walk, with an order of the peers that the map is ranged over. -/
def Race.acquire (r : Race) (sweep : Sweep) (visits : List AddrPort) : Option Sweep :=
  if !r.locked sweep.shard && visits.isPerm (r.b.shards sweep.shard).keys then
    some { sweep with pending := some visits }
  else none

/-- Next step of a cleanup pass: lock a shard, visit a peer, or unlock the shard. -/
def Race.cleanerStep (net : Network) (r : Race) (visits : List AddrPort) : Option Race :=
  match r.cleaner with
  | .sweeping now sweep =>
      match sweep.pending with
      | none => (r.acquire sweep visits).map fun sweep => { r with cleaner := .sweeping now sweep }
      | some (addr :: rest) =>
          some { r with
            b := r.b.prune net now addr
            cleaner := .sweeping now { sweep with pending := some rest } }
      | some [] => some { r with cleaner := sweep.next.elim .idle (.sweeping now) }
  | _ => none

/-- Next step of `Close`: lock a shard, visit a peer, or replace the map and unlock the
shard. -/
def Race.closerStep (net : Network) (r : Race) (visits : List AddrPort) : Option Race :=
  match r.closer with
  | some sweep =>
      match sweep.pending with
      | none => (r.acquire sweep visits).map fun sweep => { r with closer := some sweep }
      | some (addr :: rest) =>
          some { r with
            b := r.b.drain net addr
            closer := some { sweep with pending := some rest } }
      | some [] => some { r with b := r.b.reset sweep.shard, closer := sweep.next }
  | none => none

/-- Steps of the goroutines: a new call, a step of a writer, a tick of the cleanup loop
and its end, a step of a pass, a call of `Close` and a step of it, and a new reading
of the clock. -/
inductive Race.Label where
  | call (addr : AddrPort) (buf : List UInt8)
  | writer (w : Nat)
  | pass
  | stop
  | cleaner (visits : List AddrPort)
  | close
  | closer (visits : List AddrPort)
  | tick (now : Nat)

def Race.step (net : Network) (r : Race) : Race.Label → Option Race
  | .call addr buf => some { r with writers := r.writers ++ [⟨addr, buf, .started⟩] }
  | .writer w => do
      let writer ← r.writers[w]?
      let (b, stage) ← r.advance net w writer
      return { r with b, writers := r.writers.set w { writer with stage } }
  | .pass =>
      match r.cleaner with
      | .idle => some { r with cleaner := .sweeping r.b.clock newSweep }
      | _ => none
  | .stop =>
      match r.cleaner with
      | .idle => if r.b.closed then some { r with cleaner := .stopped } else none
      | _ => none
  | .cleaner visits => r.cleanerStep net visits
  | .close =>
      if r.b.closed then some r
      else some { r with b := { r.b with closed := true }, closer := some newSweep }
  | .closer visits => r.closerStep net visits
  | .tick now => some { r with b := { r.b with clock := now } }

/-- Every accepted packet is on the socket or in a batch that the maps reach. -/
def Kept (r : Race) : Prop :=
  ∀ (w : Nat) (writer : Writer), r.writers[w]? = some writer → writer.accepted = true →
    writer.packet w ∈ r.b.socket ∨ ∃ addr, writer.packet w ∈ r.b.buffered addr

/-- Batch in which the next step of a writer leaves its packet, with the peer. -/
def Race.leaves (r : Race) (w : Nat) : Option (AddrPort × Nat) :=
  (r.writers[w]?).bind fun writer =>
    match writer.stage with
    | .holding p =>
        if !nonRTP writer.buf && (r.b.batches[p]?).any fun pb => pb.buffers writer.buf then
          some (writer.addr, p)
        else none
    | _ => none

/-- Shard whose map the next step of `Close` replaces. -/
def Race.resets (r : Race) : Option (Fin numShards) :=
  r.closer.bind fun sweep => if sweep.pending = some [] then some sweep.shard else none

/-- A packet is left only in the batch that the maps have for its peer, and maps are
replaced only when the batches in them are empty. -/
def Safe (r : Race) : Race.Label → Prop
  | .writer w => ∀ left ∈ r.leaves w, r.b.lookup left.1 = some left.2
  | .closer _ => ∀ shard ∈ r.resets, ∀ addr ∈ (r.b.shards shard).keys, r.b.buffered addr = []
  | _ => True

instance (r : Race) : (label : Race.Label) → Decidable (Safe r label)
  | .writer w => inferInstanceAs (Decidable (∀ left ∈ r.leaves w, _ = _))
  | .closer _ => inferInstanceAs (Decidable (∀ shard ∈ r.resets, ∀ addr ∈ _, _ = _))
  | .call _ _ | .pass | .stop | .cleaner _ | .close | .tick _ => inferInstanceAs (Decidable True)

/-! ## Batches on the heap -/

/-- Packets on the socket or in any batch. -/
def Batcher.located (b : Batcher) : List Packet :=
  b.socket ++ b.batches.flatMap PeerBatch.pending

/-- The batch was made for the peer. -/
def Batcher.Owns (b : Batcher) (p : Nat) (addr : AddrPort) : Prop :=
  ∃ pb, b.batches[p]? = some pb ∧ pb.udpAddr = addr

/-- Batches that hold packets are the ones that the maps have for their peers. -/
def Batcher.Reachable (b : Batcher) : Prop :=
  ∀ (p : Nat) (pb : PeerBatch), b.batches[p]? = some pb → pb.pending ≠ [] →
    b.lookup pb.udpAddr = some p

/-- Peers are in their own shards. -/
def Placed (shards : Fin numShards → Shard) : Prop :=
  ∀ shard addr, addr ∈ (shards shard).keys → getShard addr = shard

theorem Placed.update
    {shards : Fin numShards → Shard}
    (placed : Placed shards)
    {shard : Fin numShards}
    {changed : Shard}
    (here : ∀ addr ∈ changed.keys, getShard addr = shard) :
    Placed (Function.update shards shard changed) := by
  intro other addr member
  by_cases own : other = shard
  · subst own
    rw [Function.update_self] at member
    exact here addr member
  · rw [Function.update_of_ne own] at member
    exact placed other addr member

/-- All batches have room, the maps have batches of their peers, and peers are in their
own shards. -/
structure Heap (b : Batcher) : Prop where
  connected : b.pc4 = true
  room : Each (fun _ pb => pb.count < maxBatchSize) b.batches
  registered : ∀ addr p, b.lookup addr = some p → b.Owns p addr
  placed : Placed b.shards

/-- An operation that brings packets into the batcher, and the condition under which
batches with packets stay reachable. -/
structure Moves (b next : Batcher) (packets : List Packet) (safe : Prop) : Prop where
  heap : Heap next
  owns : ∀ p addr, b.Owns p addr → next.Owns p addr
  located : next.located.Perm (b.located ++ packets)
  reachable : b.Reachable → (next.Reachable ↔ safe)

theorem Moves.trans
    {b middle next : Batcher}
    (first : Moves b middle [] True)
    (second : Moves middle next [] True) :
    Moves b next [] True where
  heap := second.heap
  owns := fun p addr owned => second.owns p addr (first.owns p addr owned)
  located := by
    have earlier := first.located
    rw [List.append_nil] at earlier
    exact second.located.trans (earlier.append_right [])
  reachable := fun before => second.reachable ((first.reachable before).mpr trivial)

/-- An operation that changes neither batches, maps nor socket. -/
theorem Heap.same
    {b next : Batcher}
    (heap : Heap b)
    (connected : next.pc4 = b.pc4)
    (batches : next.batches = b.batches)
    (shards : next.shards = b.shards)
    (socket : next.socket = b.socket) :
    Moves b next [] True := by
  have lookup : next.lookup = b.lookup := by
    funext addr
    rw [Batcher.lookup, shards, Batcher.lookup]
  have owns : next.Owns = b.Owns := by
    funext p addr
    rw [Batcher.Owns, batches, Batcher.Owns]
  refine ⟨⟨connected.trans heap.connected, ?_, ?_, ?_⟩, ?_, ?_, ?_⟩
  · rw [batches]
    exact heap.room
  · rw [lookup, owns]
    exact heap.registered
  · rw [shards]
    exact heap.placed
  · rw [owns]
    exact fun _ _ owned => owned
  · rw [Batcher.located, socket, batches, List.append_nil]
    exact List.Perm.refl _
  · intro before
    rw [Batcher.Reachable, batches, lookup, iff_true]
    exact before

theorem Heap.refl {b : Batcher} (heap : Heap b) : Moves b b [] True :=
  heap.same rfl rfl rfl rfl

/-- An operation under the lock of a batch, whether or not the maps have it. -/
theorem Heap.replace
    {b : Batcher}
    (heap : Heap b)
    {p : Nat}
    {pb changed : PeerBatch}
    {sent written : List Packet}
    (found : b.batches[p]? = some pb)
    (works : pb.Works changed sent written)
    (sysCalls : Nat) :
    Moves b (b.replace p changed sent sysCalls) written
      (changed.pending ≠ [] → b.lookup pb.udpAddr = some p) := by
  have inside := (List.getElem?_eq_some_iff.mp found).1
  have here : (b.batches.set p changed)[p]? = some changed := by simp [inside]
  have owns : ∀ q addr, b.Owns q addr → (b.replace p changed sent sysCalls).Owns q addr := by
    rintro q addr ⟨batch, there, owned⟩
    by_cases same : q = p
    · subst same
      obtain rfl := Option.some.inj (found.symm.trans there)
      exact ⟨changed, here, works.peer.trans owned⟩
    · exact ⟨batch, (List.getElem?_set_ne (Ne.symm same)).trans there, owned⟩
  refine ⟨⟨heap.connected, ?_, ?_, heap.placed⟩, owns, ?_, fun before => ⟨?_, ?_⟩⟩
  · exact heap.room.set works.room fun _ _ _ _ room => room
  · intro addr q registered
    exact owns q addr (heap.registered addr q registered)
  · obtain ⟨earlier, later, old, new⟩ := flatMap_set PeerBatch.pending found changed
    rw [List.perm_iff_count]
    intro packet
    have contents := congrArg (List.count packet) works.contents
    simp only [Batcher.located, Batcher.replace, old, new, List.count_append] at contents ⊢
    omega
  · intro after nonempty
    rw [← works.peer]
    exact after p changed here nonempty
  · intro safe q batch there nonempty
    rcases getElem?_set_cases there with ⟨rfl, rfl⟩ | ⟨_, old⟩
    · rw [works.peer]
      exact safe nonempty
    · exact before q batch old nonempty

/-- A flush keeps everything reachable. -/
theorem Heap.flush
    {net : Network}
    (accepting : net.Accepting)
    {b : Batcher}
    (heap : Heap b)
    {p : Nat}
    {pb : PeerBatch}
    (found : b.batches[p]? = some pb)
    (isIPv6 : Bool) :
    ∃ next, b.flushLocked net p isIPv6 = (next, false) ∧ Moves b next [] True ∧
      next.shards = b.shards ∧ next.batches[p]? = some pb.clear := by
  obtain ⟨sysCalls, flushed⟩ := b.flushLocked_eq accepting found heap.connected isIPv6
  have works := pb.works_clear []
  rw [List.append_nil] at works
  have moves := heap.replace found works sysCalls
  rw [PeerBatch.pending_clear] at moves
  have inside := (List.getElem?_eq_some_iff.mp found).1
  refine ⟨_, flushed, ⟨moves.heap, moves.owns, moves.located, fun before => ?_⟩, rfl, ?_⟩
  · simpa using moves.reachable before
  · simp [Batcher.replace, inside]

/-- A packet sent directly. -/
theorem Heap.send
    {net : Network}
    (accepting : net.Accepting)
    {b : Batcher}
    (heap : Heap b)
    (packet : Packet) :
    ∃ next, b.writeToUDPAddrPort net packet = (next, ⟨packet.data.length, none⟩) ∧
      Moves b next [packet] True := by
  rw [Batcher.writeToUDPAddrPort, if_pos (accepting.packets _)]
  refine ⟨_, rfl, ⟨heap.connected, heap.room, heap.registered, heap.placed⟩,
    fun _ _ owned => owned, ?_, fun before => iff_of_true before trivial⟩
  rw [List.perm_iff_count]
  intro other
  simp only [Batcher.located, List.count_append]
  omega

theorem Batcher.batch_of_create
    {b : Batcher}
    {addr : AddrPort}
    {p : Nat}
    {pb : PeerBatch}
    (found : (b.create addr).batches[p]? = some pb) :
    b.batches[p]? = some pb ∨ pb = newPeerBatch addr b.clock := by
  rw [Batcher.create, List.getElem?_append] at found
  split at found
  · exact .inl found
  · rw [List.getElem?_singleton] at found
    split at found
    · exact .inr (Option.some.inj found).symm
    · cases found

theorem Batcher.Owns.create
    {b : Batcher}
    {p : Nat}
    {other : AddrPort}
    (owned : b.Owns p other)
    (addr : AddrPort) :
    (b.create addr).Owns p other := by
  obtain ⟨pb, found, peer⟩ := owned
  have inside := (List.getElem?_eq_some_iff.mp found).1
  exact ⟨pb, (List.getElem?_append_left inside).trans found, peer⟩

/-- A new batch for a peer that has none. -/
theorem Heap.create
    {b : Batcher}
    (heap : Heap b)
    {addr : AddrPort}
    (missing : b.lookup addr = none) :
    Moves b (b.create addr) [] True ∧ (b.create addr).Owns b.batches.length addr := by
  have new : (b.create addr).Owns b.batches.length addr :=
    ⟨newPeerBatch addr b.clock, List.getElem?_concat_length, rfl⟩
  refine ⟨⟨⟨heap.connected, ?_, ?_, ?_⟩, fun p other owned => owned.create addr, ?_, ?_⟩, new⟩
  · intro p pb found
    rcases Batcher.batch_of_create found with there | rfl
    · exact heap.room p pb there
    · exact maxBatchSize_pos
  · intro other p registered
    rw [Batcher.lookup_create] at registered
    split at registered
    · rename_i same
      obtain rfl := Option.some.inj registered
      rw [same]
      exact new
    · exact (heap.registered other p registered).create addr
  · refine heap.placed.update fun other member => ?_
    rcases (AList.mem_insert _).mp (AList.mem_keys.mpr member) with rfl | known
    · rfl
    · exact heap.placed _ other (AList.mem_keys.mp known)
  · have same : (b.create addr).located = b.located := by
      simp [Batcher.located, Batcher.create, PeerBatch.pending, messages, newPeerBatch]
    rw [same, List.append_nil]
  · refine fun before => iff_of_true (fun p pb found nonempty => ?_) trivial
    rcases Batcher.batch_of_create found with there | rfl
    · have known := before p pb there nonempty
      rw [Batcher.lookup_create]
      split
      · rename_i same
        rw [same, missing] at known
        cases known
      · exact known
    · exact absurd rfl nonempty

/-- Taking a peer out of the maps whose batch is empty. -/
theorem Heap.unregister
    {b : Batcher}
    (heap : Heap b)
    {addr : AddrPort}
    (empty : b.buffered addr = []) :
    Moves b (b.unregister addr) [] True := by
  refine ⟨⟨heap.connected, heap.room, ?_, ?_⟩, fun _ _ owned => owned, ?_,
    fun before => iff_of_true ?_ trivial⟩
  · intro other p registered
    rw [Batcher.lookup_unregister] at registered
    split at registered
    · cases registered
    · exact heap.registered other p registered
  · refine heap.placed.update fun other member => ?_
    have known := (AList.mem_erase.mp (AList.mem_keys.mpr member)).2
    exact heap.placed _ other (AList.mem_keys.mp known)
  · rw [List.append_nil]
    exact List.Perm.refl _
  · intro p pb found nonempty
    have known := before p pb found nonempty
    rw [Batcher.lookup_unregister]
    split
    · rename_i same
      rw [same] at known
      exact absurd ((Batcher.buffered_of_lookup known found).symm.trans empty) nonempty
    · exact known

theorem Batcher.lookup_reset (b : Batcher) (shard : Fin numShards) (addr : AddrPort) :
    (b.reset shard).lookup addr = if getShard addr = shard then none else b.lookup addr := by
  unfold Batcher.lookup Batcher.reset
  by_cases own : getShard addr = shard
  · simp [own]
  · simp [own]

/-- A new map for a shard cuts off the batches that are not empty. -/
theorem Heap.reset
    {b : Batcher}
    (heap : Heap b)
    (shard : Fin numShards) :
    Moves b (b.reset shard) []
      (∀ addr ∈ (b.shards shard).keys, b.buffered addr = []) := by
  refine ⟨⟨heap.connected, heap.room, ?_, ?_⟩, fun _ _ owned => owned, ?_, fun before => ⟨?_, ?_⟩⟩
  · intro addr p registered
    rw [Batcher.lookup_reset] at registered
    split at registered
    · cases registered
    · exact heap.registered addr p registered
  · exact heap.placed.update fun addr member => by simp at member
  · rw [List.append_nil]
    exact List.Perm.refl _
  · intro after addr member
    have here := heap.placed shard addr member
    have known : (b.lookup addr).isSome = true := by
      rw [Batcher.lookup, here]
      exact AList.lookup_isSome.mpr (AList.mem_keys.mpr member)
    obtain ⟨p, found⟩ := Option.isSome_iff_exists.mp known
    obtain ⟨pb, batch, peer⟩ := heap.registered addr p found
    rw [Batcher.buffered_of_lookup found batch]
    by_contra nonempty
    have reached := after p pb batch nonempty
    rw [peer, Batcher.lookup_reset, if_pos here] at reached
    cases reached
  · intro empty p pb found nonempty
    have known := before p pb found nonempty
    rw [Batcher.lookup_reset]
    split
    · rename_i here
      have member : pb.udpAddr ∈ (b.shards shard).keys := by
        rw [Batcher.lookup, here] at known
        exact AList.mem_keys.mp (AList.lookup_isSome.mp (by simp [known]))
      exact absurd ((Batcher.buffered_of_lookup known found).symm.trans
        (empty pb.udpAddr member)) nonempty
    · exact known

theorem Heap.prune
    {net : Network}
    (accepting : net.Accepting)
    {b : Batcher}
    (heap : Heap b)
    (now : Nat)
    (addr : AddrPort) :
    Moves b (b.prune net now addr) [] True := by
  unfold Batcher.prune
  cases found : b.lookup addr with
  | none => exact heap.refl
  | some p =>
      obtain ⟨pb, batch, _⟩ := heap.registered addr p found
      obtain ⟨next, flushed, moves, shards, cleared⟩ := heap.flush accepting batch addr.is6
      simp only [flushed, cleared]
      split
      · have known : next.lookup addr = some p := by
          rw [Batcher.lookup, shards]
          exact found
        exact moves.trans (moves.heap.unregister (Batcher.buffered_of_lookup known cleared))
      · exact moves

theorem Heap.drain
    {net : Network}
    (accepting : net.Accepting)
    {b : Batcher}
    (heap : Heap b)
    (addr : AddrPort) :
    Moves b (b.drain net addr) [] True := by
  unfold Batcher.drain
  cases found : b.lookup addr with
  | none => exact heap.refl
  | some p =>
      obtain ⟨pb, batch, _⟩ := heap.registered addr p found
      obtain ⟨next, flushed, moves, _⟩ := heap.flush accepting batch addr.is6
      simp only [flushed]
      exact moves

/-! ## Accepted packets -/

/-- The packets of accepted calls, and no others, are on the socket or in a batch, once
each. -/
structure Ledger (writers : List Writer) (located : List Packet) : Prop where
  nodup : (located.map Packet.call).Nodup
  mem_iff : ∀ packet, packet ∈ located ↔
    ∃ writer, writers[packet.call]? = some writer ∧ writer.accepted = true ∧
      packet = writer.packet packet.call

/-- What a call has brought in. -/
def Writer.brought (writer : Writer) (w : Nat) : List Packet :=
  if writer.accepted then [writer.packet w] else []

theorem Ledger.perm
    {writers : List Writer}
    {located moved : List Packet}
    (ledger : Ledger writers located)
    (perm : moved.Perm located) :
    Ledger writers moved where
  nodup := (perm.map Packet.call).nodup_iff.mpr ledger.nodup
  mem_iff := fun packet => perm.mem_iff.trans (ledger.mem_iff packet)

theorem Ledger.call
    {writers : List Writer}
    {located : List Packet}
    (ledger : Ledger writers located)
    (addr : AddrPort)
    (buf : List UInt8) :
    Ledger (writers ++ [⟨addr, buf, .started⟩]) located where
  nodup := ledger.nodup
  mem_iff := by
    intro packet
    rw [ledger.mem_iff packet]
    constructor
    · rintro ⟨writer, found, accepted⟩
      have inside := (List.getElem?_eq_some_iff.mp found).1
      exact ⟨writer, (List.getElem?_append_left inside).trans found, accepted⟩
    · rintro ⟨writer, found, accepted, same⟩
      rw [List.getElem?_append] at found
      split at found
      · exact ⟨writer, found, accepted, same⟩
      · rw [List.getElem?_singleton] at found
        split at found
        · obtain rfl := Option.some.inj found
          cases accepted
        · cases found

/-- A step of a call that has not returned. -/
theorem Ledger.advance
    {writers : List Writer}
    {located : List Packet}
    (ledger : Ledger writers located)
    {w : Nat}
    {writer changed : Writer}
    (found : writers[w]? = some writer)
    (fresh : writer.accepted = false) :
    Ledger (writers.set w changed) (located ++ changed.brought w) := by
  have inside := (List.getElem?_eq_some_iff.mp found).1
  have absent : ∀ packet ∈ located, packet.call ≠ w := by
    rintro packet member rfl
    obtain ⟨own, there, accepted, _⟩ := (ledger.mem_iff packet).mp member
    obtain rfl := Option.some.inj (found.symm.trans there)
    simp [fresh] at accepted
  have calls : ∀ packet ∈ changed.brought w, packet.call = w := by
    intro packet member
    unfold Writer.brought at member
    split at member
    · obtain rfl := List.mem_singleton.mp member
      rfl
    · cases member
  constructor
  · rw [List.map_append, List.nodup_append]
    refine ⟨ledger.nodup, ?_, ?_⟩
    · unfold Writer.brought
      split <;> simp
    · intro call old other new
      obtain ⟨packet, member, rfl⟩ := List.mem_map.mp old
      obtain ⟨brought, own, rfl⟩ := List.mem_map.mp new
      rw [calls brought own]
      exact absent packet member
  · intro packet
    rw [List.mem_append]
    by_cases own : packet.call = w
    · have new : packet ∈ changed.brought w ↔
          changed.accepted = true ∧ packet = changed.packet w := by
        unfold Writer.brought
        split <;> simp_all
      rw [or_iff_right fun member => absent packet member own, new, own]
      simp [inside]
    · rw [or_iff_left fun member => own (calls packet member), ledger.mem_iff packet,
        List.getElem?_set_ne (Ne.symm own)]

/-- With the ledger in order, accepted packets are kept exactly if every batch that holds
packets is reachable. -/
theorem kept_iff_reachable
    {r : Race}
    (heap : Heap r.b)
    (ledger : Ledger r.writers r.b.located) :
    Kept r ↔ r.b.Reachable := by
  have nodup : r.b.located.Nodup := ledger.nodup.of_map
  obtain ⟨_, batches, apart⟩ := List.nodup_append.mp nodup
  constructor
  · intro kept p pb found nonempty
    obtain ⟨packet, pending⟩ := List.exists_mem_of_ne_nil _ nonempty
    have inBatches : packet ∈ r.b.batches.flatMap PeerBatch.pending :=
      List.mem_flatMap.mpr ⟨pb, List.mem_of_getElem? found, pending⟩
    obtain ⟨writer, there, accepted, same⟩ :=
      (ledger.mem_iff packet).mp (List.mem_append_right _ inBatches)
    rcases kept packet.call writer there accepted with sent | ⟨addr, buffered⟩
    · rw [← same] at sent
      exact absurd rfl (apart packet sent packet inBatches)
    · rw [← same] at buffered
      cases known : r.b.lookup addr with
      | none => simp [Batcher.buffered, known] at buffered
      | some q =>
          obtain ⟨other, batch, peer⟩ := heap.registered addr q known
          rw [Batcher.buffered_of_lookup known batch] at buffered
          obtain rfl := eq_of_nodup_flatMap batches found batch pending buffered
          obtain rfl := Option.some.inj (found.symm.trans batch)
          rw [peer]
          exact known
  · intro reachable w writer found accepted
    have located : writer.packet w ∈ r.b.located :=
      (ledger.mem_iff (writer.packet w)).mpr ⟨writer, found, accepted, rfl⟩
    rcases List.mem_append.mp located with sent | inBatches
    · exact .inl sent
    · obtain ⟨pb, member, pending⟩ := List.mem_flatMap.mp inBatches
      obtain ⟨p, batch⟩ := List.mem_iff_getElem?.mp member
      have known := reachable p pb batch (List.ne_nil_of_mem pending)
      exact .inr ⟨pb.udpAddr, by rwa [Batcher.buffered_of_lookup known batch]⟩

/-! ## Steps -/

/-- What holds of a call between its steps. -/
def Writer.Held (b : Batcher) (writer : Writer) : Prop :=
  match writer.stage with
  | .started | .returned _ => True
  | .looking | .creating | .sending => writer.buf ≠ []
  | .holding p => writer.buf ≠ [] ∧ b.Owns p writer.addr

theorem Writer.Held.mono
    {b next : Batcher}
    {writer : Writer}
    (held : writer.Held b)
    (owns : ∀ p addr, b.Owns p addr → next.Owns p addr) :
    writer.Held next := by
  unfold Writer.Held at held ⊢
  split <;> simp_all

theorem Moves.congr
    {b next : Batcher}
    {packets : List Packet}
    {safe condition : Prop}
    (moves : Moves b next packets safe)
    (same : safe ↔ condition) :
    Moves b next packets condition where
  heap := moves.heap
  owns := moves.owns
  located := moves.located
  reachable := fun before => (moves.reachable before).trans same

/-- A writer that does not leave its packet in a batch takes a safe step. -/
theorem safe_of_leaves
    {r : Race}
    {w : Nat}
    (none : r.leaves w = none) :
    True ↔ Safe r (.writer w) := by
  simp [Safe, none]

/-- What a step of a writer does. -/
structure Advances
    (r : Race)
    (w : Nat)
    (writer : Writer)
    (next : Batcher)
    (stage : Stage) : Prop where
  fresh : writer.accepted = false
  held : Writer.Held next { writer with stage }
  moves : Moves r.b next (Writer.brought { writer with stage } w) (Safe r (.writer w))

/-- A call that returns its length has brought its packet. -/
theorem brought_returned
    (addr : AddrPort)
    {buf : List UInt8}
    (nonempty : buf ≠ [])
    (w : Nat) :
    Writer.brought ⟨addr, buf, .returned ⟨buf.length, none⟩⟩ w = [⟨w, addr, buf⟩] := by
  simp [Writer.brought, Writer.accepted, Writer.packet, nonempty]

section Stages

variable {net : Network} {r : Race} {w : Nat} {addr : AddrPort} {buf : List UInt8}
variable {next : Batcher} {stage : Stage}

theorem advances_started
    (heap : Heap r.b)
    (found : r.writers[w]? = some ⟨addr, buf, .started⟩)
    (taken : r.advance net w ⟨addr, buf, .started⟩ = some (next, stage)) :
    Advances r w ⟨addr, buf, .started⟩ next stage := by
  have safe := safe_of_leaves (r := r) (w := w) (by simp [Race.leaves, found])
  simp only [Race.advance] at taken
  split at taken
  · obtain ⟨rfl, rfl⟩ := Prod.mk.inj (Option.some.inj taken)
    exact ⟨rfl, trivial, heap.refl.congr safe⟩
  · split at taken
    · rename_i empty
      obtain ⟨rfl, rfl⟩ := Prod.mk.inj (Option.some.inj taken)
      obtain rfl : buf = [] := by simpa using empty
      exact ⟨rfl, trivial, heap.refl.congr safe⟩
    · rename_i nonempty
      obtain ⟨rfl, rfl⟩ := Prod.mk.inj (Option.some.inj taken)
      exact ⟨rfl, by simpa [Writer.Held] using nonempty, heap.refl.congr safe⟩

theorem advances_looking
    (heap : Heap r.b)
    (found : r.writers[w]? = some ⟨addr, buf, .looking⟩)
    (nonempty : buf ≠ [])
    (taken : r.advance net w ⟨addr, buf, .looking⟩ = some (next, stage)) :
    Advances r w ⟨addr, buf, .looking⟩ next stage := by
  have safe := safe_of_leaves (r := r) (w := w) (by simp [Race.leaves, found])
  simp only [Race.advance] at taken
  split at taken
  · cases taken
  · cases known : r.b.lookup addr with
    | some p =>
        simp only [known] at taken
        obtain ⟨rfl, rfl⟩ := Prod.mk.inj (Option.some.inj taken)
        exact ⟨rfl, ⟨nonempty, heap.registered addr p known⟩, heap.refl.congr safe⟩
    | none =>
        simp only [known] at taken
        obtain ⟨rfl, rfl⟩ := Prod.mk.inj (Option.some.inj taken)
        exact ⟨rfl, nonempty, heap.refl.congr safe⟩

theorem advances_creating
    (heap : Heap r.b)
    (found : r.writers[w]? = some ⟨addr, buf, .creating⟩)
    (nonempty : buf ≠ [])
    (taken : r.advance net w ⟨addr, buf, .creating⟩ = some (next, stage)) :
    Advances r w ⟨addr, buf, .creating⟩ next stage := by
  have safe := safe_of_leaves (r := r) (w := w) (by simp [Race.leaves, found])
  simp only [Race.advance] at taken
  split at taken
  · cases taken
  · cases known : r.b.lookup addr with
    | some p =>
        simp only [Batcher.getOrCreatePeerBatch, known] at taken
        obtain ⟨rfl, rfl⟩ := Prod.mk.inj (Option.some.inj taken)
        exact ⟨rfl, ⟨nonempty, heap.registered addr p known⟩, heap.refl.congr safe⟩
    | none =>
        simp only [Batcher.getOrCreatePeerBatch, known] at taken
        obtain ⟨rfl, rfl⟩ := Prod.mk.inj (Option.some.inj taken)
        obtain ⟨moves, new⟩ := heap.create known
        exact ⟨rfl, ⟨nonempty, new⟩, moves.congr safe⟩

/-- The only step that can leave a packet in a batch outside the maps. -/
theorem advances_holding
    (accepting : net.Accepting)
    (heap : Heap r.b)
    {p : Nat}
    (found : r.writers[w]? = some ⟨addr, buf, .holding p⟩)
    (nonempty : buf ≠ [])
    (owned : r.b.Owns p addr)
    (taken : r.advance net w ⟨addr, buf, .holding p⟩ = some (next, stage)) :
    Advances r w ⟨addr, buf, .holding p⟩ next stage := by
  obtain ⟨pb, batch, peer⟩ := owned
  simp only [Race.advance] at taken
  split at taken
  · rename_i direct
    have safe := safe_of_leaves (r := r) (w := w) (by simp [Race.leaves, found, direct])
    obtain ⟨flushed, result, moves, _⟩ := heap.flush accepting batch addr.is6
    rw [result] at taken
    obtain ⟨rfl, rfl⟩ := Prod.mk.inj (Option.some.inj taken)
    exact ⟨rfl, nonempty, moves.congr safe⟩
  · rename_i rtp
    obtain ⟨changed, sent, sysCalls, written, works, stays⟩ :=
      r.b.writeRTP_eq accepting batch heap.connected ⟨w, addr, buf⟩ peer (heap.room p pb batch)
    simp only [Writer.packet, written, Option.map_some, Option.some.injEq,
      Prod.mk.injEq] at taken
    obtain ⟨rfl, rfl⟩ := taken
    have moves := heap.replace batch works sysCalls
    rw [← brought_returned addr nonempty w] at moves
    refine ⟨rfl, trivial, moves.congr ?_⟩
    cases buffers : pb.buffers buf <;>
      simp_all [Safe, Race.leaves]

theorem advances_sending
    (accepting : net.Accepting)
    (heap : Heap r.b)
    (found : r.writers[w]? = some ⟨addr, buf, .sending⟩)
    (nonempty : buf ≠ [])
    (taken : r.advance net w ⟨addr, buf, .sending⟩ = some (next, stage)) :
    Advances r w ⟨addr, buf, .sending⟩ next stage := by
  have safe := safe_of_leaves (r := r) (w := w) (by simp [Race.leaves, found])
  obtain ⟨sent, result, moves⟩ := heap.send accepting ⟨w, addr, buf⟩
  simp only [Race.advance, Writer.packet, result] at taken
  obtain ⟨rfl, rfl⟩ := Prod.mk.inj (Option.some.inj taken)
  rw [← brought_returned addr nonempty w] at moves
  exact ⟨rfl, trivial, moves.congr safe⟩

theorem advances_of_advance
    (accepting : net.Accepting)
    (heap : Heap r.b)
    {writer : Writer}
    (found : r.writers[w]? = some writer)
    (held : writer.Held r.b)
    (taken : r.advance net w writer = some (next, stage)) :
    Advances r w writer next stage := by
  obtain ⟨addr, buf, current⟩ := writer
  cases current with
  | started => exact advances_started heap found taken
  | looking => exact advances_looking heap found held taken
  | creating => exact advances_creating heap found held taken
  | holding p => exact advances_holding accepting heap found held.1 held.2 taken
  | sending => exact advances_sending accepting heap found held taken
  | returned result => cases taken

end Stages

theorem moves_of_cleanerStep
    {net : Network}
    (accepting : net.Accepting)
    {r next : Race}
    (heap : Heap r.b)
    {visits : List AddrPort}
    (taken : r.cleanerStep net visits = some next) :
    next.writers = r.writers ∧ Moves r.b next.b [] True := by
  unfold Race.cleanerStep at taken
  split at taken
  · split at taken
    · obtain ⟨sweep, _, rfl⟩ := Option.map_eq_some_iff.mp taken
      exact ⟨rfl, heap.refl⟩
    · rename_i addr rest _
      obtain rfl := Option.some.inj taken
      exact ⟨rfl, heap.prune accepting _ addr⟩
    · obtain rfl := Option.some.inj taken
      exact ⟨rfl, heap.refl⟩
  · cases taken

theorem moves_of_closerStep
    {net : Network}
    (accepting : net.Accepting)
    {r next : Race}
    (heap : Heap r.b)
    {visits : List AddrPort}
    (taken : r.closerStep net visits = some next) :
    next.writers = r.writers ∧ Moves r.b next.b [] (Safe r (.closer visits)) := by
  unfold Race.closerStep at taken
  split at taken
  · rename_i sweep closing
    split at taken
    · rename_i waiting
      have safe : True ↔ Safe r (.closer visits) := by simp [Safe, Race.resets, closing, waiting]
      obtain ⟨locked, _, rfl⟩ := Option.map_eq_some_iff.mp taken
      exact ⟨rfl, heap.refl.congr safe⟩
    · rename_i addr rest visiting
      have safe : True ↔ Safe r (.closer visits) := by
        simp [Safe, Race.resets, closing, visiting]
      obtain rfl := Option.some.inj taken
      exact ⟨rfl, (heap.drain accepting addr).congr safe⟩
    · rename_i finished
      obtain rfl := Option.some.inj taken
      refine ⟨rfl, (heap.reset sweep.shard).congr ?_⟩
      simp [Safe, Race.resets, closing, finished]
  · cases taken

/-- What holds between the steps of the goroutines. -/
structure Race.Orderly (r : Race) : Prop where
  heap : Heap r.b
  held : Each (fun _ writer => writer.Held r.b) r.writers
  ledger : Ledger r.writers r.b.located

/-- A step of a goroutine other than a writer. -/
theorem Race.Orderly.others
    {r next : Race}
    (orderly : r.Orderly)
    {safe : Prop}
    (step : next.writers = r.writers ∧ Moves r.b next.b [] safe) :
    next.Orderly ∧ (r.b.Reachable → (next.b.Reachable ↔ safe)) := by
  obtain ⟨writers, moves⟩ := step
  refine ⟨⟨moves.heap, ?_, ?_⟩, moves.reachable⟩
  · rw [writers]
    exact fun w writer found => (orderly.held w writer found).mono moves.owns
  · rw [writers]
    have located := moves.located
    rw [List.append_nil] at located
    exact orderly.ledger.perm located

theorem Race.Orderly.step
    {net : Network}
    (accepting : net.Accepting)
    {r next : Race}
    {label : Race.Label}
    (orderly : r.Orderly)
    (taken : r.step net label = some next) :
    next.Orderly ∧ (r.b.Reachable → (next.b.Reachable ↔ Safe r label)) := by
  have unchanged : Moves r.b r.b [] True := orderly.heap.refl
  cases label with
  | call addr buf =>
      obtain rfl := Option.some.inj taken
      refine ⟨⟨orderly.heap, ?_, orderly.ledger.call addr buf⟩, unchanged.reachable⟩
      intro w writer found
      rw [List.getElem?_append] at found
      split at found
      · exact orderly.held w writer found
      · rw [List.getElem?_singleton] at found
        split at found
        · obtain rfl := Option.some.inj found
          trivial
        · cases found
  | writer w =>
      simp only [Race.step, Option.bind_eq_bind, Option.bind_eq_some_iff, Prod.exists] at taken
      obtain ⟨writer, found, b, stage, advanced, result⟩ := taken
      obtain rfl := Option.some.inj result
      obtain ⟨fresh, held, moves⟩ :=
        advances_of_advance accepting orderly.heap found (orderly.held w writer found) advanced
      refine ⟨⟨moves.heap, ?_, ?_⟩, moves.reachable⟩
      · exact orderly.held.set held fun _ _ _ _ other => other.mono moves.owns
      · exact (orderly.ledger.advance found fresh).perm moves.located
  | pass =>
      simp only [Race.step] at taken
      split at taken
      · obtain rfl := Option.some.inj taken
        exact orderly.others ⟨rfl, unchanged⟩
      · cases taken
  | stop =>
      simp only [Race.step] at taken
      split at taken
      · obtain ⟨_, result⟩ := Option.ite_none_right_eq_some.mp taken
        obtain rfl := Option.some.inj result
        exact orderly.others ⟨rfl, unchanged⟩
      · cases taken
  | cleaner visits => exact orderly.others (moves_of_cleanerStep accepting orderly.heap taken)
  | close =>
      simp only [Race.step] at taken
      split at taken
      · obtain rfl := Option.some.inj taken
        exact orderly.others ⟨rfl, unchanged⟩
      · obtain rfl := Option.some.inj taken
        exact orderly.others ⟨rfl, orderly.heap.same rfl rfl rfl rfl⟩
  | closer visits => exact orderly.others (moves_of_closerStep accepting orderly.heap taken)
  | tick now =>
      obtain rfl := Option.some.inj taken
      exact orderly.others ⟨rfl, orderly.heap.same rfl rfl rfl rfl⟩

theorem orderly_newRace : newRace.Orderly where
  heap :=
    ⟨rfl, fun p pb found => by simp [newRace, newPlatformBatcher] at found,
      fun addr p found => by simp [newRace, newPlatformBatcher, Batcher.lookup] at found,
      fun shard addr member => by simp [newRace, newPlatformBatcher] at member⟩
  held := fun w writer found => by simp [newRace] at found
  ledger :=
    ⟨List.nodup_nil, fun packet => by
      simp [newRace, newPlatformBatcher, Batcher.located]⟩

/-- Accepted packets are on the socket or in a reachable batch all along a run exactly
if no writer leaves its packet in a batch that the maps no longer have and `Close`
replaces no map with packets in its batches. -/
theorem accepted_packets_kept_iff
    (net : Network)
    (accepting : net.Accepting)
    (labels : List Race.Label)
    (finish : Race)
    (reached : run (Race.step net) newRace labels = some finish) :
    Always (Race.step net) Kept newRace labels ↔ Meets (Race.step net) Safe newRace labels := by
  have exactStep : ∀ r label next, Race.Orderly r → Kept r → r.step net label = some next →
      (Kept next ↔ Safe r label) := by
    intro r label next orderly kept taken
    obtain ⟨after, reachable⟩ := orderly.step accepting taken
    rw [kept_iff_reachable after.heap after.ledger]
    exact reachable ((kept_iff_reachable orderly.heap orderly.ledger).mp kept)
  exact always_iff_meets (fun _ _ _ orderly taken => (orderly.step accepting taken).1) exactStep
    orderly_newRace (fun w writer found => by simp [newRace] at found) reached

/-- Two packets for a peer, the second one after 31 seconds, just before a cleanup pass
that starts when its writer already has the batch; then `Close` of the first shard. -/
def resumed : List Race.Label :=
  [.call (localPeer 4992) (videoPacket false), .writer 0, .writer 0, .writer 0, .writer 0,
    .tick 31000000000, .call (localPeer 4992) (videoPacket false), .writer 1, .writer 1, .pass,
    .writer 1, .cleaner [localPeer 4992], .cleaner [], .cleaner [], .close,
    .closer [localPeer 4992], .closer [], .closer []]

theorem accepted_packets_kept_iff_resumed :
    ∃ finish, run (Race.step oneByOne) newRace resumed = some finish ∧
      finish.b.socket.map Packet.call = [0, 1] ∧
      Always (Race.step oneByOne) Kept newRace resumed := by
  have ends : (run (Race.step oneByOne) newRace resumed).map
      (fun r => r.b.socket.map Packet.call) = some [0, 1] := by
    decide +kernel
  have meets : Meets (Race.step oneByOne) Safe newRace resumed := by
    decide +kernel
  obtain ⟨finish, reached, socket⟩ := Option.map_eq_some_iff.mp ends
  exact ⟨finish, reached, socket,
    (accepted_packets_kept_iff oneByOne oneByOne_accepting resumed finish reached).mpr meets⟩

/-- The second writer has the batch when the cleanup pass takes the idle peer out of its
shard, and then leaves its packet in that batch. -/
def stranded : List Race.Label :=
  [.call (localPeer 4992) (videoPacket false), .writer 0, .writer 0, .writer 0, .writer 0,
    .tick 31000000000, .call (localPeer 4992) (videoPacket false), .writer 1, .writer 1, .pass,
    .cleaner [localPeer 4992], .cleaner [], .writer 1]

theorem stranded_not_kept :
    ∃ finish, run (Race.step oneByOne) newRace stranded = some finish ∧
      (finish.writers[1]?).map Writer.stage = some (.returned ⟨13, none⟩) ∧ ¬ Kept finish := by
  have ends : (run (Race.step oneByOne) newRace stranded).map
      (fun r => (r.writers[1]?, r.b.socket.map Packet.call, r.b.peers)) =
      some (some ⟨localPeer 4992, videoPacket false, .returned ⟨13, none⟩⟩, [0], []) := by
    decide +kernel
  obtain ⟨finish, reached, facts⟩ := Option.map_eq_some_iff.mp ends
  obtain ⟨writer, rest⟩ := Prod.mk.inj facts
  obtain ⟨socket, peers⟩ := Prod.mk.inj rest
  refine ⟨finish, reached, by rw [writer]; rfl, fun kept => ?_⟩
  rcases kept 1 _ writer rfl with sent | ⟨addr, buffered⟩
  · have call := List.mem_map_of_mem (f := Packet.call) sent
    rw [socket] at call
    simp [Writer.packet] at call
  · cases known : finish.b.lookup addr with
    | none => simp [Batcher.buffered, known] at buffered
    | some p =>
        have member := mem_peers_of_lookup known
        rw [peers] at member
        cases member

end Webrtc
end RuseonCore
