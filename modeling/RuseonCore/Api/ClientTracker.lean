import RuseonCore.Foundation.Heartbeats
import RuseonCore.Foundation.Table

/-!
# Active clients

Model of `ClientTracker` in `internal/api/handler.go`.  The viewers of the streams are
kept in shards, chosen by a hash of the address and the stream; each shard maps an
address to the times at which its streams were last requested.  Requests mark a
viewer, at most every five seconds, and the statistics page sweeps the shards.

Times are nanoseconds of the monotonic clock.  Calls follow each other; the order in
which Go visits the entries of a map is not determined, so a sweep returns its clients
in any order.
-/

namespace RuseonCore
namespace Api

open Heartbeats Transition

/-- A viewer of a stream. -/
structure ClientInfo where
  ip : String
  streamID : String
  deriving DecidableEq

def clientTrackerShards : Nat := 32

/-- Times at which the streams were last requested. -/
abbrev Streams := Store Int

/-- The viewers in a shard. -/
abbrev Clients := Store Streams

/-- `5*time.Second`. -/
def rateLimit : Int := 5 * 1000000000

/-- Hash of the bytes of a string, continued. -/
def hashBytes (h : UInt32) (s : String) : UInt32 :=
  s.toUTF8.data.toList.foldl (fun h byte => (h ^^^ byte.toUInt32) * 16777619) h

/-- Shard of a client. -/
def getShard (client : ClientInfo) : Fin clientTrackerShards :=
  let h := hashBytes (hashBytes 2166136261 client.ip) client.streamID
  ⟨h.toNat % clientTrackerShards, Nat.mod_lt _ (by decide)⟩

/-! ## One shard -/

section Shard

/-- Time at which a client was last recorded in a shard. -/
def lastSeen (clients : Clients) (client : ClientInfo) : Option Int :=
  clients[client.ip]?.bind fun streams => streams[client.streamID]?

/-- Record a client. -/
def record (clients : Clients) (client : ClientInfo) (now : Int) : Clients :=
  let streams := clients[client.ip]?.getD ∅
  clients.insert client.ip (streams.insert client.streamID now)

/-- Clients of a shard within the timeout. -/
def activeIn (timeout now : Int) (clients : Clients) : List ClientInfo :=
  clients.toList.flatMap fun (ip, streams) =>
    (streams.toList.filter fun (_, seen) => now - seen ≤ timeout).map fun (streamID, _) =>
      ⟨ip, streamID⟩

/-- Delete the streams beyond the timeout, and the addresses without streams. -/
def expire (timeout now : Int) (clients : Clients) : Clients :=
  clients.filterMap fun _ streams =>
    let streams := streams.filter fun _ seen => now - seen ≤ timeout
    if streams.isEmpty then none else some streams

variable {timeout now : Int} {clients : Clients}

theorem lastSeen_record (client other : ClientInfo) :
    lastSeen (record clients client now) other =
      if other = client then some now else lastSeen clients other := by
  obtain ⟨ip, streamID⟩ := client
  obtain ⟨otherIP, otherID⟩ := other
  simp only [lastSeen, record, Std.ExtTreeMap.getElem?_insert, Std.compare_eq_iff_eq,
    ClientInfo.mk.injEq]
  by_cases sameIP : ip = otherIP
  · subst sameIP
    rw [if_pos rfl, Option.bind_some, Std.ExtTreeMap.getElem?_insert]
    by_cases sameID : streamID = otherID
    · subst sameID
      simp
    · cases clients[ip]? <;> simp [sameID, Ne.symm sameID]
  · simp [sameIP, Ne.symm sameIP]

theorem lastSeen_expire (client : ClientInfo) :
    lastSeen (expire timeout now clients) client =
      (lastSeen clients client).filter fun seen => now - seen ≤ timeout := by
  rw [lastSeen, expire, Std.ExtTreeMap.getElem?_filterMap', lastSeen]
  cases clients[client.ip]? with
  | none => rfl
  | some streams =>
      have kept : (streams.filter fun _ seen => now - seen ≤ timeout)[client.streamID]? =
          streams[client.streamID]?.filter fun seen => now - seen ≤ timeout :=
        Std.ExtTreeMap.getElem?_filter'
      rw [Option.bind_some, Option.bind_some, ← kept]
      dsimp only
      split
      · rename_i empty
        rw [Std.ExtTreeMap.isEmpty_iff.mp empty]
        simp
      · rfl

theorem mem_activeIn {client : ClientInfo} :
    client ∈ activeIn timeout now clients ↔
      ∃ seen, lastSeen clients client = some seen ∧ now - seen ≤ timeout := by
  obtain ⟨ip, streamID⟩ := client
  simp only [activeIn, List.mem_flatMap, List.mem_map, List.mem_filter, Prod.exists,
    decide_eq_true_eq, ClientInfo.mk.injEq, lastSeen, Option.bind_eq_some_iff,
    Std.ExtTreeMap.mem_toList_iff_getElem?_eq_some]
  constructor
  · rintro ⟨_, streams, found, _, seen, ⟨recorded, inTime⟩, rfl, rfl⟩
    exact ⟨seen, ⟨streams, found, recorded⟩, inTime⟩
  · rintro ⟨seen, ⟨streams, found, recorded⟩, inTime⟩
    exact ⟨ip, streams, found, streamID, seen, ⟨recorded, inTime⟩, rfl, rfl⟩

theorem nodup_activeIn (clients : Clients) : (activeIn timeout now clients).Nodup := by
  rw [activeIn, List.nodup_flatMap]
  constructor
  · rintro ⟨ip, streams⟩ -
    rw [List.Nodup, List.pairwise_map]
    apply (streams.toList_keys_ne.filter _).imp
    intro first second different same
    exact different (ClientInfo.mk.inj same).2
  · apply clients.toList_keys_ne.imp
    rintro ⟨ip, streams⟩ ⟨otherIP, otherStreams⟩ different client inFirst inSecond
    simp only [List.mem_map] at inFirst inSecond
    obtain ⟨_, -, rfl⟩ := inFirst
    obtain ⟨_, -, same⟩ := inSecond
    exact different (ClientInfo.mk.inj same).1.symm

end Shard

/-! ## The tracker -/

/-- The shards; a client is recorded in its own shard only. -/
structure ClientTracker where
  shards : Fin clientTrackerShards → Clients
  placed : ∀ i client seen, lastSeen (shards i) client = some seen → getShard client = i

def newClientTracker : ClientTracker where
  shards := fun _ => ∅
  placed := by simp [lastSeen]

namespace ClientTracker

/-- Write the time of a client into its shard. -/
def write (tracker : ClientTracker) (client : ClientInfo) (now : Int) : ClientTracker where
  shards := Function.update tracker.shards (getShard client)
    (record (tracker.shards (getShard client)) client now)
  placed := by
    intro i other seen found
    by_cases own : i = getShard client
    · subst own
      rw [Function.update_self, lastSeen_record] at found
      split at found
      · rename_i same
        rw [same]
      · exact tracker.placed _ other seen found
    · rw [Function.update_of_ne own] at found
      exact tracker.placed i other seen found

/-- Record the activity of a client, unless the recorded one is recent. -/
def mark (tracker : ClientTracker) (client : ClientInfo) (now : Int) : ClientTracker :=
  match lastSeen (tracker.shards (getShard client)) client with
  | some seen => if now - seen < rateLimit then tracker else tracker.write client now
  | none => tracker.write client now

/-- Clients within the timeout, and the tracker without the others. -/
def getActiveClients (tracker : ClientTracker) (timeout now : Int) :
    List ClientInfo × ClientTracker :=
  ((List.finRange clientTrackerShards).flatMap fun i => activeIn timeout now (tracker.shards i),
    { shards := fun i => expire timeout now (tracker.shards i)
      placed := by
        intro i client seen found
        rw [lastSeen_expire, Option.filter_eq_some_iff] at found
        exact tracker.placed i client seen found.1 })

/-- Time at which each client was last recorded. -/
def board (tracker : ClientTracker) : Board ClientInfo :=
  fun client => lastSeen (tracker.shards (getShard client)) client

variable (tracker : ClientTracker)

theorem board_write (client : ClientInfo) (now : Int) :
    (tracker.write client now).board = Function.update tracker.board client (some now) := by
  funext other
  change lastSeen (Function.update tracker.shards (getShard client) _ (getShard other)) other = _
  by_cases same : other = client
  · subst same
    rw [Function.update_self, Function.update_self, lastSeen_record, if_pos rfl]
  · rw [Function.update_of_ne same]
    by_cases shard : getShard other = getShard client
    · rw [board, shard, Function.update_self, lastSeen_record, if_neg same]
    · rw [Function.update_of_ne shard, board]

theorem board_mark (client : ClientInfo) (now : Int) :
    (tracker.mark client now).board = beat rateLimit tracker.board client now := by
  rw [mark, beat]
  change _ = match lastSeen (tracker.shards (getShard client)) client with
    | some seen => if now - seen < rateLimit then tracker.board
        else Function.update tracker.board client (some now)
    | none => Function.update tracker.board client (some now)
  rw [← board_write]
  split
  · split <;> rfl
  · rfl

theorem board_getActiveClients (timeout now : Int) :
    (tracker.getActiveClients timeout now).2.board = sweep timeout tracker.board now := by
  funext client
  exact lastSeen_expire client

/-- The clients that are returned are those that stay on the board. -/
theorem mem_getActiveClients
    {timeout now : Int}
    {client : ClientInfo} :
    client ∈ (tracker.getActiveClients timeout now).1 ↔
      (sweep timeout tracker.board now client).isSome := by
  simp only [getActiveClients, List.mem_flatMap, List.mem_finRange, true_and, mem_activeIn,
    Option.isSome_iff_exists, sweep_eq_some]
  constructor
  · rintro ⟨i, seen, found, inTime⟩
    refine ⟨seen, ?_, inTime⟩
    rw [board, tracker.placed i client seen found]
    exact found
  · rintro ⟨seen, found, inTime⟩
    exact ⟨getShard client, seen, found, inTime⟩

/-- No client is returned twice: it stands once in its shard, and in no other. -/
theorem nodup_getActiveClients (timeout now : Int) :
    (tracker.getActiveClients timeout now).1.Nodup := by
  rw [getActiveClients, List.nodup_flatMap]
  refine ⟨fun i _ => nodup_activeIn _, ?_⟩
  apply (List.nodup_finRange clientTrackerShards).imp
  intro i j different client inFirst inSecond
  obtain ⟨seen, found, -⟩ := mem_activeIn.mp inFirst
  obtain ⟨otherSeen, otherFound, -⟩ := mem_activeIn.mp inSecond
  exact different
    ((tracker.placed i client seen found).symm.trans (tracker.placed j client _ otherFound))

end ClientTracker

/-! ## Runs -/

/-- Calls with their readings of the clock; a sweep with the clients that it returns. -/
inductive TrackerCall
  | mark (client : ClientInfo) (now : Int)
  | getActiveClients (now : Int) (returned : List ClientInfo)
  deriving DecidableEq

namespace TrackerCall

def now : TrackerCall → Int
  | .mark _ now => now
  | .getActiveClients now _ => now

/-- Time at which the call marks the client. -/
def markOf (client : ClientInfo) : TrackerCall → Option Int
  | .mark other now => if other = client then some now else none
  | .getActiveClients _ _ => none

/-- The call as an event on the board. -/
def event : TrackerCall → Event ClientInfo
  | .mark client now => .beat client now
  | .getActiveClients now _ => .sweep now

end TrackerCall

/-- Time of the last call that marked the client. -/
def lastMark (calls : List TrackerCall) (client : ClientInfo) : Option Int :=
  (calls.filterMap (TrackerCall.markOf client)).getLast?

/-- Effect of a call; the sweeps use the same timeout. -/
def ClientTracker.step (timeout : Int) (tracker : ClientTracker) :
    TrackerCall → Option ClientTracker
  | .mark client now => some (tracker.mark client now)
  | .getActiveClients now returned =>
      let (active, next) := tracker.getActiveClients timeout now
      if returned.Perm active then some next else none

theorem lastMark_eq_lastBeat (calls : List TrackerCall) (client : ClientInfo) :
    lastMark calls client = lastBeat (calls.map TrackerCall.event) client := by
  rw [lastMark, lastBeat, List.filterMap_map]
  congr 2
  funext call
  cases call <;> rfl

/-- The tracker keeps the board of its calls. -/
theorem run_board
    {timeout : Int}
    {calls : List TrackerCall}
    {tracker : ClientTracker}
    (reached : run (ClientTracker.step timeout) newClientTracker calls = some tracker) :
    run (Heartbeats.step rateLimit timeout) (fun _ => none) (calls.map TrackerCall.event) =
      some tracker.board := by
  have preserved : ∀ history (tracker : ClientTracker) call next,
      run (Heartbeats.step rateLimit timeout) (fun _ => none)
        (history.map TrackerCall.event) = some tracker.board →
      tracker.step timeout call = some next →
      run (Heartbeats.step rateLimit timeout) (fun _ => none)
        ((history ++ [call]).map TrackerCall.event) = some next.board := by
    intro history tracker call next before taken
    rw [List.map_append, run_append, before, Option.bind_some]
    cases call with
    | mark client now =>
        rw [← Option.some.inj taken, tracker.board_mark]
        rfl
    | getActiveClients now returned =>
        simp only [ClientTracker.step] at taken
        split at taken
        · rw [← Option.some.inj taken, tracker.board_getActiveClients]
          rfl
        · cases taken
  have initial : run (Heartbeats.step rateLimit timeout) (fun _ => none)
      (([] : List TrackerCall).map TrackerCall.event) = some newClientTracker.board := by
    rw [List.map_nil, run_nil, Option.some.injEq]
    funext client
    simp [ClientTracker.board, newClientTracker, lastSeen]
  exact run_invariant_history preserved initial reached

/-- The clock does not go back. -/
def Chronological (calls : List TrackerCall) : Prop :=
  calls.Pairwise fun earlier later => earlier.now ≤ later.now

instance (calls : List TrackerCall) : Decidable (Chronological calls) :=
  inferInstanceAs (Decidable (calls.Pairwise _))

/-- Whatever was called before, with the same timeout, a sweep returns no client twice,
every client whose last mark is at most `timeout` less five seconds old, and only
clients that were marked within the timeout. -/
theorem activeClients_fresh
    (timeout : Int)
    (calls : List TrackerCall)
    (now : Int)
    (returned : List ClientInfo)
    {finish : ClientTracker}
    (reached : run (ClientTracker.step timeout) newClientTracker
      (calls ++ [.getActiveClients now returned]) = some finish)
    (clock : Chronological (calls ++ [.getActiveClients now returned])) :
    returned.Nodup ∧
    (∀ client last, lastMark calls client = some last →
      now - last ≤ timeout - rateLimit → client ∈ returned) ∧
    (∀ client ∈ returned, ∃ marked, .mark client marked ∈ calls ∧ now - marked ≤ timeout) := by
  rw [run_append, Option.bind_eq_some_iff] at reached
  obtain ⟨tracker, before, last⟩ := reached
  rw [run_cons_eq_some] at last
  obtain ⟨next, taken, -⟩ := last
  simp only [ClientTracker.step] at taken
  split at taken
  · rename_i same
    have tracks := tracks_run (by decide) (run_board before)
    refine ⟨?_, ?_, ?_⟩
    · rw [same.nodup_iff]
      exact tracker.nodup_getActiveClients timeout now
    · intro client last isLast recent
      rw [same.mem_iff, tracker.mem_getActiveClients]
      rw [lastMark_eq_lastBeat] at isLast
      refine tracks.isSome_sweep ?_ isLast recent
      intro event member
      obtain ⟨call, isCall, rfl⟩ := List.mem_map.mp member
      have ordered := (List.pairwise_append.mp clock).2.2 call isCall _ (List.mem_singleton_self _)
      cases call <;> exact ordered
    · intro client member
      rw [same.mem_iff, tracker.mem_getActiveClients] at member
      obtain ⟨marked, isBeat, inTime⟩ := tracks.exists_beat member
      refine ⟨marked, ?_, inTime⟩
      obtain ⟨call, isCall, isEvent⟩ := List.mem_map.mp isBeat
      cases call with
      | mark other now =>
          obtain ⟨rfl, rfl⟩ := Event.beat.inj isEvent
          exact isCall
      | getActiveClients now returned => cases isEvent
  · cases taken

/-- A viewer that stays, with a mark that is skipped, and one that leaves. -/
def twoViewers : List TrackerCall :=
  [.mark ⟨"10.0.0.1", "cam"⟩ 0, .mark ⟨"10.0.0.2", "cam"⟩ 1000000000,
    .mark ⟨"10.0.0.1", "cam"⟩ 4000000000]

/-- Both, as a sweep may return them. -/
def bothViewers : List ClientInfo :=
  [⟨"10.0.0.2", "cam"⟩, ⟨"10.0.0.1", "cam"⟩]

theorem activeClients_fresh_twoViewers :
    ∃ finish,
      run (ClientTracker.step 15000000000) newClientTracker
        (twoViewers ++ [.getActiveClients 14000000000 bothViewers]) = some finish ∧
      bothViewers.Nodup ∧
      ∀ client ∈ bothViewers, ∃ marked,
        .mark client marked ∈ twoViewers ∧ 14000000000 - marked ≤ 15000000000 := by
  have taken : (run (ClientTracker.step 15000000000) newClientTracker
      (twoViewers ++ [.getActiveClients 14000000000 bothViewers])).isSome := by
    decide +kernel
  obtain ⟨finish, reached⟩ := Option.isSome_iff_exists.mp taken
  obtain ⟨nodup, -, marked⟩ :=
    activeClients_fresh 15000000000 twoViewers 14000000000 bothViewers reached (by decide)
  exact ⟨finish, reached, nodup, marked⟩

end Api
end RuseonCore
