import RuseonCore.Foundation.RangeLog
import RuseonCore.Foundation.Transition

/-!
# Files that leave the page cache

Model of `pkg/storage/localfs/file_linux.go`.  A write that completes a chunk starts
the writeout of the chunk and evicts the one before it from the page cache, whose
writeout it awaits first; closing the file treats what remains likewise.  The
results of `sync_file_range` and `posix_fadvise` are ignored, as in the source.

A call of the wrapper yields the system calls that it makes.  Offsets are integers:
a file has less than 2^63 bytes.
-/

namespace RuseonCore
namespace Storage

open RangeLog Transition

/-- Flags of `sync_file_range`. -/
structure SyncFlags where
  waitBefore : Bool
  write : Bool
  waitAfter : Bool
  deriving DecidableEq

/-- Write out a range and wait for it. -/
def SyncFlags.waiting : SyncFlags := ⟨true, true, true⟩

/-- Begin to write out a range. -/
def SyncFlags.initiating : SyncFlags := ⟨false, true, false⟩

/-- System calls on the file; `dontNeed` is `posix_fadvise` with
`FADV_DONTNEED`. -/
inductive Syscall
  | write (count : Nat)
  | syncFileRange (range : Range Int) (flags : SyncFlags)
  | dontNeed (range : Range Int)
  | fsync
  | close
  deriving DecidableEq

/-- Outcome of `os.File.Write`: the number of bytes that were written, all of them
unless it failed. -/
structure WriteCall where
  count : Nat
  failed : Bool
  deriving DecidableEq

/-- Positions up to which the file was written, its writeout was started, and its
pages were evicted. -/
structure FileWrapper where
  offset : Int
  lastSync : Int
  lastDrop : Int
  chunkSize : Int
  deriving DecidableEq

def newFileWrapper : FileWrapper where
  offset := 0
  lastSync := 0
  lastDrop := 0
  chunkSize := 2 * 1024 * 1024

namespace FileWrapper

/-- Await and evict the chunk whose writeout was started before. -/
def purge (fw : FileWrapper) : FileWrapper × List Syscall :=
  if fw.lastSync > fw.lastDrop then
    let range : Range Int := ⟨fw.lastDrop, fw.lastSync - fw.lastDrop⟩
    ({ fw with lastDrop := fw.lastSync }, [.syncFileRange range .waiting, .dontNeed range])
  else (fw, [])

def write (fw : FileWrapper) (call : WriteCall) : FileWrapper × List Syscall :=
  if call.failed then (fw, [.write call.count])
  else
    let fw := { fw with offset := fw.offset + call.count }
    if fw.offset - fw.lastSync ≥ fw.chunkSize then
      let (fw, purged) := fw.purge
      let range : Range Int := ⟨fw.lastSync, fw.offset - fw.lastSync⟩
      ({ fw with lastSync := fw.offset },
        [.write call.count] ++ purged ++ [.syncFileRange range .initiating])
    else (fw, [.write call.count])

/-- The flags tell whether `fsync` and `close` fail; the answer tells whether
closing succeeded. -/
def close (fw : FileWrapper) (syncFails closeFails : Bool) : Bool × List Syscall :=
  let remain := fw.offset - fw.lastDrop
  let range : Range Int := ⟨fw.lastDrop, remain⟩
  let flushed : List Syscall := if remain > 0 then [.syncFileRange range .waiting] else []
  if syncFails then (false, flushed ++ [Syscall.fsync] ++ [Syscall.close])
  else
    let dropped : List Syscall := if remain > 0 then [.dontNeed range] else []
    (!closeFails, flushed ++ [Syscall.fsync] ++ dropped ++ [Syscall.close])

/-- A write of the given size that succeeds. -/
def step (fw : FileWrapper) (size : Nat) : Option FileWrapper :=
  some (fw.write ⟨size, false⟩).1

/-- The system calls of such a write. -/
def view (fw : FileWrapper) (size : Nat) : List Syscall :=
  (fw.write ⟨size, false⟩).2

/-- The positions are in order. -/
def Ordered (fw : FileWrapper) : Prop :=
  fw.lastDrop ≤ fw.lastSync ∧ fw.lastSync ≤ fw.offset

end FileWrapper

/-! ## What the calls amount to -/

namespace Syscall

def bytesWritten : Syscall → Int
  | .write count => count
  | _ => 0

def rangeDropped : Syscall → Option (Range Int)
  | .dontNeed range => some range
  | _ => none

end Syscall

/-- Number of bytes written by the calls. -/
def written (log : List Syscall) : Int :=
  (log.map Syscall.bytesWritten).sum

/-- Ranges evicted by the calls. -/
def dropped (log : List Syscall) : List (Range Int) :=
  log.filterMap Syscall.rangeDropped

/-- Pages are evicted after the file was written up to the end of their range, and
exactly this range was written out and awaited. -/
def Settled (before : List Syscall) : Syscall → Prop
  | .dontNeed range =>
      ∃ earlier later,
        before = earlier ++ .syncFileRange range .waiting :: later ∧
          range.stop ≤ written earlier
  | _ => True

@[simp] theorem written_nil : written [] = 0 := rfl

@[simp] theorem written_concat (log : List Syscall) (call : Syscall) :
    written (log ++ [call]) = written log + call.bytesWritten := by
  simp [written]

theorem dropped_concat (log : List Syscall) (call : Syscall) :
    dropped (log ++ [call]) = dropped log ++ call.rangeDropped.toList := by
  cases call <;> simp [dropped, Syscall.rangeDropped]

/-- A log in which everything up to a position is evicted. -/
structure Evicts (stop : Int) (log : List Syscall) : Prop where
  tiled : Tiles 0 stop (dropped log)
  settled : Justified Settled log

namespace Evicts

variable {stop : Int} {log : List Syscall}

/-- Calls other than `dontNeed` evict nothing. -/
theorem other
    (evicts : Evicts stop log)
    {call : Syscall}
    (noDrop : call.rangeDropped = none) :
    Evicts stop (log ++ [call]) := by
  constructor
  · rw [dropped_concat, noDrop, Option.toList_none, List.append_nil]
    exact evicts.tiled
  · rw [justified_concat]
    refine ⟨evicts.settled, ?_⟩
    cases call with
    | dontNeed range => cases noDrop
    | write count => trivial
    | syncFileRange range flags => trivial
    | fsync => trivial
    | close => trivial

/-- The range behind the position is evicted. -/
theorem dontNeed
    (evicts : Evicts stop log)
    {range : Range Int}
    (next : range.offset = stop)
    (positive : 0 < range.length)
    (settled : Settled log (.dontNeed range)) :
    Evicts range.stop (log ++ [.dontNeed range]) := by
  constructor
  · rw [dropped_concat]
    exact evicts.tiled.concat next positive
  · rw [justified_concat]
    exact ⟨evicts.settled, settled⟩

end Evicts

/-! ## Writes -/

/-- The log explains the positions of the file. -/
structure Explains (log : List Syscall) (fw : FileWrapper) : Prop where
  ordered : fw.Ordered
  total : written log = fw.offset
  evicts : Evicts fw.lastDrop log

namespace Explains

variable {log : List Syscall} {fw : FileWrapper}

theorem start : Explains [] newFileWrapper where
  ordered := ⟨le_rfl, le_rfl⟩
  total := rfl
  evicts := ⟨rfl, justified_nil⟩

theorem advance
    (explains : Explains log fw)
    (count : Nat) :
    Explains (log ++ [.write count]) { fw with offset := fw.offset + count } where
  ordered := ⟨explains.ordered.1, explains.ordered.2.trans (by simp)⟩
  total := by rw [written_concat, explains.total, Syscall.bytesWritten]
  evicts := explains.evicts.other rfl

theorem sync
    (explains : Explains log fw)
    (range : Range Int)
    (flags : SyncFlags) :
    Explains (log ++ [.syncFileRange range flags]) fw where
  ordered := explains.ordered
  total := by simpa [Syscall.bytesWritten] using explains.total
  evicts := explains.evicts.other rfl

theorem mark (explains : Explains log fw) :
    Explains log { fw with lastSync := fw.offset } where
  ordered := ⟨explains.ordered.1.trans explains.ordered.2, le_rfl⟩
  total := explains.total
  evicts := explains.evicts

theorem purge (explains : Explains log fw) :
    Explains (log ++ fw.purge.2) fw.purge.1 := by
  obtain ⟨ordered, total, evicts⟩ := explains
  unfold FileWrapper.purge
  split
  · rename_i behind
    let range : Range Int := ⟨fw.lastDrop, fw.lastSync - fw.lastDrop⟩
    have stop : range.stop = fw.lastSync := by
      simp [Range.stop, range]
    have inside : range.stop ≤ written log := by
      rw [stop, total]
      exact ordered.2
    have evicted : Evicts range.stop
        (log ++ [.syncFileRange range .waiting] ++ [.dontNeed range]) :=
      (evicts.other rfl).dontNeed rfl (sub_pos.mpr behind) ⟨log, [], rfl, inside⟩
    rw [stop, List.append_assoc] at evicted
    refine ⟨⟨le_rfl, ordered.2⟩, ?_, evicted⟩
    simpa [written, Syscall.bytesWritten] using total
  · rw [List.append_nil]
    exact ⟨ordered, total, evicts⟩

/-- A write that succeeds. -/
theorem write (explains : Explains log fw) (size : Nat) :
    Explains (log ++ (fw.write ⟨size, false⟩).2) (fw.write ⟨size, false⟩).1 := by
  have advanced := explains.advance size
  unfold FileWrapper.write
  rw [if_neg Bool.false_ne_true]
  dsimp only
  split
  · rw [← List.append_assoc, ← List.append_assoc]
    exact (advanced.purge.sync _ _).mark
  · exact advanced

/-- Closing evicts what remains. -/
theorem close (explains : Explains log fw) :
    Evicts fw.offset (log ++ (fw.close false false).2) := by
  obtain ⟨ordered, total, evicts⟩ := explains
  unfold FileWrapper.close
  dsimp only
  rw [if_neg Bool.false_ne_true]
  dsimp only
  rw [← List.append_assoc, ← List.append_assoc, ← List.append_assoc]
  apply Evicts.other _ rfl
  split
  · rename_i remains
    let range : Range Int := ⟨fw.lastDrop, fw.offset - fw.lastDrop⟩
    have stop : range.stop = fw.offset := by
      simp [Range.stop, range]
    have evicted : Evicts range.stop
        (log ++ [.syncFileRange range .waiting] ++ [.fsync] ++ [.dontNeed range]) := by
      apply ((evicts.other rfl).other rfl).dontNeed rfl remains
      exact ⟨log, [.fsync], by simp, by rw [stop, total]⟩
    rwa [stop] at evicted
  · rename_i nothing
    have complete : fw.lastDrop = fw.offset := by
      have := ordered.1.trans ordered.2
      omega
    rw [List.append_nil, List.append_nil, ← complete]
    exact evicts.other rfl

end Explains

theorem FileWrapper.offset_write (fw : FileWrapper) (size : Nat) :
    (fw.write ⟨size, false⟩).1.offset = fw.offset + size := by
  unfold FileWrapper.write FileWrapper.purge
  rw [if_neg Bool.false_ne_true]
  dsimp only
  split
  · split <;> rfl
  · rfl

/-- The system calls of the writes explain the positions. -/
theorem explains_run
    {sizes : List Nat}
    {fw : FileWrapper}
    (reached : run FileWrapper.step newFileWrapper sizes = some fw) :
    Explains (trace FileWrapper.step FileWrapper.view newFileWrapper sizes) fw := by
  have preserved : ∀ log (fw : FileWrapper) size next, Explains log fw →
      fw.step size = some next → Explains (log ++ fw.view size) next := by
    intro log fw size next before taken
    rw [← Option.some.inj taken]
    exact before.write size
  exact run_invariant_trace preserved Explains.start reached

/-- After the writes, the offset is their total size. -/
theorem offset_run
    {sizes : List Nat}
    {fw : FileWrapper}
    (reached : run FileWrapper.step newFileWrapper sizes = some fw) :
    fw.offset = sizes.sum := by
  have preserved : ∀ (history : List Nat) (fw : FileWrapper) size next,
      fw.offset = history.sum → fw.step size = some next →
        next.offset = (history ++ [size]).sum := by
    intro history fw size next before taken
    rw [← Option.some.inj taken, fw.offset_write, before]
    simp
  have initial : newFileWrapper.offset = (([] : List Nat).sum : Nat) := rfl
  exact run_invariant_history preserved initial reached

/-- However the file is cut into writes, its positions stay in order, and once it is
closed its pages have been evicted in order and each exactly once: every range after
its bytes were written, and after this very range was written out and awaited. -/
theorem fileWrapper_evicts_once (sizes : List Nat) :
    Always FileWrapper.step FileWrapper.Ordered newFileWrapper sizes ∧
    ∃ fw, run FileWrapper.step newFileWrapper sizes = some fw ∧
      (fw.close false false).1 = true ∧
      let log := trace FileWrapper.step FileWrapper.view newFileWrapper sizes ++
        (fw.close false false).2
      Tiles (0 : Int) sizes.sum (dropped log) ∧
      (∀ pos : Int, 0 ≤ pos → pos < sizes.sum →
        ∃! i : Nat, ∃ range : Range Int,
          (dropped log)[i]? = some range ∧ range.Contains pos) ∧
      Justified Settled log := by
  constructor
  · have preserved : ∀ (fw : FileWrapper) size next, (∃ log, Explains log fw) →
        fw.step size = some next → ∃ log, Explains log next := by
      rintro fw size next ⟨log, explains⟩ taken
      rw [← Option.some.inj taken]
      exact ⟨_, explains.write size⟩
    apply always_of_invariant preserved _ ⟨[], Explains.start⟩
    rintro fw ⟨log, explains⟩
    exact explains.ordered
  · have reached : run FileWrapper.step newFileWrapper sizes = some _ :=
      run_total (fun fw size => (FileWrapper.write fw ⟨size, false⟩).1) newFileWrapper sizes
    refine ⟨_, reached, rfl, ?_⟩
    have evicts := (explains_run reached).close
    rw [offset_run reached] at evicts
    exact ⟨evicts.tiled, fun pos after before => evicts.tiled.existsUnique after before,
      evicts.settled⟩

end Storage
end RuseonCore
