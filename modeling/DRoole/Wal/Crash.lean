import DRoole.Wal.Snapshot

/-!
# Crashes while a file is rewritten

`raft_persist_state` and `raft_save_snapshot` open their file with `O_TRUNC` and
write it in place, so from the `open` on the old content is gone. Once the
process dies the file holds a cut of the new content, and what is recovered is
what the cut holds. `crash_atomic_iff` says at which points of the two functions
that is still the old or the new state.
-/

namespace DRoole

open Lib

/-- The durable state a fresh node of that id restores from the disk. -/
def recoveredState (nodeId : CString) (rand : UInt64) (disk : Disk) : Durable :=
  (raftRestoreState .ok (raftInit nodeId rand) disk).1.durable

/-- The disk if `nd` dies in call `n` of `raft_persist_state`, after `k` bytes of it. -/
def persistCrash (nd : RaftNode) (n k : Nat) (disk : Disk) : Disk :=
  Function.update disk (.wal nd.nodeId)
    (crash (persistCalls nd.durable) n k (disk (.wal nd.nodeId)))

/-- The disk if `nd` dies in call `n` of `raft_save_snapshot`, after `k` bytes of it. -/
def snapshotCrash (nd : RaftNode) (s : Snapshot) (n k : Nat) (disk : Disk) : Disk :=
  Function.update disk (.snap nd.nodeId)
    (crash (snapshotCalls s) n k (disk (.snap nd.nodeId)))

/-- How many bytes of the log file are written at that point, after the truncation. -/
def persistReached (d : Durable) (n k : Nat) : Nat := reached (persistWrites d) (n - 1) k

def snapshotReached (s : Snapshot) (n k : Nat) : Nat := reached (snapshotWrites s) (n - 1) k

/-- The crash comes before the truncation, or when the file is complete; or
with no header written, and one of the states is the empty one; or with the
header and exactly the entries of the old log written. -/
def PersistSurvives (old new : Durable) (n k : Nat) : Prop :=
  n = 0 ∨ persistReached new n k = (walImage new).length ∨
    persistReached new n k < walHeaderSize ∧ (old = .empty ∨ new = .empty) ∨
    walHeaderSize ≤ persistReached new n k ∧ old = new.cut (persistReached new n k)

/-- The crash comes before the truncation, or when the file is complete, or
there was no snapshot to lose. -/
def SnapshotSurvives (old : Option Snapshot) (s : Snapshot) (n k : Nat) : Prop :=
  n = 0 ∨ snapshotReached s n k = (snapImage s).length ∨ old = none

theorem persistReached_le (d : Durable) (n k : Nat) :
    persistReached d n k ≤ (walImage d).length := by
  rw [← written_persistWrites]
  exact reached_le ..

theorem snapshotReached_le (s : Snapshot) (n k : Nat) :
    snapshotReached s n k ≤ (snapImage s).length := by
  rw [← written_snapshotWrites]
  exact reached_le ..

section
variable {nd : RaftNode} (disk : Disk)

theorem persistCrash_zero (k : Nat) : persistCrash nd 0 k disk = disk :=
  Function.update_eq_self_iff.2 rfl

theorem snapshotCrash_zero (s : Snapshot) (k : Nat) : snapshotCrash nd s 0 k disk = disk :=
  Function.update_eq_self_iff.2 rfl

theorem persistCrash_file {n : Nat} (hn : n ≠ 0) (k : Nat) :
    persistCrash nd n k disk (.wal nd.nodeId) =
      some ((walImage nd.durable).take (persistReached nd.durable n k)) := by
  unfold persistCrash persistCalls
  rw [Function.update_self, crash_create (create_notMem_persistWrites _), if_neg hn,
    written_persistWrites]
  rfl

theorem snapshotCrash_file (s : Snapshot) {n : Nat} (hn : n ≠ 0) (k : Nat) :
    snapshotCrash nd s n k disk (.snap nd.nodeId) =
      some ((snapImage s).take (snapshotReached s n k)) := by
  unfold snapshotCrash snapshotCalls
  rw [Function.update_self, crash_create (create_notMem_snapshotWrites _), if_neg hn,
    written_snapshotWrites]
  rfl

variable {disk}

theorem recoveredState_persistCrash {nodeId : CString} (hid : nd.nodeId = nodeId.strncpy 36)
    (hd : nd.durable.Storable) (rand : UInt64) {n : Nat} (hn : n ≠ 0) (k : Nat) :
    recoveredState nodeId rand (persistCrash nd n k disk) =
      if persistReached nd.durable n k < walHeaderSize then .empty
      else nd.durable.cut (persistReached nd.durable n k) := by
  have hfile : persistCrash nd n k disk (.wal (raftInit nodeId rand).nodeId) = some _ :=
    hid ▸ persistCrash_file disk hn k
  unfold recoveredState
  rw [raftRestoreState_cut hd.log hfile]
  split
  · rfl
  · exact durable_restoreDurable_raftInit (d := nd.durable.cut _) hd.vote nodeId rand

end

theorem persistCrash_iff {nd : RaftNode} {nodeId : CString} (hid : nd.nodeId = nodeId.strncpy 36)
    (hd : nd.durable.Storable) (rand : UInt64) (disk : Disk) (n k : Nat) :
    let old := recoveredState nodeId rand disk
    let left := recoveredState nodeId rand (persistCrash nd n k disk)
    left = old ∨ left = nd.durable ↔ PersistSurvives old nd.durable n k := by
  intro old left
  by_cases hn : n = 0
  · have hleft : left = old := by
      show recoveredState _ _ _ = _
      rw [hn, persistCrash_zero]
    exact iff_of_true (.inl hleft) (.inl hn)
  have hleft : left = _ := recoveredState_persistCrash hid hd rand hn k
  have hle := persistReached_le nd.durable n k
  have hsize := walHeaderSize_le_length_walImage nd.durable
  unfold PersistSurvives
  generalize persistReached nd.durable n k = m at *
  rw [hleft]
  by_cases hm : m < walHeaderSize
  · have hne : m ≠ (walImage nd.durable).length := by omega
    simp only [hn, hne, hm, if_true, false_or, true_and, Nat.not_le.2 hm, false_and, or_false,
      eq_comm (a := Durable.empty)]
  · have heq : (walImage nd.durable).length ≤ m ↔ m = (walImage nd.durable).length :=
      ⟨Nat.le_antisymm hle, fun h => h.ge⟩
    rw [if_neg hm, Durable.cut_eq_self_iff (Nat.not_lt.1 hm), heq]
    simp only [hn, hm, false_or, false_and, Nat.not_lt.1 hm, true_and, eq_comm (a := old)]
    exact or_comm

theorem snapshotCrash_iff {nd : RaftNode} {s : Snapshot} (hs : s.Storable) (disk : Disk)
    (n k : Nat) :
    let old := loadedSnapshot nd.nodeId disk
    let left := loadedSnapshot nd.nodeId (snapshotCrash nd s n k disk)
    left = old ∨ left = some s ↔ SnapshotSurvives old s n k := by
  intro old left
  by_cases hn : n = 0
  · have hleft : left = old := by
      show loadedSnapshot _ _ = _
      rw [hn, snapshotCrash_zero]
    exact iff_of_true (.inl hleft) (.inl hn)
  have hleft : left = _ := loadedSnapshot_cut hs (snapshotCrash_file disk s hn k)
  have hle := snapshotReached_le s n k
  unfold SnapshotSurvives
  generalize snapshotReached s n k = m at *
  rw [hleft]
  by_cases hm : (snapImage s).length ≤ m
  · rw [if_pos hm]
    exact iff_of_true (.inr rfl) (.inr (.inl (Nat.le_antisymm hle hm)))
  · have hne : m ≠ (snapImage s).length := by omega
    simp [hm, hn, hne, eq_comm (a := none)]

/-- **Crash points.** A crash in `raft_persist_state` or `raft_save_snapshot`
leaves the old or the new state to be recovered at exactly these points. -/
theorem crash_atomic_iff {nd : RaftNode} {nodeId : CString} (hid : nd.nodeId = nodeId.strncpy 36)
    (hd : nd.durable.Storable) {s : Snapshot} (hs : s.Storable) (rand : UInt64) (disk : Disk)
    (n k : Nat) :
    let old := recoveredState nodeId rand disk
    let left := recoveredState nodeId rand (persistCrash nd n k disk)
    let oldSnap := loadedSnapshot nd.nodeId disk
    let leftSnap := loadedSnapshot nd.nodeId (snapshotCrash nd s n k disk)
    (left = old ∨ left = nd.durable ↔ PersistSurvives old nd.durable n k) ∧
      (leftSnap = oldSnap ∨ leftSnap = some s ↔ SnapshotSurvives oldSnap s n k) :=
  ⟨persistCrash_iff hid hd rand disk n k, snapshotCrash_iff hs disk n k⟩

/-- The disk after `votedNode` persisted its state and saved a snapshot. -/
def votedDisk : Disk :=
  (raftSaveSnapshot (fun _ => none) votedNode ⟨1, 3, [9]⟩
    (raftPersistState (fun _ => none) votedNode fun _ => none).1).2.1

/-- A crash in the `fsync` of the next persist leaves the new state. -/
theorem crash_atomic_in_fsync :
    let new := { votedNode with currentTerm := 8, votedFor := CString.empty }
    let left := recoveredState idA 0 (persistCrash new 8 0 votedDisk)
    left = recoveredState idA 0 votedDisk ∨ left = new.durable :=
  (crash_atomic_iff (s := ⟨2, 7, []⟩) rfl (by decide) (by decide) 0 votedDisk 8 0).1.2
    (.inr (.inl (by decide +kernel)))

/-- A crash right after the `open` forgets the term, the vote and the log, and
so does one in the header for the snapshot. -/
theorem crash_forgets_vote :
    let new := { votedNode with currentTerm := 8, votedFor := CString.empty }
    let left := recoveredState idA 0 (persistCrash new 1 0 votedDisk)
    let s : Snapshot := ⟨2, 7, []⟩
    let leftSnap := loadedSnapshot idA (snapshotCrash votedNode s 1 10 votedDisk)
    (recoveredState idA 0 votedDisk = votedNode.durable ∧
      left = .empty ∧ left ≠ votedNode.durable ∧ left ≠ new.durable) ∧
    (loadedSnapshot idA votedDisk = some ⟨1, 3, [9]⟩ ∧ leftSnap = none) := by
  decide +kernel

end DRoole
