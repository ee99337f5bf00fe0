import DRoole.Wal.Snapshot

/-!
# A node and its files

The public calls of `raft.h` on a node and its disk: those of `ApiCall`,
`raft_start`, and the ones that write and read the node's files.
(`raft_load_snapshot` changes neither.)
-/

namespace DRoole

open Lib

inductive PublicCall where
  | api (c : ApiCall)
  | start (now : UInt64)
  | persistState (answer : Nat → Option Nat)
  | restoreState (env : ReadEnv)
  | saveSnapshot (answer : Nat → Option Nat) (snap : Snapshot)

def publicCall : Host × Disk → PublicCall → Host × Disk
  | (h, disk), .api c => (h.call c, disk)
  | (h, disk), .start now => (h.modify (raftStart · now), disk)
  | (h, disk), .persistState answer => (h, (raftPersistState answer h.node disk).1)
  | (h, disk), .restoreState env => (h.modify fun nd => (raftRestoreState env nd disk).1, disk)
  | (h, disk), .saveSnapshot answer snap =>
    let r := raftSaveSnapshot answer h.node snap disk
    (h.modify fun _ => r.1, r.2.1)

def publicStep (s : Host × Disk) (c : PublicCall) : Option (Host × Disk) := some (publicCall s c)

/-! ## What the files touch -/

/-- `nd` with the durable state, the marker of the last snapshot and the timer of `b`. -/
def RaftNode.refile (nd b : RaftNode) : RaftNode :=
  { nd with
    currentTerm := b.currentTerm
    votedFor := b.votedFor
    log := b.log
    logCapacity := b.logCapacity
    lastHeartbeatMs := b.lastHeartbeatMs
    lastSnapshotIndex := b.lastSnapshotIndex
    lastSnapshotTerm := b.lastSnapshotTerm }

theorem restoreEntries_withLog (alloc : Nat → Alloc) (fuel : Nat) (nd : RaftNode) (bs : Bytes) :
    restoreEntries alloc fuel nd bs = nd.withLog (restoreEntries alloc fuel nd bs) := by
  induction fuel generalizing nd bs with
  | zero => rfl
  | succ fuel ih =>
    unfold restoreEntries
    split
    · rfl
    split
    · rfl
    · rw [ih, pushEntry_withLog]
      rfl

theorem raftRestoreState_refile (env : ReadEnv) (nd : RaftNode) (disk : Disk) :
    (raftRestoreState env nd disk).1 = nd.refile (raftRestoreState env nd disk).1 := by
  unfold raftRestoreState
  split
  · rfl
  · rfl
  split
  · rfl
  dsimp only
  split
  · rfl
  · rw [restoreEntries_withLog]
    rfl

theorem raftSaveSnapshot_refile (answer : Nat → Option Nat) (nd : RaftNode) (snap : Snapshot)
    (disk : Disk) :
    (raftSaveSnapshot answer nd snap disk).1 = nd.refile (raftSaveSnapshot answer nd snap disk).1 := by
  unfold raftSaveSnapshot
  dsimp only
  split
  · rfl
  · rfl

/-- A call is an API call, or it touches what the files hold and the timer. -/
theorem publicCall_cases (s : Host × Disk) (c : PublicCall) :
    (∃ a, c = .api a ∧ (publicCall s c).1 = s.1.call a) ∨
      ((∀ a, c ≠ .api a) ∧ (publicCall s c).1.trace = s.1.trace ∧
        (publicCall s c).1.node = s.1.node.refile (publicCall s c).1.node) := by
  obtain ⟨h, disk⟩ := s
  cases c with
  | api a => exact .inl ⟨a, rfl, rfl⟩
  | start now => exact .inr ⟨nofun, rfl, rfl⟩
  | persistState answer => exact .inr ⟨nofun, rfl, rfl⟩
  | restoreState env => exact .inr ⟨nofun, rfl, raftRestoreState_refile env h.node disk⟩
  | saveSnapshot answer snap =>
    exact .inr ⟨nofun, rfl, raftSaveSnapshot_refile answer h.node snap disk⟩

end DRoole
