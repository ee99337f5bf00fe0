import DRoole.Lib.Files
import DRoole.Raft.Start
import DRoole.Wal.Format

/-!
# Persisting and restoring

`raft_persist_state` and `raft_restore_state` of `src/cluster/raft_persistence.c`.
A write-ahead log cut after `k` bytes restores the term, the vote and the
entries that lie entirely before the cut, and nothing at all if the cut is in
the header (`raftRestoreState_cut`). Uncut it restores what was persisted, which
is the disk the cluster model starts from (`raftRestoreState_image`).

`ensure_directory` only makes the later `open` succeed or fail, and the log
lines are left out.
-/

namespace DRoole

open Lib

/-- `wal_path` and `snapshot_path`. A node id has at most 36 bytes and never
fills their 256-byte buffers, so no two nodes share a file. -/
inductive DataFile where
  | wal (nodeId : CString)
  | snap (nodeId : CString)
  deriving DecidableEq

/-- The directory `./raft_data`. -/
abbrev Disk := DataFile → File

/-! ## Writing -/

def walHeader (d : Durable) : WalHeader where
  magic := walMagic
  version := walVersion
  currentTerm := d.currentTerm
  votedFor := d.votedFor.strncpy 36

/-- The file that holds `d`. -/
def walImage (d : Durable) : Bytes := (walHeader d).bytes ++ walFormat.stream d.log

def entryCalls (e : RaftLogEntry) : List FileCall :=
  [.malloc, .write (entryBody e), .write (be32 (crc32 (entryBody e)))]

def persistWrites (d : Durable) : List FileCall :=
  .write (walHeader d).bytes :: (d.log.flatMap entryCalls ++ [.fsync, .close])

def persistCalls (d : Durable) : List FileCall := .create :: persistWrites d

/-- `raft_persist_state`, with the answers of the system. A checked call that
fails closes the file and returns -1. -/
def raftPersistState (answer : Nat → Option Nat) (nd : RaftNode) (disk : Disk) : Disk × Int :=
  let r := perform answer 0 (persistCalls nd.durable) (disk (.wal nd.nodeId))
  (Function.update disk (.wal nd.nodeId) r.1, r.2)

theorem written_persistWrites (d : Durable) : written (persistWrites d) = walImage d := by
  have hlog : written (d.log.flatMap entryCalls) = walFormat.stream d.log := by
    simp only [written, List.flatMap_assoc]
    rfl
  rw [persistWrites, written_cons, written_append, hlog]
  simp [FileCall.payload, written, walImage]

theorem create_notMem_persistWrites (d : Durable) : .create ∉ persistWrites d := by
  simp [persistWrites, entryCalls]

/-! ## Reading -/

/-- What the system answers while a file is read: whether `open` is refused,
and the allocations made for the log slot of each number. -/
structure ReadEnv where
  denied : Bool
  alloc : Nat → Alloc

/-- The file can be opened and memory never runs out. -/
def ReadEnv.ok : ReadEnv := ⟨false, fun _ => .ok⟩

/-- The read loop of `raft_restore_state`. A record has more than 28 bytes, so
the bytes left bound the turns. -/
def restoreEntries (alloc : Nat → Alloc) : Nat → RaftNode → Bytes → RaftNode
  | 0, nd, _ => nd
  | fuel + 1, nd, bs =>
    match readEntry bs with
    | none => nd
    | some (e, rest) =>
      if (alloc nd.log.length).malloc = false ∨
          nd.log.length ≥ nd.logCapacity ∧ (alloc nd.log.length).realloc = false then nd
      else restoreEntries alloc fuel (pushEntry nd e) rest

def raftRestoreState (env : ReadEnv) (nd : RaftNode) (disk : Disk) : RaftNode × Int :=
  match openRead env.denied (disk (.wal nd.nodeId)) with
  | .enoent => (nd, 0)
  | .error => (nd, -1)
  | .fd bs =>
    match readN walHeaderSize bs with
    | none => (nd, -1)
    | some (hdrBytes, bs) =>
      -- `version` is not looked at
      let hdr := WalHeader.ofBytes hdrBytes
      if hdr.magic ≠ walMagic then (nd, -1)
      else
        (restoreEntries env.alloc bs.length
          { nd with currentTerm := hdr.currentTerm, votedFor := hdr.votedFor.strncpy 36 } bs, 0)

theorem restoreEntries_eq_foldl (fuel : Nat) (nd : RaftNode) (bs : Bytes) :
    restoreEntries ReadEnv.ok.alloc fuel nd bs = (walFormat.scan fuel bs).foldl pushEntry nd := by
  induction fuel generalizing nd bs with
  | zero => rfl
  | succ fuel ih =>
    rw [restoreEntries, RecordFormat.scan]
    cases hread : readEntry bs with
    | none =>
      have hnext : walFormat.next bs = none := hread
      rw [hnext]
      rfl
    | some p =>
      have hnext : walFormat.next bs = some p := hread
      rw [hnext]
      dsimp only
      rw [if_neg (by simp [ReadEnv.ok, Alloc.ok]), ih, List.foldl_cons]

section
variable {nd : RaftNode} {disk : Disk}

variable {env : ReadEnv}

theorem raftRestoreState_short {bs : Bytes} (hfile : disk (.wal nd.nodeId) = some bs)
    (hlen : bs.length < walHeaderSize) : raftRestoreState env nd disk = (nd, -1) := by
  unfold raftRestoreState openRead
  rw [hfile]
  cases env.denied with
  | true => rfl
  | false =>
    dsimp only
    rw [if_neg Bool.false_ne_true]
    dsimp only
    rw [readN_eq_none hlen]

theorem raftRestoreState_entries {hdrBytes bs : Bytes} {hdr : WalHeader}
    (hopen : env.denied = false) (hfile : disk (.wal nd.nodeId) = some (hdrBytes ++ bs))
    (hlen : hdrBytes.length = walHeaderSize) (hhdr : WalHeader.ofBytes hdrBytes = hdr)
    (hmagic : hdr.magic = walMagic) :
    raftRestoreState env nd disk =
      (restoreEntries env.alloc bs.length
        { nd with currentTerm := hdr.currentTerm, votedFor := hdr.votedFor.strncpy 36 } bs, 0) := by
  unfold raftRestoreState
  rw [hfile, hopen, openRead_some]
  dsimp only
  rw [readN_append hlen]
  dsimp only
  rw [hhdr, if_neg (not_not.2 hmagic)]

theorem raftRestoreState_header {hdrBytes bs : Bytes} {hdr : WalHeader}
    (hfile : disk (.wal nd.nodeId) = some (hdrBytes ++ bs))
    (hlen : hdrBytes.length = walHeaderSize) (hhdr : WalHeader.ofBytes hdrBytes = hdr)
    (hmagic : hdr.magic = walMagic) :
    raftRestoreState .ok nd disk =
      ((walFormat.scan bs.length bs).foldl pushEntry
        { nd with currentTerm := hdr.currentTerm, votedFor := hdr.votedFor.strncpy 36 }, 0) := by
  rw [← restoreEntries_eq_foldl]
  exact raftRestoreState_entries rfl hfile hlen hhdr hmagic

end

/-! ## The two together -/

/-- What the format can hold; `voted_for` always has at most 36 bytes. -/
structure Durable.Storable (d : Durable) : Prop where
  vote : d.votedFor.bytes.length ≤ 36
  log : ∀ e ∈ d.log, e.Storable

instance (d : Durable) : Decidable d.Storable :=
  decidable_of_iff (d.votedFor.bytes.length ≤ 36 ∧ ∀ e ∈ d.log, e.Storable)
    ⟨fun h => ⟨h.1, h.2⟩, fun h => ⟨h.vote, h.log⟩⟩

/-- What a cut of the file after `k` bytes, not in the header, still holds. -/
def Durable.cut (d : Durable) (k : Nat) : Durable :=
  { d with log := walFormat.whole d.log (k - walHeaderSize) }

theorem ofBytes_walHeader (d : Durable) :
    WalHeader.ofBytes (walHeader d).bytes = walHeader d :=
  WalHeader.ofBytes_bytes (CString.length_strncpy_le ..)

/-- **Recovery of a cut log.** -/
theorem raftRestoreState_cut {nd : RaftNode} {disk : Disk} {d : Durable}
    (hd : ∀ e ∈ d.log, e.Storable) {k : Nat}
    (hfile : disk (.wal nd.nodeId) = some ((walImage d).take k)) :
    raftRestoreState .ok nd disk =
      if k < walHeaderSize then (nd, -1) else (restoreDurable nd (d.cut k), 0) := by
  by_cases hk : k < walHeaderSize
  · rw [if_pos hk]
    exact raftRestoreState_short hfile (lt_of_le_of_lt (List.length_take_le ..) hk)
  · rw [if_neg hk]
    have hlen := (walHeader d).length_bytes
    have hsplit : (walImage d).take k =
        (walHeader d).bytes ++ (walFormat.stream d.log).take (k - walHeaderSize) := by
      rw [walImage, List.take_append, List.take_of_length_le (by omega), hlen]
    rw [hsplit] at hfile
    have hvote : (walHeader d).votedFor.strncpy 36 = d.votedFor.strncpy 36 :=
      CString.strncpy_of_le (CString.length_strncpy_le ..)
    rw [raftRestoreState_header hfile hlen (ofBytes_walHeader d) rfl,
      RecordFormat.scan_take hd (Nat.le_refl _), hvote]
    rfl

theorem Durable.cut_eq_self_iff {d : Durable} {k : Nat} (hk : walHeaderSize ≤ k) :
    d.cut k = d ↔ (walImage d).length ≤ k := by
  have hlog : d.cut k = d ↔ walFormat.whole d.log (k - walHeaderSize) = d.log :=
    ⟨fun h => congrArg Durable.log h, fun h => by rw [Durable.cut, h]⟩
  rw [hlog, RecordFormat.whole_eq_self_iff, walImage, List.length_append, WalHeader.length_bytes]
  omega

theorem walHeaderSize_le_length_walImage (d : Durable) : walHeaderSize ≤ (walImage d).length := by
  rw [walImage, List.length_append, WalHeader.length_bytes]
  exact Nat.le_add_right ..

theorem raftRestoreState_image {nd : RaftNode} {disk : Disk} {d : Durable}
    (hd : ∀ e ∈ d.log, e.Storable) (hfile : disk (.wal nd.nodeId) = some (walImage d)) :
    raftRestoreState .ok nd disk = (restoreDurable nd d, 0) := by
  rw [← List.take_length (l := walImage d)] at hfile
  have hhdr := walHeaderSize_le_length_walImage d
  rw [raftRestoreState_cut hd hfile, if_neg hhdr.not_gt,
    (Durable.cut_eq_self_iff hhdr).2 (Nat.le_refl _)]

theorem raftPersistState_ok {answer : Nat → Option Nat} (hok : ∀ n, answer n = none)
    (nd : RaftNode) (disk : Disk) :
    raftPersistState answer nd disk =
      (Function.update disk (.wal nd.nodeId) (some (walImage nd.durable)), 0) := by
  unfold raftPersistState persistCalls
  rw [perform_create hok (create_notMem_persistWrites _), written_persistWrites]

/-- Restoring into a fresh node gives the durable state and nothing else. -/
theorem durable_restoreDurable_raftInit {d : Durable} (hd : d.votedFor.bytes.length ≤ 36)
    (nodeId : CString) (rand : UInt64) : (restoreDurable (raftInit nodeId rand) d).durable = d := by
  rw [restoreDurable_eq, RaftNode.durable, CString.strncpy_of_le hd]
  rfl

/-- **WAL round trip.** What `raft_persist_state` writes, `raft_restore_state`
reads back into a fresh node of the same id. -/
theorem wal_round_trip {nd : RaftNode} {nodeId : CString} (hid : nd.nodeId = nodeId.strncpy 36)
    (hd : nd.durable.Storable) {answer : Nat → Option Nat} (hok : ∀ n, answer n = none)
    (disk : Disk) (rand : UInt64) :
    let written := raftPersistState answer nd disk
    let restored := raftRestoreState .ok (raftInit nodeId rand) written.1
    written.2 = 0 ∧ restored.2 = 0 ∧ restored.1.currentTerm = nd.currentTerm ∧
      restored.1.votedFor = nd.votedFor ∧ restored.1.log = nd.log := by
  intro written restored
  have hw : written = (Function.update disk (.wal nd.nodeId) (some (walImage nd.durable)), 0) :=
    raftPersistState_ok hok nd disk
  have hfile : written.1 (.wal (raftInit nodeId rand).nodeId) = some (walImage nd.durable) := by
    rw [hw, hid]
    exact Function.update_self ..
  have hr : restored = (restoreDurable (raftInit nodeId rand) nd.durable, 0) :=
    raftRestoreState_image hd.log hfile
  have hdur := durable_restoreDurable_raftInit hd.vote nodeId rand
  rw [hw, hr]
  exact ⟨rfl, rfl, congrArg Durable.currentTerm hdur, congrArg Durable.votedFor hdur,
    congrArg Durable.log hdur⟩

/-- A node that voted for `b` in term 7 and holds two entries. -/
def votedNode : RaftNode :=
  { raftInit idA 0 with
    currentTerm := 7
    votedFor := idB
    log := [⟨3, 1, [0], 0⟩, ⟨7, 2, [1, 2, 3], 1⟩] }

theorem wal_round_trip_two_entries :
    votedNode.durable.Storable ∧
      (raftRestoreState .ok (raftInit idA 1)
        (raftPersistState (fun _ => none) votedNode fun _ => none).1).1.log = votedNode.log :=
  ⟨by decide, (wal_round_trip rfl (by decide) (fun _ => rfl) (fun _ => none) 1).2.2.2.2⟩

end DRoole
