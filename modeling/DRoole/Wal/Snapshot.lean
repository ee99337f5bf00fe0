import DRoole.Wal.Restore

/-!
# Snapshots

`raft_save_snapshot` and `raft_load_snapshot` of `src/cluster/raft_persistence.c`:
a 24-byte header and the data in a file of their own. Saving one drops the log
entries it covers from the array; a snapshot file cut short loads nothing.
-/

namespace DRoole

open Lib

/-! ## The file -/

def snapMagic : UInt32 := 0x534E4150

def snapHeaderSize : Nat := 24

/-- The packed `snap_hdr`. -/
structure SnapHeader where
  magic : UInt32
  lastIndex : UInt64
  lastTerm : UInt64
  dataLen : UInt32
  deriving DecidableEq, Repr

def SnapHeader.bytes (h : SnapHeader) : Bytes :=
  be32 h.magic ++ be64 h.lastIndex ++ be64 h.lastTerm ++ be32 h.dataLen

def SnapHeader.ofBytes (bs : Bytes) : SnapHeader where
  magic := get32 (slice 0 4 bs)
  lastIndex := get64 (slice 4 8 bs)
  lastTerm := get64 (slice 12 8 bs)
  dataLen := get32 (slice 20 4 bs)

@[simp] theorem SnapHeader.length_bytes (h : SnapHeader) : h.bytes.length = snapHeaderSize := by
  simp [SnapHeader.bytes, snapHeaderSize]

theorem SnapHeader.ofBytes_bytes (h : SnapHeader) : SnapHeader.ofBytes h.bytes = h := by
  simp [SnapHeader.ofBytes, SnapHeader.bytes, slice_front, slice_skip, slice_self]

/-- The arguments of `raft_save_snapshot`. -/
structure Snapshot where
  index : UInt64
  term : UInt64
  data : Bytes
  deriving DecidableEq, Repr

/-- The length field can hold the length of the data. -/
def Snapshot.Storable (s : Snapshot) : Prop := s.data.length < 2 ^ 32

instance (s : Snapshot) : Decidable s.Storable := inferInstanceAs (Decidable (_ < _))

def snapHeader (s : Snapshot) : SnapHeader where
  magic := snapMagic
  lastIndex := s.index
  lastTerm := s.term
  dataLen := UInt32.ofNat s.data.length

def snapImage (s : Snapshot) : Bytes := (snapHeader s).bytes ++ s.data

theorem length_snapImage (s : Snapshot) : (snapImage s).length = snapHeaderSize + s.data.length := by
  rw [snapImage, List.length_append, SnapHeader.length_bytes]

/-! ## Saving -/

def snapshotWrites (s : Snapshot) : List FileCall :=
  [.write (snapHeader s).bytes, .write s.data, .fsync, .close]

def snapshotCalls (s : Snapshot) : List FileCall := .create :: snapshotWrites s

/-- The node keeps only the entries after the snapshot. -/
def compactLog (s : Snapshot) (nd : RaftNode) : RaftNode :=
  { nd with
    lastSnapshotIndex := s.index
    lastSnapshotTerm := s.term
    log := nd.log.filter fun e => e.index > s.index }

def raftSaveSnapshot (answer : Nat → Option Nat) (nd : RaftNode) (s : Snapshot) (disk : Disk) :
    RaftNode × Disk × Int :=
  let r := perform answer 0 (snapshotCalls s) (disk (.snap nd.nodeId))
  let disk := Function.update disk (.snap nd.nodeId) r.1
  if r.2 ≠ 0 then (nd, disk, -1) else (compactLog s nd, disk, 0)

theorem written_snapshotWrites (s : Snapshot) : written (snapshotWrites s) = snapImage s := by
  simp [snapshotWrites, written, FileCall.payload, snapImage]

theorem create_notMem_snapshotWrites (s : Snapshot) : .create ∉ snapshotWrites s := by
  simp [snapshotWrites]

/-! ## Loading -/

/-- What `*data` points to. -/
inductive SnapData where
  | null
  | freed
  | buf (bs : Bytes)
  deriving DecidableEq, Repr

/-- The out parameters of `raft_load_snapshot`. -/
structure SnapOut where
  index : UInt64
  term : UInt64
  data : SnapData
  len : Nat
  deriving DecidableEq, Repr

/-- `raft_load_snapshot`: whether `open` is refused and `malloc` succeeds are
given. The outputs are written before the data is read. -/
def raftLoadSnapshot (denied malloc : Bool) (nodeId : CString) (disk : Disk) (out : SnapOut) :
    SnapOut × Int :=
  match openRead denied (disk (.snap nodeId)) with
  | .enoent => (out, 0)
  | .error => (out, -1)
  | .fd bs =>
    match readN snapHeaderSize bs with
    | none => (out, -1)
    | some (hdrBytes, bs) =>
      let hdr := SnapHeader.ofBytes hdrBytes
      if hdr.magic ≠ snapMagic then (out, -1)
      else
        let out := { out with
          index := hdr.lastIndex, term := hdr.lastTerm, len := hdr.dataLen.toNat }
        if malloc = false then ({ out with data := .null }, -1)
        else match readN hdr.dataLen.toNat bs with
          | none => ({ out with data := .freed }, -1)
          | some (data, _) => ({ out with data := .buf data }, 0)

def SnapOut.init : SnapOut := ⟨0, 0, .null, 0⟩

/-- The snapshot such a caller gets: the call returns 0 and sets `*data`. -/
def loadedSnapshot (nodeId : CString) (disk : Disk) : Option Snapshot :=
  match raftLoadSnapshot false true nodeId disk .init with
  | (⟨index, term, .buf data, _⟩, 0) => some ⟨index, term, data⟩
  | _ => none

section
variable {nodeId : CString} {disk : Disk}

theorem loadedSnapshot_short {bs : Bytes} (hfile : disk (.snap nodeId) = some bs)
    (hlen : bs.length < snapHeaderSize) : loadedSnapshot nodeId disk = none := by
  unfold loadedSnapshot raftLoadSnapshot
  rw [hfile, openRead_some]
  dsimp only
  rw [readN_eq_none hlen]
  rfl

theorem loadedSnapshot_header {hdrBytes bs : Bytes} {hdr : SnapHeader}
    (hfile : disk (.snap nodeId) = some (hdrBytes ++ bs))
    (hlen : hdrBytes.length = snapHeaderSize) (hhdr : SnapHeader.ofBytes hdrBytes = hdr)
    (hmagic : hdr.magic = snapMagic) :
    loadedSnapshot nodeId disk =
      (readN hdr.dataLen.toNat bs).map fun p => ⟨hdr.lastIndex, hdr.lastTerm, p.1⟩ := by
  unfold loadedSnapshot raftLoadSnapshot
  rw [hfile, openRead_some]
  dsimp only
  rw [readN_append hlen]
  dsimp only
  rw [hhdr, if_neg (not_not.2 hmagic), if_neg (by decide)]
  cases readN hdr.dataLen.toNat bs <;> rfl

/-- **A snapshot file cut after `k` bytes** loads if nothing is missing. -/
theorem loadedSnapshot_cut {s : Snapshot} (hs : s.Storable) {k : Nat}
    (hfile : disk (.snap nodeId) = some ((snapImage s).take k)) :
    loadedSnapshot nodeId disk = if (snapImage s).length ≤ k then some s else none := by
  have hlen := (snapHeader s).length_bytes
  have himg := length_snapImage s
  by_cases hk : k < snapHeaderSize
  · rw [if_neg (by omega)]
    exact loadedSnapshot_short hfile (lt_of_le_of_lt (List.length_take_le ..) hk)
  · have hsplit : (snapImage s).take k = (snapHeader s).bytes ++ s.data.take (k - snapHeaderSize) := by
      rw [snapImage, List.take_append, List.take_of_length_le (by omega), hlen]
    have hdata : (snapHeader s).dataLen.toNat = s.data.length := UInt32.toNat_ofNat_of_lt' hs
    rw [hsplit] at hfile
    rw [loadedSnapshot_header hfile hlen (SnapHeader.ofBytes_bytes _) rfl, hdata]
    by_cases hall : (snapImage s).length ≤ k
    · have hread : readN s.data.length s.data = some (s.data, []) := by
        simpa using readN_append (rfl : s.data.length = _) []
      rw [if_pos hall, List.take_of_length_le (by omega), hread]
      rfl
    · rw [if_neg hall, readN_eq_none (lt_of_le_of_lt (List.length_take_le ..) (by omega))]
      rfl

end

end DRoole
