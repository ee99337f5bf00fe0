import DRoole.Lib.Layout
import DRoole.Wal.Snapshot

/-!
# Loading a snapshot

What `raft_load_snapshot` returns for every content of the file. It returns 0
for a complete snapshot and also for a missing file ("No snapshot"), and does
not touch the outputs before it has seen a header of the right magic. The one
`read` of the data is taken to move all of it; on Linux a call moves at most
`0x7ffff000` bytes, as `TransfersAtMost` says for writes.
-/

namespace DRoole

open Lib

/-- The file starts with a complete snapshot. -/
def HoldsSnapshot (bs : Bytes) (s : Snapshot) : Prop := s.Storable ∧ snapImage s <+: bs

/-- The outputs for a snapshot. -/
def Snapshot.out (s : Snapshot) : SnapOut := ⟨s.index, s.term, .buf s.data, s.data.length⟩

theorem SnapHeader.bytes_ofBytes {bs : Bytes} (h : bs.length = snapHeaderSize) :
    (SnapHeader.ofBytes bs).bytes = bs := by
  unfold snapHeaderSize at h
  rw [SnapHeader.bytes, SnapHeader.ofBytes]
  dsimp only
  rw [be32_get32 (by simp [slice]; omega), be64_get64 (by simp [slice]; omega),
    be64_get64 (by simp [slice]; omega), be32_get32 (by simp [slice]; omega),
    slice_append_slice 0 4 8, slice_append_slice 0 12 8, slice_append_slice 0 20 4, slice_self h]

/-- **Complete files**: a header of the right magic, and the bytes it asks for. -/
theorem holdsSnapshot_iff {bs : Bytes} {s : Snapshot} :
    HoldsSnapshot bs s ↔ ∃ hdrBytes rest tail, readN snapHeaderSize bs = some (hdrBytes, rest) ∧
      (SnapHeader.ofBytes hdrBytes).magic = snapMagic ∧
      readN (SnapHeader.ofBytes hdrBytes).dataLen.toNat rest = some (s.data, tail) ∧
      s.index = (SnapHeader.ofBytes hdrBytes).lastIndex ∧
      s.term = (SnapHeader.ofBytes hdrBytes).lastTerm := by
  constructor
  · rintro ⟨hs, tail, rfl⟩
    have hhdr := SnapHeader.ofBytes_bytes (snapHeader s)
    have hdata : (snapHeader s).dataLen.toNat = s.data.length := UInt32.toNat_ofNat_of_lt' hs
    refine ⟨(snapHeader s).bytes, s.data ++ tail, tail, ?_, ?_⟩
    · rw [snapImage, List.append_assoc, readN_append (snapHeader s).length_bytes]
    · rw [hhdr, hdata, readN_append rfl]
      exact ⟨rfl, rfl, rfl, rfl⟩
  · rintro ⟨hdrBytes, rest, tail, hread, hmagic, hdata, hindex, hterm⟩
    obtain ⟨rfl, hlen⟩ := readN_eq_some hread
    obtain ⟨rfl, hdlen⟩ := readN_eq_some hdata
    have hs : s.Storable := by
      unfold Snapshot.Storable
      rw [hdlen]
      exact UInt32.toNat_lt _
    have hhdr : snapHeader s = SnapHeader.ofBytes hdrBytes := by
      rw [snapHeader, hindex, hterm, hdlen, UInt32.ofNat_toNat, ← hmagic]
    refine ⟨hs, tail, ?_⟩
    rw [snapImage, hhdr, SnapHeader.bytes_ofBytes hlen, List.append_assoc]

section
variable {malloc : Bool} {nodeId : CString} {disk : Disk} {out : SnapOut}

theorem raftLoadSnapshot_missing (hfile : disk (.snap nodeId) = none) :
    raftLoadSnapshot false malloc nodeId disk out = (out, 0) := by
  unfold raftLoadSnapshot
  rw [hfile]
  rfl

variable {bs : Bytes} (hfile : disk (.snap nodeId) = some bs)
include hfile

theorem raftLoadSnapshot_short (hlen : bs.length < snapHeaderSize) :
    raftLoadSnapshot false malloc nodeId disk out = (out, -1) := by
  unfold raftLoadSnapshot
  rw [hfile, openRead_some]
  dsimp only
  rw [readN_eq_none hlen]

theorem raftLoadSnapshot_magic (hmagic : (SnapHeader.ofBytes bs).magic ≠ snapMagic) :
    raftLoadSnapshot false malloc nodeId disk out = (out, -1) := by
  by_cases hlen : bs.length < snapHeaderSize
  · exact raftLoadSnapshot_short hfile hlen
  · have hsame : (SnapHeader.ofBytes (bs.take snapHeaderSize)).magic = (SnapHeader.ofBytes bs).magic := by
      simp [SnapHeader.ofBytes, slice, List.take_take, snapHeaderSize]
    unfold raftLoadSnapshot readN
    rw [hfile, openRead_some]
    dsimp only
    rw [if_pos (Nat.not_lt.1 hlen)]
    dsimp only
    rw [hsame, if_pos hmagic]

theorem raftLoadSnapshot_complete {s : Snapshot} (hs : HoldsSnapshot bs s) :
    raftLoadSnapshot false true nodeId disk out = (s.out, 0) := by
  obtain ⟨hdrBytes, rest, tail, hread, hmagic, hdata, hindex, hterm⟩ := holdsSnapshot_iff.1 hs
  unfold raftLoadSnapshot
  rw [hfile, openRead_some]
  dsimp only
  rw [hread]
  dsimp only
  rw [if_neg (not_not.2 hmagic), if_neg (by decide), hdata]
  dsimp only
  rw [Snapshot.out, hindex, hterm, (readN_eq_some hdata).2]

theorem raftLoadSnapshot_eq_zero (h : (raftLoadSnapshot false malloc nodeId disk out).2 = 0) :
    malloc = true ∧ ∃ s, HoldsSnapshot bs s := by
  unfold raftLoadSnapshot at h
  rw [hfile, openRead_some] at h
  dsimp only at h
  split at h
  · cases h
  rename_i hdrBytes rest hread
  split at h
  · cases h
  rename_i hmagic
  split at h
  · cases h
  rename_i hmalloc
  split at h
  · cases h
  rename_i data tail hdata
  exact ⟨Bool.not_eq_false _ ▸ hmalloc, ⟨_, _, data⟩,
    holdsSnapshot_iff.2 ⟨hdrBytes, rest, tail, hread, not_not.1 hmagic, hdata, rfl, rfl⟩⟩

end

theorem saved_holdsSnapshot {answer : Nat → Option Nat} {nd nd' : RaftNode} {s : Snapshot}
    (hs : s.Storable) {disk disk' : Disk} (hsave : raftSaveSnapshot answer nd s disk = (nd', disk', 0)) :
    ∃ bs, disk' (.snap nd.nodeId) = some bs ∧ HoldsSnapshot bs s := by
  unfold raftSaveSnapshot at hsave
  dsimp only at hsave
  split at hsave
  · cases hsave
  · rename_i hzero
    obtain ⟨hfile, -⟩ := perform_create_eq_zero (create_notMem_snapshotWrites s)
      (Prod.ext rfl (not_not.1 hzero) : perform answer 0 (snapshotCalls s) _ = (_, 0))
    rw [written_snapshotWrites] at hfile
    refine ⟨_, ?_, hs, List.prefix_rfl⟩
    rw [← (Prod.mk.inj (Prod.mk.inj hsave).2).1, Function.update_self]
    exact hfile

/-- **Loading.** 0 is returned for a complete snapshot, with its index, term and
data, and for a missing file; the outputs are left alone unless the header is
complete and of the right magic. -/
theorem snapshot_load (denied malloc : Bool) (nodeId : CString) (disk : Disk) (out : SnapOut) :
    let r := raftLoadSnapshot denied malloc nodeId disk out
    (r.2 = 0 ↔ denied = false ∧ (disk (.snap nodeId) = none ∨
      malloc = true ∧ ∃ bs s, disk (.snap nodeId) = some bs ∧ HoldsSnapshot bs s)) ∧
    (∀ answer nd nd' s old, nd.nodeId = nodeId → s.Storable →
      raftSaveSnapshot answer nd s old = (nd', disk, 0) → denied = false → malloc = true →
      r = (s.out, 0)) ∧
    (denied = true ∨ disk (.snap nodeId) = none ∨ (∃ bs, disk (.snap nodeId) = some bs ∧
        (bs.length < snapHeaderSize ∨ (SnapHeader.ofBytes bs).magic ≠ snapMagic)) →
      r.1 = out) := by
  intro r
  refine ⟨?_, fun answer nd nd' s old hid hs hsave hopen hmem => ?_, fun hno => ?_⟩
  · cases denied with
    | true => exact ⟨nofun, fun h => Bool.noConfusion h.1⟩
    | false =>
      cases hfile : disk (.snap nodeId) with
      | none => exact iff_of_true (congrArg Prod.snd (raftLoadSnapshot_missing hfile)) ⟨rfl, .inl rfl⟩
      | some bs =>
        refine ⟨fun h => ?_, ?_⟩
        · obtain ⟨hmalloc, s, hs⟩ := raftLoadSnapshot_eq_zero hfile h
          exact ⟨rfl, .inr ⟨hmalloc, bs, s, rfl, hs⟩⟩
        · rintro ⟨-, hnone | ⟨rfl, bs', s, hbs', hs⟩⟩
          · cases hnone
          · cases hbs'
            exact congrArg Prod.snd (raftLoadSnapshot_complete hfile hs)
  · subst hid hopen hmem
    obtain ⟨bs, hfile, hholds⟩ := saved_holdsSnapshot hs hsave
    exact raftLoadSnapshot_complete hfile hholds
  · cases denied with
    | true => rfl
    | false =>
      rcases hno with hopen | hnone | ⟨bs, hfile, hlen | hmagic⟩
      · cases hopen
      · exact congrArg Prod.fst (raftLoadSnapshot_missing hnone)
      · exact congrArg Prod.fst (raftLoadSnapshot_short hfile hlen)
      · exact congrArg Prod.fst (raftLoadSnapshot_magic hfile hmagic)

/-- A missing file loads with 0 and sets nothing. -/
theorem missing_snapshot_loads :
    raftLoadSnapshot false true idA (fun _ => none) .init = (.init, 0) :=
  rfl

end DRoole
