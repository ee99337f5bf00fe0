import DRoole.Lib.Layout
import DRoole.Wal.Checksum
import DRoole.Wal.Recovery

/-!
# Damage within a record

The checksum of a record covers its header and its data, and `crc32` tells apart
any two bodies that differ in at most four consecutive bytes. So a record with
such an alteration, or with an altered checksum, is refused, and recovery ends
before it. As in `Wal/Recovery`, the unchecked `malloc` of the checksum buffer is
taken to succeed (`raftRestoreStateMem_of_scratch`).
-/

namespace DRoole

open Lib

/-- **Bursts.** Bodies that differ in at most four consecutive bytes have different checksums. -/
theorem crc32_window {n p : Nat} (hn : n ≤ 4) {xs ys : Bytes} (hlen : xs.length = ys.length)
    (hfront : xs.take p = ys.take p) (hback : xs.drop (p + n) = ys.drop (p + n))
    (h : crc32 xs = crc32 ys) : xs = ys := by
  have hrun : xs.foldl crc32Step 0xFFFFFFFF = ys.foldl crc32Step 0xFFFFFFFF :=
    (UInt32.xor_left_inj _).1 h
  have hrun := congrArg UInt32.toBitVec hrun
  rw [foldl_crc32Step_toBitVec, foldl_crc32Step_toBitVec] at hrun
  have hmap : xs.map UInt8.toBitVec = ys.map UInt8.toBitVec := by
    refine Crc.run_window crcTable_topsDistinct (n := n) (p := p) (by omega) (by simpa using hlen) ?_ ?_ hrun
    · rw [← List.map_take, hfront, List.map_take]
    · rw [← List.map_drop, hback, List.map_drop]
  exact List.map_injective_iff.2 (fun a b => UInt8.toBitVec_inj.1) hmap

/-! ## A record -/

/-- Where the four bytes of `data_len` stand in a record. -/
def dataLenOffset : Nat := 21

/-- The `n` bytes from `p` on lie before `data_len`, in the data, or in the checksum. -/
def InField (e : RaftLogEntry) (p n : Nat) : Prop :=
  p + n ≤ dataLenOffset ∨
  (walEntryHeaderSize ≤ p ∧ p + n ≤ walEntryHeaderSize + e.data.length) ∨
  (walEntryHeaderSize + e.data.length ≤ p ∧ p + n ≤ walEntryHeaderSize + e.data.length + 4)

instance (e : RaftLogEntry) (p n : Nat) : Decidable (InField e p n) :=
  inferInstanceAs (Decidable (_ ∨ _))

theorem length_entryBody (e : RaftLogEntry) :
    (entryBody e).length = walEntryHeaderSize + e.data.length := by
  simp [entryBody]

/-- A body and a checksum of it that differ from those of `e` differ in more than
one place: a change within one of the two would show in the other. -/
theorem not_altered_of_checksum {e : RaftLogEntry} {p n : Nat} (hn : n ≤ 4) {body crc : Bytes}
    (hbody : body.length = (entryBody e).length) (hcrc : crc.length = 4)
    (hsum : get32 crc = crc32 body)
    (hplace : p + n ≤ (entryBody e).length ∨ (entryBody e).length ≤ p) :
    ¬ Altered p n (entryRecord e) (body ++ crc) := by
  intro halt
  refine halt.ne ?_
  unfold entryRecord at halt ⊢
  rcases hplace with hinside | hafter
  · have hold : crc = be32 (crc32 (entryBody e)) := by
      have hdrop := halt.drop hinside
      rwa [List.drop_left, ← hbody, List.drop_left] at hdrop
    have hfront := halt.front
    rw [List.take_append_of_le_length (by omega), List.take_append_of_le_length (by omega)] at hfront
    have hback := halt.back
    rw [List.drop_append_of_le_length (by omega), List.drop_append_of_le_length hinside, hold,
      List.append_cancel_right_eq] at hback
    rw [hold, get32_be32] at hsum
    rw [crc32_window hn hbody hfront hback hsum.symm, hold]
  · have hold : body = entryBody e := by
      have htake := halt.take hafter
      rwa [List.take_left, ← hbody, List.take_left] at htake
    rw [← be32_get32 hcrc, hsum, hold]

section
variable {e : RaftLogEntry} {p n : Nat} {rec : Bytes} (halt : Altered p n (entryRecord e) rec)
include halt

theorem dataLen_of_altered (hfield : InField e p n) :
    slice dataLenOffset 4 rec = slice dataLenOffset 4 (entryHeader e).bytes := by
  have hrecord : slice dataLenOffset 4 (entryRecord e) = slice dataLenOffset 4 (entryHeader e).bytes := by
    have hlen := (entryHeader e).length_bytes
    rw [entryRecord, entryBody, List.append_assoc, slice, slice, List.drop_append_of_le_length
      (by rw [hlen]; decide), List.take_append_of_le_length (by rw [List.length_drop, hlen]; decide)]
  rw [← hrecord]
  rcases hfield with hbefore | ⟨hp, -⟩ | ⟨hp, -⟩
  · rw [slice, halt.drop hbefore, slice]
  all_goals
    have hhead : rec.take walEntryHeaderSize = (entryRecord e).take walEntryHeaderSize :=
      halt.take (by omega)
    have hdrop := congrArg (List.drop dataLenOffset) hhead
    rwa [List.drop_take, List.drop_take] at hdrop

/-- **A changed record is refused.** -/
theorem readEntry_altered (he : e.Storable) (hn : n ≤ 4) (hfield : InField e p n) (rest : Bytes) :
    readEntry (rec ++ rest) = none := by
  rw [Option.eq_none_iff_forall_ne_some]
  rintro ⟨e', rest'⟩ hread
  obtain ⟨hdr, crc, ha⟩ := readEntry_eq_some_iff.1 hread
  have hlen : rec.length = (entryBody e).length + 4 := by
    rw [halt.length, length_entryRecord, length_entryBody]
  have hbody := length_entryBody e
  have hhdr : hdr = rec.take walEntryHeaderSize := by
    have htake := congrArg (List.take walEntryHeaderSize) ha.bytes_eq
    rw [List.take_append_of_le_length (by omega), ← ha.length_hdr, List.take_left] at htake
    rw [← ha.length_hdr]
    exact htake.symm
  have hdata : e'.data.length = e.data.length := by
    have hslice : slice dataLenOffset 4 hdr = slice dataLenOffset 4 (entryHeader e).bytes := by
      rw [← dataLen_of_altered halt hfield, hhdr, slice, List.drop_take, List.take_take]
      rfl
    have hfields := (entryHeader e).ofBytes_bytes
    rw [ha.dataLen, ← he.dataLen]
    refine congrArg UInt32.toNat ?_
    rw [show (WalEntryHeader.ofBytes hdr).dataLen = get32 (slice dataLenOffset 4 hdr) from rfl, hslice]
    exact congrArg WalEntryHeader.dataLen hfields
  have hrec : rec = (hdr ++ e'.data) ++ crc := by
    have hsplit : rec ++ rest = ((hdr ++ e'.data) ++ crc) ++ rest' := by
      rw [ha.bytes_eq]
      simp only [List.append_assoc]
    refine (List.append_inj hsplit ?_).1
    simp only [List.length_append, ha.length_hdr, ha.length_crc, hdata]
    omega
  rw [hrec] at halt
  refine not_altered_of_checksum hn ?_ ha.length_crc ha.crc_eq ?_ halt
  · rw [List.length_append, ha.length_hdr, hdata, hbody]
  · unfold InField dataLenOffset walEntryHeaderSize at hfield
    unfold walEntryHeaderSize at hbody
    omega

end

/-! ## The file -/

/-- Where the record of entry `i` starts in the file. -/
def recordStart (log : List RaftLogEntry) (i : Nat) : Nat :=
  walHeaderSize + (walFormat.stream (log.take i)).length

theorem stream_split {log : List RaftLogEntry} {i : Nat} {e : RaftLogEntry} (he : log[i]? = some e) :
    walFormat.stream log = walFormat.stream (log.take i) ++
      (entryRecord e ++ walFormat.stream (log.drop (i + 1))) := by
  obtain ⟨hi, rfl⟩ := List.getElem?_eq_some_iff.1 he
  calc walFormat.stream log
      = walFormat.stream (log.take i ++ log[i] :: log.drop (i + 1)) := by
        rw [← List.drop_eq_getElem_cons hi, List.take_append_drop]
    _ = _ := by rw [RecordFormat.stream, List.flatMap_append, List.flatMap_cons]; rfl

theorem restoreEntries_refused {nd : RaftNode} (hfresh : nd.log = []) {alloc : Nat → Alloc}
    {es : List RaftLogEntry} (hes : ∀ e ∈ es, e.Storable) {bad : Bytes} (hbad : readEntry bad = none)
    (halloc : ∀ j < es.length, alloc j = .ok) :
    (restoreEntries alloc (walFormat.stream es ++ bad).length nd (walFormat.stream es ++ bad)).log =
      es := by
  have hscan : walFormat.scan (walFormat.stream es ++ bad).length (walFormat.stream es ++ bad) = es :=
    RecordFormat.scan_append_refused hes hbad (Nat.le_refl _)
  obtain ⟨n, henough, hn⟩ := restoreEntries_front hfresh (by rw [hscan]) halloc
  rw [hn, hscan, foldl_pushEntry_log, hfresh, List.nil_append, List.take_of_length_le henough]

/-- **WAL corruption is detected.** At most four consecutive bytes of entry `i`'s
record, in one of its fields other than `data_len`, are changed: the entries
before `i` are restored and no other. -/
theorem wal_corruption_detected (nd : RaftNode) (nodeId : CString)
    (hid : nd.nodeId = nodeId.strncpy 36) (answer : Nat → Option Nat) (disk disk' : Disk)
    (hlimit : TransfersAtMost answer (persistCalls nd.durable))
    (hpersist : raftPersistState answer nd disk = (disk', 0)) :
    ∃ W, disk' (.wal nd.nodeId) = some W ∧
      ∀ (i : Nat) (e : RaftLogEntry), nd.log[i]? = some e →
        ∀ (p n : Nat) (F : Bytes), n ≤ 4 → InField e p n →
          Altered (recordStart nd.log i + p) n W F →
          ∀ (env : ReadEnv) (rand : UInt64) (fdisk : Disk), fdisk (.wal nd.nodeId) = some F →
            env.denied = false → (∀ j < i, env.alloc j = .ok) →
            let restored := raftRestoreState env (raftInit nodeId rand) fdisk
            restored.2 = 0 ∧ restored.1.log = nd.log.take i := by
  obtain ⟨hfile, hes⟩ := persisted_image hlimit hpersist
  refine ⟨_, hfile, ?_⟩
  intro i e he p n F hn hfield halt env rand fdisk hF hopen halloc restored
  have himage : walImage nd.durable =
      ((walHeader nd.durable).bytes ++ walFormat.stream (nd.log.take i)) ++
        (entryRecord e ++ walFormat.stream (nd.log.drop (i + 1))) := by
    rw [walImage, show nd.durable.log = nd.log from rfl, stream_split he, List.append_assoc]
  have hstart : ((walHeader nd.durable).bytes ++ walFormat.stream (nd.log.take i)).length =
      recordStart nd.log i := by
    rw [List.length_append, WalHeader.length_bytes, recordStart]
  have hend : p + n ≤ (entryRecord e).length := by
    rw [length_entryRecord]
    unfold InField dataLenOffset walEntryHeaderSize at hfield
    unfold walEntryHeaderSize
    omega
  rw [himage, ← hstart] at halt
  obtain ⟨rec, rfl, hrec⟩ := halt.middle (Nat.le_add_right ..) (by omega)
  rw [Nat.add_sub_cancel_left] at hrec
  have hrefused := readEntry_altered hrec (hes e (List.mem_of_getElem? he)) hn hfield
    (walFormat.stream (nd.log.drop (i + 1)))
  rw [List.append_assoc, hid] at hF
  have hr : restored = _ := raftRestoreState_headed (raftInit nodeId rand) hopen hF
  rw [hr]
  refine ⟨rfl, restoreEntries_refused rfl (fun x hx => hes x (List.mem_of_mem_take hx)) hrefused ?_⟩
  exact fun j hj => halloc j (lt_of_lt_of_le hj (List.length_take_le ..))

theorem wal_corruption_detected_second :
    let F := (walImage votedNode.durable).set 120 9
    (raftRestoreState .ok (raftInit idA 1) fun _ => some F).1.log = [⟨3, 1, [0], 0⟩] := by
  obtain ⟨W, hW, hdetect⟩ := wal_corruption_detected votedNode idA rfl
    (fun _ => none) (fun _ => none) _ (transfersAtMost_of_short (by decide +kernel))
    (raftPersistState_ok (fun _ => rfl) _ _)
  obtain rfl : walImage votedNode.durable = W := Option.some.inj hW
  exact (hdetect 1 ⟨7, 2, [1, 2, 3], 1⟩ rfl 26 1 _ (by decide) (by decide)
    ⟨by decide +kernel, by decide +kernel, by decide +kernel, by decide +kernel⟩ .ok 1
    (fun _ => some ((walImage votedNode.durable).set 120 9)) rfl rfl fun _ _ => rfl).2

end DRoole
