import DRoole.Wal.Restore

/-!
# Recovery of a damaged write-ahead log

Whatever stands in the file after its first `k` bytes, `raft_restore_state`
keeps the entries that lie within them. The allocations for those entries
succeed; those for what follows may fail. The `malloc` of the checksum buffer,
which the source does not check, is taken to succeed; with it
`raft_restore_state` computes what `raftRestoreState` does
(`raftRestoreStateMem_of_scratch`). The loop has no bound in the source:
`RestoreEnds` is its run without the fuel of `restoreEntries`.
-/

namespace DRoole

open Lib

/-! ## What was written -/

/-- The most bytes one `write` transfers on Linux. -/
def maxTransfer : Nat := 0x7ffff000

/-- No longer write is answered in full. -/
def TransfersAtMost (answer : Nat → Option Nat) (cs : List FileCall) : Prop :=
  ∀ n c, cs[n]? = some c → maxTransfer < c.payload.length → answer n ≠ none

theorem transfersAtMost_of_short {answer : Nat → Option Nat} {cs : List FileCall}
    (h : ∀ c ∈ cs, c.payload.length ≤ maxTransfer) : TransfersAtMost answer cs :=
  fun _ c hc hlong => absurd (h c (List.mem_of_getElem? hc)) (Nat.not_le.2 hlong)

/-- **What a successful `raft_persist_state` leaves**: the image of the node, in
which every length field is right. -/
theorem persisted_image {answer : Nat → Option Nat} {nd : RaftNode} {disk disk' : Disk}
    (hlimit : TransfersAtMost answer (persistCalls nd.durable))
    (hpersist : raftPersistState answer nd disk = (disk', 0)) :
    disk' (.wal nd.nodeId) = some (walImage nd.durable) ∧ ∀ e ∈ nd.log, e.Storable := by
  obtain ⟨hdisk, hzero⟩ := Prod.mk.inj hpersist
  obtain ⟨hfile, hok⟩ := perform_create_eq_zero (create_notMem_persistWrites nd.durable)
    (Prod.ext rfl hzero : perform answer 0 (persistCalls nd.durable) _ = (_, 0))
  rw [written_persistWrites] at hfile
  refine ⟨?_, fun e he => ?_⟩
  · rw [← hdisk, Function.update_self]
    exact hfile
  · have hwrite : .write (entryBody e) ∈ persistWrites nd.durable := by
      refine List.mem_cons_of_mem _ (List.mem_append_left _ (List.mem_flatMap.2 ⟨e, he, ?_⟩))
      simp [entryCalls]
    obtain ⟨i, hi⟩ := List.getElem?_of_mem hwrite
    have hshort : ¬ maxTransfer < (entryBody e).length := fun hlong =>
      hlimit (i + 1) (.write (entryBody e)) hi hlong (hok i _ hi rfl)
    rw [entryBody, List.length_append, maxTransfer] at hshort
    unfold RaftLogEntry.Storable
    omega

/-! ## The read loop -/

/-- The allocations for a slot: the data, and the log if it has to grow. -/
def slotOk (nd : RaftNode) (a : Alloc) : Bool :=
  a.malloc && (nd.log.length < nd.logCapacity || a.realloc)

/-- The read loop of `raft_restore_state` runs from `nd` and the bytes left in
the file to the node it ends with. -/
inductive RestoreEnds (alloc : Nat → Alloc) : RaftNode → Bytes → RaftNode → Prop where
  | refused {nd : RaftNode} {bs : Bytes} (h : readEntry bs = none) : RestoreEnds alloc nd bs nd
  | noMemory {nd : RaftNode} {bs rest : Bytes} {e : RaftLogEntry}
      (h : readEntry bs = some (e, rest)) (ha : slotOk nd (alloc nd.log.length) = false) :
      RestoreEnds alloc nd bs nd
  | push {nd nd' : RaftNode} {bs rest : Bytes} {e : RaftLogEntry}
      (h : readEntry bs = some (e, rest)) (ha : slotOk nd (alloc nd.log.length) = true)
      (hrest : RestoreEnds alloc (pushEntry nd e) rest nd') : RestoreEnds alloc nd bs nd'

theorem slotOk_eq_false_iff {nd : RaftNode} {a : Alloc} :
    slotOk nd a = false ↔ a.malloc = false ∨ nd.log.length ≥ nd.logCapacity ∧ a.realloc = false := by
  unfold slotOk
  cases a.malloc <;> simp

/-- **Termination.** The loop ends on every file, and the bytes left are fuel enough. -/
theorem restoreEnds (alloc : Nat → Alloc) {fuel : Nat} (nd : RaftNode) {bs : Bytes}
    (hf : bs.length ≤ fuel) : RestoreEnds alloc nd bs (restoreEntries alloc fuel nd bs) := by
  induction fuel generalizing nd bs with
  | zero =>
    rw [List.length_eq_zero_iff.1 (Nat.le_zero.1 hf)]
    exact .refused rfl
  | succ fuel ih =>
    rw [restoreEntries]
    split
    · rename_i hread
      exact .refused hread
    · rename_i e rest hread
      have hshort := readEntry_shorter hread
      split
      · rename_i hno
        exact .noMemory hread (slotOk_eq_false_iff.2 hno)
      · rename_i hyes
        refine .push hread ?_ (ih _ (by omega))
        exact Bool.not_eq_false _ ▸ mt slotOk_eq_false_iff.1 hyes

/-- The loop appends the records it scans, up to the first allocation that fails. -/
theorem restoreEntries_eq_take (alloc : Nat → Alloc) (fuel : Nat) (nd : RaftNode) (bs : Bytes) :
    ∃ n, restoreEntries alloc fuel nd bs = ((walFormat.scan fuel bs).take n).foldl pushEntry nd ∧
      ∀ m, m ≤ (walFormat.scan fuel bs).length → (∀ i < m, alloc (nd.log.length + i) = .ok) →
        m ≤ n := by
  induction fuel generalizing nd bs with
  | zero => exact ⟨0, rfl, fun m hm _ => hm⟩
  | succ fuel ih =>
    rw [restoreEntries, RecordFormat.scan]
    cases hread : readEntry bs with
    | none =>
      have hnext : walFormat.next bs = none := hread
      rw [hnext]
      exact ⟨0, rfl, fun m hm _ => hm⟩
    | some p =>
      have hnext : walFormat.next bs = some p := hread
      rw [hnext]
      dsimp only
      split
      · rename_i hno
        refine ⟨0, rfl, fun m _ hok => Nat.le_of_not_lt fun hpos => ?_⟩
        rw [show alloc nd.log.length = .ok from hok 0 hpos] at hno
        exact hno.elim Bool.noConfusion fun h => Bool.noConfusion h.2
      · obtain ⟨n, hn, hmost⟩ := ih (pushEntry nd p.1) p.2
        refine ⟨n + 1, hn, fun m hm hok => ?_⟩
        cases m with
        | zero => exact Nat.zero_le _
        | succ m =>
          refine Nat.succ_le_succ (hmost m (Nat.le_of_succ_le_succ hm) fun i hi => ?_)
          rw [pushEntry_log, List.length_append, List.length_singleton, Nat.add_assoc,
            Nat.add_comm 1 i]
          exact hok (i + 1) (Nat.succ_lt_succ hi)

theorem restoreEntries_front {nd : RaftNode} (hfresh : nd.log = []) {alloc : Nat → Alloc} {bs : Bytes}
    {es : List RaftLogEntry} (hes : es <+: walFormat.scan bs.length bs)
    (halloc : ∀ i < es.length, alloc i = .ok) :
    ∃ n, es.length ≤ n ∧ restoreEntries alloc bs.length nd bs =
      ((walFormat.scan bs.length bs).take n).foldl pushEntry nd := by
  obtain ⟨n, hn, hmost⟩ := restoreEntries_eq_take alloc bs.length nd bs
  refine ⟨n, hmost _ hes.length_le fun i hi => ?_, hn⟩
  rw [hfresh, List.length_nil, Nat.zero_add]
  exact halloc i hi

theorem walImage_agrees {d : Durable} {F : Bytes} {k : Nat} (hk : walHeaderSize ≤ k)
    (hF : F.take k = (walImage d).take k) :
    F = (walHeader d).bytes ++ F.drop walHeaderSize ∧
      (F.drop walHeaderSize).take (k - walHeaderSize) =
        (walFormat.stream d.log).take (k - walHeaderSize) := by
  have hlen := (walHeader d).length_bytes
  have himage : (walImage d).take k =
      (walHeader d).bytes ++ (walFormat.stream d.log).take (k - walHeaderSize) := by
    rw [walImage, List.take_append, List.take_of_length_le (by omega), hlen]
  rw [himage] at hF
  have hhead : F.take walHeaderSize = (walHeader d).bytes := by
    rw [← Nat.min_eq_left hk, ← List.take_take, hF, ← hlen, List.take_left]
  refine ⟨?_, ?_⟩
  · nth_rewrite 1 [← List.take_append_drop walHeaderSize F]
    rw [hhead]
  · rw [← List.drop_take, hF, ← hlen, List.drop_left]

/-- The node when the loop starts: a fresh one with the term and the vote of the header. -/
def headed (nd : RaftNode) (d : Durable) : RaftNode :=
  { nd with currentTerm := d.currentTerm, votedFor := d.votedFor.strncpy 36 }

theorem raftRestoreState_headed (nd : RaftNode) {env : ReadEnv} {disk : Disk} {d : Durable}
    (hopen : env.denied = false) {bs : Bytes}
    (hfile : disk (.wal nd.nodeId) = some ((walHeader d).bytes ++ bs)) :
    raftRestoreState env nd disk = (restoreEntries env.alloc bs.length (headed nd d) bs, 0) := by
  have hvote : (walHeader d).votedFor.strncpy 36 = d.votedFor.strncpy 36 :=
    CString.strncpy_of_le (CString.length_strncpy_le ..)
  rw [raftRestoreState_entries hopen hfile (walHeader d).length_bytes (ofBytes_walHeader d) rfl,
    hvote]
  rfl

/-- What the loop makes of a file whose first `k` bytes are those of the image. -/
theorem restoreEntries_damaged (nd : RaftNode) (hfresh : nd.log = []) {alloc : Nat → Alloc}
    {es : List RaftLogEntry} (hes : ∀ e ∈ es, e.Storable) {bs : Bytes} {k : Nat}
    (hbs : bs.take k = (walFormat.stream es).take k)
    (halloc : ∀ i < (walFormat.whole es k).length, alloc i = .ok) :
    let r := restoreEntries alloc bs.length nd bs
    r = nd.withLog r ∧ walFormat.whole es k <+: r.log ∧
      (bs = (walFormat.stream es).take k → r.log = walFormat.whole es k) := by
  intro r
  have hfront := RecordFormat.whole_isPrefix_scan hes hbs (Nat.le_refl _)
  obtain ⟨n, henough, hn⟩ := restoreEntries_front hfresh hfront halloc
  have hlog : r.log = (walFormat.scan bs.length bs).take n := by
    show (restoreEntries alloc bs.length nd bs).log = _
    rw [hn, foldl_pushEntry_log, hfresh, List.nil_append]
  refine ⟨?_, ?_, fun hcut => ?_⟩
  · show restoreEntries alloc bs.length nd bs = nd.withLog (restoreEntries alloc bs.length nd bs)
    rw [hn]
    exact foldl_pushEntry_withLog _ _
  · rw [hlog]
    exact List.prefix_take_iff.2 ⟨hfront, henough⟩
  · have hscan : walFormat.scan bs.length bs = walFormat.whole es k := by
      rw [hcut]
      exact RecordFormat.scan_take hes (Nat.le_refl _)
    rw [hlog, hscan, List.take_of_length_le henough]

/-- **WAL recovery.** Every file that agrees with a written one on its first `k`
bytes restores the term, the vote and the entries within those bytes; every file
shorter than the header is refused. -/
theorem wal_recovery (nd : RaftNode) (hvote : nd.votedFor.bytes.length ≤ 36) (nodeId : CString)
    (hid : nd.nodeId = nodeId.strncpy 36) (answer : Nat → Option Nat) (disk disk' : Disk)
    (hlimit : TransfersAtMost answer (persistCalls nd.durable))
    (hpersist : raftPersistState answer nd disk = (disk', 0)) :
    ∃ W, disk' (.wal nd.nodeId) = some W ∧
      (∀ (F : Bytes) (k : Nat) (env : ReadEnv) (rand : UInt64) (fdisk : Disk),
        walHeaderSize ≤ k → F.take k = W.take k → fdisk (.wal nd.nodeId) = some F →
        env.denied = false →
        (∀ i < (walFormat.whole nd.log (k - walHeaderSize)).length, env.alloc i = .ok) →
        let restored := raftRestoreState env (raftInit nodeId rand) fdisk
        RestoreEnds env.alloc (headed (raftInit nodeId rand) nd.durable) (F.drop walHeaderSize)
            restored.1 ∧
          restored.2 = 0 ∧ restored.1.currentTerm = nd.currentTerm ∧
          restored.1.votedFor = nd.votedFor ∧
          walFormat.whole nd.log (k - walHeaderSize) <+: restored.1.log ∧
          (F = W.take k → restored.1.log = walFormat.whole nd.log (k - walHeaderSize))) ∧
      ∀ (F : Bytes) (env : ReadEnv) (node : RaftNode) (fdisk : Disk),
        F.length < walHeaderSize → fdisk (.wal node.nodeId) = some F →
        raftRestoreState env node fdisk = (node, -1) := by
  obtain ⟨hfile, hes⟩ := persisted_image hlimit hpersist
  refine ⟨_, hfile, ?_, fun F env node fdisk hlen hF => raftRestoreState_short hF hlen⟩
  intro F k env rand fdisk hk hF hdisk hopen halloc restored
  rw [hid] at hdisk
  obtain ⟨hsplit, hbytes⟩ := walImage_agrees hk hF
  have hbytes : (F.drop walHeaderSize).take (k - walHeaderSize) =
      (walFormat.stream nd.log).take (k - walHeaderSize) := hbytes
  rw [hsplit] at hdisk
  have hr : restored = _ := raftRestoreState_headed (raftInit nodeId rand) hopen hdisk
  obtain ⟨hkeep, hstart, hexact⟩ := restoreEntries_damaged
    (headed (raftInit nodeId rand) nd.durable) rfl hes hbytes halloc
  rw [hr]
  refine ⟨restoreEnds env.alloc _ (Nat.le_refl _), rfl, ?_, ?_, hstart, fun hcut => hexact ?_⟩
  · exact congrArg (·.currentTerm) hkeep
  · exact (congrArg (·.votedFor) hkeep).trans (CString.strncpy_of_le hvote)
  · have hlen := congrArg List.length hcut
    rw [List.length_take] at hlen
    rw [← hbytes, List.take_of_length_le (by rw [List.length_drop]; omega)]

/-- A file that is damaged after the first of two entries. -/
def damagedFile : Bytes := (walImage votedNode.durable).take 100 ++ [1, 2, 3]

theorem wal_recovery_damaged :
    (raftRestoreState .ok (raftInit idA 1) fun _ => some damagedFile).1.votedFor = idB ∧
      [⟨3, 1, [0], 0⟩] <+: (raftRestoreState .ok (raftInit idA 1) fun _ => some damagedFile).1.log := by
  obtain ⟨W, hW, hrec, -⟩ := wal_recovery votedNode (by decide) idA rfl
    (fun _ => none) (fun _ => none) _ (transfersAtMost_of_short (by decide +kernel))
    (raftPersistState_ok (fun _ => rfl) _ _)
  obtain rfl : walImage votedNode.durable = W := Option.some.inj hW
  have h := hrec damagedFile 100 .ok 1 (fun _ => some damagedFile) (by decide) (by decide +kernel) rfl
    rfl fun _ _ => rfl
  exact ⟨h.2.2.2.1, h.2.2.2.2.1⟩

end DRoole
