import DRoole.Raft.LogIndex
import DRoole.Wal.Snapshot

/-!
# Restart after compaction

The array position of an entry is its index less `last_snapshot_index`, and
`last_snapshot_index` is in neither the log file nor anything that
`example_raft_init` reads. A node that compacted its log therefore comes back
with the remaining entries at the wrong indices (`restart_after_compaction_iff`).
-/

namespace DRoole

open Lib

def exampleRaftInit (env : ReadEnv) (nodeId : CString) (ps : List PeerAddr) (disk : Disk)
    (now rand : UInt64) : RaftNode :=
  raftStart (raftRestoreState env (addPeers (raftInit nodeId rand) ps) disk).1 now

/-- The node the cluster model starts is the one that reads the file. -/
theorem exampleRaftInit_eq_boot {nodeId : CString} {disk : Disk} {d : Durable}
    (hd : ∀ e ∈ d.log, e.Storable) (hfile : disk (.wal (nodeId.strncpy 36)) = some (walImage d))
    (ps : List PeerAddr) (now rand : UInt64) :
    exampleRaftInit .ok nodeId ps disk now rand = boot nodeId ps d now rand := by
  have hid : (addPeers (raftInit nodeId rand) ps).nodeId = nodeId.strncpy 36 := by
    rw [addPeers_frame]
    rfl
  unfold exampleRaftInit boot
  rw [raftRestoreState_image hd (by rw [hid]; exact hfile)]

/-! ## The snapshot marker -/

/-- The fields only `raft_save_snapshot` and `raft_init` write. -/
structure SameMarker (a b : RaftNode) : Prop where
  id : b.nodeId = a.nodeId
  index : b.lastSnapshotIndex = a.lastSnapshotIndex
  term : b.lastSnapshotTerm = a.lastSnapshotTerm

theorem Move.sameMarker {l : Label} {h h' : Host} (hm : Move l h h') :
    SameMarker h.node h'.node := by
  cases hm with
  | _ => exact ⟨rfl, rfl, rfl⟩

theorem calls_sameMarker (h : Host) (cs : List ApiCall) : SameMarker h.node (h.calls cs).node := by
  refine Host.calls_induct (P := fun g => SameMarker h.node g.node) (fun g c hg _ => ?_)
    ⟨rfl, rfl, rfl⟩ (Host.callsOk_true h cs)
  refine (g.call_moves c).invariant (P := fun x => SameMarker h.node x.node) hg
    fun x y l hx _ hl => ?_
  have hxy := hl.sameMarker
  exact ⟨hxy.id.trans hx.id, hxy.index.trans hx.index, hxy.term.trans hx.term⟩

/-! ## Log positions -/

theorem getLogEntry_ofNat {nd : RaftNode} {j : Nat}
    (hj : nd.lastSnapshotIndex.toNat + 1 + j < 2 ^ 64) :
    getLogEntry nd (UInt64.ofNat (nd.lastSnapshotIndex.toNat + 1 + j)) = nd.log[j]? := by
  have hi : (UInt64.ofNat (nd.lastSnapshotIndex.toNat + 1 + j)).toNat =
      nd.lastSnapshotIndex.toNat + 1 + j := UInt64.toNat_ofNat_of_lt' hj
  rw [getLogEntry_eq, hi, if_neg (by omega)]
  congr 1
  omega

/-- `b` answers about the log above `s` as `a` does. -/
structure SameLog (s : UInt64) (a b : RaftNode) : Prop where
  entry : ∀ i, s < i → getLogEntry b i = getLogEntry a i
  termAt : ∀ i, s < i → termAtIndex b i = termAtIndex a i
  lastIndex : lastLogIndex b = lastLogIndex a
  lastTerm : lastLogTerm b = lastLogTerm a

section
variable {a b : RaftNode} (hlog : b.log = a.log) (hb : b.lastSnapshotIndex = 0)
  (ha : 1 ≤ a.lastSnapshotIndex) (hlen : 40 * a.log.length < 2 ^ 64)

include hlog hb ha hlen

/-- Without the marker some entry is looked up past the end of the array, which
fits in memory with its 40-byte entries. -/
theorem exists_entry_lost (hne : a.log ≠ []) (hs : a.lastSnapshotIndex.toNat ≠ 2 ^ 64 - 1) :
    ∃ i, a.lastSnapshotIndex < i ∧ getLogEntry a i ≠ none ∧ getLogEntry b i = none := by
  have ha1 : 1 ≤ a.lastSnapshotIndex.toNat := UInt64.le_iff_toNat_le.1 ha
  have hlt := a.lastSnapshotIndex.toNat_lt
  have hpos : 0 < a.log.length := List.length_pos_iff.2 hne
  obtain ⟨j, hj, hover, hout⟩ : ∃ j, j < a.log.length ∧
      a.lastSnapshotIndex.toNat + 1 + j < 2 ^ 64 ∧ a.log.length ≤ a.lastSnapshotIndex.toNat + j := by
    by_cases hsmall : a.lastSnapshotIndex.toNat < a.log.length
    · exact ⟨a.log.length - 1, by omega, by omega, by omega⟩
    · exact ⟨0, hpos, by omega, by omega⟩
  have hpos : b.lastSnapshotIndex.toNat + 1 + (a.lastSnapshotIndex.toNat + j) =
      a.lastSnapshotIndex.toNat + 1 + j := by
    rw [hb, UInt64.toNat_zero]
    omega
  refine ⟨UInt64.ofNat (a.lastSnapshotIndex.toNat + 1 + j), ?_, ?_, ?_⟩
  · rw [UInt64.lt_iff_toNat_lt, UInt64.toNat_ofNat_of_lt' hover]
    omega
  · rw [getLogEntry_ofNat hover, List.getElem?_eq_getElem hj]
    exact nofun
  · rw [← hpos, getLogEntry_ofNat (by omega), hlog, List.getElem?_eq_none hout]

/-- **Losing the marker.** A node with the same log and no marker answers the
same only when no index is above the marker and the log is not empty. -/
theorem sameLog_iff :
    SameLog a.lastSnapshotIndex a b ↔ a.lastSnapshotIndex = UInt64.ofNat (2 ^ 64 - 1) ∧ a.log ≠ [] := by
  have hmax : (UInt64.ofNat (2 ^ 64 - 1)).toNat = 2 ^ 64 - 1 := rfl
  constructor
  · intro h
    have hne : a.log ≠ [] := by
      intro hnil
      have hlast := h.lastIndex
      simp only [lastLogIndex, hlog, hnil, List.getLast?_nil, hb] at hlast
      rw [← hlast] at ha
      exact absurd ha (by decide)
    refine ⟨?_, hne⟩
    by_contra hs
    have hs' : a.lastSnapshotIndex.toNat ≠ 2 ^ 64 - 1 := fun e =>
      hs (UInt64.toNat_inj.1 (e.trans hmax.symm))
    obtain ⟨i, hi, hbefore, hafter⟩ := exists_entry_lost hlog hb ha hlen hne hs'
    exact hbefore ((h.entry i hi).symm.trans hafter)
  · rintro ⟨hs, hne⟩
    have hnone : ∀ i : UInt64, ¬ a.lastSnapshotIndex < i := by
      intro i hi
      rw [UInt64.lt_iff_toNat_lt, hs, hmax] at hi
      have hi' := i.toNat_lt
      omega
    obtain ⟨e, he⟩ : ∃ e, a.log.getLast? = some e := ⟨_, List.getLast?_eq_some_getLast hne⟩
    refine ⟨fun i hi => absurd hi (hnone i), fun i hi => absurd hi (hnone i), ?_, ?_⟩
    · simp only [lastLogIndex, hlog, he]
    · simp only [lastLogTerm, hlog, he]

end

/-! ## The restart -/

/-- `raft_save_snapshot`, further calls, `raft_persist_state`, all of which succeed:
the node and its disk. -/
def compactAndPersist (h : Host) (disk : Disk) (s : Snapshot) (cs : List ApiCall) :
    RaftNode × Disk :=
  let r := raftSaveSnapshot (fun _ => none) h.node s disk
  let nd := (Host.calls { h with node := r.1 } cs).node
  (nd, (raftPersistState (fun _ => none) nd r.2.1).1)

theorem raftSaveSnapshot_ok (nd : RaftNode) (s : Snapshot) (disk : Disk) :
    raftSaveSnapshot (fun _ => none) nd s disk =
      (compactLog s nd, Function.update disk (.snap nd.nodeId) (some (snapImage s)), 0) := by
  unfold raftSaveSnapshot snapshotCalls
  rw [perform_create (fun _ => rfl) (create_notMem_snapshotWrites s), written_snapshotWrites]
  rfl

/-- What the restarted node has of the old one: its log, and not its marker. -/
theorem exampleRaftInit_compactAndPersist {h : Host} {nodeId : CString}
    (hid : h.node.nodeId = nodeId.strncpy 36) {disk : Disk} {s : Snapshot} {cs : List ApiCall}
    (hd : ∀ e ∈ (compactAndPersist h disk s cs).1.log, e.Storable) (ps : List PeerAddr)
    (now rand : UInt64) :
    let before := (compactAndPersist h disk s cs).1
    let after := exampleRaftInit .ok nodeId ps (compactAndPersist h disk s cs).2 now rand
    before.lastSnapshotIndex = s.index ∧ after.log = before.log ∧ after.lastSnapshotIndex = 0 := by
  intro before after
  have hsaved := raftSaveSnapshot_ok h.node s disk
  have hmark := calls_sameMarker { h with node := compactLog s h.node } cs
  have hbefore : before = (Host.calls { h with node := compactLog s h.node } cs).node := by
    show (compactAndPersist h disk s cs).1 = _
    simp only [compactAndPersist, hsaved]
  have hfile : (compactAndPersist h disk s cs).2 (.wal (nodeId.strncpy 36)) =
      some (walImage before.durable) := by
    have hnode : before.nodeId = nodeId.strncpy 36 := by
      rw [hbefore, hmark.id]
      exact hid
    simp only [compactAndPersist, raftPersistState_ok (fun _ => rfl)]
    rw [← hnode]
    exact Function.update_self ..
  have hafter : after = boot nodeId ps before.durable now rand :=
    exampleRaftInit_eq_boot hd hfile ps now rand
  refine ⟨by rw [hbefore, hmark.index]; rfl, ?_, ?_⟩
  all_goals
    rw [hafter, boot, restoreDurable_eq, addPeers_frame]
    rfl

/-- **Restart after compaction.** The node restarted from the disk answers as
it did before in one case only: a snapshot at the last 64-bit index, with an
entry appended after it. -/
theorem restart_after_compaction_iff {h : Host} {nodeId : CString}
    (hid : h.node.nodeId = nodeId.strncpy 36) {disk : Disk} {s : Snapshot} (hs : 1 ≤ s.index)
    {cs : List ApiCall} (hd : ∀ e ∈ (compactAndPersist h disk s cs).1.log, e.Storable)
    (hlen : 40 * (compactAndPersist h disk s cs).1.log.length < 2 ^ 64)
    (ps : List PeerAddr) (now rand : UInt64) :
    let before := (compactAndPersist h disk s cs).1
    let after := exampleRaftInit .ok nodeId ps (compactAndPersist h disk s cs).2 now rand
    SameLog s.index before after ↔ s.index = UInt64.ofNat (2 ^ 64 - 1) ∧ before.log ≠ [] := by
  intro before after
  obtain ⟨hindex, hlog, hmark⟩ := exampleRaftInit_compactAndPersist hid hd ps now rand
  have hiff := sameLog_iff hlog hmark (by rwa [hindex]) hlen
  rwa [hindex] at hiff

theorem restart_after_compaction_at_one :
    let r := compactAndPersist votedNode.host (fun _ => none) ⟨1, 3, [9]⟩ []
    ¬ SameLog 1 r.1 (exampleRaftInit .ok idA [] r.2 0 0) := fun hsame =>
  absurd ((restart_after_compaction_iff (h := votedNode.host) (s := ⟨1, 3, [9]⟩) rfl (by decide)
    (by decide +kernel) (by decide +kernel) [] 0 0).1 hsame).1 (by decide)

/-- Its entry of index 2 is gone. -/
theorem restart_loses_entry :
    let r := compactAndPersist votedNode.host (fun _ => none) ⟨1, 3, [9]⟩ []
    let after := exampleRaftInit .ok idA [] r.2 0 0
    (1 : UInt64) ≤ lastLogIndex votedNode ∧
      getLogEntry r.1 2 = some ⟨7, 2, [1, 2, 3], 1⟩ ∧ termAtIndex r.1 2 = 7 ∧
      getLogEntry after 2 = none ∧ termAtIndex after 2 = 0 := by
  decide +kernel

end DRoole
