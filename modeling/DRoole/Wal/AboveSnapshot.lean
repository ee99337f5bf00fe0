import DRoole.Wal.Numbering
import DRoole.Raft.PersistFailure

/-!
# Compaction above the snapshot

`raft_save_snapshot` drops the entries up to the snapshot from the log and moves
the marker that all index arithmetic starts from. Whoever reads the log above
the marker sees no difference, and so no vote depends on it. The one exception
is the index 0, which `term_at_index` gives the term 0 without a look at
`last_snapshot_term`.
-/

namespace DRoole

open Lib

/-- The replies to vote requests handled one after the other. -/
def requestVotes (h : Host) : List (UInt64 × RaftRequestVoteReq) → Host × List RaftRequestVoteResp
  | [] => (h, [])
  | (now, req) :: reqs =>
    let r := raftHandleRequestVote h now req
    let rest := requestVotes r.1 reqs
    (rest.1, r.2 :: rest.2)

theorem termAtIndex_lastLogIndex {nd : RaftNode} (hlog : NumberedFrom nd.lastSnapshotIndex nd.log)
    (hzero : lastLogIndex nd = 0 → nd.log = [] → nd.lastSnapshotTerm = 0) :
    termAtIndex nd (lastLogIndex nd) = lastLogTerm nd := by
  have hlast := toNat_lastLogIndex hlog
  cases hend : nd.log.getLast? with
  | none =>
    have hnil := List.getLast?_eq_none_iff.1 hend
    rw [hnil, List.length_nil] at hlast
    have hmarker : lastLogIndex nd = nd.lastSnapshotIndex := UInt64.toNat_inj.1 hlast
    unfold termAtIndex lastLogTerm
    rw [hend, if_pos hmarker]
    by_cases hz : lastLogIndex nd = 0
    · rw [if_pos hz]
      exact (hzero hz hnil).symm
    · rw [if_neg hz]
  | some e =>
    have hpos : 0 < nd.log.length := by
      rw [List.length_pos_iff]
      intro hnil
      rw [hnil] at hend
      cases hend
    have hz : lastLogIndex nd ≠ 0 := fun h => by
      rw [h, UInt64.toNat_zero] at hlast
      omega
    have hne : lastLogIndex nd ≠ nd.lastSnapshotIndex := fun h => by
      rw [h] at hlast
      omega
    have hentry : getLogEntry nd (lastLogIndex nd) = some e := by
      rw [getLogEntry_eq, if_neg (by omega), ← hend, List.getLast?_eq_getElem?]
      congr 1
      omega
    unfold termAtIndex lastLogTerm
    rw [if_neg hz, if_neg hne, hentry, hend]

section
variable {nd : RaftNode} {s : Snapshot} (hlog : NumberedFrom nd.lastSnapshotIndex nd.log)
  (hlow : nd.lastSnapshotIndex ≤ s.index) (hhigh : s.index ≤ lastLogIndex nd)
include hlog hlow

theorem getLogEntry_compactLog {j : UInt64} (hj : s.index < j) :
    getLogEntry (compactLog s nd) j = getLogEntry nd j := by
  obtain ⟨d, hd⟩ := Nat.exists_eq_add_of_le (UInt64.le_iff_toNat_le.1 hlow)
  have hj := UInt64.lt_iff_toNat_lt.1 hj
  rw [getLogEntry_eq, getLogEntry_eq, compactLog_log hlog hd]
  show (if j.toNat ≤ s.index.toNat then _ else _) = _
  rw [if_neg (by omega), if_neg (by omega), List.getElem?_drop]
  congr 1
  show d + (j.toNat - s.index.toNat - 1) = _
  omega

theorem termAtIndex_compactLog (hterm : s.term = termAtIndex nd s.index) {j : UInt64}
    (hj : s.index ≤ j) : termAtIndex (compactLog s nd) j = termAtIndex nd j := by
  by_cases hsame : j = s.index
  · rw [hsame, ← hterm]
    unfold termAtIndex
    split
    · rename_i hzero
      rw [hterm, termAtIndex, if_pos hzero]
    · exact if_pos rfl
  · have hlt : s.index < j := UInt64.lt_of_le_of_ne hj fun e => hsame e.symm
    have hne : j ≠ nd.lastSnapshotIndex := fun e => by
      rw [e] at hlt
      exact absurd hlow (UInt64.not_le.2 hlt)
    unfold termAtIndex
    rw [getLogEntry_compactLog hlog hlow hlt, if_neg hne,
      if_neg (show j ≠ (compactLog s nd).lastSnapshotIndex from hsame)]

include hhigh

theorem lastLogIndex_compactLog : lastLogIndex (compactLog s nd) = lastLogIndex nd := by
  obtain ⟨d, hd⟩ := Nat.exists_eq_add_of_le (UInt64.le_iff_toNat_le.1 hlow)
  have hhigh := UInt64.le_iff_toNat_le.1 hhigh
  rw [toNat_lastLogIndex hlog] at hhigh
  apply UInt64.toNat_inj.1
  rw [toNat_lastLogIndex hlog, toNat_lastLogIndex (numberedFrom_compactLog hlog hlow),
    compactLog_log hlog hd, List.length_drop]
  show s.index.toNat + _ = _
  omega

/-- The last term moves from the array to the marker when nothing remains. -/
theorem lastLogTerm_compactLog (hterm : s.term = termAtIndex nd s.index)
    (hzero : s.index = 0 → nd.log = [] → nd.lastSnapshotTerm = 0) :
    lastLogTerm (compactLog s nd) = lastLogTerm nd := by
  obtain ⟨d, hd⟩ := Nat.exists_eq_add_of_le (UInt64.le_iff_toNat_le.1 hlow)
  have hhigh := UInt64.le_iff_toNat_le.1 hhigh
  have hlast := toNat_lastLogIndex hlog
  have hdrop := compactLog_log hlog hd
  by_cases hall : nd.log.length ≤ d
  · have hs : s.index = lastLogIndex nd := UInt64.toNat_inj.1 (by omega)
    rw [hs] at hterm hzero
    rw [← termAtIndex_lastLogIndex hlog hzero, ← hterm]
    unfold lastLogTerm
    rw [hdrop, List.drop_eq_nil_of_le hall]
    rfl
  · unfold lastLogTerm
    rw [hdrop, List.getLast?_drop, if_neg hall]
    cases hend : nd.log.getLast? with
    | none =>
      rw [List.getLast?_eq_none_iff.1 hend] at hall
      exact absurd (Nat.zero_le d) hall
    | some e => rfl

end

/-! ## Votes -/

/-- The end of the log, as a vote reads it, is the same with and without the snapshot. -/
structure CompactedFrom (s : Snapshot) (a b : RaftNode) : Prop where
  node : b = compactLog s a
  index : lastLogIndex b = lastLogIndex a
  term : lastLogTerm b = lastLogTerm a

theorem CompactedFrom.grants_iff {s : Snapshot} {a b : RaftNode} (h : CompactedFrom s a b)
    (req : RaftRequestVoteReq) : Grants b req ↔ Grants a req := by
  unfold Grants alreadyVoted logOk
  rw [h.index, h.term, h.node]
  rfl

theorem CompactedFrom.frame {s : Snapshot} {a b a' b' : RaftNode} (h : CompactedFrom s a b)
    (hnode : b' = compactLog s a')
    (ha : a'.log = a.log ∧ a'.lastSnapshotIndex = a.lastSnapshotIndex ∧
      a'.lastSnapshotTerm = a.lastSnapshotTerm) :
    CompactedFrom s a' b' := by
  have hlog : b'.log = b.log := by
    rw [hnode, h.node]
    exact congrArg (List.filter _) ha.1
  have hindex : b'.lastSnapshotIndex = b.lastSnapshotIndex := by
    rw [hnode, h.node]
    rfl
  have hterm : b'.lastSnapshotTerm = b.lastSnapshotTerm := by
    rw [hnode, h.node]
    rfl
  refine ⟨hnode, ?_, ?_⟩
  · rw [lastLogIndex_congr hlog hindex, h.index, lastLogIndex_congr ha.1 ha.2.1]
  · rw [lastLogTerm_congr hlog hterm, h.term, lastLogTerm_congr ha.1 ha.2.2]

theorem CompactedFrom.stepDown {s : Snapshot} {a b : Host} (h : CompactedFrom s a.node b.node)
    (t : UInt64) : CompactedFrom s (stepDown a t).node (stepDown b t).node := by
  have hterm : b.node.currentTerm = a.node.currentTerm := by rw [h.node]; rfl
  unfold DRoole.stepDown
  rw [hterm]
  split
  · refine h.frame ?_ ⟨rfl, rfl, rfl⟩
    show (becomeFollower b t).node = _
    unfold becomeFollower
    simp only [persistState, Host.emit_node, Host.modify_node, h.node]
    rfl
  · exact h

/-- **One vote.** The handler commutes with compaction. -/
theorem CompactedFrom.requestVote {s : Snapshot} {a b : Host} (h : CompactedFrom s a.node b.node)
    (now : UInt64) (req : RaftRequestVoteReq) :
    (raftHandleRequestVote b now req).2 = (raftHandleRequestVote a now req).2 ∧
      CompactedFrom s (raftHandleRequestVote a now req).1.node
        (raftHandleRequestVote b now req).1.node := by
  have hterm : b.node.currentTerm = a.node.currentTerm := by rw [h.node]; rfl
  have hdown := h.stepDown req.term
  rw [raftHandleRequestVote_eq, raftHandleRequestVote_eq, hterm]
  simp only [h.grants_iff req]
  split
  · refine ⟨rfl, hdown.frame ?_ ⟨rfl, rfl, rfl⟩⟩
    show setHeartbeat now (castVote (DRoole.stepDown b req.term) req.candidateId).node = _
    simp only [castVote, persistState, Host.emit_node, Host.modify_node, hdown.node]
    rfl
  · exact ⟨rfl, hdown⟩

theorem CompactedFrom.requestVotes {s : Snapshot} (reqs : List (UInt64 × RaftRequestVoteReq)) :
    ∀ {a b : Host}, CompactedFrom s a.node b.node →
      (requestVotes b reqs).2 = (requestVotes a reqs).2 ∧
        (requestVotes b reqs).1.node = compactLog s (requestVotes a reqs).1.node := by
  induction reqs with
  | nil => exact fun h => ⟨rfl, h.node⟩
  | cons r reqs ih =>
    intro a b h
    obtain ⟨hresp, hnext⟩ := h.requestVote r.1 r.2
    obtain ⟨hresps, hend⟩ := ih hnext
    exact ⟨congrArg₂ List.cons hresp hresps, hend⟩

/-- **Compaction is invisible above the snapshot.** -/
theorem compaction_invisible (nd : RaftNode) (hlog : NumberedFrom nd.lastSnapshotIndex nd.log)
    (s : Snapshot) (hlow : nd.lastSnapshotIndex ≤ s.index) (hhigh : s.index ≤ lastLogIndex nd)
    (hterm : s.term = termAtIndex nd s.index)
    (hzero : s.index = 0 → nd.log = [] → nd.lastSnapshotTerm = 0)
    (answer : Nat → Option Nat) (disk : Disk) {disk' : Disk} {nd' : RaftNode}
    (hsave : raftSaveSnapshot answer nd s disk = (nd', disk', 0)) :
    lastLogIndex nd' = lastLogIndex nd ∧ lastLogTerm nd' = lastLogTerm nd ∧
      (∀ j, s.index ≤ j → termAtIndex nd' j = termAtIndex nd j) ∧
      (∀ j, s.index < j → getLogEntry nd' j = getLogEntry nd j) ∧
      nd'.log <:+ nd.log ∧ nd'.lastSnapshotIndex = s.index ∧ NumberedFrom s.index nd'.log ∧
      ∀ reqs, (requestVotes nd'.host reqs).2 = (requestVotes nd.host reqs).2 ∧
        (requestVotes nd'.host reqs).1.node = compactLog s (requestVotes nd.host reqs).1.node := by
  have hnd' : nd' = compactLog s nd := by
    unfold raftSaveSnapshot at hsave
    dsimp only at hsave
    split at hsave
    · cases hsave
    · exact (congrArg Prod.fst hsave).symm
  subst hnd'
  obtain ⟨d, hd⟩ := Nat.exists_eq_add_of_le (UInt64.le_iff_toNat_le.1 hlow)
  have hindex := lastLogIndex_compactLog hlog hlow hhigh
  have hlast := lastLogTerm_compactLog hlog hlow hhigh hterm hzero
  refine ⟨hindex, hlast, fun j => termAtIndex_compactLog hlog hlow hterm,
    fun j => getLogEntry_compactLog hlog hlow, ?_, rfl, numberedFrom_compactLog hlog hlow,
    fun reqs => CompactedFrom.requestVotes reqs ⟨rfl, hindex, hlast⟩⟩
  rw [compactLog_log hlog hd]
  exact List.drop_suffix d nd.log

def twoTerms : RaftNode := { raftInit idA 0 with log := [⟨1, 1, [7], 0⟩, ⟨2, 2, [8], 0⟩] }

theorem compaction_invisible_first :
    let nd' := (raftSaveSnapshot (fun _ => none) twoTerms ⟨1, 1, [9]⟩ fun _ => none).1
    nd'.log = [⟨2, 2, [8], 0⟩] ∧ lastLogTerm nd' = lastLogTerm twoTerms :=
  ⟨by decide +kernel, (compaction_invisible twoTerms (by decide) ⟨1, 1, [9]⟩ (by decide) (by decide)
    (by decide) nofun (fun _ => none) (fun _ => none) rfl).2.1⟩

/-- A node whose snapshot of index 0 has the term 5. -/
def zeroMarker : RaftNode :=
  (raftSaveSnapshot (fun _ => none) (raftInit idA 0) ⟨0, 5, []⟩ fun _ => none).1

/-- A second snapshot of index 0, with the term `term_at_index` gives, changes the last term. -/
theorem zero_index_loses_term :
    let r := raftSaveSnapshot (fun _ => none) zeroMarker ⟨0, termAtIndex zeroMarker 0, []⟩
      fun _ => none
    zeroMarker.log = [] ∧ zeroMarker.lastSnapshotIndex = 0 ∧ lastLogIndex zeroMarker = 0 ∧
      r.2.2 = 0 ∧ lastLogTerm zeroMarker = 5 ∧ lastLogTerm r.1 = 0 := by
  decide +kernel

end DRoole
