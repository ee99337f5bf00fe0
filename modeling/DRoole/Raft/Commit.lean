import DRoole.Lib.OrderStat
import DRoole.Raft.Applied

/-!
# The commit rule of a leader

`leader_tick` scans the indices above `commit_index` and commits each one of
its own term that a majority has reached. With terms that do not decrease along
the log the last of them is the index that a majority has reached, the middle
one of the sorted `match_index` values: `quorumCommit`. The scan arrives there
except at the limits of its counters (`leader_commit_iff`): `n` is as wide as
`last_log_index`, and `replicas` is narrower than `peer_count`.
-/

namespace DRoole

open Lib

/-! ## The rule -/

/-- How far each member has come: the leader's log and the peers' `match_index`. -/
def matchedIndices (nd : RaftNode) : List Nat :=
  (lastLogIndex nd).toNat :: nd.peers.map (·.matchIndex.toNat)

/-- The `⌊N/2⌋ + 1`-th largest of these, for `N` members. -/
def majorityIndex (nd : RaftNode) : Nat :=
  (nthLargest (matchedIndices nd) ((nd.peers.length + 1) / 2)).getD 0

/-- That index, within the log. -/
def commitPoint (nd : RaftNode) : UInt64 :=
  UInt64.ofNat (min (majorityIndex nd) (lastLogIndex nd).toNat)

/-- **The commit rule**: the index a majority has reached, if it is above
`commit_index` and of the leader's term. -/
def quorumCommit (nd : RaftNode) : UInt64 :=
  if commitPoint nd > nd.commitIndex ∧ termAtIndex nd (commitPoint nd) = nd.currentTerm then
    commitPoint nd
  else nd.commitIndex

/-- The members that have reached `n`, the leader included. -/
def holders (nd : RaftNode) (n : UInt64) : Nat := 1 + nd.peers.countP (·.matchIndex ≥ n)

def CommitLoopEnds (nd : RaftNode) : Prop :=
  ∃ k : Nat, ¬ nd.commitIndex + 1 + UInt64.ofNat k ≤ lastLogIndex nd

/-- A leader's log: indexed above the snapshot, with terms that do not decrease
and are at most the leader's. -/
structure LeaderShape (nd : RaftNode) : Prop where
  term_pos : 1 ≤ nd.currentTerm
  numbered : NumberedFrom nd.lastSnapshotIndex nd.log
  sorted : (nd.lastSnapshotTerm :: nd.log.map (·.term)).Pairwise (· ≤ ·)
  le_current : ∀ t ∈ nd.lastSnapshotTerm :: nd.log.map (·.term), t ≤ nd.currentTerm

/-! ## Counting -/

theorem toNat_replicas (nd : RaftNode) (n : UInt64) :
    (replicas nd n).toNat = holders nd n % 2 ^ 32 := by
  have hfold : ∀ (ps : List RaftPeer) (r : UInt32),
      (ps.foldl (fun r p => if p.matchIndex ≥ n then r + 1 else r) r).toNat =
        (r.toNat + ps.countP (·.matchIndex ≥ n)) % 2 ^ 32 := by
    intro ps
    induction ps with
    | nil =>
      intro r
      exact (Nat.mod_eq_of_lt r.toNat_lt).symm
    | cons p ps ih =>
      intro r
      rw [List.foldl_cons, ih, List.countP_cons]
      by_cases hp : p.matchIndex ≥ n
      · simp only [hp, if_true, decide_true, UInt32.toNat_add, UInt32.toNat_one]
        omega
      · simp [hp]
  exact hfold nd.peers 1

section
variable {nd : RaftNode} {n : UInt64}

theorem toNat_commitPoint (nd : RaftNode) :
    (commitPoint nd).toNat = min (majorityIndex nd) (lastLogIndex nd).toNat := by
  have hlt := (lastLogIndex nd).toNat_lt
  rw [commitPoint, UInt64.toNat_ofNat', Nat.mod_eq_of_lt (by omega)]

/-- A majority has reached `n` if and only if the middle value has. -/
theorem majority_iff (hn : n ≤ lastLogIndex nd) :
    (nd.peers.length + 1) / 2 < holders nd n ↔ n ≤ commitPoint nd := by
  have hk : (nd.peers.length + 1) / 2 < (matchedIndices nd).length := by
    rw [matchedIndices, List.length_cons, List.length_map]
    omega
  obtain ⟨m, hm⟩ := exists_nthLargest (matchedIndices nd) hk
  have hcount : (matchedIndices nd).countP (n.toNat ≤ ·) = holders nd n := by
    have hself : n.toNat ≤ (lastLogIndex nd).toNat := UInt64.le_iff_toNat_le.1 hn
    rw [matchedIndices, List.countP_cons_of_pos (by simpa using hself), List.countP_map, holders,
      Nat.add_comm]
    rfl
  have hpoint : (commitPoint nd).toNat = min m (lastLogIndex nd).toNat := by
    rw [toNat_commitPoint, majorityIndex, hm]
    rfl
  rw [← hcount, ← le_nthLargest_iff hm, UInt64.le_iff_toNat_le, hpoint]
  rw [UInt64.le_iff_toNat_le] at hn
  omega

theorem commitPoint_le (nd : RaftNode) : commitPoint nd ≤ lastLogIndex nd := by
  rw [UInt64.le_iff_toNat_le, toNat_commitPoint]
  exact Nat.min_le_right ..

/-! ## Terms -/

theorem termAtIndex_eq (hn : n ≠ 0) (hs : nd.lastSnapshotIndex ≤ n) :
    termAtIndex nd n =
      ((nd.lastSnapshotTerm :: nd.log.map (·.term))[n.toNat - nd.lastSnapshotIndex.toNat]?).getD
        0 := by
  have hs := UInt64.le_iff_toNat_le.1 hs
  rw [termAtIndex, if_neg hn]
  by_cases heq : n = nd.lastSnapshotIndex
  · rw [if_pos heq, heq, Nat.sub_self]
    rfl
  · have hne : n.toNat ≠ nd.lastSnapshotIndex.toNat := fun e => heq (UInt64.toNat_inj.1 e)
    obtain ⟨k, hk⟩ : ∃ k, n.toNat - nd.lastSnapshotIndex.toNat = k + 1 :=
      ⟨n.toNat - nd.lastSnapshotIndex.toNat - 1, by omega⟩
    rw [if_neg heq, getLogEntry_eq, if_neg (by omega), hk, Nat.add_sub_cancel,
      List.getElem?_cons_succ, List.getElem?_map]
    cases nd.log[k]? <;> rfl

theorem termAtIndex_eq_zero (hs : n < nd.lastSnapshotIndex) : termAtIndex nd n = 0 := by
  unfold termAtIndex getLogEntry
  rw [if_neg (UInt64.ne_of_lt hs), if_pos (UInt64.le_of_lt hs)]
  split
  · rfl
  · rfl

theorem LeaderShape.le_of_term_eq (hnd : LeaderShape nd)
    (hterm : termAtIndex nd n = nd.currentTerm) : n ≠ 0 ∧ nd.lastSnapshotIndex ≤ n := by
  have hpos : termAtIndex nd n ≠ 0 := by
    rw [hterm]
    rintro hzero
    have := hnd.term_pos
    rw [hzero] at this
    exact absurd this (by decide)
  refine ⟨?_, ?_⟩
  · rintro rfl
    exact hpos rfl
  · by_contra hlt
    exact hpos (termAtIndex_eq_zero (UInt64.not_le.1 hlt))

theorem LeaderShape.term_eq (hnd : LeaderShape nd) {m : UInt64}
    (hterm : termAtIndex nd n = nd.currentTerm) (hnm : n ≤ m) (hm : m ≤ lastLogIndex nd) :
    termAtIndex nd m = nd.currentTerm := by
  obtain ⟨hn, hs⟩ := hnd.le_of_term_eq hterm
  have hm0 : m ≠ 0 := by
    rintro rfl
    exact hn (UInt64.le_zero_iff.1 hnm)
  rw [termAtIndex_eq hn hs] at hterm
  rw [termAtIndex_eq hm0 (UInt64.le_trans hs hnm)]
  rw [UInt64.le_iff_toNat_le] at hs hnm hm
  rw [toNat_lastLogIndex hnd.numbered] at hm
  have hsorted := hnd.sorted
  have hle := hnd.le_current
  have hlen : (nd.lastSnapshotTerm :: nd.log.map (·.term)).length = nd.log.length + 1 := by simp
  generalize nd.lastSnapshotTerm :: nd.log.map (·.term) = ts at *
  have hj : m.toNat - nd.lastSnapshotIndex.toNat < ts.length := by omega
  have hi : n.toNat - nd.lastSnapshotIndex.toNat < ts.length := by omega
  rw [List.getElem?_eq_getElem hi, Option.getD_some] at hterm
  rw [List.getElem?_eq_getElem hj, Option.getD_some]
  refine UInt64.le_antisymm (hle _ (List.getElem_mem hj)) ?_
  rcases Nat.lt_or_ge n.toNat m.toNat with hlt | hge
  · rw [← hterm]
    exact List.pairwise_iff_getElem.1 hsorted _ _ hi hj (by omega)
  · have heq : m = n := UInt64.toNat_inj.1 (by omega)
    subst heq
    exact hterm ▸ UInt64.le_refl _

end

/-! ## The loop -/

/-- **The commit loop** ends at the last index that passes the test, if any does. -/
theorem commitLoop_commitIndex (fuel : Nat) (n : UInt64) (h : Host)
    (hlast : lastLogIndex h.node + 1 ≠ 0)
    (hfuel : fuel = (lastLogIndex h.node).toNat + 1 - n.toNat) :
    let r := (commitLoop fuel n h).node.commitIndex
    (r = h.node.commitIndex ∧
      ∀ m, n ≤ m → m ≤ lastLogIndex h.node → committable h.node m = false) ∨
    (n ≤ r ∧ r ≤ lastLogIndex h.node ∧ committable h.node r = true ∧
      ∀ m, r < m → m ≤ lastLogIndex h.node → committable h.node m = false) := by
  dsimp only
  induction fuel generalizing n h with
  | zero =>
    refine .inl ⟨rfl, fun m hn hm => ?_⟩
    rw [UInt64.le_iff_toNat_le] at hn hm
    omega
  | succ fuel ih =>
    have hle : n ≤ lastLogIndex h.node := by
      rw [UInt64.le_iff_toNat_le]
      omega
    have hn : (n + 1).toNat = n.toNat + 1 := toNat_succ (by grind)
    have habove : ∀ {m : UInt64}, n + 1 ≤ m ↔ n < m := by
      intro m
      rw [UInt64.le_iff_toNat_le, UInt64.lt_iff_toNat_lt, hn]
      rfl
    have hfuel' : fuel = (lastLogIndex h.node).toNat + 1 - (n + 1).toNat := by omega
    simp only [commitLoop, if_pos hle]
    split
    · rename_i hc
      rcases ih (n + 1) (setCommit h n) hlast hfuel' with ⟨hr, hnone⟩ | ⟨hr, hrest⟩
      · refine .inr ?_
        rw [hr]
        exact ⟨UInt64.le_refl n, hle, hc, fun m hm => hnone m (habove.2 hm)⟩
      · exact .inr ⟨UInt64.le_of_lt (habove.1 hr), hrest⟩
    · rename_i hc
      rcases ih (n + 1) h hlast hfuel' with ⟨hr, hnone⟩ | ⟨hr, hrest⟩
      · refine .inl ⟨hr, fun m hnm hm => ?_⟩
        by_cases heq : m = n
        · rw [heq]
          simpa using hc
        · exact hnone m (habove.2 (by grind)) hm
      · exact .inr ⟨UInt64.le_of_lt (habove.1 hr), hrest⟩

theorem commitLoopEnds_iff (nd : RaftNode) : CommitLoopEnds nd ↔ lastLogIndex nd + 1 ≠ 0 := by
  constructor
  · rintro ⟨k, hk⟩ hmax
    apply hk
    generalize nd.commitIndex + 1 + UInt64.ofNat k = n
    grind
  · intro hlast
    refine ⟨(lastLogIndex nd - nd.commitIndex).toNat, ?_⟩
    have hreach : nd.commitIndex + 1 + (lastLogIndex nd - nd.commitIndex) = lastLogIndex nd + 1 := by
      grind
    rw [UInt64.ofNat_toNat, hreach, UInt64.le_iff_toNat_le, toNat_succ hlast]
    omega

theorem committable_iff {nd : RaftNode} {n : UInt64} :
    committable nd n = true ↔ termAtIndex nd n = nd.currentTerm ∧
      (nd.peers.length + 1) / 2 < holders nd n % 2 ^ 32 := by
  rw [committable, decide_eq_true_iff, toNat_replicas]

theorem heartbeatRound_silent (h : Host) (now : UInt64) :
    ∃ b, (heartbeatRound h now []).node = h.node.soften b := by
  unfold heartbeatRound
  split
  · refine ⟨{ h.node with lastHeartbeatMs := now, heartbeatsSent := h.node.heartbeatsSent + 1 }, ?_⟩
    refine forPeers_induct (P := fun g => g.node = _) [] (fun p r g _ hr hg => ?_) _ _ _ _
      (fun _ => id) rfl
    cases r with
    | none => exact hg
    | some x => cases hr x rfl
  · exact ⟨h.node, rfl⟩

theorem leaderTick_commitIndex (h : Host) (now : UInt64) (hlast : lastLogIndex h.node + 1 ≠ 0) :
    let r := (leaderTick h now []).node.commitIndex
    (r = h.node.commitIndex ∧ ∀ m, h.node.commitIndex + 1 ≤ m → m ≤ lastLogIndex h.node →
      committable h.node m = false) ∨
    (h.node.commitIndex + 1 ≤ r ∧ r ≤ lastLogIndex h.node ∧ committable h.node r = true ∧
      ∀ m, r < m → m ≤ lastLogIndex h.node → committable h.node m = false) := by
  obtain ⟨b, hb⟩ := heartbeatRound_silent h now
  unfold leaderTick
  dsimp only
  generalize heartbeatRound h now [] = g at *
  have hloop := commitLoop_commitIndex (commitTurns g.node) (g.node.commitIndex + 1) g
    (by rw [hb]; exact hlast) rfl
  dsimp only at hloop
  rw [hb] at hloop ⊢
  exact hloop

theorem le_commitPoint {nd : RaftNode} {n : UInt64} (hn : n ≤ lastLogIndex nd)
    (hc : committable nd n = true) : n ≤ commitPoint nd := by
  have hcount := (committable_iff.1 hc).2
  exact (majority_iff hn).1 (Nat.lt_of_lt_of_le hcount (Nat.mod_le ..))

/-- Below the largest word, the loop and the rule differ only if the count of
the new commit index wraps. -/
theorem leaderTick_commit_iff (h : Host) (now : UInt64) (hnd : LeaderShape h.node)
    (hlast : lastLogIndex h.node + 1 ≠ 0) (hcommit : h.node.commitIndex + 1 ≠ 0) :
    (leaderTick h now []).node.commitIndex = quorumCommit h.node ↔
      (commitPoint h.node > h.node.commitIndex →
        termAtIndex h.node (commitPoint h.node) = h.node.currentTerm →
        (h.node.peers.length + 1) / 2 < holders h.node (commitPoint h.node) % 2 ^ 32) := by
  have hloop := leaderTick_commitIndex h now hlast
  have habove : ∀ {m : UInt64}, h.node.commitIndex + 1 ≤ m ↔ h.node.commitIndex < m := by
    intro m
    rw [UInt64.le_iff_toNat_le, UInt64.lt_iff_toNat_lt, toNat_succ hcommit]
    rfl
  simp only [habove] at hloop
  generalize (leaderTick h now []).node.commitIndex = r at *
  unfold quorumCommit
  split
  · rename_i hrule
    have hpass : committable h.node (commitPoint h.node) = true ↔
        (h.node.peers.length + 1) / 2 < holders h.node (commitPoint h.node) % 2 ^ 32 := by
      rw [committable_iff, and_iff_right hrule.2]
    simp only [hrule, true_imp_iff, ← hpass]
    rcases hloop with ⟨hr, hnone⟩ | ⟨-, hr, hc, hafter⟩
    · refine iff_of_false (fun heq => ?_) ?_
      · have hlt := hrule.1
        rw [← heq, hr] at hlt
        exact UInt64.lt_irrefl _ hlt
      · rw [hnone _ hrule.1 (commitPoint_le _)]
        decide
    · refine ⟨fun heq => heq ▸ hc, fun hpoint => ?_⟩
      by_contra hne
      have hlt : r < commitPoint h.node := by
        have := le_commitPoint hr hc
        grind
      rw [hafter _ hlt (commitPoint_le _)] at hpoint
      cases hpoint
  · rename_i hrule
    rcases hloop with ⟨hr, -⟩ | ⟨hlt, hr, hc, -⟩
    · exact iff_of_true hr fun hgt hterm => absurd ⟨hgt, hterm⟩ hrule
    · have hle := le_commitPoint hr hc
      have hterm := hnd.term_eq (committable_iff.1 hc).1 hle (commitPoint_le _)
      exact absurd ⟨UInt64.lt_of_lt_of_le hlt hle, hterm⟩ hrule

/-- At the largest word the loop starts at 0, and the rule does nothing. -/
theorem leaderTick_commit_top_iff (h : Host) (now : UInt64)
    (hlast : lastLogIndex h.node + 1 ≠ 0) (hcommit : h.node.commitIndex + 1 = 0) :
    (leaderTick h now []).node.commitIndex = quorumCommit h.node ↔
      ∀ n ≤ lastLogIndex h.node, termAtIndex h.node n = h.node.currentTerm →
        holders h.node n % 2 ^ 32 ≤ (h.node.peers.length + 1) / 2 := by
  have hbelow : ∀ n ≤ lastLogIndex h.node, n < h.node.commitIndex := by
    intro n hn
    grind
  have hpoint := hbelow _ (commitPoint_le h.node)
  have hrule : quorumCommit h.node = h.node.commitIndex := if_neg fun hc => by grind
  have hloop := leaderTick_commitIndex h now hlast
  rw [hcommit] at hloop
  rw [hrule]
  generalize (leaderTick h now []).node.commitIndex = r at *
  rcases hloop with ⟨hr, hnone⟩ | ⟨-, hr, hc, -⟩
  · refine iff_of_true hr fun n hn hterm => ?_
    by_contra hover
    have hpass := committable_iff.2 ⟨hterm, Nat.lt_of_not_le hover⟩
    rw [hnone n UInt64.zero_le hn] at hpass
    cases hpass
  · refine iff_of_false (fun heq => ?_) fun hcond => ?_
    · exact UInt64.lt_irrefl _ (heq ▸ hbelow r hr)
    · obtain ⟨hterm, hcount⟩ := committable_iff.1 hc
      exact absurd hcount (Nat.not_lt.2 (hcond r hr hterm))

/-- **The commit loop against the commit rule.** For a leader whose heartbeats
deliver no reply, `leader_tick` ends with the commit index of the rule if and
only if `last_log_index` is not the largest word, so that the loop ends; if
`commit_index` is, no index passes the test that then starts at 0; and the
number of members that have reached the new commit index does not wrap in
`replicas` below a majority. -/
theorem leader_commit_iff (h : Host) (now : UInt64) (hnd : LeaderShape h.node) :
    let nd := h.node
    let half := (nd.peers.length + 1) / 2
    (CommitLoopEnds nd ∧ (leaderTick h now []).node.commitIndex = quorumCommit nd) ↔
      lastLogIndex nd + 1 ≠ 0 ∧
      (nd.commitIndex + 1 = 0 → ∀ n ≤ lastLogIndex nd,
        termAtIndex nd n = nd.currentTerm → holders nd n % 2 ^ 32 ≤ half) ∧
      (commitPoint nd > nd.commitIndex → termAtIndex nd (commitPoint nd) = nd.currentTerm →
        half < holders nd (commitPoint nd) % 2 ^ 32) := by
  dsimp only
  rw [commitLoopEnds_iff]
  refine and_congr_right fun hlast => ?_
  by_cases hcommit : h.node.commitIndex + 1 = 0
  · have hpoint : ¬ commitPoint h.node > h.node.commitIndex := by
      have := commitPoint_le h.node
      grind
    rw [leaderTick_commit_top_iff h now hlast hcommit]
    simp only [hcommit, hpoint, true_imp_iff, false_imp_iff, and_true]
  · rw [leaderTick_commit_iff h now hnd hlast hcommit]
    simp only [hcommit, false_imp_iff, true_and]

/-! ## Concrete leaders -/

def peerAt (nodeId : CString) (m : UInt64) : RaftPeer :=
  { nodeId := nodeId, ipAddress := CString.empty, port := 0, nextIndex := m + 1, matchIndex := m,
    inflightRpcs := 0, voteGranted := true }

/-- A leader of term 1 with two entries, which one of its two peers has. -/
def leaderOfThree : RaftNode :=
  { raftInit idA 0 with
    state := .leader, currentTerm := 1, log := twoEntries, peers := [peerAt idB 2, peerAt idC 0] }

/-- A leader whose last entry has the largest index. -/
def leaderAtTop : RaftNode :=
  { raftInit idA 0 with
    state := .leader, currentTerm := 1, log := [⟨1, 18446744073709551615, [7], 0⟩]
    lastSnapshotIndex := 18446744073709551614, lastSnapshotTerm := 1 }

theorem leaderShape_two {nd : RaftNode} (hterm : nd.currentTerm = 1) (hlog : nd.log = twoEntries)
    (hsnap : nd.lastSnapshotIndex = 0 ∧ nd.lastSnapshotTerm = 0) : LeaderShape nd where
  term_pos := by rw [hterm]; decide
  numbered := by
    rw [hlog, hsnap.1]
    exact leaderLog_twoEntries.numbered
  sorted := by rw [hlog, hsnap.2]; decide
  le_current := by rw [hlog, hsnap.2, hterm]; simp [twoEntries]

theorem leaderShape_atTop : LeaderShape leaderAtTop where
  term_pos := by decide
  numbered := by decide
  sorted := by decide
  le_current := by simp [leaderAtTop]

theorem leader_commit_of_three :
    (leaderTick leaderOfThree.host 10 []).node.commitIndex = 2 := by
  have hrule := ((leader_commit_iff leaderOfThree.host 10
    (leaderShape_two rfl rfl ⟨rfl, rfl⟩)).2 ⟨by decide, fun hmax => absurd hmax (by decide), by decide⟩).2
  rw [hrule]
  decide

/-- At the largest `last_log_index` the loop never ends; at the largest
`commit_index` it starts over, and the commit index goes down. -/
theorem commit_loop_limits :
    (LeaderShape leaderAtTop ∧ ¬ CommitLoopEnds leaderAtTop) ∧
    ∃ nd, LeaderShape nd ∧ (leaderTick nd.host 10 []).node.commitIndex < nd.commitIndex := by
  refine ⟨⟨leaderShape_atTop, fun hends => (commitLoopEnds_iff _).1 hends (by decide)⟩,
    { leaderOfThree with commitIndex := 18446744073709551615 },
    leaderShape_two rfl rfl ⟨rfl, rfl⟩, by decide +kernel⟩

end DRoole
