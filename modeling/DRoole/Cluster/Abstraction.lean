import DRoole.Cluster.Model
import DRoole.Lib.Election
import DRoole.Raft.Persist
import DRoole.Raft.Tally

/-!
# A node as the election protocol sees it

`absNode` forgets everything but the term, the role, the vote, the position of
the log and the voters counted so far. `NodeOk` is what every node of a cluster
keeps: its identity, its peers, no snapshot, and at most as many votes as
counted voters. A restarted node abstracts to what it was, less its role.
-/

namespace DRoole

open Lib Lib.Election

/-! ## Positions -/

/-- The end of a log: its last term, then its last index. -/
abbrev Pos := ℕ ×ₗ ℕ

def pos (nd : RaftNode) : Pos := toLex ((lastLogTerm nd).toNat, (lastLogIndex nd).toNat)

def RaftRequestVoteReq.pos (req : RaftRequestVoteReq) : Pos :=
  toLex (req.lastLogTerm.toNat, req.lastLogIndex.toNat)

theorem logOk_iff (nd : RaftNode) (req : RaftRequestVoteReq) :
    logOk nd req = true ↔ pos nd ≤ req.pos := by
  simp only [logOk, decide_eq_true_eq, pos, RaftRequestVoteReq.pos, Prod.Lex.toLex_le_toLex,
    GT.gt, GE.ge, UInt64.lt_iff_toNat_lt, UInt64.le_iff_toNat_le, UInt64.toNat_inj]
  constructor
  · rintro (h | ⟨h1, h2⟩)
    · exact .inl h
    · exact .inr ⟨h1.symm, h2⟩
  · rintro (h | ⟨h1, h2⟩)
    · exact .inl h
    · exact .inr ⟨h1.symm, h2⟩

/-! ## The abstraction -/

/-- The voters a candidate has counted, itself included. -/
def tally (nd : RaftNode) : Finset CString := insert nd.nodeId (voters nd.peers).toFinset

def absState : RaftState → Role
  | .follower => .follower
  | .candidate => .candidate
  | .leader => .leader

def absVote (x : CString) : Option CString := if x.bytes = [] then none else some x

/-- A node as the election protocol sees it. -/
def absNode (nd : RaftNode) : Local CString Pos where
  term := nd.currentTerm.toNat
  role := absState nd.state
  vote := absVote nd.votedFor
  pos := pos nd
  tally := if nd.state = .follower then ∅ else tally nd

/-- What node `i` of the cluster keeps. -/
structure NodeOk (cfg : Config) (i : CString) (nd : RaftNode) : Prop where
  id : nd.nodeId = i
  peers : nd.peerIds.Perm (cfg.members.erase i)
  noSnapshot : nd.lastSnapshotIndex = 0 ∧ nd.lastSnapshotTerm = 0
  vote_le : nd.votedFor.bytes.length ≤ 36
  votes_le : nd.state = .candidate → nd.votesReceived.toNat ≤ (tally nd).card

namespace NodeOk

variable {cfg : Config} {i : CString} {nd : RaftNode}

theorem peers_nodup (h : NodeOk cfg i nd) : nd.peerIds.Nodup :=
  h.peers.nodup_iff.2 (cfg.nodup.erase i)

theorem peers_length (h : NodeOk cfg i nd) (hi : i ∈ cfg.members) :
    nd.peers.length + 1 = cfg.members.length := by
  have hlen := h.peers.length_eq
  rw [RaftNode.peerIds, List.length_map, List.length_erase_of_mem hi] at hlen
  have := List.length_pos_of_mem hi
  omega

theorem peer_mem (h : NodeOk cfg i nd) {x : CString} (hx : x ∈ nd.peerIds) :
    x ∈ cfg.members ∧ x ≠ i := by
  have := (cfg.nodup.mem_erase_iff).1 (h.peers.mem_iff.1 hx)
  exact ⟨this.2, this.1⟩

theorem tally_subset (h : NodeOk cfg i nd) (hi : i ∈ cfg.members) :
    tally nd ⊆ cfg.members.toFinset := by
  intro x hx
  rw [List.mem_toFinset]
  rcases Finset.mem_insert.1 hx with rfl | hx
  · exact h.id ▸ hi
  · exact (h.peer_mem (voters_subset _ (List.mem_toFinset.1 hx))).1

theorem majority (h : NodeOk cfg i nd) (hi : i ∈ cfg.members) (hs : nd.state = .candidate)
    (hw : wonElection nd = true) : Majority cfg.members.toFinset (tally nd) := by
  refine ⟨h.tally_subset hi, ?_⟩
  have hv := h.votes_le hs
  have hlen := h.peers_length hi
  unfold wonElection at hw
  simp only [decide_eq_true_eq] at hw
  rw [List.toFinset_card_of_nodup cfg.nodup]
  omega

theorem tally_countVote {id : CString} {p : RaftPeer} (hp : findPeer nd.peers id = some p) :
    tally (countVote id nd) = insert id (tally nd) := by
  ext x
  simp only [tally, countVote, Finset.mem_insert, List.mem_toFinset, mem_voters_grant hp]
  tauto

theorem not_mem_tally (h : NodeOk cfg i nd) {id : CString} {p : RaftPeer}
    (hp : findPeer nd.peers id = some p) (hg : p.voteGranted = false) : id ∉ tally nd := by
  have hpid : p.nodeId = id := findPeer_nodeId hp
  have hne := (h.peer_mem (List.mem_map.2 ⟨p, List.mem_of_find?_eq_some hp, hpid⟩)).2
  simp only [tally, Finset.mem_insert, List.mem_toFinset, not_or]
  exact ⟨h.id ▸ hne, not_mem_voters h.peers_nodup hp hg⟩

theorem move {l : Label} {h h' : Host} (hok : NodeOk cfg i h.node) (hl : l ≠ .reconfigure)
    (hm : Move l h h') : NodeOk cfg i h'.node := by
  cases hm with
  | reconfigure => exact absurd rfl hl
  | follow | yield => exact { hok with vote_le := Nat.zero_le _, votes_le := nofun }
  | campaign now rand =>
    exact { hok with
      peers := (List.Perm.of_eq (peerIds_startElection _ now rand)).trans hok.peers
      vote_le := CString.length_strncpy_le _ _
      votes_le := fun _ => Finset.card_pos.2 (Finset.insert_nonempty _ _) }
  | grant => exact { hok with vote_le := CString.length_strncpy_le _ _ }
  | count id p hs hp hg =>
    refine { hok with
      peers := (List.Perm.of_eq (peerIds_countVote _ id)).trans hok.peers
      votes_le := fun _ => ?_ }
    show (h.node.votesReceived + 1).toNat ≤ (tally (countVote id h.node)).card
    rw [tally_countVote hp, Finset.card_insert_of_notMem (hok.not_mem_tally hp hg),
      UInt32.toNat_add]
    exact (Nat.mod_le _ _).trans (Nat.succ_le_succ (hok.votes_le hs))
  | elect =>
    exact { hok with
      peers := (List.Perm.of_eq (peerIds_takeLead _)).trans hok.peers
      votes_le := nofun }
  | ack id m hs =>
    exact { hok with
      peers := (List.Perm.of_eq (peerIds_recordMatch _ id m)).trans hok.peers
      votes_le := fun hc => absurd (hs.symm.trans hc) (by decide) }
  | backOff id p hs =>
    exact { hok with
      peers := (List.Perm.of_eq (peerIds_backOff _ id)).trans hok.peers
      votes_le := fun hc => absurd (hs.symm.trans hc) (by decide) }
  | _ => exact { hok with }

theorem absNode_startElection (hok : NodeOk cfg i nd) (hi : i ∈ cfg.members)
    (hmax : nd.currentTerm + 1 ≠ 0) (now rand : UInt64) :
    absNode (startElection now rand nd) =
      { term := nd.currentTerm.toNat + 1, role := .candidate, vote := some i, pos := pos nd,
        tally := {i} } := by
  have hself : nd.nodeId.strncpy 36 = i := by
    rw [hok.id, CString.strncpy_of_le (cfg.length_le i hi)]
  have htally : tally (startElection now rand nd) = {i} := by
    simp [tally, startElection, voters_clear, hok.id]
  have hvote : absVote (startElection now rand nd).votedFor = some i := by
    simp [absVote, startElection, hself, cfg.nonempty i hi]
  have hterm : (startElection now rand nd).currentTerm.toNat = nd.currentTerm.toNat + 1 :=
    toNat_succ hmax
  simp only [absNode, htally, hvote, hterm]
  rfl

theorem absNode_vote {x : CString} (hx : x.bytes ≠ []) :
    absNode { nd with votedFor := x } = { absNode nd with vote := some x } := by
  simp only [absNode, absVote, if_neg hx]
  rfl

theorem absNode_countVote {id : CString} {p : RaftPeer} (hs : nd.state = .candidate)
    (hp : findPeer nd.peers id = some p) :
    absNode (countVote id nd) = { absNode nd with tally := insert id (absNode nd).tally } := by
  have hs' : (countVote id nd).state = .candidate := hs
  simp only [absNode, hs, hs', tally_countVote hp]
  rfl

theorem absNode_takeLead (hs : nd.state = .candidate) :
    absNode (takeLead nd) = { absNode nd with role := .leader } := by
  have htally : tally (takeLead nd) = tally nd := by
    simp only [tally, voters_takeLead]
    rfl
  have hs' : (takeLead nd).state = .leader := rfl
  simp only [absNode, hs, hs', htally]
  rfl

theorem absNode_recordMatch (id : CString) (m : UInt64) :
    absNode (recordMatch id m nd) = absNode nd := by
  simp only [absNode, tally, voters_recordMatch]
  rfl

theorem absNode_backOff (id : CString) : absNode (backOff id nd) = absNode nd := by
  simp only [absNode, tally, voters_backOff]
  rfl

end NodeOk

/-! ## Starting a node -/

theorem boot_nodeOk {cfg : Config} {i : CString} (hi : i ∈ cfg.members) (d : Durable)
    (now rand : UInt64) :
    Started i (cfg.peersOf i) d (boot i (cfg.peersOf i) d now rand) ∧
      NodeOk cfg i (boot i (cfg.peersOf i) d now rand) := by
  have hperm := cfg.peers_perm i hi
  have hst : Started i (cfg.peersOf i) d (boot i (cfg.peersOf i) d now rand) :=
    boot_started d now rand (hperm.nodup_iff.2 (cfg.nodup.erase i)) fun p hp =>
      cfg.length_le _ (List.mem_of_mem_erase (hperm.mem_iff.1 (List.mem_map_of_mem hp)))
  refine ⟨hst, ?_, ?_, hst.noSnapshot, ?_, ?_⟩
  · rw [hst.id, CString.strncpy_of_le (cfg.length_le i hi)]
  · exact (List.Perm.of_eq hst.peers).trans hperm
  · rw [hst.vote]
    exact CString.length_strncpy_le _ _
  · rw [hst.state]
    intro hc
    cases hc

/-- A restart from the node's own record loses its role and its tally, nothing else. -/
theorem absNode_boot {cfg : Config} {i : CString} {nd : RaftNode} (hi : i ∈ cfg.members)
    (hok : NodeOk cfg i nd) (now rand : UInt64) :
    absNode (boot i (cfg.peersOf i) nd.durable now rand) =
      { absNode nd with role := .follower, tally := ∅ } := by
  have hst := (boot_nodeOk hi nd.durable now rand).1
  generalize boot i (cfg.peersOf i) nd.durable now rand = nd' at hst
  have hpos : pos nd' = pos nd := by
    unfold pos
    rw [lastLogTerm_congr hst.log (hst.noSnapshot.2.trans hok.noSnapshot.2.symm),
      lastLogIndex_congr hst.log (hst.noSnapshot.1.trans hok.noSnapshot.1.symm)]
  have hvote : nd'.votedFor = nd.votedFor := hst.vote.trans (CString.strncpy_of_le hok.vote_le)
  simp only [absNode, hst.state, hst.term, hpos, hvote, absState, if_true, RaftNode.durable]

end DRoole
