import DRoole.Node.Public

/-!
# Candidates with a majority

`votes_received` is held against the size of the cluster in one place, when a
reply brings a vote. `become_candidate` counts the node's own vote and does not
look: a node without peers has its majority and stays a candidate.
`raft_remove_peer` makes the cluster smaller and does not look either. These are
the only two ways to a candidate that should be a leader.
-/

namespace DRoole

open Lib

/-- A candidate does not have a majority of its configured cluster. -/
def Undecided (nd : RaftNode) : Prop :=
  nd.state = .candidate → nd.votesReceived.toNat ≤ (nd.peers.length + 1) / 2

instance (nd : RaftNode) : Decidable (Undecided nd) := inferInstanceAs (Decidable (_ → _))

/-- The call does not start an election without peers, and does not remove a
peer without which the votes are a majority. -/
def KeepsUndecided (nd : RaftNode) : PublicCall → Prop
  | .api (.tick env) => nd.state ≠ .leader → electionDue nd env.now = true → nd.peers ≠ []
  | .api (.removePeer id) => nd.state = .candidate → (findPeer nd.peers id).isSome →
      nd.votesReceived.toNat ≤ nd.peers.length / 2
  | _ => True

/-! ## Moves -/

theorem undecided_of_state {nd : RaftNode} (hs : nd.state ≠ .candidate) : Undecided nd :=
  fun h => absurd h hs

theorem Move.undecided {l : Label} {h h' : Host} (hm : Move l h h') (hc : l ≠ .campaign)
    (hv : ∀ id, l ≠ .count id) (hr : l ≠ .reconfigure) (hu : Undecided h.node) :
    Undecided h'.node := by
  cases hm with
  | campaign => exact absurd rfl hc
  | count id => exact absurd rfl (hv id)
  | reconfigure => exact absurd rfl hr
  | follow | yield | elect => exact undecided_of_state nofun
  | ack id m hs | backOff id p hs => exact undecided_of_state (hs ▸ nofun)
  | _ => exact hu

theorem Host.Moves.undecided {K : Host → Label → Prop} {h h' : Host} (hm : h.Moves K h')
    (hK : ∀ x l, K x l → l ≠ .campaign ∧ (∀ id, l ≠ .count id) ∧ l ≠ .reconfigure)
    (hu : Undecided h.node) : Undecided h'.node := by
  refine Lib.Moves.invariant (P := fun g : Host => Undecided g.node) hm hu fun x y l hx hk hl => ?_
  obtain ⟨hc, hv, hr⟩ := hK x l hk
  exact hl.undecided hc hv hr hx

theorem undecided_applyCommittedEntries (h : Host) :
    Undecided (applyCommittedEntries h).node ↔ Undecided h.node := by
  obtain ⟨n, e⟩ := applyCommittedEntries_node h
  rw [e]
  rfl

/-! ## The calls that count -/

theorem undecided_voteResponse {h : Host} (hu : Undecided h.node) (alloc : Alloc) (id : CString)
    (resp : RaftRequestVoteResp) :
    Undecided (raftHandleRequestVoteResponse h alloc id resp).node := by
  unfold raftHandleRequestVoteResponse
  split
  · exact undecided_of_state RaftState.noConfusion
  split
  · exact hu
  split
  · exact hu
  split
  · dsimp only
    split
    · exact undecided_of_state (by rw [becomeLeader_node]; exact RaftState.noConfusion)
    · rename_i hw
      exact fun _ => by simpa [wonElection] using hw
  · exact hu

theorem undecided_becomeCandidate {h : Host} (hp : h.node.peers ≠ []) (now rand : UInt64)
    (replies : List (Option VoteReply)) :
    Undecided (becomeCandidate h now rand replies).node := by
  have hpos := List.length_pos_iff.2 hp
  have hstart : Undecided (voteSelf h now rand).node := by
    intro _
    show (1 : UInt32).toNat ≤ ((h.node.peers.map _).length + 1) / 2
    rw [List.length_map, UInt32.toNat_one]
    omega
  unfold becomeCandidate
  refine forPeers_induct (P := fun g => Undecided g.node) replies (fun p r g _ _ hg => ?_) _ _ _ _
    (fun _ => id) hstart
  unfold sendRequestVote
  dsimp only
  split
  · exact hg
  · exact undecided_voteResponse (h := g.emit _) hg _ _ _

theorem becomeCandidate_alone {h : Host} (hp : h.node.peers = []) (now rand : UInt64)
    (replies : List (Option VoteReply)) :
    becomeCandidate h now rand replies = voteSelf h now rand := by
  have hnone : (voteSelf h now rand).node.peers.length = 0 := by
    show (h.node.peers.map _).length = 0
    rw [hp]
    rfl
  rw [becomeCandidate, hnone]
  rfl

theorem undecided_tick_iff {h : Host} (hu : Undecided h.node) (env : TickEnv) :
    Undecided (raftTick h env).node ↔ KeepsUndecided h.node (.api (.tick env)) := by
  unfold raftTick KeepsUndecided
  rw [undecided_applyCommittedEntries]
  by_cases hs : h.node.state = .leader
  · rw [if_pos hs]
    refine iff_of_true ((leaderTick_moves h env.now env.appendReplies).undecided
      (fun x l hl => ⟨?_, fun id => ?_, ?_⟩) hu) fun hne => absurd hs hne
    all_goals
      rintro rfl
      obtain ⟨_, _, -, hl⟩ := hl
      exact hl.elim
  rw [if_neg hs, followerCandidateTick]
  by_cases hd : electionDue h.node env.now = true
  · rw [if_pos hd]
    by_cases hp : h.node.peers = []
    · rw [becomeCandidate_alone hp]
      refine iff_of_false (fun hbad => ?_) fun hok => hok hs hd hp
      have hone : (1 : UInt32).toNat ≤ ((h.node.peers.map _).length + 1) / 2 := hbad rfl
      rw [hp] at hone
      exact absurd hone (by decide)
    · exact iff_of_true (undecided_becomeCandidate hp _ _ _) fun _ _ => hp
  · rw [if_neg hd]
    exact iff_of_true hu fun _ h' => absurd h' hd

/-! ## The calls that change the cluster -/

theorem undecided_addPeer {h : Host} (hu : Undecided h.node) (realloc : Bool) (id ip : CString)
    (port : UInt16) : Undecided (raftAddPeer h.node realloc id ip port).1 := by
  unfold raftAddPeer
  split
  · exact hu
  split
  · exact hu
  · intro hs
    have hle := hu hs
    show h.node.votesReceived.toNat ≤ ((h.node.peers ++ [_]).length + 1) / 2
    rw [List.length_append, List.length_singleton]
    omega

theorem undecided_removePeer_iff {nd : RaftNode} (hu : Undecided nd) (id : CString) :
    Undecided (raftRemovePeer nd id).1 ↔ KeepsUndecided nd (.api (.removePeer id)) := by
  unfold raftRemovePeer KeepsUndecided
  split
  · rename_i hfound
    obtain ⟨p, hp⟩ := Option.isSome_iff_exists.1 hfound
    have hmem : p ∈ nd.peers := List.mem_of_find?_eq_some hp
    have hlen : (nd.peers.eraseP fun p => p.nodeId = id).length = nd.peers.length - 1 :=
      List.length_eraseP_of_mem hmem (decide_eq_true (findPeer_nodeId hp))
    have hpos := List.length_pos_of_mem hmem
    have hhalf : (nd.peers.length - 1 + 1) / 2 = nd.peers.length / 2 := by omega
    show (nd.state = .candidate → nd.votesReceived.toNat ≤ (List.length _ + 1) / 2) ↔ _
    rw [hlen, hhalf]
    exact ⟨fun h hs _ => h hs, fun h hs => h hs hfound⟩
  · rename_i hnone
    exact iff_of_true hu fun _ h => absurd h hnone

/-! ## Runs -/

/-- **Step lemma.** -/
theorem undecided_publicCall_iff {s : Host × Disk} (hu : Undecided s.1.node) (c : PublicCall) :
    Undecided (publicCall s c).1.node ↔ KeepsUndecided s.1.node c := by
  rcases publicCall_cases s c with ⟨a, rfl, e⟩ | ⟨hfile, -, e⟩
  · rw [e]
    cases a with
    | tick env => exact undecided_tick_iff hu env
    | addPeer realloc id ip port =>
      exact iff_of_true (undecided_addPeer (h := s.1) hu realloc id ip port) trivial
    | removePeer id => exact undecided_removePeer_iff hu id
    | requestVoteResponse alloc id resp =>
      exact iff_of_true (undecided_voteResponse hu alloc id resp) trivial
    | _ =>
      refine iff_of_true ((s.1.call_moves _).undecided (fun x l hl => ?_) hu) trivial
      refine ⟨?_, fun id => ?_, ?_⟩
      all_goals
        rintro rfl
        exact hl.elim
  · rw [e]
    cases c with
    | api a => exact absurd rfl (hfile a)
    | _ => exact iff_of_true hu trivial

/-- **No candidate is left with a majority** in exactly the runs from
`raft_init` in which no node without peers starts an election and no peer is
removed whose leaving turns the votes into a majority. -/
theorem no_idle_majority_iff (nodeId : CString) (rand : UInt64) (disk : Disk)
    (cs : List PublicCall) :
    (∀ ds s, ds <+: cs → run publicStep ((raftInit nodeId rand).host, disk) ds = some s →
      Undecided s.1.node) ↔
    Along publicStep (fun s c => KeepsUndecided s.1.node c) ((raftInit nodeId rand).host, disk) cs := by
  refine forall_run_iff_along_of_total (P := fun s : Host × Disk => Undecided s.1.node)
    (fun s c => ⟨_, rfl⟩) (fun s c s' hu hs => ?_) (undecided_of_state nofun)
  cases hs
  exact undecided_publicCall_iff hu c

/-- A node without peers is its own majority and stays a candidate. -/
theorem lone_candidate_has_majority :
    ∃ s, run publicStep ((raftInit idA 0).host, fun _ => none) [.start 0, .api (plainTick 150)] =
        some s ∧
      s.1.node.state = .candidate ∧ s.1.node.peers.length = 0 ∧
      ¬ s.1.node.votesReceived.toNat ≤ (s.1.node.peers.length + 1) / 2 :=
  ⟨_, rfl, by decide +kernel, by decide +kernel, by decide +kernel⟩

end DRoole
