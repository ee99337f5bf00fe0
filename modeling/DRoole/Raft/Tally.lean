import DRoole.Raft.Moves

/-!
# Votes against the membership

A candidate keeps its votes twice: `votes_received` counts them, and
`vote_granted` marks the peers they came from. `raft_handle_request_vote_response`
keeps the two together; `raft_remove_peer` takes a mark away and leaves the
count. `Tallied` says that they agree, and that an election is won by a majority
of the peers at that moment, each of which has granted its vote.
-/

namespace DRoole

open Lib

/-! ## Voters -/

def voters (ps : List RaftPeer) : List CString := (ps.filter (·.voteGranted)).map (·.nodeId)

theorem voters_map {f : RaftPeer → RaftPeer} (hid : ∀ p, (f p).nodeId = p.nodeId)
    (hv : ∀ p, (f p).voteGranted = p.voteGranted) (ps : List RaftPeer) :
    voters (ps.map f) = voters ps := by
  unfold voters
  induction ps with
  | nil => rfl
  | cons p ps ih => cases h : p.voteGranted <;> simp_all

theorem voters_updatePeer {id : CString} {f : RaftPeer → RaftPeer}
    (hid : ∀ p, (f p).nodeId = p.nodeId) (hv : ∀ p, (f p).voteGranted = p.voteGranted)
    (ps : List RaftPeer) : voters (updatePeer id f ps) = voters ps := by
  unfold voters
  induction ps with
  | nil => rfl
  | cons p ps ih =>
    unfold updatePeer
    split <;> cases h : p.voteGranted <;> simp_all

theorem voters_clear (ps : List RaftPeer) :
    voters (ps.map fun p => { p with voteGranted := false }) = [] := by
  unfold voters
  induction ps with
  | nil => rfl
  | cons p ps ih => simp

theorem voters_subset (ps : List RaftPeer) : voters ps ⊆ ps.map (·.nodeId) :=
  List.map_subset _ (List.filter_subset_self _)

theorem length_voters_le (ps : List RaftPeer) : (voters ps).length ≤ ps.length := by
  unfold voters
  rw [List.length_map]
  exact List.length_filter_le ..

theorem not_mem_voters {ps : List RaftPeer} {id : CString} {p : RaftPeer}
    (hnd : (ps.map (·.nodeId)).Nodup) (hp : findPeer ps id = some p)
    (hg : p.voteGranted = false) : id ∉ voters ps := by
  intro hmem
  obtain ⟨q, hq, rfl⟩ := List.mem_map.1 hmem
  obtain ⟨hq, hqg⟩ := List.mem_filter.1 hq
  have hpid : p.nodeId = q.nodeId := findPeer_nodeId hp
  have hpq : p = q := List.inj_on_of_nodup_map hnd (List.mem_of_find?_eq_some hp) hq hpid
  rw [hpq] at hg
  simp [hg] at hqg

theorem mem_voters_grant {ps : List RaftPeer} {id : CString} {p : RaftPeer}
    (hp : findPeer ps id = some p) (x : CString) :
    x ∈ voters (updatePeer id (fun p => { p with voteGranted := true }) ps) ↔
      x = id ∨ x ∈ voters ps := by
  induction ps with
  | nil => cases hp
  | cons q ps ih =>
    unfold findPeer at hp ih
    unfold updatePeer
    by_cases hq : q.nodeId = id
    · rw [if_pos hq]
      cases hqg : q.voteGranted <;> simp [voters, hqg, hq]
    · rw [List.find?_cons_of_neg (by simpa using hq)] at hp
      rw [if_neg hq]
      have := ih hp
      unfold voters at this ⊢
      cases hqg : q.voteGranted
      · simpa [hqg] using this
      · simp only [List.filter_cons, hqg, if_true, List.map_cons, List.mem_cons, this]
        exact or_left_comm

theorem length_voters_grant {ps : List RaftPeer} {id : CString} {p : RaftPeer}
    (hp : findPeer ps id = some p) (hg : p.voteGranted = false) :
    (voters (updatePeer id (fun p => { p with voteGranted := true }) ps)).length =
      (voters ps).length + 1 := by
  induction ps with
  | nil => cases hp
  | cons q ps ih =>
    unfold findPeer at hp ih
    unfold updatePeer
    by_cases hq : q.nodeId = id
    · rw [List.find?_cons_of_pos (by simpa using hq)] at hp
      cases hp
      rw [if_pos hq]
      simp [voters, hg]
    · rw [List.find?_cons_of_neg (by simpa using hq)] at hp
      rw [if_neg hq]
      have := ih hp
      unfold voters at this ⊢
      cases hqg : q.voteGranted <;> simpa [hqg] using this

theorem voters_eraseP {ps : List RaftPeer} {id : CString}
    (hg : ∀ p, findPeer ps id = some p → p.voteGranted = false) :
    voters (ps.eraseP fun p => p.nodeId = id) = voters ps := by
  induction ps with
  | nil => rfl
  | cons q ps ih =>
    unfold findPeer at hg ih
    by_cases hq : q.nodeId = id
    · have hqg := hg q (List.find?_cons_of_pos (by simpa using hq))
      rw [List.eraseP_cons_of_pos (by simpa using hq)]
      simp [voters, hqg]
    · rw [List.find?_cons_of_neg (by simpa using hq)] at hg
      have := ih hg
      rw [List.eraseP_cons_of_neg (by simpa using hq)]
      unfold voters at this ⊢
      cases hqg : q.voteGranted <;> simpa [hqg] using this

/-- A voter is the first peer of its id. -/
def FirstVotes (ps : List RaftPeer) : Prop :=
  ps.Pairwise fun p q => q.voteGranted = true → p.nodeId ≠ q.nodeId

theorem FirstVotes.voters_nodup {ps : List RaftPeer} (h : FirstVotes ps) : (voters ps).Nodup := by
  unfold voters
  rw [List.Nodup, List.pairwise_map]
  refine (List.Pairwise.filter _ h).imp_of_mem fun {p q} _ hq hpq => hpq ?_
  simpa using (List.mem_filter.1 hq).2

theorem FirstVotes.grant {ps : List RaftPeer} (h : FirstVotes ps) (id : CString) :
    FirstVotes (updatePeer id (fun p => { p with voteGranted := true }) ps) := by
  induction ps with
  | nil => exact h
  | cons p ps ih =>
    obtain ⟨hhead, htail⟩ := List.pairwise_cons.1 h
    unfold updatePeer
    by_cases hp : p.nodeId = id
    · rw [if_pos hp]
      exact List.pairwise_cons.2 ⟨hhead, htail⟩
    · rw [if_neg hp]
      refine List.pairwise_cons.2 ⟨fun q hq hqg => ?_, ih htail⟩
      rcases mem_updatePeer hq with hq | ⟨r, hr, rfl⟩
      · exact hhead q hq hqg
      · have hrid : r.nodeId = id := findPeer_nodeId hr
        exact fun e => hp (e.trans hrid)

theorem firstVotes_clear (ps : List RaftPeer) :
    FirstVotes (ps.map fun p => { p with voteGranted := false }) := by
  refine List.pairwise_map.2 (List.pairwise_of_forall fun p q hq => ?_)
  cases hq

/-! ## Peers -/

section Peers

variable (nd : RaftNode)

theorem peerIds_startElection (now rand : UInt64) :
    (startElection now rand nd).peerIds = nd.peerIds := map_nodeId_map (fun _ => by rfl) nd.peers

theorem peerIds_takeLead : (takeLead nd).peerIds = nd.peerIds :=
  map_nodeId_map (fun _ => by rfl) nd.peers

theorem peerIds_countVote (id : CString) : (countVote id nd).peerIds = nd.peerIds :=
  map_nodeId_updatePeer (fun _ => by rfl) nd.peers

theorem peerIds_recordMatch (id : CString) (m : UInt64) :
    (recordMatch id m nd).peerIds = nd.peerIds := map_nodeId_updatePeer (fun _ => by rfl) nd.peers

theorem peerIds_backOff (id : CString) : (backOff id nd).peerIds = nd.peerIds :=
  map_nodeId_updatePeer (fun _ => by rfl) nd.peers

theorem voters_takeLead : voters (takeLead nd).peers = voters nd.peers :=
  voters_map (fun _ => by rfl) (fun _ => by rfl) nd.peers

theorem voters_recordMatch (id : CString) (m : UInt64) :
    voters (recordMatch id m nd).peers = voters nd.peers :=
  voters_updatePeer (fun _ => by rfl) (fun _ => by rfl) nd.peers

theorem voters_backOff (id : CString) : voters (backOff id nd).peers = voters nd.peers :=
  voters_updatePeer (fun _ => by rfl) (fun _ => by rfl) nd.peers

end Peers

theorem Move.peerIds_eq {l : Label} {h h' : Host} (hm : Move l h h') (hl : l ≠ .reconfigure) :
    h'.node.peerIds = h.node.peerIds := by
  cases hm with
  | reconfigure => exact absurd rfl hl
  | campaign now rand => exact peerIds_startElection h.node now rand
  | count id => exact peerIds_countVote h.node id
  | elect => exact peerIds_takeLead h.node
  | ack id m => exact peerIds_recordMatch h.node id m
  | backOff id => exact peerIds_backOff h.node id
  | _ => rfl

/-! ## Granting replies -/

/-- The granting replies to a campaign, each with its peer and its term. -/
def campaignGrants (ids : List CString) (replies : List (Option VoteReply)) :
    List (CString × UInt64) :=
  (ids.zip replies).filterMap fun x =>
    match x.2 with
    | some r => if r.resp.voteGranted ≠ 0 then some (x.1, r.resp.term) else none
    | none => none

theorem mem_campaignGrants {ids : List CString} {replies : List (Option VoteReply)} {i : Nat}
    {id : CString} {r : VoteReply} (hid : ids[i]? = some id) (hr : replies[i]? = some (some r))
    (hyes : r.resp.voteGranted ≠ 0) : (id, r.resp.term) ∈ campaignGrants ids replies := by
  have hzip : (ids.zip replies)[i]? = some (id, some r) := List.getElem?_zip_eq_some.2 ⟨hid, hr⟩
  exact List.mem_filterMap.2 ⟨_, List.mem_of_getElem? hzip, if_pos hyes⟩

/-- The granting replies that a call delivers. -/
def grantsOf (nd : RaftNode) : ApiCall → List (CString × UInt64)
  | .tick env =>
    if nd.state ≠ .leader ∧ electionDue nd env.now = true then
      campaignGrants nd.peerIds env.voteReplies
    else []
  | .requestVoteResponse _ id resp => if resp.voteGranted ≠ 0 then [(id, resp.term)] else []
  | _ => []

/-- The granting replies that a sequence of calls delivers. -/
def ballots : Host → List ApiCall → List (CString × UInt64)
  | _, [] => []
  | h, c :: cs => grantsOf h.node c ++ ballots (h.call c) cs

/-- A node with the votes `gs` of a majority of its peers, itself included. -/
structure ElectedBy (gs : List (CString × UInt64)) (nd : RaftNode) : Prop where
  majority : nd.peers.length + 1 < 2 * (1 + (voters nd.peers).length)
  nodup : (voters nd.peers).Nodup
  granted : ∀ x ∈ voters nd.peers, (x, nd.currentTerm) ∈ gs

/-! ## The invariant -/

/-- The membership, with the node itself, is counted by 32 bits. -/
def MembersFit (nd : RaftNode) : Prop := nd.peers.length + 1 < 2 ^ 32

theorem mem_of_vote_persist {g : Host} {x : CString} {st : Stamp}
    (hst : st ∈ (persistState (g.emit (.vote x))).trace) (he : st.call = .elect) :
    st ∈ g.trace := by
  simp only [persistState, Host.emit_trace, List.mem_append, List.mem_singleton] at hst
  rcases hst with (hst | rfl) | rfl
  · exact hst
  · cases he
  · cases he

instance (nd : RaftNode) : Decidable (MembersFit nd) := inferInstanceAs (Decidable (_ < _))

/-- The count, the marks and the granting replies `gs` agree. -/
structure Tallied (gs : List (CString × UInt64)) (h : Host) : Prop where
  count : h.node.state = .candidate →
    h.node.votesReceived.toNat = 1 + (voters h.node.peers).length
  granted : h.node.state = .candidate → ∀ x ∈ voters h.node.peers, (x, h.node.currentTerm) ∈ gs
  first : h.node.state = .candidate → FirstVotes h.node.peers
  elected : ∀ st ∈ h.trace, st.call = .elect → ElectedBy gs st.node

namespace Tallied

variable {gs gs' : List (CString × UInt64)} {h h' : Host}

theorem mono (ht : Tallied gs h) (hsub : gs ⊆ gs') : Tallied gs' h where
  count := ht.count
  granted := fun hs x hx => hsub (ht.granted hs x hx)
  first := ht.first
  elected := fun st hst he =>
    have hby := ht.elected st hst he
    ⟨hby.majority, hby.nodup, fun x hx => hsub (hby.granted x hx)⟩

theorem frame (ht : Tallied gs h)
    (hnode : h'.node.state = .candidate → h.node.state = .candidate ∧
      h'.node.votesReceived = h.node.votesReceived ∧ h'.node.currentTerm = h.node.currentTerm ∧
      voters h'.node.peers = voters h.node.peers ∧
      (FirstVotes h.node.peers → FirstVotes h'.node.peers))
    (htr : ∀ st ∈ h'.trace, st.call = .elect → st ∈ h.trace) : Tallied gs h' where
  count := fun hs => by
    obtain ⟨hs, hv, -, hvoters, -⟩ := hnode hs
    rw [hv, hvoters, ht.count hs]
  granted := fun hs => by
    obtain ⟨hs, -, hterm, hvoters, -⟩ := hnode hs
    rw [hterm, hvoters]
    exact ht.granted hs
  first := fun hs => (hnode hs).2.2.2.2 (ht.first (hnode hs).1)
  elected := fun st hst he => ht.elected st (htr st hst he) he

theorem countVote (ht : Tallied gs h) (hfit : MembersFit h.node) {id : CString} {p : RaftPeer}
    (hs : h.node.state = .candidate) (hp : findPeer h.node.peers id = some p)
    (hg : p.voteGranted = false) (hid : (id, h.node.currentTerm) ∈ gs) :
    Tallied gs (h.modify (DRoole.countVote id)) where
  count := fun _ => by
    show (h.node.votesReceived + 1).toNat = _
    have hlen := length_voters_grant hp hg
    have hle := length_voters_le (updatePeer id (fun p => { p with voteGranted := true }) h.node.peers)
    have hcount := ht.count hs
    rw [hlen, length_updatePeer] at hle
    unfold MembersFit at hfit
    rw [UInt32.toNat_add, UInt32.toNat_one, hcount]
    show _ = 1 + (voters (updatePeer id _ h.node.peers)).length
    rw [hlen]
    omega
  granted := fun _ x hx => by
    rcases (mem_voters_grant hp x).1 hx with rfl | hx
    · exact hid
    · exact ht.granted hs x hx
  first := fun _ => (ht.first hs).grant id
  elected := ht.elected

theorem elect (ht : Tallied gs h) (hs : h.node.state = .candidate)
    (hw : wonElection h.node = true) : Tallied gs ((h.modify takeLead).emit .elect) where
  count := nofun
  granted := nofun
  first := nofun
  elected := by
    intro st hst _
    rcases List.mem_append.1 hst with hst | hst
    · exact ht.elected st hst ‹_›
    · cases List.mem_singleton.1 hst
      have hcount := ht.count hs
      unfold wonElection at hw
      simp only [decide_eq_true_eq] at hw
      refine ⟨?_, ?_, ?_⟩
      · show (takeLead h.node).peers.length + 1 < 2 * (1 + (voters (takeLead h.node).peers).length)
        rw [voters_takeLead, takeLead, List.length_map]
        omega
      · show (voters (takeLead h.node).peers).Nodup
        rw [voters_takeLead]
        exact (ht.first hs).voters_nodup
      · show ∀ x ∈ voters (takeLead h.node).peers, _
        rw [voters_takeLead]
        exact ht.granted hs

theorem campaign (ht : Tallied gs h) (now rand : UInt64) : Tallied gs (voteSelf h now rand) where
  count := fun _ => by
    show (1 : UInt32).toNat = 1 + (voters (h.node.peers.map _)).length
    rw [voters_clear]
    rfl
  granted := fun _ x hx => by
    have hnone := voters_clear h.node.peers
    rw [show voters (voteSelf h now rand).node.peers = [] from hnone] at hx
    cases hx
  first := fun _ => firstVotes_clear h.node.peers
  elected := fun st hst he =>
    ht.elected st (mem_of_vote_persist (g := h.modify (startElection now rand)) hst he) he

/-- **Every move** keeps the tally, if the votes it counts are among `gs`. -/
theorem move {l : Label} (ht : Tallied gs h) (hfit : MembersFit h.node) (hl : l ≠ .reconfigure)
    (hcount : ∀ id, l = .count id → (id, h.node.currentTerm) ∈ gs) (hm : Move l h h') :
    Tallied gs h' := by
  have hsnoc : ∀ {nd : RaftNode} {c : Call}, c ≠ .elect → ∀ st ∈ h.trace ++ [⟨nd, c⟩],
      st.call = .elect → st ∈ h.trace := by
    intro nd c hc st hst he
    rcases List.mem_append.1 hst with hst | hst
    · exact hst
    · cases List.mem_singleton.1 hst
      exact absurd he hc
  cases hm with
  | quiet | skip => exact ht.frame (fun hs => ⟨hs, rfl, rfl, rfl, id⟩) fun _ hst _ => hst
  | reconfigure => exact absurd rfl hl
  | send | commit | apply => exact ht.frame (fun hs => ⟨hs, rfl, rfl, rfl, id⟩) (hsnoc nofun)
  | follow | yield => exact ht.frame nofun (hsnoc nofun)
  | campaign now rand => exact ht.campaign now rand
  | grant req =>
    refine ht.frame (fun hs => ⟨hs, rfl, rfl, rfl, id⟩) fun st hst he => ?_
    exact mem_of_vote_persist
      (g := h.modify fun nd => { nd with votedFor := req.candidateId.strncpy 36 }) hst he
  | count id p hs hp hg => exact ht.countVote hfit hs hp hg (hcount id rfl)
  | elect hs hw => exact ht.elect hs hw
  | append data hs | accept es hs =>
    exact ht.frame (fun hc => absurd (hs.symm.trans hc) nofun) (hsnoc nofun)
  | ack id m hs | backOff id p hs =>
    exact ht.frame (fun hc => absurd (hs.symm.trans hc) nofun) fun _ hst _ => hst

theorem membersFit_congr {a b : RaftNode} (hids : a.peerIds = b.peerIds) (hfit : MembersFit b) :
    MembersFit a := by
  have hlen := congrArg List.length hids
  unfold RaftNode.peerIds at hlen
  rw [List.length_map, List.length_map] at hlen
  rwa [MembersFit, hlen]

theorem moves {K : Host → Label → Prop} (ht : Tallied gs h) (hfit : MembersFit h.node)
    (hm : h.Moves K h')
    (hK : ∀ x l, K x l → l ≠ .reconfigure ∧ ∀ id, l = .count id → (id, x.node.currentTerm) ∈ gs) :
    Tallied gs h' ∧ h'.node.peerIds = h.node.peerIds := by
  refine Lib.Moves.invariant (P := fun x => Tallied gs x ∧ x.node.peerIds = h.node.peerIds) hm
    ⟨ht, rfl⟩ fun x y l hx hk hl => ?_
  obtain ⟨hne, hcount⟩ := hK x l hk
  exact ⟨hx.1.move (membersFit_congr hx.2 hfit) hne hcount hl, (hl.peerIds_eq hne).trans hx.2⟩

theorem voteResponse (ht : Tallied gs h) (hfit : MembersFit h.node) (alloc : Alloc) (id : CString)
    (resp : RaftRequestVoteResp) (hgs : resp.voteGranted ≠ 0 → (id, resp.term) ∈ gs) :
    let h' := raftHandleRequestVoteResponse h alloc id resp
    Tallied gs h' ∧ h'.node.peerIds = h.node.peerIds := by
  refine ht.moves hfit (raftHandleRequestVoteResponse_moves h alloc id resp) fun x l hl => ?_
  refine ⟨fun e => ?_, fun id' e => ?_⟩
  · subst e
    exact hl
  · subst e
    obtain ⟨rfl, hyes, hterm⟩ := hl
    exact hterm ▸ hgs hyes

theorem becomeCandidate (ht : Tallied gs h) (hfit : MembersFit h.node) (now rand : UInt64)
    {replies : List (Option VoteReply)} (hgs : campaignGrants h.node.peerIds replies ⊆ gs) :
    let h' := DRoole.becomeCandidate h now rand replies
    Tallied gs h' ∧ h'.node.peerIds = h.node.peerIds := by
  have hstart : Tallied gs (voteSelf h now rand) ∧
      (voteSelf h now rand).node.peerIds = h.node.peerIds :=
    ⟨ht.campaign now rand, peerIds_startElection h.node now rand⟩
  unfold DRoole.becomeCandidate
  refine forPeers_induct_at (P := fun g => Tallied gs g ∧ g.node.peerIds = h.node.peerIds) replies
    (fun i p g hp hg => ?_) _ 0 _ hstart
  have hsend : Tallied gs (g.emit (.sendRpc p.nodeId (.requestVote
      (voteRequest (voteSelf h now rand).node)))) :=
    hg.1.move (l := .send _ _) (membersFit_congr hg.2 hfit) nofun nofun (Move.send _ _)
  unfold sendRequestVote
  dsimp only
  split
  · exact ⟨hsend, hg.2⟩
  · rename_i r hr
    have hid : h.node.peerIds[i]? = some p.nodeId := by
      rw [← hg.2, RaftNode.peerIds, List.getElem?_map, hp]
      rfl
    obtain ⟨ht', hids⟩ := hsend.voteResponse (membersFit_congr hg.2 hfit) r.alloc p.nodeId r.resp
      fun hyes => hgs (mem_campaignGrants hid (Option.join_eq_some_iff.1 hr) hyes)
    exact ⟨ht', hids.trans hg.2⟩

theorem tick (ht : Tallied gs h) (hfit : MembersFit h.node) {env : TickEnv}
    (hgs : grantsOf h.node (.tick env) ⊆ gs) : Tallied gs (raftTick h env) := by
  have hfirst : Tallied gs (if h.node.state = .leader then leaderTick h env.now env.appendReplies
      else followerCandidateTick h env) ∧
      (if h.node.state = .leader then leaderTick h env.now env.appendReplies
      else followerCandidateTick h env).node.peerIds = h.node.peerIds := by
    split
    · refine ht.moves hfit (leaderTick_moves h env.now env.appendReplies) fun x l hl => ?_
      refine ⟨fun e => ?_, fun id e => ?_⟩
      all_goals
        subst e
        obtain ⟨_, _, -, hl⟩ := hl
        exact hl.elim
    rename_i hs
    unfold followerCandidateTick
    split
    · rename_i hd
      rw [grantsOf, if_pos ⟨hs, hd⟩] at hgs
      exact ht.becomeCandidate hfit env.electionNow env.rand hgs
    · exact ⟨ht, rfl⟩
  unfold raftTick applyCommittedEntries
  refine (hfirst.1.moves (membersFit_congr hfirst.2 hfit) (applyLoop_moves _ _) fun x l hl => ?_).1
  refine ⟨fun e => ?_, fun id e => ?_⟩ <;> subst e <;> exact hl.elim

theorem addPeer (ht : Tallied gs h) (realloc : Bool) (peerId ip : CString) (port : UInt16) :
    Tallied gs (h.modify fun nd => (raftAddPeer nd realloc peerId ip port).1) := by
  unfold Host.modify raftAddPeer
  dsimp only
  split
  · exact ht
  split
  · exact ht
  · refine ht.frame (fun hs => ⟨hs, rfl, rfl, ?_, fun hfirst => ?_⟩) fun _ hst _ => hst
    · simp [voters]
    · refine List.pairwise_append.2 ⟨hfirst, List.pairwise_singleton .., fun p _ q hq hqg => ?_⟩
      cases List.mem_singleton.1 hq
      cases hqg

theorem removePeer (ht : Tallied gs h) {peerId : CString} (hkeep : h.node.state = .candidate →
      ∀ p, findPeer h.node.peers peerId = some p → p.voteGranted = false) :
    Tallied gs (h.modify fun nd => (raftRemovePeer nd peerId).1) := by
  unfold Host.modify raftRemovePeer
  dsimp only
  split
  · refine ht.frame (fun hs => ⟨hs, rfl, rfl, voters_eraseP (hkeep hs), fun hfirst => ?_⟩)
      fun _ hst _ => hst
    exact List.Pairwise.sublist List.eraseP_sublist hfirst
  · exact ht

end Tallied

/-! ## Runs -/

/-- No peer with a counted vote is removed during the election. -/
def KeepsVoters (nd : RaftNode) : ApiCall → Prop
  | .removePeer id => nd.state = .candidate →
      ∀ p, findPeer nd.peers id = some p → p.voteGranted = false
  | _ => True

instance (nd : RaftNode) : (c : ApiCall) → Decidable (KeepsVoters nd c)
  | .removePeer id => inferInstanceAs
      (Decidable (nd.state = .candidate → ∀ p ∈ findPeer nd.peers id, p.voteGranted = false))
  | .tick .. | .submit .. | .addPeer .. | .requestVote .. | .appendEntries .. | .installSnapshot
  | .requestVoteResponse .. | .appendEntriesResponse .. => .isTrue trivial

/-- **Every call** keeps the tally, with the votes it delivers. -/
theorem Tallied.call {gs : List (CString × UInt64)} {h : Host} (ht : Tallied gs h) {c : ApiCall}
    (hfit : MembersFit h.node) (hkeep : KeepsVoters h.node c) :
    Tallied (gs ++ grantsOf h.node c) (h.call c) := by
  have ht := ht.mono (List.subset_append_left gs (grantsOf h.node c))
  have hgs := List.subset_append_right gs (grantsOf h.node c)
  generalize gs ++ grantsOf h.node c = gs' at *
  cases c with
  | tick env => exact ht.tick hfit hgs
  | addPeer realloc peerId ip port => exact ht.addPeer realloc peerId ip port
  | removePeer peerId => exact ht.removePeer hkeep
  | requestVoteResponse alloc id resp =>
    refine (ht.voteResponse hfit alloc id resp fun hyes => hgs ?_).1
    rw [grantsOf, if_pos hyes]
    exact List.mem_singleton_self _
  | _ =>
    refine (ht.moves hfit (h.call_moves _) fun x l hl => ⟨fun e => ?_, fun id e => ?_⟩).1
    all_goals
      subst e
      exact hl.elim

theorem Tallied.calls {cs : List ApiCall} {gs : List (CString × UInt64)} {h : Host}
    (ht : Tallied gs h)
    (hok : Host.CallsOk (fun nd c => MembersFit nd ∧ KeepsVoters nd c) h cs) :
    Tallied (gs ++ ballots h cs) (h.calls cs) := by
  induction cs generalizing gs h with
  | nil => exact ht.mono (List.subset_append_left ..)
  | cons c cs ih =>
    rw [ballots, ← List.append_assoc]
    exact ih (ht.call hok.1.1 hok.1.2) hok.2

/-- **Votes are counted against the membership.** From `raft_init`, under calls
none of which removes a peer with a counted vote, a candidate has counted
itself and the peers marked as its voters, and every election is won with the
votes of a majority of the peers of that moment. -/
theorem votes_counted (nodeId : CString) (rand : UInt64) (cs : List ApiCall)
    (hok : Host.CallsOk (fun nd c => MembersFit nd ∧ KeepsVoters nd c)
      (raftInit nodeId rand).host cs) :
    let h := (raftInit nodeId rand).host.calls cs
    (h.node.state = .candidate →
      h.node.votesReceived.toNat = 1 + h.node.peers.countP (·.voteGranted)) ∧
    ∀ st ∈ h.trace, st.call = .elect →
      ElectedBy (ballots (raftInit nodeId rand).host cs) st.node := by
  intro h
  have hinit : Tallied [] (raftInit nodeId rand).host := ⟨nofun, nofun, nofun, nofun⟩
  have hall : Tallied (ballots (raftInit nodeId rand).host cs) h := hinit.calls hok
  refine ⟨fun hs => ?_, hall.elected⟩
  rw [hall.count hs, voters, List.length_map, List.countP_eq_length_filter]

def idE : CString := ⟨[101], by decide⟩

/-- A node with four peers starts an election, and the first of them grants its vote. -/
def oneVote : List ApiCall :=
  [.addPeer true idB idB 1, .addPeer true idC idC 1, .addPeer true idD idD 1,
   .addPeer true idE idE 1, plainTick 150, .requestVoteResponse Alloc.ok idB ⟨1, 1⟩]

/-- A second vote wins it; a repeated reply changes nothing. -/
theorem votes_counted_three_of_five :
    let cs := oneVote ++ [.requestVoteResponse Alloc.ok idB ⟨1, 1⟩,
      .requestVoteResponse Alloc.ok idC ⟨1, 1⟩]
    ∃ st ∈ ((raftInit idA 0).host.calls cs).trace, st.call = .elect ∧
      ElectedBy (ballots (raftInit idA 0).host cs) st.node := by
  intro cs
  obtain ⟨st, hst, he⟩ : ∃ st ∈ ((raftInit idA 0).host.calls cs).trace, st.call = .elect := by
    decide +kernel
  exact ⟨st, hst, he, (votes_counted idA 0 cs (by decide +kernel)).2 st hst he⟩

/-- The voter is removed and its vote still counts: the vote of one of the three
peers left is taken for a majority. -/
theorem removed_voter_counts :
    let h := (raftInit idA 0).host.calls (oneVote ++ [.removePeer idB])
    let h' := h.call (.requestVoteResponse Alloc.ok idC ⟨1, 1⟩)
    (h.node.state = .candidate ∧ h.node.votesReceived = 2 ∧
      h.node.peers.countP (·.voteGranted) = 0) ∧
    ∃ st ∈ h'.trace, st.call = .elect ∧ st.node.peers.length = 3 ∧
      voters st.node.peers = [idC] := by
  decide +kernel

end DRoole
