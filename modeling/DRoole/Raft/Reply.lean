import DRoole.Raft.Moves

/-!
# Which positive replies are counted

Both request handlers fill `resp->term` with `current_term` before they step up
to the term of the request. A positive reply therefore reports an older term
whenever the responder had to step up, and the response handlers drop a reply
whose term is older than the node's. `vote_counted_iff` and
`match_recorded_iff` say exactly which positive replies have their effect.
-/

namespace DRoole

open Lib

/-! ## Terms reported by the handlers -/

theorem raftHandleRequestVote_resp_term (h : Host) (now : UInt64) (req : RaftRequestVoteReq) :
    (raftHandleRequestVote h now req).2.term = h.node.currentTerm := by
  rcases raftHandleRequestVote_cases h now req with e | ⟨-, e⟩ <;> rw [e]

theorem le_of_stepDown_term {h : Host} {t : UInt64} (ht : t = (stepDown h t).node.currentTerm) :
    h.node.currentTerm ≤ t := by
  have hle := le_stepDown h t
  rwa [← ht] at hle

theorem le_of_voteGranted {h : Host} {now : UInt64} {req : RaftRequestVoteReq}
    (hg : (raftHandleRequestVote h now req).2.voteGranted = 1) : h.node.currentTerm ≤ req.term := by
  rcases raftHandleRequestVote_cases h now req with e | ⟨hm, -⟩
  · rw [e] at hg; cases hg
  · cases hm with
    | grant _ ht _ _ => exact le_of_stepDown_term ht

theorem raftHandleAppendEntries_resp_term (h : Host) (now : UInt64) (req : RaftAppendEntriesReq)
    (es : List RaftLogEntry) :
    (raftHandleAppendEntries h now req es).2.term = h.node.currentTerm := by
  unfold raftHandleAppendEntries
  dsimp only
  split
  · rfl
  split
  · rfl
  · rfl

/-! ## What a follower acknowledges -/

theorem prevMatches_acceptLeader (h : Host) (now : UInt64) (req : RaftAppendEntriesReq) :
    prevMatches (acceptLeader (stepDown h req.term) now req).node req = prevMatches h.node req := by
  obtain ⟨hlog, hidx, hterm, -⟩ := acceptLeader_log h now req
  unfold prevMatches
  rw [decide_eq_decide, termAtIndex_congr hlog hidx hterm]

theorem appendEntry_congr {a b : RaftNode} (hl : a.log = b.log)
    (hs : a.lastSnapshotIndex = b.lastSnapshotIndex) (e : RaftLogEntry) :
    (appendEntry a e).log = (appendEntry b e).log := by
  have hget : ∀ {x y : RaftNode}, x.log = y.log → x.lastSnapshotIndex = y.lastSnapshotIndex →
      getLogEntry x e.index = getLogEntry y e.index := by
    intro x y hl hs
    unfold getLogEntry
    rw [hl, hs]
  have hdrop : (dropConflict a e).log = (dropConflict b e).log := by
    unfold dropConflict
    rw [hget hl hs]
    split
    · split
      · simp only [hl, hs]
      · exact hl
    · exact hl
  have hidx : (dropConflict a e).lastSnapshotIndex = (dropConflict b e).lastSnapshotIndex := by
    rw [dropConflict_withLog a, dropConflict_withLog b]
    exact hs
  unfold appendEntry
  dsimp only
  rw [hget hdrop hidx]
  split
  · exact hdrop
  · rw [pushEntry_log, pushEntry_log, hdrop]

theorem foldl_appendEntry_congr (es : List RaftLogEntry) {a b : RaftNode} (hl : a.log = b.log)
    (hs : a.lastSnapshotIndex = b.lastSnapshotIndex) :
    (es.foldl appendEntry a).log = (es.foldl appendEntry b).log := by
  induction es generalizing a b with
  | nil => exact hl
  | cons e es ih =>
    refine ih (appendEntry_congr hl hs e) ?_
    rw [show appendEntry a e = _ from foldl_appendEntry_withLog [e] a,
      show appendEntry b e = _ from foldl_appendEntry_withLog [e] b]
    exact hs

/-- The request is neither stale nor refused for its previous entry. -/
def TakesEntries (nd : RaftNode) (req : RaftAppendEntriesReq) : Prop :=
  ¬ req.term < nd.currentTerm ∧ prevMatches nd req = true

instance (nd : RaftNode) (req : RaftAppendEntriesReq) : Decidable (TakesEntries nd req) :=
  inferInstanceAs (Decidable (_ ∧ _))

section
variable {h : Host} (now : UInt64) {req : RaftAppendEntriesReq} (es : List RaftLogEntry)

theorem not_stale (hterm : ¬ req.term < h.node.currentTerm) :
    ¬ req.term < (stepDown h req.term).node.currentTerm := by
  unfold stepDown
  split
  · exact UInt64.lt_irrefl _
  · exact hterm

theorem raftHandleAppendEntries_refused (hacc : ¬ TakesEntries h.node req) :
    let h' := (raftHandleAppendEntries h now req es).1
    (raftHandleAppendEntries h now req es).2.success = 0 ∧ h'.node.log = h.node.log ∧
      h'.node.lastSnapshotIndex = h.node.lastSnapshotIndex ∧
      h'.node.commitIndex = h.node.commitIndex := by
  obtain ⟨hlog, hsnap, -, hcommit, -⟩ := acceptLeader_log h now req
  unfold raftHandleAppendEntries
  dsimp only
  rw [prevMatches_acceptLeader]
  split
  · unfold stepDown
    split
    · exact ⟨rfl, rfl, rfl, rfl⟩
    · exact ⟨rfl, rfl, rfl, rfl⟩
  rename_i hstale
  have hterm := UInt64.not_lt.2 (le_of_stepDown_term (stepDown_term hstale))
  split
  · exact ⟨rfl, hlog, hsnap, hcommit⟩
  · rename_i hprev
    exact absurd ⟨hterm, by simpa using hprev⟩ hacc

/-- A request that passes them runs the append loop, and reports and commits up
to the end of the log. -/
theorem raftHandleAppendEntries_accepted (hacc : TakesEntries h.node req) :
    let h' := (raftHandleAppendEntries h now req es).1
    (raftHandleAppendEntries h now req es).2.success = 1 ∧
      (raftHandleAppendEntries h now req es).2.matchIndex = lastLogIndex h'.node ∧
      h'.node.log = (es.foldl appendEntry h.node).log ∧
      h'.node.lastSnapshotIndex = h.node.lastSnapshotIndex ∧
      h'.node.commitIndex =
        if req.leaderCommit > h.node.commitIndex then clampCommit h'.node req.leaderCommit
        else h.node.commitIndex := by
  obtain ⟨hlog, hsnap, -, hcommit, -⟩ := acceptLeader_log h now req
  have hprev : ¬ (!prevMatches h.node req) = true := by rw [hacc.2]; decide
  unfold raftHandleAppendEntries
  dsimp only
  rw [prevMatches_acceptLeader, if_neg (not_stale hacc.1), if_neg hprev]
  generalize acceptLeader (stepDown h req.term) now req = g at *
  have hlog' := foldl_appendEntry_congr es hlog hsnap
  have hwith := foldl_appendEntry_withLog es g.node
  have hsnap' := congrArg RaftNode.lastSnapshotIndex hwith
  have hcommit' := (congrArg RaftNode.commitIndex hwith).trans hcommit
  unfold followCommit
  split
  · rename_i hlc
    change req.leaderCommit > (es.foldl appendEntry g.node).commitIndex at hlc
    rw [hcommit'] at hlc
    exact ⟨rfl, rfl, hlog', hsnap'.trans hsnap, by rw [if_pos hlc]; rfl⟩
  · rename_i hlc
    change ¬ req.leaderCommit > (es.foldl appendEntry g.node).commitIndex at hlc
    rw [hcommit'] at hlc
    exact ⟨rfl, rfl, hlog', hsnap'.trans hsnap, by rw [if_neg hlc]; exact hcommit'⟩

theorem success_iff :
    (raftHandleAppendEntries h now req es).2.success = 1 ↔ TakesEntries h.node req := by
  by_cases hacc : TakesEntries h.node req
  · exact iff_of_true (raftHandleAppendEntries_accepted now es hacc).1 hacc
  · rw [(raftHandleAppendEntries_refused now es hacc).1]
    exact iff_of_false (by decide) hacc

end

/-- What is reported as matching is everything in the log. -/
theorem raftHandleAppendEntries_success {h : Host} {now : UInt64} {req : RaftAppendEntriesReq}
    {es : List RaftLogEntry} (hs : (raftHandleAppendEntries h now req es).2.success ≠ 0) :
    h.node.currentTerm ≤ req.term ∧ prevMatches h.node req = true ∧
      (raftHandleAppendEntries h now req es).2.matchIndex =
        lastLogIndex (es.foldl appendEntry h.node) := by
  have hacc : TakesEntries h.node req := by
    by_contra hno
    exact hs (raftHandleAppendEntries_refused now es hno).1
  obtain ⟨-, hmatch, hlog, hsnap, -⟩ := raftHandleAppendEntries_accepted now es hacc
  refine ⟨UInt64.not_lt.1 hacc.1, hacc.2, hmatch.trans (lastLogIndex_congr hlog (hsnap.trans ?_))⟩
  rw [foldl_appendEntry_withLog es h.node]
  rfl

/-! ## Effect of a delivery -/

theorem becomeLeader_votesReceived (h : Host) (alloc : Alloc) :
    (becomeLeader h alloc).node.votesReceived = h.node.votesReceived := by
  rw [becomeLeader_node]
  rfl

/-- A candidate counts a positive reply of its own term once. -/
theorem votesReceived_of_response {h : Host} {alloc : Alloc} {id : CString} {p : RaftPeer}
    {resp : RaftRequestVoteResp} (hs : h.node.state = .candidate)
    (hp : findPeer h.node.peers id = some p) (hnew : p.voteGranted = false)
    (hg : resp.voteGranted = 1) (ht : resp.term = h.node.currentTerm) :
    (raftHandleRequestVoteResponse h alloc id resp).node.votesReceived =
      h.node.votesReceived + 1 := by
  unfold raftHandleRequestVoteResponse
  rw [if_neg (by grind), if_neg (by grind), hp]
  dsimp only
  rw [if_pos ⟨by simp [hg], hnew⟩]
  split
  · exact becomeLeader_votesReceived _ _
  · rfl

theorem requestVoteResponse_stale {h : Host} (alloc : Alloc) (id : CString)
    {resp : RaftRequestVoteResp} (ht : resp.term < h.node.currentTerm) :
    raftHandleRequestVoteResponse h alloc id resp = h := by
  unfold raftHandleRequestVoteResponse
  rw [if_neg (by grind), if_pos (.inr ht)]

theorem appendEntriesResponse_stale {h : Host} (id : CString) {resp : RaftAppendEntriesResp}
    (ht : resp.term < h.node.currentTerm) : raftHandleAppendEntriesResponse h id resp = h := by
  unfold raftHandleAppendEntriesResponse
  rw [if_neg (by grind), if_pos (.inr ht)]

theorem matchIndex_of_response {h : Host} {id : CString} {p : RaftPeer}
    {resp : RaftAppendEntriesResp} (hs : h.node.state = .leader)
    (hp : findPeer h.node.peers id = some p) (hok : resp.success = 1)
    (ht : resp.term = h.node.currentTerm) :
    (findPeer (raftHandleAppendEntriesResponse h id resp).node.peers id).map (·.matchIndex) =
      some resp.matchIndex := by
  unfold raftHandleAppendEntriesResponse
  rw [if_neg (by grind), if_neg (by grind), hp]
  dsimp only
  rw [if_pos (by simp [hok])]
  have hq := findPeer_updatePeer
    (f := fun p => { p with matchIndex := resp.matchIndex, nextIndex := resp.matchIndex + 1 })
    (fun _ => rfl) hp
  simp only [Host.modify_node, recordMatch, hq, Option.map_some]

/-! ## The results -/

/-- The vote of `P` counts for a candidate that has not counted it yet exactly
when `P` was in the candidate's term before the request. -/
theorem vote_counted_iff {hp hc : Host} {now : UInt64} {req : RaftRequestVoteReq} {alloc : Alloc}
    {id : CString} {p : RaftPeer}
    (hg : (raftHandleRequestVote hp now req).2.voteGranted = 1)
    (hs : hc.node.state = .candidate) (ht : hc.node.currentTerm = req.term)
    (hfind : findPeer hc.node.peers id = some p) (hnew : p.voteGranted = false) :
    (raftHandleRequestVoteResponse hc alloc id
      (raftHandleRequestVote hp now req).2).node.votesReceived = hc.node.votesReceived + 1 ↔
      hp.node.currentTerm = req.term := by
  have hterm := raftHandleRequestVote_resp_term hp now req
  constructor
  · intro hcount
    by_contra hne
    have hlt : (raftHandleRequestVote hp now req).2.term < hc.node.currentTerm := by
      have := le_of_voteGranted hg
      grind
    rw [requestVoteResponse_stale alloc id hlt] at hcount
    grind
  · intro heq
    exact votesReceived_of_response hs hfind hnew hg (by rw [hterm, heq, ht])

/-- The index `P` reports reaches a leader exactly when `P` was in the leader's
term before the request, unless the leader already had the index recorded that
`P`'s log ends with once the entries are in. -/
theorem match_recorded_iff {hp hl : Host} {now : UInt64} {req : RaftAppendEntriesReq}
    {es : List RaftLogEntry} {id : CString} {p : RaftPeer}
    (hok : (raftHandleAppendEntries hp now req es).2.success = 1)
    (hs : hl.node.state = .leader) (ht : hl.node.currentTerm = req.term)
    (hfind : findPeer hl.node.peers id = some p) :
    (findPeer (raftHandleAppendEntriesResponse hl id
      (raftHandleAppendEntries hp now req es).2).node.peers id).map (·.matchIndex) =
        some (raftHandleAppendEntries hp now req es).2.matchIndex ↔
      hp.node.currentTerm = req.term ∨
        p.matchIndex = lastLogIndex (es.foldl appendEntry hp.node) := by
  have hne : (raftHandleAppendEntries hp now req es).2.success ≠ 0 := by simp [hok]
  obtain ⟨hle, -, hmatch⟩ := raftHandleAppendEntries_success hne
  have hterm := raftHandleAppendEntries_resp_term hp now req es
  by_cases heq : hp.node.currentTerm = req.term
  · simp only [heq, true_or, iff_true]
    exact matchIndex_of_response hs hfind hok (by rw [hterm, heq, ht])
  · have hlt : (raftHandleAppendEntries hp now req es).2.term < hl.node.currentTerm := by
      grind
    rw [appendEntriesResponse_stale id hlt, hfind, hmatch]
    simp [heq]

/-- **Which positive replies count.** A granted vote is counted, and a reported
index recorded, exactly when the responder was already in the sender's term. -/
theorem positive_reply_counts_iff (hp h : Host) (now : UInt64) (vote : RaftRequestVoteReq)
    (append : RaftAppendEntriesReq) (es : List RaftLogEntry) (alloc : Alloc) (id : CString)
    (p : RaftPeer) (hfind : findPeer h.node.peers id = some p) :
    ((raftHandleRequestVote hp now vote).2.voteGranted = 1 → h.node.state = .candidate →
      h.node.currentTerm = vote.term → p.voteGranted = false →
      ((raftHandleRequestVoteResponse h alloc id
        (raftHandleRequestVote hp now vote).2).node.votesReceived = h.node.votesReceived + 1 ↔
        hp.node.currentTerm = vote.term)) ∧
    ((raftHandleAppendEntries hp now append es).2.success = 1 → h.node.state = .leader →
      h.node.currentTerm = append.term →
      ((findPeer (raftHandleAppendEntriesResponse h id
        (raftHandleAppendEntries hp now append es).2).node.peers id).map (·.matchIndex) =
          some (raftHandleAppendEntries hp now append es).2.matchIndex ↔
        hp.node.currentTerm = append.term ∨
          p.matchIndex = lastLogIndex (es.foldl appendEntry hp.node))) :=
  ⟨fun hg hs ht hnew => vote_counted_iff hg hs ht hfind hnew,
    fun hok hs ht => match_recorded_iff hok hs ht hfind⟩

def firstCandidate : Host :=
  (raftAddPeer (raftInit idA 0) true idB .empty 0).1.host.call (plainTick 150)

def electedNode : Host := { firstCandidate.node with state := .leader }.host

def peerInTerm : Host := { raftInit idB 0 with currentTerm := 1 }.host

/-- A peer already in the sender's term: its vote is counted, its index recorded. -/
theorem positive_reply_counts_same_term :
    (raftHandleRequestVoteResponse firstCandidate Alloc.ok idB
      (raftHandleRequestVote peerInTerm 160 (voteRequest firstCandidate.node)).2).node.votesReceived =
      firstCandidate.node.votesReceived + 1 ∧
    (findPeer (raftHandleAppendEntriesResponse electedNode idB
      (raftHandleAppendEntries peerInTerm 160 ⟨1, idA, 0, 0, 0, 1⟩
        [⟨1, 1, [0], 0⟩]).2).node.peers idB).map (·.matchIndex) = some 1 := by
  have hfind : ∀ h ∈ [firstCandidate, electedNode], ∀ hne : h.node.peers ≠ [],
      findPeer h.node.peers idB = some (h.node.peers.head hne) := by decide
  constructor
  · exact ((positive_reply_counts_iff peerInTerm firstCandidate 160
      (voteRequest firstCandidate.node) ⟨1, idA, 0, 0, 0, 1⟩ [] Alloc.ok idB _
      (hfind _ (by decide) (by decide))).1 (by decide) (by decide) (by decide) (by decide)).2
      (by decide)
  · rw [((positive_reply_counts_iff peerInTerm electedNode 160 (voteRequest firstCandidate.node)
      ⟨1, idA, 0, 0, 0, 1⟩ [⟨1, 1, [0], 0⟩] Alloc.ok idB _
      (hfind _ (by decide) (by decide))).2 (by decide) (by decide) (by decide)).2
      (.inl (by decide))]
    decide

/-- A fresh peer grants its vote to a candidate of term 1 and the candidate drops it. -/
theorem granted_vote_dropped :
    let resp := (raftHandleRequestVote (raftInit idB 0).host 160 (voteRequest firstCandidate.node)).2
    firstCandidate.node.state = .candidate ∧ resp.voteGranted = 1 ∧
    (findPeer firstCandidate.node.peers idB).map (·.voteGranted) = some false ∧
    (raftHandleRequestVoteResponse firstCandidate Alloc.ok idB resp).node.votesReceived =
      firstCandidate.node.votesReceived := by
  decide

end DRoole
