import DRoole.Raft.Progress

/-!
# The leader a node knows

`raft_handle_append_entries` stores the leader's id, and only then makes a node
that is not a follower one. `become_follower` clears the id, so a candidate or a
leader that accepts the leader of its own term forgets it at once. A follower
that knows its leader goes on knowing it until its term grows or it hears of
another one.
-/

namespace DRoole

open Lib

/-- A follower of `leader` in term `t`. -/
structure Follows (leader : CString) (t : UInt64) (nd : RaftNode) : Prop where
  state : nd.state = .follower
  term : nd.currentTerm = t
  leaderId : nd.leaderId = leader

/-! ## Hearing from a leader -/

/-- What the node has of a request that is not stale, besides the log. -/
structure Heard (before : RaftNode) (now : UInt64) (req : RaftAppendEntriesReq) (nd : RaftNode) :
    Prop where
  state : nd.state = .follower
  term : nd.currentTerm = req.term
  leaderId : nd.leaderId =
    if before.state = .follower ∨ before.currentTerm < req.term then req.leaderId.strncpy 36
    else CString.empty
  lastHeartbeat : nd.lastHeartbeatMs = now
  lastElection : nd.lastElectionMs = before.lastElectionMs
  timeout : nd.electionTimeoutMs = before.electionTimeoutMs

theorem acceptLeader_heard {h : Host} (now : UInt64) {req : RaftAppendEntriesReq}
    (hterm : ¬ req.term < h.node.currentTerm) :
    Heard h.node now req (acceptLeader (stepDown h req.term) now req).node := by
  unfold acceptLeader
  dsimp only
  by_cases hup : req.term > h.node.currentTerm
  · have hdown : stepDown h req.term = becomeFollower h req.term := if_pos hup
    rw [hdown]
    split
    · rename_i hs
      exact absurd rfl hs
    · exact ⟨rfl, rfl, by rw [if_pos (.inr hup)]; rfl, rfl, rfl, rfl⟩
  · have hdown : stepDown h req.term = h := if_neg hup
    have hsame : h.node.currentTerm = req.term := by grind
    rw [hdown]
    split
    · rename_i hs
      have hs : h.node.state ≠ .follower := hs
      exact ⟨rfl, rfl, by rw [if_neg (not_or.2 ⟨hs, hup⟩)]; rfl, rfl, rfl, rfl⟩
    · rename_i hs
      have hs : h.node.state = .follower := not_not.1 hs
      exact ⟨hs, hsame, by rw [if_pos (.inl hs)]; rfl, rfl, rfl, rfl⟩

theorem Heard.frame {before : RaftNode} {now : UInt64} {req : RaftAppendEntriesReq} {nd : RaftNode}
    (hheard : Heard before now req nd) (es : List RaftLogEntry) (commit : UInt64) :
    Heard before now req { es.foldl appendEntry nd with commitIndex := commit } := by
  rw [foldl_appendEntry_withLog]
  exact ⟨hheard.state, hheard.term, hheard.leaderId, hheard.lastHeartbeat, hheard.lastElection,
    hheard.timeout⟩

theorem raftHandleAppendEntries_heard {h : Host} (now : UInt64) {req : RaftAppendEntriesReq}
    (es : List RaftLogEntry) (hterm : ¬ req.term < h.node.currentTerm) :
    Heard h.node now req (raftHandleAppendEntries h now req es).1.node := by
  have hheard := acceptLeader_heard now hterm
  unfold raftHandleAppendEntries
  dsimp only
  rw [if_neg (not_stale hterm)]
  split
  · exact hheard
  · unfold followCommit
    split
    · exact hheard.frame es _
    · exact hheard.frame es (es.foldl appendEntry _).commitIndex

theorem raftHandleAppendEntries_stale {h : Host} (now : UInt64) {req : RaftAppendEntriesReq}
    (es : List RaftLogEntry) (hterm : req.term < h.node.currentTerm) :
    (raftHandleAppendEntries h now req es).1 = h := by
  have hself : stepDown h req.term = h := if_neg (UInt64.lt_asymm hterm)
  unfold raftHandleAppendEntries
  dsimp only
  rw [hself, if_pos hterm]

theorem strncpy_eq_self_iff {s : CString} : s.strncpy 36 = s ↔ s.bytes.length ≤ 36 :=
  ⟨fun e => e ▸ CString.length_strncpy_le .., CString.strncpy_of_le⟩

theorem follows_appendEntries_iff {h : Host} (now : UInt64) {req : RaftAppendEntriesReq}
    (es : List RaftLogEntry) (hterm : h.node.currentTerm ≤ req.term)
    (hname : req.leaderId.bytes ≠ []) :
    Follows req.leaderId req.term (raftHandleAppendEntries h now req es).1.node ↔
      (h.node.state = .follower ∨ h.node.currentTerm < req.term) ∧
        req.leaderId.bytes.length ≤ 36 := by
  have hheard := raftHandleAppendEntries_heard now es (UInt64.not_lt.2 hterm)
  by_cases hkeep : h.node.state = .follower ∨ h.node.currentTerm < req.term
  · have hid := hheard.leaderId
    rw [if_pos hkeep] at hid
    rw [and_iff_right hkeep, ← strncpy_eq_self_iff, ← hid]
    exact ⟨fun hf => hf.leaderId, fun e => ⟨hheard.state, hheard.term, e⟩⟩
  · refine iff_of_false (fun hf => hname ?_) fun hc => hkeep hc.1
    have hid := hf.leaderId.symm.trans hheard.leaderId
    rw [if_neg hkeep] at hid
    rw [hid]
    rfl

/-! ## Going on -/

/-- The call names no other leader, and starts no election that overflows the term. -/
def SameLeader (leader : CString) (nd : RaftNode) : ApiCall → Prop
  | .appendEntries _ req _ => req.leaderId = leader
  | .tick env => ¬ termOverflows nd env.now
  | _ => True

instance (leader : CString) (nd : RaftNode) : (c : ApiCall) → Decidable (SameLeader leader nd c)
  | .appendEntries .. => inferInstanceAs (Decidable (_ = _))
  | .tick .. => inferInstanceAs (Decidable (¬ _))
  | .submit .. | .addPeer .. | .removePeer .. | .requestVote .. | .installSnapshot
  | .requestVoteResponse .. | .appendEntriesResponse .. => .isTrue trivial

/-- A node past term `t`, or a follower of `leader` in it. -/
def FollowsOrLater (leader : CString) (t : UInt64) (nd : RaftNode) : Prop :=
  t < nd.currentTerm ∨ Follows leader t nd

section
variable {leader : CString} {t : UInt64} {h : Host}

theorem Follows.stepDown (hf : Follows leader t h.node) (term : UInt64) :
    FollowsOrLater leader t (DRoole.stepDown h term).node := by
  unfold DRoole.stepDown
  split
  · rename_i hup
    exact .inl (hf.term ▸ hup)
  · exact .inr hf

theorem Follows.requestVote (hf : Follows leader t h.node) (now : UInt64)
    (req : RaftRequestVoteReq) :
    FollowsOrLater leader t (raftHandleRequestVote h now req).1.node := by
  have hdown := hf.stepDown req.term
  rcases raftHandleRequestVote_cases h now req with e | ⟨-, e⟩ <;> rw [e]
  · exact hdown
  · exact hdown.imp id fun hf => ⟨hf.state, hf.term, hf.leaderId⟩

theorem Follows.appendEntries (hf : Follows leader t h.node) (hlen : leader.bytes.length ≤ 36)
    (now : UInt64) {req : RaftAppendEntriesReq} (es : List RaftLogEntry)
    (hname : req.leaderId = leader) :
    FollowsOrLater leader t (raftHandleAppendEntries h now req es).1.node := by
  by_cases hterm : req.term < h.node.currentTerm
  · rw [raftHandleAppendEntries_stale now es hterm]
    exact .inr hf
  have hheard := raftHandleAppendEntries_heard now es hterm
  by_cases hup : h.node.currentTerm < req.term
  · exact .inl (by rw [hheard.term, ← hf.term]; exact hup)
  · refine .inr ⟨hheard.state, ?_, ?_⟩
    · rw [hheard.term, ← hf.term]
      grind
    · rw [hheard.leaderId, if_pos (.inl hf.state), hname, CString.strncpy_of_le hlen]

/-- A tick of a follower starts an election in the next term, or only applies entries. -/
theorem Follows.tick (hf : Follows leader t h.node) {env : TickEnv}
    (hover : ¬ termOverflows h.node env.now) :
    FollowsOrLater leader t (raftTick h env).node := by
  have hlead : h.node.state ≠ .leader := by rw [hf.state]; exact nofun
  by_cases hd : electionDue h.node env.now = true
  · have hnext : h.node.currentTerm + 1 ≠ 0 := fun e => hover ⟨hlead, hd, e⟩
    have hlater : t < (becomeCandidate h env.electionNow env.rand env.voteReplies).node.currentTerm := by
      unfold becomeCandidate
      refine forPeers_induct (P := fun g : Host => t < g.node.currentTerm) env.voteReplies
        (fun p r g _ _ hg => ?_) _ _ _ _ (fun _ => id) ?_
      · unfold sendRequestVote
        dsimp only
        split
        · exact hg
        · refine (raftHandleRequestVoteResponse_moves _ _ _ _).invariant
            (P := fun g : Host => t < g.node.currentTerm) hg fun x y l hx hk hl => ?_
          refine UInt64.lt_of_lt_of_le hx (hl.term_le fun e => ?_)
          subst e
          exact hk.elim
      · show t < h.node.currentTerm + 1
        rw [← hf.term]
        grind
    obtain ⟨n, e⟩ := applyCommittedEntries_node
      (becomeCandidate h env.electionNow env.rand env.voteReplies)
    rw [raftTick, if_neg hlead, followerCandidateTick, if_pos hd, e]
    exact .inl hlater
  · obtain ⟨n, e⟩ := applyCommittedEntries_node h
    rw [raftTick, if_neg hlead, followerCandidateTick, if_neg hd, e]
    exact .inr ⟨hf.state, hf.term, hf.leaderId⟩

theorem Follows.voteResponse (hf : Follows leader t h.node) (alloc : Alloc) (id : CString)
    (resp : RaftRequestVoteResp) :
    FollowsOrLater leader t (raftHandleRequestVoteResponse h alloc id resp).node := by
  unfold raftHandleRequestVoteResponse
  split
  · rename_i hup
    exact .inl (hf.term ▸ hup)
  · rw [if_pos (.inl (by rw [hf.state]; exact nofun))]
    exact .inr hf

theorem Follows.appendResponse (hf : Follows leader t h.node) (id : CString)
    (resp : RaftAppendEntriesResp) :
    FollowsOrLater leader t (raftHandleAppendEntriesResponse h id resp).node := by
  unfold raftHandleAppendEntriesResponse
  split
  · rename_i hup
    exact .inl (hf.term ▸ hup)
  · rw [if_pos (.inl (by rw [hf.state]; exact nofun))]
    exact .inr hf

theorem Follows.reconfigured (hf : Follows leader t h.node) {nd : RaftNode}
    (hs : nd.state = h.node.state) (ht : nd.currentTerm = h.node.currentTerm)
    (hl : nd.leaderId = h.node.leaderId) : FollowsOrLater leader t nd :=
  .inr ⟨hs.trans hf.state, ht.trans hf.term, hl.trans hf.leaderId⟩

/-- **Step lemma.** -/
theorem FollowsOrLater.call (hf : FollowsOrLater leader t h.node) (hlen : leader.bytes.length ≤ 36)
    {c : ApiCall} (hc : SameLeader leader h.node c) :
    FollowsOrLater leader t (h.call c).node := by
  rcases hf with hlater | hf
  · refine .inl (UInt64.lt_of_lt_of_le hlater ?_)
    refine Host.call_term_le fun env e => ?_
    subst e
    exact hc
  cases c with
  | tick env => exact hf.tick hc
  | submit alloc data =>
    have hself : raftSubmit h alloc data = (h, -1) :=
      if_pos (by rw [hf.state]; exact nofun)
    show FollowsOrLater leader t (raftSubmit h alloc data).1.node
    rw [hself]
    exact .inr hf
  | addPeer realloc id ip port =>
    show FollowsOrLater leader t (raftAddPeer h.node realloc id ip port).1
    unfold raftAddPeer
    split
    · exact .inr hf
    split
    · exact .inr hf
    · exact hf.reconfigured rfl rfl rfl
  | removePeer id =>
    show FollowsOrLater leader t (raftRemovePeer h.node id).1
    unfold raftRemovePeer
    split
    · exact hf.reconfigured rfl rfl rfl
    · exact .inr hf
  | requestVote now req => exact hf.requestVote now req
  | appendEntries now req es => exact hf.appendEntries hlen now es hc
  | installSnapshot => exact .inr hf
  | requestVoteResponse alloc id resp => exact hf.voteResponse alloc id resp
  | appendEntriesResponse id resp => exact hf.appendResponse id resp

end

/-- **The accepted leader stays known**, until the term grows or another leader
is named, exactly if the node was a follower or stepped up to the term of the
request; and the id fits its field. -/
theorem accepted_leader_known_iff (h : Host) (now : UInt64) (req : RaftAppendEntriesReq)
    (es : List RaftLogEntry) (hterm : h.node.currentTerm ≤ req.term)
    (hname : req.leaderId.bytes ≠ []) :
    let h' := (raftHandleAppendEntries h now req es).1
    (∀ cs, Host.CallsOk (SameLeader req.leaderId) h' cs →
        (h'.calls cs).node.currentTerm = req.term →
        Follows req.leaderId req.term (h'.calls cs).node) ↔
      (h.node.state = .follower ∨ h.node.currentTerm < req.term) ∧
        req.leaderId.bytes.length ≤ 36 := by
  intro h'
  have hiff := follows_appendEntries_iff now es hterm hname
  constructor
  · intro hall
    exact hiff.1 (hall [] trivial (raftHandleAppendEntries_heard now es (UInt64.not_lt.2 hterm)).term)
  · rintro hcond cs hcs hsame
    have hlater : FollowsOrLater req.leaderId req.term (h'.calls cs).node :=
      Host.calls_induct (P := fun g : Host => FollowsOrLater req.leaderId req.term g.node)
        (fun g c hg hc => hg.call hcond.2 hc) (.inr (hiff.2 hcond)) hcs
    rcases hlater with hlater | hf
    · rw [hsame] at hlater
      exact absurd hlater (UInt64.lt_irrefl _)
    · exact hf

def heartbeatOfA : RaftAppendEntriesReq := ⟨1, idA, 0, 0, 0, 0⟩

/-- A fresh follower knows `a` after a further heartbeat and a refused vote. -/
theorem accepted_leader_known_of_follower :
    let h := (raftHandleAppendEntries (raftInit idB 0).host 10 heartbeatOfA []).1
    Follows idA 1 (h.calls [.appendEntries 20 heartbeatOfA [],
      .requestVote 25 ⟨0, idC, 5, 5⟩, plainTick 30]).node :=
  (accepted_leader_known_iff (raftInit idB 0).host 10 heartbeatOfA [] (by decide)
    (by decide)).2 (by decide) _ (by decide +kernel) (by decide +kernel)

/-- A candidate of term 1 becomes a follower and forgets whom it follows. -/
theorem candidate_forgets_leader :
    let h := (raftInit idB 0).host.calls [.addPeer true idA idA 1, plainTick 150]
    let h' := (raftHandleAppendEntries h 160 heartbeatOfA []).1
    h.node.state = .candidate ∧ h.node.currentTerm = 1 ∧ h'.node.state = .follower ∧
      h'.node.currentTerm = 1 ∧ h'.node.leaderId = CString.empty ∧ h'.node.leaderId ≠ idA := by
  decide +kernel

end DRoole
