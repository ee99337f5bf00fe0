import DRoole.Lib.Runs
import DRoole.Raft.Api

/-!
# What a node can do

Every public call is a sequence of `Move`s, each one change of the node with
the guard under which the source makes it. A move carries a `Label`, and for
each call a predicate on labels says which moves it is made of and how their
data comes from the arguments. An invariant of the node is then proved once
over the moves (`Moves.invariant`), not once over each call.
-/

namespace DRoole

open Lib

inductive Label where
  /-- Timers, counters, capacities and the leader hint. -/
  | quiet
  /-- A peer is added or removed. -/
  | reconfigure
  | send (peerId : CString) (req : Request)
  | follow (term : UInt64)
  | yield
  | campaign
  | grant (req : RaftRequestVoteReq)
  | count (peerId : CString)
  | elect
  | append (data : Bytes)
  | accept (entries : List RaftLogEntry)
  | ack (peerId : CString) (m : UInt64)
  | backOff (peerId : CString)
  | commit (n : UInt64)
  | apply (e : RaftLogEntry)
  /-- The entry to apply is missing. -/
  | skip

/-- `nd` with the timers, counters, capacities and the leader hint of `b`. -/
def RaftNode.soften (nd b : RaftNode) : RaftNode :=
  { nd with
    logCapacity := b.logCapacity
    peerCapacity := b.peerCapacity
    electionTimeoutMs := b.electionTimeoutMs
    lastHeartbeatMs := b.lastHeartbeatMs
    lastElectionMs := b.lastElectionMs
    leaderId := b.leaderId
    electionsStarted := b.electionsStarted
    heartbeatsSent := b.heartbeatsSent
    heartbeatsReceived := b.heartbeatsReceived }

def RaftNode.withLog (nd b : RaftNode) : RaftNode :=
  { nd with log := b.log, logCapacity := b.logCapacity }

inductive Move : Label → Host → Host → Prop where
  | quiet {h : Host} (b : RaftNode) : Move .quiet h (h.modify (·.soften b))
  | reconfigure {h : Host} (ps : List RaftPeer) :
    Move .reconfigure h (h.modify fun nd => { nd with peers := ps })
  | send {h : Host} (id : CString) (req : Request) : Move (.send id req) h (h.emit (.sendRpc id req))
  | follow {h : Host} (t : UInt64) (ht : h.node.currentTerm < t) :
    Move (.follow t) h (becomeFollower h t)
  /-- A node that is not a follower steps down within its term. -/
  | yield {h : Host} (hs : h.node.state ≠ .follower) :
    Move .yield h (becomeFollower h h.node.currentTerm)
  | campaign {h : Host} (now rand : UInt64) : Move .campaign h (voteSelf h now rand)
  | grant {h : Host} (req : RaftRequestVoteReq) (ht : req.term = h.node.currentTerm)
      (hv : alreadyVoted h.node req = false) (hl : logOk h.node req = true) :
    Move (.grant req) h (castVote h req.candidateId)
  | count {h : Host} (id : CString) (p : RaftPeer) (hs : h.node.state = .candidate)
      (hp : findPeer h.node.peers id = some p) (hg : p.voteGranted = false) :
    Move (.count id) h (h.modify (countVote id))
  | elect {h : Host} (hs : h.node.state = .candidate) (hw : wonElection h.node = true) :
    Move .elect h ((h.modify takeLead).emit .elect)
  | append {h : Host} (data : Bytes) (hs : h.node.state = .leader) :
    Move (.append data) h
      (persistState <| h.modify fun nd => { nd with log := nd.log ++ [submitEntry nd data] })
  | accept {h : Host} (es : List RaftLogEntry) (hs : h.node.state = .follower) :
    Move (.accept es) h (persistState <| h.modify fun nd => nd.withLog (es.foldl appendEntry nd))
  | ack {h : Host} (id : CString) (m : UInt64) (hs : h.node.state = .leader) :
    Move (.ack id m) h (h.modify (recordMatch id m))
  | backOff {h : Host} (id : CString) (p : RaftPeer) (hs : h.node.state = .leader)
      (hp : findPeer h.node.peers id = some p) (hn : p.nextIndex > 1) :
    Move (.backOff id) h (h.modify (backOff id))
  | commit {h : Host} (n : UInt64) : Move (.commit n) h (setCommit h n)
  | apply {h : Host} (e : RaftLogEntry) (hlt : h.node.lastApplied < h.node.commitIndex)
      (he : getLogEntry h.node (h.node.lastApplied + 1) = some e) :
    Move (.apply e) h ((h.modify bumpApplied).emit (.apply e))
  | skip {h : Host} (hlt : h.node.lastApplied < h.node.commitIndex)
      (he : getLogEntry h.node (h.node.lastApplied + 1) = none) :
    Move .skip h (h.modify bumpApplied)

/-- `h'` is reached from `h` by moves that meet `K`. -/
abbrev Host.Moves (K : Host → Label → Prop) (h h' : Host) : Prop := Lib.Moves Move K h h'

theorem Move.trace_extends {l : Label} {h h' : Host} (hm : Move l h h') : h.trace <+: h'.trace := by
  cases hm with
  | quiet | reconfigure | count | ack | backOff | skip => exact List.prefix_refl _
  | campaign | grant =>
    exact (List.prefix_append _ _).trans (List.prefix_append _ _)
  | _ => exact List.prefix_append _ _

theorem Host.Moves.trace_extends {K : Host → Label → Prop} {h h' : Host} (hm : h.Moves K h') :
    h.trace <+: h'.trace :=
  Lib.Moves.invariant (P := fun g => h.trace <+: g.trace) hm (List.prefix_refl _)
    fun _ _ _ hx _ hl => hx.trans hl.trace_extends

theorem Host.Moves.trace_subset {K : Host → Label → Prop} {h h' : Host} (hm : h.Moves K h') :
    h.trace ⊆ h'.trace := hm.trace_extends.subset

theorem Move.mem_trace {l : Label} {h h' : Host} (hm : Move l h h') {st : Stamp}
    (hst : st ∈ h'.trace) : st ∈ h.trace ∨
      match st.call with
      | .sendRpc id req => l = .send id req ∧ st.node = h.node
      | .apply e => l = .apply e
      | _ => True := by
  cases hm with
  | quiet | reconfigure | count | ack | backOff | skip => exact .inl hst
  | campaign | grant =>
    rcases List.mem_append.1 hst with hst | hst
    · refine (List.mem_append.1 hst).imp_right fun hst => ?_
      cases List.mem_singleton.1 hst
      trivial
    · cases List.mem_singleton.1 hst
      exact .inr trivial
  | send id req =>
    refine (List.mem_append.1 hst).imp_right fun hst => ?_
    cases List.mem_singleton.1 hst
    exact ⟨rfl, rfl⟩
  | apply e =>
    refine (List.mem_append.1 hst).imp_right fun hst => ?_
    cases List.mem_singleton.1 hst
    rfl
  | _ =>
    refine (List.mem_append.1 hst).imp_right fun hst => ?_
    cases List.mem_singleton.1 hst
    trivial

theorem soft_moves {K : Host → Label → Prop} (h : Host) (f : RaftNode → RaftNode)
    (hf : f h.node = h.node.soften (f h.node)) (hk : K h .quiet) : h.Moves K (h.modify f) := by
  have e : h.modify f = h.modify (·.soften (f h.node)) := by
    simp only [Host.modify, ← hf]
  rw [e]
  exact Moves.one (Move.quiet _) hk

theorem ensureLogCapacity_soft (nd : RaftNode) (r : Bool) :
    ensureLogCapacity nd r = nd.soften (ensureLogCapacity nd r) := by
  unfold ensureLogCapacity
  split
  · split
    · rfl
    · rfl
  · rfl

theorem ensureLogCapacity_log (nd : RaftNode) (r : Bool) : (ensureLogCapacity nd r).log = nd.log := by
  rw [ensureLogCapacity_soft]
  rfl

theorem ensureLogCapacity_withLog (nd : RaftNode) (r : Bool) :
    ensureLogCapacity nd r = nd.withLog (ensureLogCapacity nd r) := by
  unfold ensureLogCapacity
  split
  · split
    · rfl
    · rfl
  · rfl

theorem pushEntry_withLog (nd : RaftNode) (e : RaftLogEntry) :
    pushEntry nd e = nd.withLog (pushEntry nd e) := by
  unfold pushEntry ensureLogCapacity
  split
  · rfl
  · rfl

theorem pushEntry_log (nd : RaftNode) (e : RaftLogEntry) : (pushEntry nd e).log = nd.log ++ [e] := by
  rw [← ensureLogCapacity_log nd true]
  rfl

theorem dropConflict_withLog (nd : RaftNode) (e : RaftLogEntry) :
    dropConflict nd e = nd.withLog (dropConflict nd e) := by
  unfold dropConflict
  split
  · split
    · rfl
    · rfl
  · rfl

theorem foldl_appendEntry_withLog (es : List RaftLogEntry) (nd : RaftNode) :
    es.foldl appendEntry nd = nd.withLog (es.foldl appendEntry nd) := by
  induction es generalizing nd with
  | nil => rfl
  | cons e es ih =>
    rw [List.foldl_cons, ih]
    unfold appendEntry
    dsimp only
    split
    · rw [dropConflict_withLog]; rfl
    · rw [pushEntry_withLog, dropConflict_withLog]; rfl

theorem alreadyVoted_eq_false {nd : RaftNode} {req : RaftRequestVoteReq} :
    alreadyVoted nd req = false ↔ nd.votedFor.bytes = [] ∨ nd.votedFor = req.candidateId := by
  simp only [alreadyVoted, decide_eq_false_iff_not, not_and, not_not, GT.gt, List.length_pos_iff]
  tauto

/-! ## Loops -/

/-- **Invariant rule** for the peer loops: what the body preserves, the loop does. -/
theorem forPeers_induct {ρ : Type} {body : RaftPeer → Option ρ → Host → Host} {P : Host → Prop}
    (all : List (Option ρ))
    (hbody : ∀ p r h, p ∈ h.node.peers → (∀ x, r = some x → some x ∈ all) → P h →
      P (body p r h)) :
    ∀ (n i : Nat) (rs : List (Option ρ)) (h : Host), (∀ r ∈ rs, r ∈ all) → P h →
      P (forPeers body n i rs h)
  | 0, _, _, _, _, hp => hp
  | n + 1, i, rs, h, hrs, hp => by
    simp only [forPeers]
    split
    · exact hp
    · rename_i p hpeer
      refine forPeers_induct all hbody n (i + 1) rs.tail _ (fun r hr => hrs r (List.mem_of_mem_tail hr))
        (hbody p _ h (List.mem_of_getElem? hpeer) (fun x hx => ?_) hp)
      cases rs with
      | nil => cases hx
      | cons r rs =>
        obtain rfl : r = some x := by simpa using hx
        exact hrs _ List.mem_cons_self

theorem forPeers_induct_at {ρ : Type} {body : RaftPeer → Option ρ → Host → Host} {P : Host → Prop}
    (replies : List (Option ρ))
    (hbody : ∀ (i : Nat) (p : RaftPeer) (h : Host), h.node.peers[i]? = some p → P h →
      P (body p replies[i]?.join h)) :
    ∀ (n i : Nat) (h : Host), P h → P (forPeers body n i (replies.drop i) h)
  | 0, _, _, hp => hp
  | n + 1, i, h, hp => by
    simp only [forPeers]
    split
    · exact hp
    · rename_i p hpeer
      rw [List.tail_drop, List.head?_drop]
      exact forPeers_induct_at replies hbody n (i + 1) _ (hbody i p h hpeer hp)

theorem commitLoop_induct {P : Host → Prop}
    (hcommit : ∀ (h : Host) (n : UInt64), n ≤ lastLogIndex h.node → committable h.node n = true →
      P h → P (setCommit h n)) :
    ∀ (fuel : Nat) (n : UInt64) (h : Host), P h → P (commitLoop fuel n h)
  | 0, _, _, hp => hp
  | fuel + 1, n, h, hp => by
    simp only [commitLoop]
    split
    · rename_i hn
      split
      · rename_i hc
        exact commitLoop_induct hcommit fuel (n + 1) _ (hcommit h n hn hc hp)
      · exact commitLoop_induct hcommit fuel (n + 1) h hp
    · exact hp

def ApplyLabel : Label → Prop
  | .apply _ => True
  | .skip => True
  | _ => False

theorem applyLoop_moves (fuel : Nat) (h : Host) :
    h.Moves (fun _ l => ApplyLabel l) (applyLoop fuel h) := by
  induction fuel generalizing h with
  | zero => exact Moves.refl h
  | succ fuel ih =>
    simp only [applyLoop]
    split
    · rename_i hlt
      split
      · rename_i he
        exact Moves.one (Move.skip hlt he) trivial
      · rename_i e he
        exact (Moves.one (Move.apply e hlt he) trivial).trans (ih _)
    · exact Moves.refl h

theorem applyCommittedEntries_node (h : Host) :
    ∃ n, (applyCommittedEntries h).node = { h.node with lastApplied := n } := by
  refine (applyLoop_moves _ h).invariant
    (P := fun g : Host => ∃ n, g.node = { h.node with lastApplied := n }) ⟨_, rfl⟩
    fun x y l ⟨n, hx⟩ hk hl => ?_
  cases hl with
  | apply e | skip => exact ⟨x.node.lastApplied + 1, by simp [hx, bumpApplied]⟩
  | _ => exact hk.elim

/-! ## The moves of each call -/

theorem stepDown_moves (h : Host) (t : UInt64) :
    h.Moves (fun _ l => l = .follow t) (stepDown h t) := by
  unfold stepDown
  split
  · rename_i ht
    exact Moves.one (Move.follow t ht) rfl
  · exact Moves.refl h

def SubmitLabel (data : Bytes) : Label → Prop
  | .quiet => True
  | .append d => d = data
  | _ => False

theorem raftSubmit_moves (h : Host) (alloc : Alloc) (data : Bytes) :
    h.Moves (fun _ l => SubmitLabel data l) (raftSubmit h alloc data).1 := by
  unfold raftSubmit
  split
  · exact Moves.refl h
  · rename_i hs
    have hcap : h.Moves (fun _ l => SubmitLabel data l)
        (h.modify (ensureLogCapacity · alloc.realloc)) :=
      soft_moves h _ (ensureLogCapacity_soft _ _) trivial
    dsimp only
    split
    · exact hcap
    · refine hcap.trans (Moves.one (Move.append data ?_) rfl)
      rw [Host.modify_node, ensureLogCapacity_soft]
      exact not_not.1 hs

theorem raftSubmit_withLog (h : Host) (alloc : Alloc) (data : Bytes) :
    (raftSubmit h alloc data).1.node = h.node.withLog (raftSubmit h alloc data).1.node := by
  unfold raftSubmit
  split
  · rfl
  dsimp only
  split
  · exact ensureLogCapacity_withLog h.node alloc.realloc
  · simp only [persistState, Host.emit_node, Host.modify_node]
    rw [ensureLogCapacity_withLog]
    rfl

theorem becomeLeader_node (h : Host) (alloc : Alloc) :
    (becomeLeader h alloc).node =
      { (takeLead h.node).withLog (becomeLeader h alloc).node with lastHeartbeatMs := 0 } := by
  show setHeartbeat 0 (raftSubmit ((h.modify takeLead).emit .elect) alloc [0]).1.node = _
  rw [raftSubmit_withLog]
  rfl

def VoteRespLabel (peerId : CString) (resp : RaftRequestVoteResp) (h : Host) : Label → Prop
  | .follow t => t = resp.term
  | .count id => id = peerId ∧ resp.voteGranted ≠ 0 ∧ resp.term = h.node.currentTerm
  | .elect => True
  | .quiet => True
  | .append d => d = [0]
  | _ => False

theorem becomeLeader_moves (h : Host) (alloc : Alloc) (peerId : CString)
    (resp : RaftRequestVoteResp) (hs : h.node.state = .candidate)
    (hw : wonElection h.node = true) :
    h.Moves (VoteRespLabel peerId resp) (becomeLeader h alloc) := by
  have helect : h.Moves (VoteRespLabel peerId resp) ((h.modify takeLead).emit .elect) :=
    Moves.one (Move.elect hs hw) trivial
  have hnoop := (raftSubmit_moves ((h.modify takeLead).emit .elect) alloc [0]).mono
    (L := VoteRespLabel peerId resp) fun _ l hl => by cases l <;> first | exact hl | cases hl
  exact (helect.trans hnoop).trans (soft_moves _ (setHeartbeat 0) rfl trivial)

theorem raftHandleRequestVoteResponse_moves (h : Host) (alloc : Alloc) (peerId : CString)
    (resp : RaftRequestVoteResp) :
    h.Moves (VoteRespLabel peerId resp) (raftHandleRequestVoteResponse h alloc peerId resp) := by
  unfold raftHandleRequestVoteResponse
  split
  · rename_i ht
    exact Moves.one (Move.follow _ ht) rfl
  rename_i hgt
  split
  · exact Moves.refl h
  rename_i hst
  obtain ⟨hs, hlt⟩ := not_or.1 hst
  split
  · exact Moves.refl h
  rename_i p hp
  split
  · rename_i hg
    have hs := not_not.1 hs
    have ht : resp.term = h.node.currentTerm := by grind
    have hcount : h.Moves (VoteRespLabel peerId resp) (h.modify (countVote peerId)) :=
      Moves.one (Move.count peerId p hs hp hg.2) ⟨rfl, hg.1, ht⟩
    dsimp only
    split
    · rename_i hw
      exact hcount.trans (becomeLeader_moves _ alloc peerId resp hs hw)
    · exact hcount
  · exact Moves.refl h

def AppendRespLabel (peerId : CString) (resp : RaftAppendEntriesResp) (h : Host) : Label → Prop
  | .follow t => t = resp.term
  | .ack id m => id = peerId ∧ m = resp.matchIndex ∧ resp.success ≠ 0 ∧
      resp.term = h.node.currentTerm
  | .backOff id => id = peerId ∧ resp.success = 0
  | _ => False

theorem raftHandleAppendEntriesResponse_moves (h : Host) (peerId : CString)
    (resp : RaftAppendEntriesResp) :
    h.Moves (AppendRespLabel peerId resp) (raftHandleAppendEntriesResponse h peerId resp) := by
  unfold raftHandleAppendEntriesResponse
  split
  · rename_i ht
    exact Moves.one (Move.follow _ ht) rfl
  rename_i hgt
  split
  · exact Moves.refl h
  rename_i hst
  obtain ⟨hs, hlt⟩ := not_or.1 hst
  have hs := not_not.1 hs
  split
  · exact Moves.refl h
  rename_i p hp
  split
  · rename_i hok
    have ht : resp.term = h.node.currentTerm := by grind
    exact Moves.one (Move.ack peerId _ hs) ⟨rfl, rfl, hok, ht⟩
  rename_i hok
  split
  · rename_i hn
    exact Moves.one (Move.backOff peerId p hs hp hn) ⟨rfl, not_not.1 hok⟩
  · exact Moves.refl h

/-- The moves of a tick that starts an election at `h0`. -/
def CandidateTickLabel (h0 : Host) (env : TickEnv) (h : Host) : Label → Prop
  | .campaign => h = h0
  | .send id req => (∃ p ∈ h.node.peers, id = p.nodeId) ∧
      req = .requestVote (voteRequest (startElection env.electionNow env.rand h0.node))
  | l => ∃ id r, some r ∈ env.voteReplies ∧ VoteRespLabel id r.resp h l

theorem becomeCandidate_moves (h : Host) (env : TickEnv) :
    h.Moves (CandidateTickLabel h env)
      (becomeCandidate h env.electionNow env.rand env.voteReplies) := by
  unfold becomeCandidate
  refine forPeers_induct env.voteReplies (fun p r g hp hr hg => ?_) _ _ _ _
    (fun _ => id) (Moves.one (Move.campaign _ _) rfl)
  have hsend : h.Moves (CandidateTickLabel h env) (g.emit (.sendRpc p.nodeId (.requestVote
      (voteRequest (voteSelf h env.electionNow env.rand).node)))) :=
    hg.trans (Moves.one (Move.send _ _) ⟨⟨p, hp, rfl⟩, rfl⟩)
  cases r with
  | none => exact hsend
  | some r =>
    refine hsend.trans ((raftHandleRequestVoteResponse_moves _ r.alloc p.nodeId r.resp).mono ?_)
    intro x l hl
    cases l <;> first | exact ⟨_, r, hr r rfl, hl⟩ | cases hl

def HeartbeatLabel (replies : List (Option RaftAppendEntriesResp)) (h : Host) : Label → Prop
  | .quiet => True
  | .send id req => ∃ p ∈ h.node.peers, id = p.nodeId ∧ req = .appendEntries (heartbeat h.node p)
  | l => ∃ id r, some r ∈ replies ∧ AppendRespLabel id r h l

theorem heartbeatRound_moves (h : Host) (now : UInt64)
    (replies : List (Option RaftAppendEntriesResp)) :
    h.Moves (HeartbeatLabel replies) (heartbeatRound h now replies) := by
  unfold heartbeatRound
  split
  · refine forPeers_induct replies (fun p r g hp hr hg => ?_) _ _ _ _ (fun _ => id)
      (soft_moves h _ rfl trivial)
    have hsend : h.Moves (HeartbeatLabel replies)
        (g.emit (.sendRpc p.nodeId (.appendEntries (heartbeat g.node p)))) :=
      hg.trans (Moves.one (Move.send _ _) ⟨p, hp, rfl, rfl⟩)
    cases r with
    | none => exact hsend
    | some r =>
      refine hsend.trans ((raftHandleAppendEntriesResponse_moves _ p.nodeId r).mono ?_)
      intro x l hl
      cases l <;> first | exact ⟨_, r, hr r rfl, hl⟩ | cases hl
  · exact Moves.refl h

def LeaderTickLabel (replies : List (Option RaftAppendEntriesResp)) (h : Host) : Label → Prop
  | .commit n => n ≤ lastLogIndex h.node ∧ committable h.node n = true
  | l => HeartbeatLabel replies h l

theorem leaderTick_moves (h : Host) (now : UInt64)
    (replies : List (Option RaftAppendEntriesResp)) :
    h.Moves (LeaderTickLabel replies) (leaderTick h now replies) := by
  refine commitLoop_induct (fun _ n hn hc hg => hg.trans (Moves.one (Move.commit n) ⟨hn, hc⟩))
    _ _ _ ((heartbeatRound_moves h now replies).mono fun x l hl => ?_)
  cases l with
  | commit n =>
    obtain ⟨_, _, -, hl⟩ := hl
    exact hl.elim
  | _ => exact hl

def TickLabel (h0 : Host) (env : TickEnv) (h : Host) (l : Label) : Prop :=
  ApplyLabel l ∨
  (h0.node.state = .leader ∧ LeaderTickLabel env.appendReplies h l) ∨
  (h0.node.state ≠ .leader ∧ electionDue h0.node env.now = true ∧ CandidateTickLabel h0 env h l)

theorem raftTick_moves (h : Host) (env : TickEnv) :
    h.Moves (TickLabel h env) (raftTick h env) := by
  unfold raftTick applyCommittedEntries
  refine Moves.trans ?_ ((applyLoop_moves _ _).mono fun _ _ hl => .inl hl)
  split
  · rename_i hs
    exact (leaderTick_moves h env.now env.appendReplies).mono fun _ _ hl => .inr (.inl ⟨hs, hl⟩)
  rename_i hs
  unfold followerCandidateTick
  split
  · rename_i hd
    exact (becomeCandidate_moves h env).mono fun _ _ hl => .inr (.inr ⟨hs, hd, hl⟩)
  · exact Moves.refl h

def RequestVoteLabel (req : RaftRequestVoteReq) : Label → Prop
  | .follow t => t = req.term
  | .grant r => r = req
  | .quiet => True
  | _ => False

theorem stepDown_term {h : Host} {t : UInt64} (ht : ¬ t < (stepDown h t).node.currentTerm) :
    t = (stepDown h t).node.currentTerm := by
  unfold stepDown at ht ⊢
  split at ht
  · rename_i hlt
    rw [if_pos hlt]
    rfl
  · rename_i hle
    rw [if_neg hle]
    grind

theorem le_stepDown (h : Host) (t : UInt64) :
    h.node.currentTerm ≤ (stepDown h t).node.currentTerm := by
  unfold stepDown
  split
  · rename_i hlt
    exact UInt64.le_of_lt hlt
  · exact UInt64.le_refl _

/-- `raft_handle_request_vote` refuses, or grants in the request's term. Either
way it reports the term from before the step-up. -/
theorem raftHandleRequestVote_cases (h : Host) (now : UInt64) (req : RaftRequestVoteReq) :
    raftHandleRequestVote h now req = (stepDown h req.term, ⟨h.node.currentTerm, 0⟩) ∨
    (Move (.grant req) (stepDown h req.term) (castVote (stepDown h req.term) req.candidateId) ∧
      raftHandleRequestVote h now req =
        ((castVote (stepDown h req.term) req.candidateId).modify (setHeartbeat now),
          ⟨h.node.currentTerm, 1⟩)) := by
  unfold raftHandleRequestVote
  dsimp only
  split
  · exact .inl rfl
  rename_i ht
  split
  · exact .inl rfl
  rename_i hv
  split
  · exact .inl rfl
  rename_i hl
  exact .inr ⟨Move.grant req (stepDown_term ht) (by simpa using hv) (by simpa using hl), rfl⟩

theorem raftHandleRequestVote_moves (h : Host) (now : UInt64) (req : RaftRequestVoteReq) :
    h.Moves (fun _ l => RequestVoteLabel req l) (raftHandleRequestVote h now req).1 := by
  have hdown := (stepDown_moves h req.term).mono (L := fun _ l => RequestVoteLabel req l)
    fun _ l hl => by subst hl; rfl
  rcases raftHandleRequestVote_cases h now req with e | ⟨hgrant, e⟩ <;> rw [e]
  · exact hdown
  · exact (hdown.trans (Moves.one hgrant rfl)).trans (soft_moves _ (setHeartbeat now) rfl trivial)

def AppendEntriesLabel (h0 : Host) (req : RaftAppendEntriesReq) (es : List RaftLogEntry)
    (h : Host) : Label → Prop
  | .follow t => t = req.term
  | .yield => h0.node.state ≠ .follower ∧ req.term = h0.node.currentTerm ∧
      req.term = h.node.currentTerm
  | .quiet => True
  | .accept l => l = es ∧ req.term = h.node.currentTerm ∧ prevMatches h.node req = true
  | .commit n => req.leaderCommit > h.node.commitIndex ∧ n = clampCommit h.node req.leaderCommit
  | _ => False

/-- A step-up leaves a follower, so a node that is none has not stepped up. -/
theorem stepDown_eq_self {h : Host} {t : UInt64} (hs : (stepDown h t).node.state ≠ .follower) :
    stepDown h t = h := by
  unfold stepDown at hs ⊢
  split at hs
  · exact absurd rfl hs
  · rename_i hle
    rw [if_neg hle]

theorem acceptLeader_moves (h : Host) (now : UInt64) (req : RaftAppendEntriesReq)
    (es : List RaftLogEntry) (ht : req.term = (stepDown h req.term).node.currentTerm) :
    (stepDown h req.term).Moves (AppendEntriesLabel h req es)
      (acceptLeader (stepDown h req.term) now req) := by
  have hsoft : (stepDown h req.term).Moves (AppendEntriesLabel h req es)
      ((stepDown h req.term).modify (heardLeader now req.leaderId)) :=
    soft_moves _ _ rfl trivial
  unfold acceptLeader
  dsimp only
  split
  · rename_i hs
    have hself : stepDown h req.term = h := stepDown_eq_self hs
    rw [hself] at hsoft hs ht ⊢
    refine hsoft.trans (Moves.one (l := .yield) ?_ ⟨hs, ht, ht⟩)
    rw [ht]
    exact Move.yield hs
  · exact hsoft

theorem acceptLeader_node (h : Host) (now : UInt64) (req : RaftAppendEntriesReq)
    (ht : req.term = h.node.currentTerm) :
    (acceptLeader h now req).node.state = .follower ∧
      req.term = (acceptLeader h now req).node.currentTerm := by
  unfold acceptLeader
  dsimp only
  split
  · exact ⟨rfl, rfl⟩
  · rename_i hs
    exact ⟨not_not.1 hs, ht⟩

theorem acceptLeader_log (h : Host) (now : UInt64) (req : RaftAppendEntriesReq) :
    let nd := (acceptLeader (stepDown h req.term) now req).node
    nd.log = h.node.log ∧ nd.lastSnapshotIndex = h.node.lastSnapshotIndex ∧
      nd.lastSnapshotTerm = h.node.lastSnapshotTerm ∧ nd.commitIndex = h.node.commitIndex ∧
      nd.lastApplied = h.node.lastApplied := by
  unfold acceptLeader stepDown
  dsimp only
  split
  · split
    · exact ⟨rfl, rfl, rfl, rfl, rfl⟩
    · exact ⟨rfl, rfl, rfl, rfl, rfl⟩
  · split
    · exact ⟨rfl, rfl, rfl, rfl, rfl⟩
    · exact ⟨rfl, rfl, rfl, rfl, rfl⟩

theorem raftHandleAppendEntries_moves (h : Host) (now : UInt64) (req : RaftAppendEntriesReq)
    (es : List RaftLogEntry) :
    h.Moves (AppendEntriesLabel h req es) (raftHandleAppendEntries h now req es).1 := by
  have hdown := (stepDown_moves h req.term).mono (L := AppendEntriesLabel h req es)
    fun _ l hl => by subst hl; rfl
  unfold raftHandleAppendEntries
  dsimp only
  split
  · exact hdown
  rename_i ht
  have ht := stepDown_term ht
  have haccept := hdown.trans (acceptLeader_moves h now req es ht)
  obtain ⟨hs, hterm⟩ := acceptLeader_node _ now req ht
  split
  · exact haccept
  rename_i hprev
  have hlog := haccept.trans (Moves.one (Move.accept es hs) ⟨rfl, hterm, by simpa using hprev⟩)
  simp only [← foldl_appendEntry_withLog] at hlog
  unfold followCommit
  split
  · rename_i hlc
    exact hlog.trans (Moves.one (Move.commit _) ⟨hlc, rfl⟩)
  · exact hlog

theorem reconfigure_moves {h : Host} {f : RaftNode → RaftNode}
    (hf : f h.node = { h.node.soften (f h.node) with peers := (f h.node).peers }) :
    h.Moves (fun _ l => l = .quiet ∨ l = .reconfigure) (h.modify f) := by
  have e : h.modify f = (h.modify (·.soften (f h.node))).modify
      fun nd => { nd with peers := (f h.node).peers } := by
    simp only [Host.modify, ← hf]
  rw [e]
  exact (Moves.one (Move.quiet _) (.inl rfl)).trans (Moves.one (Move.reconfigure _) (.inr rfl))

def CallLabel (h0 : Host) (h : Host) (l : Label) : ApiCall → Prop
  | .tick env => TickLabel h0 env h l
  | .submit _ data => SubmitLabel data l
  | .addPeer .. => l = .quiet ∨ l = .reconfigure
  | .removePeer .. => l = .quiet ∨ l = .reconfigure
  | .requestVote _ req => RequestVoteLabel req l
  | .appendEntries _ req es => AppendEntriesLabel h0 req es h l
  | .installSnapshot => False
  | .requestVoteResponse _ id resp => VoteRespLabel id resp h l
  | .appendEntriesResponse id resp => AppendRespLabel id resp h l

theorem callLabel_accept {h0 h : Host} {es : List RaftLogEntry} {c : ApiCall}
    (hl : CallLabel h0 h (.accept es) c) : ∃ now req, c = .appendEntries now req es := by
  cases c with
  | appendEntries now req l => exact ⟨now, req, by rw [hl.1]⟩
  | tick env =>
    rcases hl with hl | ⟨-, _, _, -, hl⟩ | ⟨-, -, _, _, -, hl⟩
    all_goals exact hl.elim
  | addPeer | removePeer => simp [CallLabel] at hl
  | _ => exact hl.elim

theorem callLabel_campaign {h0 h : Host} {c : ApiCall} (hl : CallLabel h0 h .campaign c) :
    ∃ env, c = .tick env ∧ h = h0 ∧ h0.node.state ≠ .leader ∧
      electionDue h0.node env.now = true := by
  cases c with
  | tick env =>
    rcases hl with hl | ⟨-, _, _, -, hl⟩ | ⟨hs, hd, hl⟩
    · exact hl.elim
    · exact hl.elim
    · exact ⟨env, rfl, hl, hs, hd⟩
  | addPeer | removePeer => simp [CallLabel] at hl
  | _ => exact hl.elim

/-- **Every public call is made of moves**, those its arguments allow. -/
theorem Host.call_moves (h : Host) (c : ApiCall) :
    h.Moves (fun g l => CallLabel h g l c) (h.call c) := by
  cases c with
  | tick env => exact raftTick_moves h env
  | submit alloc data => exact raftSubmit_moves h alloc data
  | addPeer realloc peerId ip port =>
    refine reconfigure_moves (f := fun nd => (raftAddPeer nd realloc peerId ip port).1) ?_
    unfold raftAddPeer
    split
    · rfl
    split
    · rfl
    · rfl
  | removePeer peerId =>
    refine reconfigure_moves (f := fun nd => (raftRemovePeer nd peerId).1) ?_
    unfold raftRemovePeer
    split
    · rfl
    · rfl
  | requestVote now req => exact raftHandleRequestVote_moves h now req
  | appendEntries now req es => exact raftHandleAppendEntries_moves h now req es
  | installSnapshot => exact Lib.Moves.refl h
  | requestVoteResponse alloc peerId resp =>
    exact raftHandleRequestVoteResponse_moves h alloc peerId resp
  | appendEntriesResponse peerId resp => exact raftHandleAppendEntriesResponse_moves h peerId resp

end DRoole
