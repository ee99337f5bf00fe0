import DRoole.Raft.Node

/-!
# The Raft state machine

`src/cluster/raft_core.c`, function by function. A `Host` is a node with the
trace of what it has done through its callbacks, oldest first; each `Stamp`
pairs a call with the node at that moment. Besides the three callbacks
(`persist`, `send_rpc`, `apply`) the trace marks the votes the node casts, its
elections and the moves of its commit index; nothing reads these marks back.

What the node takes from outside is an argument: clock readings, `rand()`,
the outcome of allocations, and the replies that `send_rpc` delivers before it
returns (`raft_send_rpc_callback` calls the response handlers from inside the
callback). An argument used only in log messages is dropped.
-/

namespace DRoole

open Lib

/-- What a node does, as its environment can observe it. -/
inductive Call where
  | persist
  | sendRpc (peerId : CString) (req : Request)
  | apply (entry : RaftLogEntry)
  | vote (candidate : CString)
  | elect
  | commit (n : UInt64)
  deriving DecidableEq, Repr

/-- A call and the node at that moment. -/
structure Stamp where
  node : RaftNode
  call : Call
  deriving DecidableEq, Repr

/-- A node and its trace so far. -/
structure Host where
  node : RaftNode
  trace : List Stamp
  deriving DecidableEq, Repr

def RaftNode.host (nd : RaftNode) : Host := ⟨nd, []⟩

namespace Host

def emit (h : Host) (c : Call) : Host := { h with trace := h.trace ++ [⟨h.node, c⟩] }

def modify (h : Host) (f : RaftNode → RaftNode) : Host := { h with node := f h.node }

@[simp] theorem emit_node (h : Host) (c : Call) : (h.emit c).node = h.node := rfl
@[simp] theorem emit_trace (h : Host) (c : Call) :
    (h.emit c).trace = h.trace ++ [⟨h.node, c⟩] := rfl
@[simp] theorem modify_node (h : Host) (f : RaftNode → RaftNode) :
    (h.modify f).node = f h.node := rfl
@[simp] theorem modify_trace (h : Host) (f : RaftNode → RaftNode) :
    (h.modify f).trace = h.trace := rfl

end Host

/-- The outcomes of the allocations `raft_submit` makes. -/
structure Alloc where
  realloc : Bool
  malloc : Bool
  deriving DecidableEq, Repr

def Alloc.ok : Alloc := ⟨true, true⟩

def randomElectionTimeout (rand : UInt64) : UInt64 := 150 + rand % 150

/-- `ensure_log_capacity`: growth fails silently. -/
def ensureLogCapacity (nd : RaftNode) (realloc : Bool) : RaftNode :=
  if nd.log.length ≥ nd.logCapacity then
    if realloc then
      { nd with logCapacity := if nd.logCapacity = 0 then 16 else nd.logCapacity * 2 }
    else nd
  else nd

/-- A new log slot, with growth that succeeds. -/
def pushEntry (nd : RaftNode) (e : RaftLogEntry) : RaftNode :=
  let nd := ensureLogCapacity nd true
  { nd with log := nd.log ++ [e] }

def persistState (h : Host) : Host := h.emit .persist

/-! ## State transitions -/

def becomeFollower (h : Host) (term : UInt64) : Host :=
  persistState <| h.modify fun nd =>
    { nd with
      state := .follower
      currentTerm := term
      votedFor := CString.empty
      leaderId := CString.empty
      votesReceived := 0 }

/-- "Step down if we see higher term", at the head of every handler. -/
def stepDown (h : Host) (term : UInt64) : Host :=
  if term > h.node.currentTerm then becomeFollower h term else h

def submitEntry (nd : RaftNode) (data : Bytes) : RaftLogEntry :=
  { term := nd.currentTerm, index := lastLogIndex nd + 1, data := data, entryType := 0 }

def raftSubmit (h : Host) (alloc : Alloc) (data : Bytes) : Host × Int :=
  if h.node.state ≠ .leader then (h, -1)
  else
    let h := h.modify (ensureLogCapacity · alloc.realloc)
    if h.node.log.length ≥ h.node.logCapacity ∨ alloc.malloc = false then (h, -2)
    else (persistState <| h.modify fun nd => { nd with log := nd.log ++ [submitEntry nd data] }, 0)

/-- `become_leader` up to the no-op. -/
def takeLead (nd : RaftNode) : RaftNode :=
  { nd with
    state := .leader
    leaderId := nd.nodeId.strncpy 36
    peers := nd.peers.map fun p =>
      { p with nextIndex := lastLogIndex nd + 1, matchIndex := 0, inflightRpcs := 0 } }

def setHeartbeat (now : UInt64) (nd : RaftNode) : RaftNode := { nd with lastHeartbeatMs := now }

/-- `become_leader`; `alloc` is for the no-op it submits. -/
def becomeLeader (h : Host) (alloc : Alloc) : Host :=
  let h := (h.modify takeLead).emit .elect
  let h := (raftSubmit h alloc [0]).1
  h.modify (setHeartbeat 0)

/-! ## Response handlers -/

def countVote (peerId : CString) (nd : RaftNode) : RaftNode :=
  { nd with
    peers := updatePeer peerId (fun p => { p with voteGranted := true }) nd.peers
    votesReceived := nd.votesReceived + 1 }

/-- `votes_received > (peer_count + 1) / 2`. -/
def wonElection (nd : RaftNode) : Bool := nd.votesReceived.toNat > (nd.peers.length + 1) / 2

def raftHandleRequestVoteResponse (h : Host) (alloc : Alloc) (peerId : CString)
    (resp : RaftRequestVoteResp) : Host :=
  if resp.term > h.node.currentTerm then becomeFollower h resp.term
  else if h.node.state ≠ .candidate ∨ resp.term < h.node.currentTerm then h
  else match findPeer h.node.peers peerId with
    | none => h
    | some peer =>
      if resp.voteGranted ≠ 0 ∧ peer.voteGranted = false then
        let h := h.modify (countVote peerId)
        if wonElection h.node then becomeLeader h alloc else h
      else h

def recordMatch (peerId : CString) (m : UInt64) (nd : RaftNode) : RaftNode :=
  { nd with
    peers := updatePeer peerId (fun p => { p with matchIndex := m, nextIndex := m + 1 }) nd.peers }

/-- `peerId` reported a log conflict. -/
def backOff (peerId : CString) (nd : RaftNode) : RaftNode :=
  { nd with
    peers := updatePeer peerId (fun p => { p with nextIndex := p.nextIndex - 1 }) nd.peers }

def raftHandleAppendEntriesResponse (h : Host) (peerId : CString)
    (resp : RaftAppendEntriesResp) : Host :=
  if resp.term > h.node.currentTerm then becomeFollower h resp.term
  else if h.node.state ≠ .leader ∨ resp.term < h.node.currentTerm then h
  else match findPeer h.node.peers peerId with
    | none => h
    | some peer =>
      if resp.success ≠ 0 then h.modify (recordMatch peerId resp.matchIndex)
      else if peer.nextIndex > 1 then h.modify (backOff peerId)
      else h

/-! ## Sending -/

/-- The loop `for (i = 0; i < peer_count; i++)` around a `send_rpc` call: the
peer is read afresh from the node at each turn, and each turn consumes the
reply its call delivers, if any. -/
def forPeers {ρ : Type} (body : RaftPeer → Option ρ → Host → Host) :
    Nat → Nat → List (Option ρ) → Host → Host
  | 0, _, _, h => h
  | n + 1, i, replies, h =>
    match h.node.peers[i]? with
    | none => h
    | some p => forPeers body n (i + 1) replies.tail (body p replies.head?.join h)

/-- A vote reply, with the allocations of the no-op it may trigger. -/
structure VoteReply where
  resp : RaftRequestVoteResp
  alloc : Alloc
  deriving DecidableEq, Repr

def sendRequestVote (req : RaftRequestVoteReq) (p : RaftPeer) (reply : Option VoteReply)
    (h : Host) : Host :=
  let h := h.emit (.sendRpc p.nodeId (.requestVote req))
  match reply with
  | none => h
  | some r => raftHandleRequestVoteResponse h r.alloc p.nodeId r.resp

def voteRequest (nd : RaftNode) : RaftRequestVoteReq :=
  { term := nd.currentTerm
    candidateId := nd.nodeId.strncpy 36
    lastLogIndex := lastLogIndex nd
    lastLogTerm := lastLogTerm nd }

/-- `become_candidate` up to its persist. -/
def startElection (now rand : UInt64) (nd : RaftNode) : RaftNode :=
  { nd with
    state := .candidate
    currentTerm := nd.currentTerm + 1
    votedFor := nd.nodeId.strncpy 36
    votesReceived := 1
    lastElectionMs := now
    electionTimeoutMs := randomElectionTimeout rand
    electionsStarted := nd.electionsStarted + 1
    leaderId := CString.empty
    peers := nd.peers.map fun p => { p with voteGranted := false } }

/-- The vote a candidate casts for itself, persisted. -/
def voteSelf (h : Host) (now rand : UInt64) : Host :=
  let h := h.modify (startElection now rand)
  persistState (h.emit (.vote h.node.votedFor))

def becomeCandidate (h : Host) (now rand : UInt64) (replies : List (Option VoteReply)) : Host :=
  let h := voteSelf h now rand
  forPeers (sendRequestVote (voteRequest h.node)) h.node.peers.length 0 replies h

def heartbeat (nd : RaftNode) (p : RaftPeer) : RaftAppendEntriesReq :=
  { term := nd.currentTerm
    leaderId := nd.nodeId.strncpy 36
    prevLogIndex := p.nextIndex - 1
    prevLogTerm := termAtIndex nd (p.nextIndex - 1)
    leaderCommit := nd.commitIndex
    entryCount := 0 }

def sendHeartbeat (p : RaftPeer) (reply : Option RaftAppendEntriesResp) (h : Host) : Host :=
  let h := h.emit (.sendRpc p.nodeId (.appendEntries (heartbeat h.node p)))
  match reply with
  | none => h
  | some r => raftHandleAppendEntriesResponse h p.nodeId r

/-! ## Periodic tick -/

def bumpApplied (nd : RaftNode) : RaftNode := { nd with lastApplied := nd.lastApplied + 1 }

/-- `apply_committed_entries`, for at most `fuel` turns of its loop. -/
def applyLoop : Nat → Host → Host
  | 0, h => h
  | fuel + 1, h =>
    if h.node.lastApplied < h.node.commitIndex then
      let h := h.modify bumpApplied
      match getLogEntry h.node h.node.lastApplied with
      | none => h
      | some e => applyLoop fuel (h.emit (.apply e))
    else h

def applyCommittedEntries (h : Host) : Host :=
  applyLoop (h.node.commitIndex - h.node.lastApplied).toNat h

/-- The nodes `leader_tick` counts as holding index `n`, itself included. -/
def replicas (nd : RaftNode) (n : UInt64) : UInt32 :=
  nd.peers.foldl (fun r p => if p.matchIndex ≥ n then r + 1 else r) 1

/-- The commit test of `leader_tick` at index `n`. -/
def committable (nd : RaftNode) (n : UInt64) : Bool :=
  termAtIndex nd n = nd.currentTerm ∧ (replicas nd n).toNat > (nd.peers.length + 1) / 2

def setCommit (h : Host) (n : UInt64) : Host :=
  (h.emit (.commit n)).modify fun nd => { nd with commitIndex := n }

/-- The commit loop of `leader_tick` from index `n`, for at most `fuel` turns. -/
def commitLoop : Nat → UInt64 → Host → Host
  | 0, _, h => h
  | fuel + 1, n, h =>
    if n ≤ lastLogIndex h.node then
      if committable h.node n then commitLoop fuel (n + 1) (setCommit h n)
      else commitLoop fuel (n + 1) h
    else h

/-- The turns of the commit loop: from `commit_index + 1` to `last_log_index`.
(For `last_log_index = 2^64 - 1` the C loop never ends.) -/
def commitTurns (nd : RaftNode) : Nat := (lastLogIndex nd).toNat + 1 - (nd.commitIndex + 1).toNat

def heartbeatDue (nd : RaftNode) (now : UInt64) : Bool := now - nd.lastHeartbeatMs ≥ 50

def heartbeatRound (h : Host) (now : UInt64) (replies : List (Option RaftAppendEntriesResp)) :
    Host :=
  if heartbeatDue h.node now then
    let h := h.modify fun nd =>
      { nd with lastHeartbeatMs := now, heartbeatsSent := nd.heartbeatsSent + 1 }
    forPeers sendHeartbeat h.node.peers.length 0 replies h
  else h

def leaderTick (h : Host) (now : UInt64) (replies : List (Option RaftAppendEntriesResp)) : Host :=
  let h := heartbeatRound h now replies
  commitLoop (commitTurns h.node) (h.node.commitIndex + 1) h

/-- What one `raft_tick` takes from outside: the clock in the tick and in
`become_candidate`, `rand()`, and the replies delivered by `send_rpc`. -/
structure TickEnv where
  now : UInt64
  electionNow : UInt64
  rand : UInt64
  voteReplies : List (Option VoteReply)
  appendReplies : List (Option RaftAppendEntriesResp)
  deriving DecidableEq, Repr

def electionDue (nd : RaftNode) (now : UInt64) : Bool :=
  now - nd.lastHeartbeatMs ≥ nd.electionTimeoutMs

/-- The tick of `nd` at `now` starts an election that overflows the term. -/
def termOverflows (nd : RaftNode) (now : UInt64) : Prop :=
  nd.state ≠ .leader ∧ electionDue nd now = true ∧ nd.currentTerm + 1 = 0

instance (nd : RaftNode) (now : UInt64) : Decidable (termOverflows nd now) := by
  unfold termOverflows; infer_instance

def followerCandidateTick (h : Host) (env : TickEnv) : Host :=
  if electionDue h.node env.now then becomeCandidate h env.electionNow env.rand env.voteReplies
  else h

def raftTick (h : Host) (env : TickEnv) : Host :=
  applyCommittedEntries <|
    if h.node.state = .leader then leaderTick h env.now env.appendReplies
    else followerCandidateTick h env

/-! ## Request handlers -/

def logOk (nd : RaftNode) (req : RaftRequestVoteReq) : Bool :=
  req.lastLogTerm > lastLogTerm nd ∨
    (req.lastLogTerm = lastLogTerm nd ∧ req.lastLogIndex ≥ lastLogIndex nd)

/-- The node's vote in this term belongs to another candidate. -/
def alreadyVoted (nd : RaftNode) (req : RaftRequestVoteReq) : Bool :=
  nd.votedFor.bytes.length > 0 ∧ nd.votedFor ≠ req.candidateId

/-- The vote for `candidate`, persisted. -/
def castVote (h : Host) (candidate : CString) : Host :=
  let h := h.modify fun nd => { nd with votedFor := candidate.strncpy 36 }
  persistState (h.emit (.vote h.node.votedFor))

def raftHandleRequestVote (h : Host) (now : UInt64) (req : RaftRequestVoteReq) :
    Host × RaftRequestVoteResp :=
  -- the reply carries the term from before the step-up
  let resp : RaftRequestVoteResp := { term := h.node.currentTerm, voteGranted := 0 }
  let h := stepDown h req.term
  if req.term < h.node.currentTerm then (h, resp)
  else if alreadyVoted h.node req then (h, resp)
  else if !logOk h.node req then (h, resp)
  else ((castVote h req.candidateId).modify (setHeartbeat now), { resp with voteGranted := 1 })

/-- "Delete conflicting entry and all following". -/
def dropConflict (nd : RaftNode) (e : RaftLogEntry) : RaftNode :=
  match getLogEntry nd e.index with
  | some old =>
    if old.term ≠ e.term then
      { nd with log := nd.log.take (e.index - nd.lastSnapshotIndex - 1).toNat }
    else nd
  | none => nd

def appendEntry (nd : RaftNode) (e : RaftLogEntry) : RaftNode :=
  let nd := dropConflict nd e
  match getLogEntry nd e.index with
  | some _ => nd
  | none => pushEntry nd e

def prevMatches (nd : RaftNode) (req : RaftAppendEntriesReq) : Bool :=
  req.prevLogIndex = 0 ∨ termAtIndex nd req.prevLogIndex = req.prevLogTerm

def heardLeader (now : UInt64) (leaderId : CString) (nd : RaftNode) : RaftNode :=
  { nd with
    lastHeartbeatMs := now
    heartbeatsReceived := nd.heartbeatsReceived + 1
    leaderId := leaderId.strncpy 36 }

/-- "Valid leader for this term": a node that is not a follower steps down
within the term. -/
def acceptLeader (h : Host) (now : UInt64) (req : RaftAppendEntriesReq) : Host :=
  let h := h.modify (heardLeader now req.leaderId)
  if h.node.state ≠ .follower then becomeFollower h req.term else h

def clampCommit (nd : RaftNode) (leaderCommit : UInt64) : UInt64 :=
  if lastLogIndex nd < leaderCommit then lastLogIndex nd else leaderCommit

def followCommit (h : Host) (leaderCommit : UInt64) : Host :=
  if leaderCommit > h.node.commitIndex then setCommit h (clampCommit h.node leaderCommit) else h

def raftHandleAppendEntries (h : Host) (now : UInt64) (req : RaftAppendEntriesReq)
    (entries : List RaftLogEntry) : Host × RaftAppendEntriesResp :=
  let resp : RaftAppendEntriesResp :=
    { term := h.node.currentTerm, success := 0, matchIndex := 0 }
  let h := stepDown h req.term
  if req.term < h.node.currentTerm then (h, resp)
  else
    let h := acceptLeader h now req
    if !prevMatches h.node req then (h, { resp with matchIndex := h.node.lastSnapshotIndex })
    else
      let h := persistState <| h.modify fun nd => entries.foldl appendEntry nd
      let h := followCommit h req.leaderCommit
      (h, { resp with success := 1, matchIndex := lastLogIndex h.node })

/-! ## Lifecycle and membership -/

def raftInit (nodeId : CString) (rand : UInt64) : RaftNode :=
  { nodeId := nodeId.strncpy 36
    currentTerm := 0
    votedFor := CString.empty
    log := []
    logCapacity := 0
    state := .follower
    commitIndex := 0
    lastApplied := 0
    peers := []
    peerCapacity := 0
    electionTimeoutMs := randomElectionTimeout rand
    lastHeartbeatMs := 0
    lastElectionMs := 0
    leaderId := CString.empty
    votesReceived := 0
    lastSnapshotIndex := 0
    lastSnapshotTerm := 0
    electionsStarted := 0
    heartbeatsSent := 0
    heartbeatsReceived := 0 }

def raftAddPeer (nd : RaftNode) (realloc : Bool) (peerId ip : CString) (port : UInt16) :
    RaftNode × Int :=
  if (findPeer nd.peers peerId).isSome then (nd, -1)
  else if nd.peers.length ≥ nd.peerCapacity ∧ !realloc then (nd, -1)
  else
    ({ nd with
        peerCapacity :=
          if nd.peers.length ≥ nd.peerCapacity then
            if nd.peerCapacity = 0 then 8 else nd.peerCapacity * 2
          else nd.peerCapacity
        peers := nd.peers ++
          [{ nodeId := peerId.strncpy 36, ipAddress := ip.strncpy 45, port := port,
             nextIndex := 0, matchIndex := 0, inflightRpcs := 0, voteGranted := false }] }, 0)

def raftRemovePeer (nd : RaftNode) (peerId : CString) : RaftNode × Int :=
  if (findPeer nd.peers peerId).isSome then
    ({ nd with peers := nd.peers.eraseP fun p => p.nodeId = peerId }, 0)
  else (nd, -1)

def raftStart (nd : RaftNode) (now : UInt64) : RaftNode := setHeartbeat now nd

end DRoole
