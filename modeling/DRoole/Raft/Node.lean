import DRoole.Lib.Bytes

/-!
# The Raft node

The data model of `include/cluster/raft.h` and the log accessors of
`src/cluster/raft_core.c`. Counters and indices are the source's fixed-width
words, so every sum and difference wraps as it does in C. The dynamic arrays
`log` and `peers` are lists; `log_count` and `peer_count` are their lengths and
only the capacities are kept apart. A `char[37]` field is the `CString` it
holds, written through `strncpy` with 36 bytes.

The callbacks of `raft_rpc_init` are installed on every node. The fields no
modelled function reads (`snapshot_data`, `snapshot_size`, `last_contact_ms`)
are left out.
-/

namespace DRoole

open Lib

/-- `RaftState`. -/
inductive RaftState where
  | follower
  | candidate
  | leader
  deriving DecidableEq, Repr

/-- `RaftLogEntry`; `data_len` is the length of `data`. -/
structure RaftLogEntry where
  term : UInt64
  index : UInt64
  data : Bytes
  entryType : UInt8
  deriving DecidableEq, Repr

/-- `RaftPeer`: a leader's view of one follower. -/
structure RaftPeer where
  nodeId : CString
  ipAddress : CString
  port : UInt16
  nextIndex : UInt64
  matchIndex : UInt64
  inflightRpcs : UInt32
  voteGranted : Bool
  deriving DecidableEq, Repr

/-- `RaftNode`. -/
structure RaftNode where
  nodeId : CString
  currentTerm : UInt64
  votedFor : CString
  log : List RaftLogEntry
  logCapacity : Nat
  state : RaftState
  commitIndex : UInt64
  lastApplied : UInt64
  peers : List RaftPeer
  peerCapacity : Nat
  electionTimeoutMs : UInt64
  lastHeartbeatMs : UInt64
  lastElectionMs : UInt64
  leaderId : CString
  votesReceived : UInt32
  lastSnapshotIndex : UInt64
  lastSnapshotTerm : UInt64
  electionsStarted : UInt64
  heartbeatsSent : UInt64
  heartbeatsReceived : UInt64
  deriving DecidableEq, Repr

/-- The state a node must have on disk: `current_term`, `voted_for`, `log`. -/
structure Durable where
  currentTerm : UInt64
  votedFor : CString
  log : List RaftLogEntry
  deriving DecidableEq, Repr

def Durable.empty : Durable := ⟨0, CString.empty, []⟩

def RaftNode.durable (nd : RaftNode) : Durable := ⟨nd.currentTerm, nd.votedFor, nd.log⟩

/-! ## Messages -/

/-- `RaftRequestVoteReq`. -/
structure RaftRequestVoteReq where
  term : UInt64
  candidateId : CString
  lastLogIndex : UInt64
  lastLogTerm : UInt64
  deriving DecidableEq, Repr

/-- `RaftRequestVoteResp`. -/
structure RaftRequestVoteResp where
  term : UInt64
  voteGranted : UInt8
  deriving DecidableEq, Repr

/-- `RaftAppendEntriesReq`. -/
structure RaftAppendEntriesReq where
  term : UInt64
  leaderId : CString
  prevLogIndex : UInt64
  prevLogTerm : UInt64
  leaderCommit : UInt64
  entryCount : UInt32
  deriving DecidableEq, Repr

/-- `RaftAppendEntriesResp`. -/
structure RaftAppendEntriesResp where
  term : UInt64
  success : UInt8
  matchIndex : UInt64
  deriving DecidableEq, Repr

/-- What the core hands to `send_rpc`. -/
inductive Request where
  | requestVote (req : RaftRequestVoteReq)
  | appendEntries (req : RaftAppendEntriesReq)
  deriving DecidableEq, Repr

/-! ## Log accessors -/

def lastLogIndex (nd : RaftNode) : UInt64 :=
  match nd.log.getLast? with
  | none => nd.lastSnapshotIndex
  | some e => e.index

def lastLogTerm (nd : RaftNode) : UInt64 :=
  match nd.log.getLast? with
  | none => nd.lastSnapshotTerm
  | some e => e.term

def getLogEntry (nd : RaftNode) (index : UInt64) : Option RaftLogEntry :=
  if index ≤ nd.lastSnapshotIndex then none
  else nd.log[(index - nd.lastSnapshotIndex - 1).toNat]?

def termAtIndex (nd : RaftNode) (index : UInt64) : UInt64 :=
  if index = 0 then 0
  else if index = nd.lastSnapshotIndex then nd.lastSnapshotTerm
  else match getLogEntry nd index with
    | some e => e.term
    | none => 0

theorem lastLogIndex_congr {a b : RaftNode} (hl : a.log = b.log)
    (hs : a.lastSnapshotIndex = b.lastSnapshotIndex) : lastLogIndex a = lastLogIndex b := by
  unfold lastLogIndex; rw [hl, hs]

theorem lastLogTerm_congr {a b : RaftNode} (hl : a.log = b.log)
    (hs : a.lastSnapshotTerm = b.lastSnapshotTerm) : lastLogTerm a = lastLogTerm b := by
  unfold lastLogTerm; rw [hl, hs]

theorem termAtIndex_congr {a b : RaftNode} (hl : a.log = b.log)
    (hs : a.lastSnapshotIndex = b.lastSnapshotIndex) (ht : a.lastSnapshotTerm = b.lastSnapshotTerm)
    (index : UInt64) : termAtIndex a index = termAtIndex b index := by
  unfold termAtIndex getLogEntry; rw [hl, hs, ht]

/-! ## Peers -/

/-- `find_peer`: the first peer of that id. -/
def findPeer (ps : List RaftPeer) (peerId : CString) : Option RaftPeer :=
  ps.find? fun p => p.nodeId = peerId

theorem findPeer_nodeId {ps : List RaftPeer} {id : CString} {p : RaftPeer}
    (hp : findPeer ps id = some p) : p.nodeId = id := by
  simpa [findPeer] using List.find?_some hp

/-- A write through the pointer `find_peer` returns. -/
def updatePeer (peerId : CString) (f : RaftPeer → RaftPeer) : List RaftPeer → List RaftPeer
  | [] => []
  | p :: ps => if p.nodeId = peerId then f p :: ps else p :: updatePeer peerId f ps

@[simp] theorem length_updatePeer (i : CString) (f : RaftPeer → RaftPeer) (ps : List RaftPeer) :
    (updatePeer i f ps).length = ps.length := by
  induction ps with
  | nil => rfl
  | cons p ps ih =>
    simp only [updatePeer]
    split
    · rfl
    · simp only [List.length_cons, ih]

theorem findPeer_updatePeer {ps : List RaftPeer} {id : CString} {p : RaftPeer}
    {f : RaftPeer → RaftPeer} (hf : ∀ q, (f q).nodeId = q.nodeId)
    (hp : findPeer ps id = some p) : findPeer (updatePeer id f ps) id = some (f p) := by
  induction ps with
  | nil => cases hp
  | cons q ps ih =>
    unfold findPeer at hp ih ⊢
    unfold updatePeer
    by_cases hq : q.nodeId = id
    · rw [List.find?_cons_of_pos (by simpa using hq)] at hp
      rw [if_pos hq, List.find?_cons_of_pos (by simpa [hf] using hq), ← Option.some.inj hp]
    · rw [List.find?_cons_of_neg (by simpa using hq)] at hp
      rw [if_neg hq, List.find?_cons_of_neg (by simpa using hq), ih hp]

/-- With distinct ids the peer of an id is at its own place. -/
theorem updatePeer_eq_set {ps : List RaftPeer} {i : Nat} {p : RaftPeer} (f : RaftPeer → RaftPeer)
    (hnd : (ps.map (·.nodeId)).Nodup) (hp : ps[i]? = some p) :
    updatePeer p.nodeId f ps = ps.set i (f p) := by
  induction ps generalizing i with
  | nil => cases hp
  | cons q ps ih =>
    rw [List.map_cons, List.nodup_cons] at hnd
    unfold updatePeer
    cases i with
    | zero =>
      cases hp
      rw [if_pos rfl, List.set_cons_zero]
    | succ i =>
      have hne : q.nodeId ≠ p.nodeId := fun e =>
        hnd.1 (e ▸ List.mem_map_of_mem (List.mem_of_getElem? hp))
      rw [if_neg hne, ih hnd.2 hp, List.set_cons_succ]

theorem mem_updatePeer {ps : List RaftPeer} {id : CString} {f : RaftPeer → RaftPeer} {q : RaftPeer}
    (hq : q ∈ updatePeer id f ps) : q ∈ ps ∨ ∃ p, findPeer ps id = some p ∧ q = f p := by
  induction ps with
  | nil => exact .inl hq
  | cons p ps ih =>
    unfold updatePeer at hq
    by_cases hp : p.nodeId = id
    · rw [if_pos hp] at hq
      rcases List.mem_cons.1 hq with rfl | hq
      · exact .inr ⟨p, List.find?_cons_of_pos (by simpa using hp), rfl⟩
      · exact .inl (List.mem_cons_of_mem _ hq)
    · rw [if_neg hp] at hq
      rcases List.mem_cons.1 hq with rfl | hq
      · exact .inl List.mem_cons_self
      · refine (ih hq).imp (List.mem_cons_of_mem _) fun ⟨r, hr, e⟩ => ⟨r, ?_, e⟩
        unfold findPeer at hr ⊢
        rw [List.find?_cons_of_neg (by simpa using hp), hr]

theorem map_nodeId_map {f : RaftPeer → RaftPeer} (hf : ∀ p, (f p).nodeId = p.nodeId)
    (ps : List RaftPeer) : (ps.map f).map (·.nodeId) = ps.map (·.nodeId) := by
  rw [List.map_map]
  exact List.map_congr_left fun p _ => hf p

theorem map_nodeId_updatePeer {i : CString} {f : RaftPeer → RaftPeer}
    (hf : ∀ p, (f p).nodeId = p.nodeId) (ps : List RaftPeer) :
    (updatePeer i f ps).map (·.nodeId) = ps.map (·.nodeId) := by
  induction ps with
  | nil => rfl
  | cons p ps ih =>
    simp only [updatePeer]
    split
    · simp only [List.map_cons, hf]
    · simp only [List.map_cons, ih]

def RaftNode.peerIds (nd : RaftNode) : List CString := nd.peers.map (·.nodeId)

end DRoole
