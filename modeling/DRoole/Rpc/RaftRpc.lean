import DRoole.Raft.Reply
import DRoole.Rpc.Framing

/-!
# Raft over RPC

`raft_send_rpc_callback` and `raft_handle_incoming_rpc` of
`src/cluster/raft_rpc_integration.c`. The sender passes the request struct on as it
lies in memory; the receiver takes its words to be in network order.
-/

namespace DRoole

open Lib

def rpcCmdRaftRequestVote : UInt16 := 0x20
def rpcCmdRaftRequestVoteResp : UInt16 := 0x21
def rpcCmdRaftAppendEntries : UInt16 := 0x22
def rpcCmdRaftAppendEntriesResp : UInt16 := 0x23

/-! ## Requests in memory -/

def RaftRequestVoteReq.packed (r : RaftRequestVoteReq) : PackedRequestVoteReq :=
  ⟨r.term, .ofCString r.candidateId, r.lastLogIndex, r.lastLogTerm⟩

def PackedRequestVoteReq.req (r : PackedRequestVoteReq) : RaftRequestVoteReq :=
  ⟨r.term, r.candidateId.text, r.lastLogIndex, r.lastLogTerm⟩

def RaftAppendEntriesReq.packed (r : RaftAppendEntriesReq) : PackedAppendEntriesReq :=
  ⟨r.term, .ofCString r.leaderId, r.prevLogIndex, r.prevLogTerm, r.leaderCommit, r.entryCount⟩

def PackedAppendEntriesReq.req (r : PackedAppendEntriesReq) : RaftAppendEntriesReq :=
  ⟨r.term, r.leaderId.text, r.prevLogIndex, r.prevLogTerm, r.leaderCommit, r.entryCount⟩

/-- What the core hands to `send_rpc`: the struct, `sizeof` bytes of it. -/
def Request.bytes : Request → Bytes
  | .requestVote req => PackedRequestVoteReq.raw.put req.packed
  | .appendEntries req => PackedAppendEntriesReq.raw.put req.packed

/-! ## The sender -/

/-- "Determine RPC type by request size". -/
def requestCommand (reqLen : Nat) : Option UInt16 :=
  if reqLen = 61 then some rpcCmdRaftRequestVote
  else if reqLen ≥ 73 then some rpcCmdRaftAppendEntries
  else none

/-- `"raft-%lu"` of the clock. -/
def requestIdText (now : UInt64) : CString :=
  CString.ofField ([114, 97, 102, 116, 45] ++
    (Nat.toDigits 10 now.toNat).map fun c => UInt8.ofNat c.toNat)

def raftRpcHeader (nd : RaftNode) (now : UInt64) (cmd : UInt16) (reqLen : Nat) : RpcHeader :=
  { magic := rpcMagic
    version := 1
    commandType := cmd
    payloadLen := UInt64.ofNat reqLen
    originId := .ofCString (nd.nodeId.strncpy 36)
    requestId := .ofCString (requestIdText now) }

/-- What `raft_send_rpc_callback` takes from outside: the outcome of the connection and of the
send, the clock, the bytes the peer answers with, and the allocations. -/
structure PeerEnv where
  connect : Bool
  send : Bool
  now : UInt64
  reply : Bytes
  malloc : Bool
  alloc : Alloc

/-- `raft_send_rpc_callback`: the bytes it sends, the node it leaves and its return code;
`none` if it reads a response without a payload. -/
def raftSendRpcCallback (h : Host) (env : PeerEnv) (peerId : CString) (request : Bytes) :
    Bytes × Option (Host × Int) :=
  match findPeer h.node.peers peerId, requestCommand request.length with
  | none, _ => ([], some (h, -1))
  | _, none => ([], some (h, -1))
  | some _, some cmd =>
    if !env.connect || !env.send then ([], some (h, -1))
    else
      let sent := rpcSendMessage (raftRpcHeader h.node env.now cmd request.length) (some request)
      match rpcRecvMessage env.reply env.malloc with
      | ⟨0, some hdr, response⟩ =>
        if cmd = rpcCmdRaftRequestVote ∧ hdr.commandType = rpcCmdRaftRequestVoteResp then
          (sent, response.map fun bs =>
            (raftHandleRequestVoteResponse h env.alloc peerId (unpackRequestVoteResp bs), 0))
        else if cmd = rpcCmdRaftAppendEntries ∧ hdr.commandType = rpcCmdRaftAppendEntriesResp then
          (sent, response.map fun bs =>
            (raftHandleAppendEntriesResponse h peerId (unpackAppendEntriesResp bs), 0))
        else (sent, some (h, 0))
      | _ => (sent, some (h, -1))

/-! ## The receiver -/

/-- The request that a message of type `cmd` brings to the core. -/
def incomingRequest (cmd : UInt16) (payload : Bytes) : Option Request :=
  if cmd = rpcCmdRaftRequestVote then some (.requestVote (unpackRequestVoteReq payload).req)
  else if cmd = rpcCmdRaftAppendEntries then
    some (.appendEntries (unpackAppendEntriesReq payload).req)
  else none

/-- `raft_handle_incoming_rpc`. The entries of a request are never deserialized: if it
announces some and is not refused, the core reads them through a null pointer (`none`). -/
def raftHandleIncomingRpc (h : Host) (now : UInt64) (cmd : UInt16) (payload : Bytes) :
    Option Host :=
  match incomingRequest cmd payload with
  | some (.requestVote req) => some (raftHandleRequestVote h now req).1
  | some (.appendEntries req) =>
    let r := raftHandleAppendEntries h now req []
    if req.entryCount > 0 ∧ r.2.success ≠ 0 then none else some r.1
  | none => some h

/-! ## What arrives -/

/-- The command under which the callback sends a request. -/
def Request.command (r : Request) : UInt16 := (requestCommand r.bytes.length).getD 0

/-- A request as it reaches the core of the peer: the payload the callback puts on the
connection, under the command it chose. -/
def Request.arriving (r : Request) (h : Host) (env : PeerEnv) (peerId : CString) :
    Option Request :=
  incomingRequest r.command ((raftSendRpcCallback h env peerId r.bytes).1.drop 90)

theorem raftSendRpcCallback_sent {h : Host} {env : PeerEnv} {peerId : CString} {request : Bytes}
    {q : RaftPeer} {cmd : UInt16} (hpeer : findPeer h.node.peers peerId = some q)
    (hcmd : requestCommand request.length = some cmd) (hconn : env.connect = true)
    (hsend : env.send = true) :
    (raftSendRpcCallback h env peerId request).1 =
      rpcSendMessage (raftRpcHeader h.node env.now cmd request.length) (some request) := by
  rw [raftSendRpcCallback, hpeer, hcmd]
  dsimp only
  rw [hconn, hsend, if_neg (by decide)]
  split
  · split
    · rfl
    split
    · rfl
    · rfl
  · rfl

theorem drop_rpcSendMessage {nd : RaftNode} {now : UInt64} {cmd : UInt16} {request : Bytes}
    (hpos : 0 < request.length) (hlt : request.length < 2 ^ 64) :
    (rpcSendMessage (raftRpcHeader nd now cmd request.length) (some request)).drop 90 = request := by
  have hlen : (UInt64.ofNat request.length).toNat = request.length :=
    UInt64.toNat_ofNat_of_lt' hlt
  have hgt : (raftRpcHeader nd now cmd request.length).payloadLen > 0 := by
    show (0 : UInt64) < UInt64.ofNat request.length
    rw [UInt64.lt_iff_toNat_lt, hlen]
    exact hpos
  have hraw : (RpcHeader.raw.put (raftRpcHeader nd now cmd request.length)).length = 90 :=
    RpcHeader.raw.length_put _
  rw [rpcSendMessage, List.drop_left' hraw, if_pos hgt]
  show request.take (UInt64.ofNat request.length).toNat = request
  rw [hlen, List.take_length]

section

variable {h : Host} {env : PeerEnv} {peerId : CString} {q : RaftPeer}
  (hpeer : findPeer h.node.peers peerId = some q) (hconn : env.connect = true)
  (hsend : env.send = true)
include hpeer hconn hsend

theorem arriving_requestVote {req : RaftRequestVoteReq} (hid : req.candidateId.bytes.length < 37) :
    (Request.requestVote req).arriving h env peerId = some (.requestVote
      ⟨Word.bswap req.term, req.candidateId, Word.bswap req.lastLogIndex,
        Word.bswap req.lastLogTerm⟩) := by
  have hlen : (Request.requestVote req).bytes.length = 61 := PackedRequestVoteReq.raw.length_put _
  have hcmd : requestCommand (Request.requestVote req).bytes.length =
      some rpcCmdRaftRequestVote := by rw [hlen]; rfl
  have hread := PackedRequestVoteReq.raw.read_put req.packed []
  rw [List.append_nil] at hread
  rw [Request.arriving, raftSendRpcCallback_sent hpeer hcmd hconn hsend,
    drop_rpcSendMessage (by omega) (by omega), Request.command, hcmd]
  show some (Request.requestVote (unpackRequestVoteReq _).req) = _
  rw [unpackRequestVoteReq, Request.bytes, hread]
  simp only [PackedRequestVoteReq.swap, PackedRequestVoteReq.req, RaftRequestVoteReq.packed,
    Chars.text_ofCString hid]

theorem arriving_appendEntries {req : RaftAppendEntriesReq}
    (hid : req.leaderId.bytes.length < 37) :
    (Request.appendEntries req).arriving h env peerId = some (.appendEntries
      ⟨Word.bswap req.term, req.leaderId, Word.bswap req.prevLogIndex, Word.bswap req.prevLogTerm,
        Word.bswap req.leaderCommit, Word.bswap req.entryCount⟩) := by
  have hlen : (Request.appendEntries req).bytes.length = 73 := PackedAppendEntriesReq.raw.length_put _
  have hcmd : requestCommand (Request.appendEntries req).bytes.length =
      some rpcCmdRaftAppendEntries := by rw [hlen]; rfl
  have hread := PackedAppendEntriesReq.raw.read_put req.packed []
  rw [List.append_nil] at hread
  rw [Request.arriving, raftSendRpcCallback_sent hpeer hcmd hconn hsend,
    drop_rpcSendMessage (by omega) (by omega), Request.command, hcmd]
  show some (Request.appendEntries (unpackAppendEntriesReq _).req) = _
  rw [unpackAppendEntriesReq, Request.bytes, hread]
  simp only [PackedAppendEntriesReq.swap, PackedAppendEntriesReq.req, RaftAppendEntriesReq.packed,
    Chars.text_ofCString hid]

end

/-- **A request survives the wire** exactly when each of its words reads the same from both
ends. -/
theorem raft_request_survives_iff (h : Host) (env : PeerEnv) (peerId : CString) (q : RaftPeer)
    (hpeer : findPeer h.node.peers peerId = some q) (hconn : env.connect = true)
    (hsend : env.send = true) :
    let vote := voteRequest h.node
    let beat := heartbeat h.node q
    ((Request.requestVote vote).arriving h env peerId = some (.requestVote vote) ↔
      Word.bswap vote.term = vote.term ∧ Word.bswap vote.lastLogIndex = vote.lastLogIndex ∧
      Word.bswap vote.lastLogTerm = vote.lastLogTerm) ∧
    ((Request.appendEntries beat).arriving h env peerId = some (.appendEntries beat) ↔
      Word.bswap beat.term = beat.term ∧ Word.bswap beat.prevLogIndex = beat.prevLogIndex ∧
      Word.bswap beat.prevLogTerm = beat.prevLogTerm ∧
      Word.bswap beat.leaderCommit = beat.leaderCommit) := by
  intro vote beat
  have hvote : vote.candidateId.bytes.length < 37 :=
    Nat.lt_succ_of_le (CString.length_strncpy_le h.node.nodeId 36)
  have hbeat : beat.leaderId.bytes.length < 37 :=
    Nat.lt_succ_of_le (CString.length_strncpy_le h.node.nodeId 36)
  have hcount : Word.bswap beat.entryCount = beat.entryCount := by
    show Word.bswap (0 : UInt32) = 0
    decide
  rw [arriving_requestVote hpeer hconn hsend hvote, arriving_appendEntries hpeer hconn hsend hbeat]
  obtain ⟨vterm, vid, vindex, vlast⟩ := vote
  obtain ⟨bterm, bid, bprev, bprevTerm, bcommit, bcount⟩ := beat
  simp only at hcount
  simp [hcount]

def silentPeer : PeerEnv := ⟨true, true, 0, [], true, Alloc.ok⟩

/-- The candidate in a term that reads the same from both ends. -/
def evenTermed : Host := { firstCandidate.node with currentTerm := 0x0100000000000001 }.host

theorem raft_request_survives_even_term :
    (Request.requestVote (voteRequest evenTermed.node)).arriving evenTermed silentPeer idB =
      some (.requestVote (voteRequest evenTermed.node)) :=
  (raft_request_survives_iff evenTermed silentPeer idB
    (evenTermed.node.peers.head (by decide +kernel)) (by decide +kernel) rfl rfl).1.2
    (by decide +kernel)

/-- The vote request of a candidate in term 1 arrives as one of term `2^56`. -/
theorem raft_request_term_reversed :
    (voteRequest firstCandidate.node).term = 1 ∧
    (Request.requestVote (voteRequest firstCandidate.node)).arriving firstCandidate silentPeer idB =
      some (.requestVote { voteRequest firstCandidate.node with term := 72057594037927936 }) := by
  decide +kernel

end DRoole
