import DRoole.Raft.LeaderHint
import DRoole.Rpc.RaftRpc
import DRoole.Members.Payload

/-!
# Raft messages of any length

The `unpack_*` helpers of `raft_rpc_integration.c` read a whole struct from the
payload, and neither `raft_handle_incoming_rpc` nor `raft_send_rpc_callback`
compares `payload_len` with its size first. The entries of an AppendEntries
request are not decoded ("TODO: Deserialize log entries from payload"), so the
core walks `entry_count` entries from a null pointer. Both handlers print
`header->origin_id` with `%s`, which ends at the first NUL wherever that is.

The definitions here compute what those of `RaftRpc` compute and list the reads
of the payload and of the header. The ring buffer of the logger is taken to have
room, so that `log_msg` formats what it is given.
-/

namespace DRoole

open Lib

/-! ## Reads of a struct -/

/-- The reads of consecutive fields of the given widths. -/
def fieldReads : Nat → List Nat → List PayloadRead
  | _, [] => []
  | offset, w :: ws => ⟨offset, w⟩ :: fieldReads (offset + w) ws

theorem fieldReads_within {offset n w : Nat} {ws : List Nat} :
    (∀ a ∈ fieldReads offset (w :: ws), a.offset + a.len ≤ n) ↔ offset + (w :: ws).sum ≤ n := by
  induction ws generalizing offset w with
  | nil => simp [fieldReads]
  | cons v ws ih =>
    rw [fieldReads, List.forall_mem_cons, ih, List.sum_cons, List.sum_cons, List.sum_cons]
    dsimp only
    omega

/-- `term`, `candidate_id`, `last_log_index`, `last_log_term`. -/
def requestVoteReqFields : List Nat := [8, 37, 8, 8]

/-- `term`, `leader_id`, `prev_log_index`, `prev_log_term`, `leader_commit`, `entry_count`. -/
def appendEntriesReqFields : List Nat := [8, 37, 8, 8, 8, 4]

/-- `term`, `vote_granted`. -/
def requestVoteRespFields : List Nat := [8, 1]

/-- `term`, `success`, `match_index`. -/
def appendEntriesRespFields : List Nat := [8, 1, 8]

/-! ## The receiver and the sender -/

/-- What `raft_handle_incoming_rpc` unpacks for a command. -/
def incomingFields (cmd : UInt16) : List Nat :=
  if cmd = rpcCmdRaftRequestVote then requestVoteReqFields
  else if cmd = rpcCmdRaftAppendEntries then appendEntriesReqFields
  else []

/-- The bytes of the two ids, which end the header struct: `origin_id` at offset 16. -/
def RpcHeader.ids (header : RpcHeader) : Bytes := header.originId.bytes ++ header.requestId.bytes

/-- The read of `"%s"` with `header->origin_id`: up to and including the first NUL, which is
beyond the struct if neither id holds one. -/
def RpcHeader.originRead (header : RpcHeader) : PayloadRead :=
  ⟨16, (header.ids.takeWhile (· ≠ 0)).length + 1⟩

/-- What the two handlers read of the header. `raft_handle_request_vote` prints the id whatever
it decides, and `raft_handle_incoming_rpc` prints it once the core has returned. -/
def headerReads (header : RpcHeader) (returned : Bool) : List PayloadRead :=
  if header.commandType = rpcCmdRaftRequestVote then [header.originRead, header.originRead]
  else if header.commandType = rpcCmdRaftAppendEntries then
    if returned then [header.originRead] else []
  else []

/-- What a call reads. -/
structure IncomingReads where
  payload : List PayloadRead
  header : List PayloadRead
  deriving DecidableEq, Repr

/-- `raft_handle_incoming_rpc`, with its reads. A payload of length 0 may be a null pointer,
which is ignored. -/
def raftHandleIncomingRpcMem (h : Host) (now : UInt64) (header : RpcHeader)
    (payload : Option Bytes) : IncomingReads × Option Host :=
  match payload with
  | none => (⟨[], []⟩, some h)
  | some bs =>
    let after := raftHandleIncomingRpc h now header.commandType bs
    (⟨fieldReads 0 (incomingFields header.commandType), headerReads header after.isSome⟩, after)

/-- What `raft_send_rpc_callback` unpacks from a response to a request that it sent as `cmd`. -/
def unpackedFields (cmd : UInt16) (hdr : RpcHeader) : List Nat :=
  if cmd = rpcCmdRaftRequestVote ∧ hdr.commandType = rpcCmdRaftRequestVoteResp then
    requestVoteRespFields
  else if cmd = rpcCmdRaftAppendEntries ∧ hdr.commandType = rpcCmdRaftAppendEntriesResp then
    appendEntriesRespFields
  else []

def responseReads (h : Host) (env : PeerEnv) (peerId : CString) (request : Bytes) :
    List PayloadRead :=
  match findPeer h.node.peers peerId, requestCommand request.length with
  | none, _ => []
  | _, none => []
  | some _, some cmd =>
    if !env.connect || !env.send then []
    else match rpcRecvMessage env.reply env.malloc with
      | ⟨0, some hdr, _⟩ => fieldReads 0 (unpackedFields cmd hdr)
      | _ => []

/-- `raft_send_rpc_callback`, with its reads of the response. It prints no field of a header. -/
def raftSendRpcCallbackMem (h : Host) (env : PeerEnv) (peerId : CString) (request : Bytes) :
    IncomingReads × Option (Host × Int) :=
  (⟨responseReads h env peerId request, []⟩, (raftSendRpcCallback h env peerId request).2)

/-- The payload of the response; a null pointer has no bytes. -/
def PeerEnv.response (env : PeerEnv) : Bytes := (rpcRecvMessage env.reply env.malloc).payload.getD []

/-! ## Safe reception -/

/-- A message with this payload is handled safely: the reads are within it and within the 90 bytes
of the header, no entry is read that was not decoded, and a message that must be refused leaves the
node as it was. -/
structure ReceivedSafely (payload : Bytes) (reads : IncomingReads) (nd : RaftNode)
    (after : Option RaftNode) (mustRefuse : Prop) : Prop where
  within : ∀ a ∈ reads.payload, a.offset + a.len ≤ payload.length
  header : ∀ a ∈ reads.header, a.offset + a.len ≤ 90
  decoded : after ≠ none
  refused : mustRefuse → after = some nd

theorem receivedSafely_ignored (payload : Bytes) (nd : RaftNode) (mustRefuse : Prop) :
    ReceivedSafely payload ⟨[], []⟩ nd (some nd) mustRefuse :=
  ⟨fun _ ha => absurd ha List.not_mem_nil, fun _ ha => absurd ha List.not_mem_nil,
    Option.some_ne_none _, fun _ => rfl⟩

/-- The string at `origin_id` ends within the header. -/
def RpcHeader.Terminated (header : RpcHeader) : Prop := 0 ∈ header.ids

instance (header : RpcHeader) : Decidable header.Terminated := inferInstanceAs (Decidable (_ ∈ _))

/-- The print stays within the header struct exactly if there is a NUL to stop at. -/
theorem RpcHeader.originRead_within (header : RpcHeader) :
    header.originRead.offset + header.originRead.len ≤ 90 ↔ header.Terminated := by
  have hlen : header.ids.length = 74 := by
    rw [ids, List.length_append, header.originId.length_eq, header.requestId.length_eq]
  have hle := (header.ids.takeWhile_prefix (· ≠ 0)).length_le
  show 16 + ((header.ids.takeWhile (· ≠ 0)).length + 1) ≤ 90 ↔ 0 ∈ header.ids
  constructor
  · intro hshort
    by_contra hno
    have hall : header.ids.takeWhile (· ≠ 0) = header.ids := by
      rw [List.takeWhile_eq_self_iff]
      intro b hb
      exact decide_eq_true fun h0 => hno (h0 ▸ hb)
    rw [hall] at hshort
    omega
  · intro hmem
    by_contra hlong
    have hall : header.ids.takeWhile (· ≠ 0) = header.ids :=
      (header.ids.takeWhile_prefix (· ≠ 0)).eq_of_length (by omega)
    rw [List.takeWhile_eq_self_iff] at hall
    exact absurd rfl (of_decide_eq_true (hall 0 hmem))

/-- The payload is too short for its command, or announces entries: none is ever decoded. -/
def IncomingMustRefuse (cmd : UInt16) (payload : Bytes) : Prop :=
  payload.length < (incomingFields cmd).sum ∨
    (cmd = rpcCmdRaftAppendEntries ∧ (unpackAppendEntriesReq payload).entryCount > 0)

/-! ## Requests -/

section
variable {h : Host} {now : UInt64} {req : RaftAppendEntriesReq}

theorem acceptLeader_counts :
    (acceptLeader (stepDown h req.term) now req).node.heartbeatsReceived
      = h.node.heartbeatsReceived + 1 := by
  unfold acceptLeader stepDown
  dsimp only
  split
  · split
    · rfl
    · rfl
  · split
    · rfl
    · rfl

theorem raftHandleAppendEntries_counts {es : List RaftLogEntry}
    (hterm : ¬req.term < h.node.currentTerm) (hno : ¬TakesEntries h.node req) :
    (raftHandleAppendEntries h now req es).1.node ≠ h.node := by
  have hprev : prevMatches h.node req = false := by
    by_contra hprev
    exact hno ⟨hterm, by simpa using hprev⟩
  unfold raftHandleAppendEntries
  dsimp only
  rw [prevMatches_acceptLeader, if_neg (not_stale hterm), hprev]
  intro hsame
  have hcount : h.node.heartbeatsReceived + 1 = h.node.heartbeatsReceived :=
    acceptLeader_counts.symm.trans (congrArg RaftNode.heartbeatsReceived hsame)
  grind

end

section
variable {h : Host} {now : UInt64} {bs : Bytes}

theorem raftHandleIncomingRpc_appendEntries (h : Host) (now : UInt64) (bs : Bytes) :
    raftHandleIncomingRpc h now rpcCmdRaftAppendEntries bs =
      if (unpackAppendEntriesReq bs).req.entryCount > 0 ∧
          (raftHandleAppendEntries h now (unpackAppendEntriesReq bs).req []).2.success ≠ 0 then none
      else some (raftHandleAppendEntries h now (unpackAppendEntriesReq bs).req []).1 := rfl

theorem incoming_stale (hterm : (unpackAppendEntriesReq bs).req.term < h.node.currentTerm) :
    raftHandleIncomingRpc h now rpcCmdRaftAppendEntries bs = some h := by
  have hno : ¬TakesEntries h.node (unpackAppendEntriesReq bs).req := fun hacc => hacc.1 hterm
  have hfail := (raftHandleAppendEntries_refused now [] hno).1
  rw [raftHandleIncomingRpc_appendEntries, if_neg fun he => he.2 hfail,
    raftHandleAppendEntries_stale now [] hterm]

theorem incoming_without_entries (hcount : (unpackAppendEntriesReq bs).req.entryCount = 0) :
    raftHandleIncomingRpc h now rpcCmdRaftAppendEntries bs ≠ none := by
  rw [raftHandleIncomingRpc_appendEntries,
    if_neg fun he => absurd hcount (UInt32.ne_of_lt he.1).symm]
  exact Option.some_ne_none _

/-- The core reads the entries through a null pointer, or has taken note of the leader before it
refuses the request. -/
theorem incoming_entries (hterm : ¬(unpackAppendEntriesReq bs).req.term < h.node.currentTerm)
    (hcount : (unpackAppendEntriesReq bs).req.entryCount > 0) :
    (raftHandleIncomingRpc h now rpcCmdRaftAppendEntries bs).map Host.node ≠ some h.node := by
  rw [raftHandleIncomingRpc_appendEntries]
  by_cases hacc : TakesEntries h.node (unpackAppendEntriesReq bs).req
  · have hsuccess := (raftHandleAppendEntries_accepted now [] hacc).1
    rw [if_pos ⟨hcount, by rw [hsuccess]; decide⟩]
    exact (Option.some_ne_none _).symm
  · have hfail := (raftHandleAppendEntries_refused now [] hacc).1
    rw [if_neg fun he => he.2 hfail]
    exact fun hsame => raftHandleAppendEntries_counts hterm hacc (Option.some.inj hsame)

theorem incoming_vote_safe_iff {header : RpcHeader}
    (hcmd : header.commandType = rpcCmdRaftRequestVote) :
    ReceivedSafely bs (raftHandleIncomingRpcMem h now header (some bs)).1 h.node
        ((raftHandleIncomingRpcMem h now header (some bs)).2.map Host.node)
        (IncomingMustRefuse header.commandType bs) ↔ header.Terminated ∧ 61 ≤ bs.length := by
  have hreads : (raftHandleIncomingRpcMem h now header (some bs)).1 =
      ⟨fieldReads 0 requestVoteReqFields, [header.originRead, header.originRead]⟩ := by
    simp only [raftHandleIncomingRpcMem, headerReads, incomingFields, hcmd, if_true]
  have hafter : (raftHandleIncomingRpcMem h now header (some bs)).2 =
      some (raftHandleRequestVote h now (unpackRequestVoteReq bs).req).1 := by
    simp only [raftHandleIncomingRpcMem, hcmd]
    rfl
  rw [hreads, hafter, hcmd]
  refine ⟨fun hsafe => ⟨?_, ?_⟩, fun ⟨hterm, hlen⟩ => ⟨?_, fun a ha => ?_, ?_, ?_⟩⟩
  · exact header.originRead_within.1 (hsafe.header _ List.mem_cons_self)
  · exact (Nat.zero_add _).symm.le.trans (fieldReads_within.1 hsafe.within)
  · exact fieldReads_within.2 ((Nat.zero_add _).le.trans hlen)
  · have ha : a = header.originRead := by simpa using ha
    rw [ha]
    exact header.originRead_within.2 hterm
  · exact Option.some_ne_none _
  · rintro (hshort | ⟨hcmd, -⟩)
    · exact absurd hlen (Nat.not_le.2 hshort)
    · exact absurd hcmd (by decide)

theorem incoming_append_safe_iff {header : RpcHeader}
    (hcmd : header.commandType = rpcCmdRaftAppendEntries) :
    ReceivedSafely bs (raftHandleIncomingRpcMem h now header (some bs)).1 h.node
        ((raftHandleIncomingRpcMem h now header (some bs)).2.map Host.node)
        (IncomingMustRefuse header.commandType bs) ↔
      header.Terminated ∧ 73 ≤ bs.length ∧ ((unpackAppendEntriesReq bs).entryCount = 0 ∨
        (unpackAppendEntriesReq bs).term < h.node.currentTerm) := by
  have hne : ¬ rpcCmdRaftAppendEntries = rpcCmdRaftRequestVote := by decide
  have hmem : raftHandleIncomingRpcMem h now header (some bs) =
      (⟨fieldReads 0 appendEntriesReqFields,
        if (raftHandleIncomingRpc h now rpcCmdRaftAppendEntries bs).isSome then
          [header.originRead] else []⟩,
        raftHandleIncomingRpc h now rpcCmdRaftAppendEntries bs) := by
    simp only [raftHandleIncomingRpcMem, headerReads, incomingFields, hcmd, if_neg hne, if_true]
  rw [hmem, hcmd]
  dsimp only
  constructor
  · intro hsafe
    have hsome : (raftHandleIncomingRpc h now rpcCmdRaftAppendEntries bs).isSome := by
      rw [Option.isSome_iff_ne_none]
      exact fun hnone => hsafe.decoded (by rw [hnone]; rfl)
    have hread := hsafe.header
    rw [if_pos hsome] at hread
    refine ⟨header.originRead_within.1 (hread _ List.mem_cons_self),
      (Nat.zero_add _).symm.le.trans (fieldReads_within.1 hsafe.within), ?_⟩
    by_contra hno
    obtain ⟨hcount, hterm⟩ := not_or.1 hno
    have hpos := UInt32.pos_iff_ne_zero.2 hcount
    exact incoming_entries hterm hpos (hsafe.refused (.inr ⟨rfl, hpos⟩))
  · rintro ⟨hnul, hlen, hok⟩
    refine ⟨fieldReads_within.2 ((Nat.zero_add _).le.trans hlen), fun a ha => ?_, ?_, ?_⟩
    · have ha : a = header.originRead := by
        dsimp only at ha
        split at ha
        · exact List.mem_singleton.1 ha
        · exact absurd ha List.not_mem_nil
      rw [ha]
      exact header.originRead_within.2 hnul
    · rcases hok with hcount | hterm
      · exact fun hnone => incoming_without_entries hcount (Option.map_eq_none_iff.1 hnone)
      · rw [incoming_stale hterm]
        exact Option.some_ne_none _
    · rintro (hshort | ⟨-, hpos⟩)
      · exact absurd hlen (Nat.not_le.2 hshort)
      · have hterm := hok.resolve_left (UInt32.ne_of_lt hpos).symm
        rw [incoming_stale hterm]
        rfl

end

/-- When `raft_handle_incoming_rpc` handles a message safely. -/
def IncomingFits (h : Host) (header : RpcHeader) (payload : Option Bytes) : Prop :=
  ∀ bs, payload = some bs →
    (header.commandType = rpcCmdRaftRequestVote → header.Terminated ∧ 61 ≤ bs.length) ∧
    (header.commandType = rpcCmdRaftAppendEntries → header.Terminated ∧ 73 ≤ bs.length ∧
      ((unpackAppendEntriesReq bs).entryCount = 0 ∨
        (unpackAppendEntriesReq bs).term < h.node.currentTerm))

theorem incoming_safe_iff (h : Host) (now : UInt64) (header : RpcHeader) (payload : Option Bytes) :
    ReceivedSafely (payload.getD []) (raftHandleIncomingRpcMem h now header payload).1 h.node
        ((raftHandleIncomingRpcMem h now header payload).2.map Host.node)
        (IncomingMustRefuse header.commandType (payload.getD [])) ↔
      IncomingFits h header payload := by
  cases payload with
  | none => exact iff_of_true (receivedSafely_ignored _ _ _) fun bs hbs => nomatch hbs
  | some bs =>
    have hfits : IncomingFits h header (some bs) ↔
        (header.commandType = rpcCmdRaftRequestVote → header.Terminated ∧ 61 ≤ bs.length) ∧
        (header.commandType = rpcCmdRaftAppendEntries → header.Terminated ∧ 73 ≤ bs.length ∧
          ((unpackAppendEntriesReq bs).entryCount = 0 ∨
            (unpackAppendEntriesReq bs).term < h.node.currentTerm)) :=
      ⟨fun hall => hall bs rfl, fun hbs _ e => Option.some.inj e ▸ hbs⟩
    rw [hfits]
    show ReceivedSafely bs (raftHandleIncomingRpcMem h now header (some bs)).1 h.node
      ((raftHandleIncomingRpcMem h now header (some bs)).2.map Host.node)
      (IncomingMustRefuse header.commandType bs) ↔ _
    by_cases hvote : header.commandType = rpcCmdRaftRequestVote
    · refine (incoming_vote_safe_iff hvote).trans
        ⟨fun hok => ⟨fun _ => hok, fun hcmd => ?_⟩, fun hall => hall.1 hvote⟩
      exact absurd (hvote.symm.trans hcmd) (by decide)
    by_cases happend : header.commandType = rpcCmdRaftAppendEntries
    · exact (incoming_append_safe_iff happend).trans
        ⟨fun hok => ⟨fun hcmd => absurd hcmd hvote, fun _ => hok⟩, fun hall => hall.2 happend⟩
    · refine iff_of_true ?_ ⟨fun hcmd => absurd hcmd hvote, fun hcmd => absurd hcmd happend⟩
      have hmem : raftHandleIncomingRpcMem h now header (some bs) = (⟨[], []⟩, some h) := by
        simp only [raftHandleIncomingRpcMem, raftHandleIncomingRpc, incomingRequest, headerReads,
          incomingFields, if_neg hvote, if_neg happend, fieldReads]
      rw [hmem]
      exact receivedSafely_ignored _ _ _

/-! ## Responses -/

/-- The struct that a response of this type holds. -/
def responseFields (cmd : UInt16) : List Nat :=
  if cmd = rpcCmdRaftRequestVoteResp then requestVoteRespFields
  else if cmd = rpcCmdRaftAppendEntriesResp then appendEntriesRespFields
  else []

def ResponseMustRefuse (env : PeerEnv) : Prop :=
  ∃ hdr, (rpcRecvMessage env.reply env.malloc).header = some hdr ∧
    env.response.length < (responseFields hdr.commandType).sum

/-- `raft_send_rpc_callback` gets to process a response to a request it sent as `cmd`. -/
structure Answered (h : Host) (env : PeerEnv) (peerId : CString) (request : Bytes) (cmd : UInt16)
    (hdr : RpcHeader) (response : Option Bytes) : Prop where
  peer : (findPeer h.node.peers peerId).isSome
  command : requestCommand request.length = some cmd
  connected : env.connect = true
  sent : env.send = true
  received : rpcRecvMessage env.reply env.malloc = ⟨0, some hdr, response⟩

/-- When it handles a response safely: the payload holds the struct that is unpacked. -/
def ResponseFits (h : Host) (env : PeerEnv) (peerId : CString) (request : Bytes) : Prop :=
  ∀ cmd hdr response, Answered h env peerId request cmd hdr response →
    (cmd = rpcCmdRaftRequestVote → hdr.commandType = rpcCmdRaftRequestVoteResp →
      9 ≤ env.response.length) ∧
    (cmd = rpcCmdRaftAppendEntries → hdr.commandType = rpcCmdRaftAppendEntriesResp →
      17 ≤ env.response.length)

/-- A response that is unpacked is safe if all fields are there, which excludes a null pointer. -/
theorem unpacked_safe_iff {response : Option Bytes} {w : Nat} {ws : List Nat}
    {f : Bytes → Host × Int} {nd : RaftNode} {mustRefuse : Prop} (hpos : 0 < (w :: ws).sum)
    (hrefuse : mustRefuse → (response.getD []).length < (w :: ws).sum) :
    ReceivedSafely (response.getD []) ⟨fieldReads 0 (w :: ws), []⟩ nd
        ((response.map f).map fun r => r.1.node) mustRefuse ↔
      (w :: ws).sum ≤ (response.getD []).length := by
  refine ⟨fun hsafe => ?_, fun hlen => ⟨?_, fun a ha => absurd ha List.not_mem_nil, ?_, ?_⟩⟩
  · exact (Nat.zero_add _).symm.le.trans (fieldReads_within.1 hsafe.within)
  · exact fieldReads_within.2 ((Nat.zero_add _).le.trans hlen)
  · cases response with
    | none => exact absurd (hpos.trans_le hlen) (Nat.lt_irrefl 0)
    | some bs => exact Option.some_ne_none _
  · exact fun hmust => absurd hlen (Nat.not_le.2 (hrefuse hmust))

section
variable {h : Host} {env : PeerEnv} {peerId : CString} {request : Bytes} {cmd : UInt16}
  {hdr : RpcHeader} {response : Option Bytes}

theorem Answered.mem (ha : Answered h env peerId request cmd hdr response) :
    raftSendRpcCallbackMem h env peerId request =
      (⟨fieldReads 0 (unpackedFields cmd hdr), []⟩,
        if cmd = rpcCmdRaftRequestVote ∧ hdr.commandType = rpcCmdRaftRequestVoteResp then
          response.map fun bs =>
            (raftHandleRequestVoteResponse h env.alloc peerId (unpackRequestVoteResp bs), 0)
        else if cmd = rpcCmdRaftAppendEntries ∧ hdr.commandType = rpcCmdRaftAppendEntriesResp then
          response.map fun bs =>
            (raftHandleAppendEntriesResponse h peerId (unpackAppendEntriesResp bs), 0)
        else some (h, 0)) := by
  obtain ⟨q, hq⟩ := Option.isSome_iff_exists.1 ha.peer
  have hconn : ¬(!env.connect || !env.send) = true := by rw [ha.connected, ha.sent]; decide
  refine Prod.ext ?_ ?_
  · simp only [raftSendRpcCallbackMem, responseReads, hq, ha.command, if_neg hconn, ha.received]
  · simp only [raftSendRpcCallbackMem, raftSendRpcCallback, hq, ha.command, if_neg hconn,
      ha.received, apply_ite Prod.snd]

theorem answered_or_ignored (h : Host) (env : PeerEnv) (peerId : CString) (request : Bytes) :
    (∃ cmd hdr response, Answered h env peerId request cmd hdr response) ∨
      raftSendRpcCallbackMem h env peerId request = (⟨[], []⟩, some (h, -1)) := by
  unfold raftSendRpcCallbackMem responseReads raftSendRpcCallback
  cases hpeer : findPeer h.node.peers peerId with
  | none => exact .inr rfl
  | some q =>
    cases hcmd : requestCommand request.length with
    | none => exact .inr rfl
    | some cmd =>
      dsimp only
      by_cases hconn : (!env.connect || !env.send) = true
      · rw [if_pos hconn, if_pos hconn]
        exact .inr rfl
      rw [if_neg hconn, if_neg hconn]
      simp only [Bool.or_eq_true, Bool.not_eq_true', not_or, Bool.not_eq_false] at hconn
      cases hrecv : rpcRecvMessage env.reply env.malloc with
      | mk code header response =>
        by_cases hcode : code = 0
        · subst hcode
          cases header with
          | none => exact .inr rfl
          | some hdr =>
            exact .inl ⟨cmd, hdr, response, by rw [hpeer]; rfl, hcmd, hconn.1, hconn.2, hrecv⟩
        · refine .inr (Prod.ext ?_ ?_)
          · dsimp only
            split
            · rename_i heq
              cases heq
              exact absurd rfl hcode
            · rfl
          · dsimp only
            split
            · rename_i heq
              cases heq
              exact absurd rfl hcode
            · rfl

theorem Answered.fits_iff (ha : Answered h env peerId request cmd hdr response) :
    ResponseFits h env peerId request ↔
      (cmd = rpcCmdRaftRequestVote → hdr.commandType = rpcCmdRaftRequestVoteResp →
        9 ≤ env.response.length) ∧
      (cmd = rpcCmdRaftAppendEntries → hdr.commandType = rpcCmdRaftAppendEntriesResp →
        17 ≤ env.response.length) := by
  refine ⟨fun hall => hall cmd hdr response ha, fun hfit cmd' hdr' response' ha' => ?_⟩
  obtain rfl : cmd = cmd' := Option.some.inj (ha.command.symm.trans ha'.command)
  have hsame := ha.received.symm.trans ha'.received
  cases hsame
  exact hfit

theorem Answered.safe_iff (ha : Answered h env peerId request cmd hdr response) :
    ReceivedSafely env.response (raftSendRpcCallbackMem h env peerId request).1 h.node
        ((raftSendRpcCallbackMem h env peerId request).2.map fun r => r.1.node)
        (ResponseMustRefuse env) ↔
      ResponseFits h env peerId request := by
  have hpayload : env.response = response.getD [] := by rw [PeerEnv.response, ha.received]
  have hmust : ResponseMustRefuse env →
      (response.getD []).length < (responseFields hdr.commandType).sum := by
    rintro ⟨hdr', hhdr, hshort⟩
    rw [ha.received] at hhdr
    cases hhdr
    exact hpayload ▸ hshort
  rw [ha.fits_iff, ha.mem, hpayload, unpackedFields]
  by_cases hvote : cmd = rpcCmdRaftRequestVote ∧ hdr.commandType = rpcCmdRaftRequestVoteResp
  · rw [if_pos hvote, if_pos hvote]
    rw [hvote.2] at hmust
    refine (unpacked_safe_iff (by decide) hmust).trans
      ⟨fun hlen => ⟨fun _ _ => hlen, fun hcmd => ?_⟩, fun hfit => hfit.1 hvote.1 hvote.2⟩
    exact absurd (hvote.1.symm.trans hcmd) (by decide)
  rw [if_neg hvote, if_neg hvote]
  by_cases happend : cmd = rpcCmdRaftAppendEntries ∧
      hdr.commandType = rpcCmdRaftAppendEntriesResp
  · rw [if_pos happend, if_pos happend]
    rw [happend.2] at hmust
    exact (unpacked_safe_iff (by decide) hmust).trans
      ⟨fun hlen => ⟨fun hcmd htype => absurd ⟨hcmd, htype⟩ hvote, fun _ _ => hlen⟩,
        fun hfit => hfit.2 happend.1 happend.2⟩
  · rw [if_neg happend, if_neg happend]
    exact iff_of_true (receivedSafely_ignored _ _ _)
      ⟨fun hcmd htype => absurd ⟨hcmd, htype⟩ hvote,
        fun hcmd htype => absurd ⟨hcmd, htype⟩ happend⟩

theorem response_safe_iff (h : Host) (env : PeerEnv) (peerId : CString) (request : Bytes) :
    ReceivedSafely env.response (raftSendRpcCallbackMem h env peerId request).1 h.node
        ((raftSendRpcCallbackMem h env peerId request).2.map fun r => r.1.node)
        (ResponseMustRefuse env) ↔
      ResponseFits h env peerId request := by
  by_cases hans : ∃ cmd hdr response, Answered h env peerId request cmd hdr response
  · obtain ⟨cmd, hdr, response, ha⟩ := hans
    exact ha.safe_iff
  · rw [(answered_or_ignored h env peerId request).resolve_left hans]
    exact iff_of_true (receivedSafely_ignored _ _ _)
      fun cmd hdr response ha => absurd ⟨cmd, hdr, response, ha⟩ hans

end

/-- **Reception** is safe exactly if the payload holds the struct that is unpacked from it, no
entries are announced in a request that is looked at, and the ids of the header hold a NUL. -/
theorem raft_reception_safe_iff (h : Host) :
    (∀ (now : UInt64) (header : RpcHeader) (payload : Option Bytes),
      ReceivedSafely (payload.getD []) (raftHandleIncomingRpcMem h now header payload).1 h.node
          ((raftHandleIncomingRpcMem h now header payload).2.map Host.node)
          (IncomingMustRefuse header.commandType (payload.getD [])) ↔
        IncomingFits h header payload) ∧
    (∀ (env : PeerEnv) (peerId : CString) (request : Bytes),
      ReceivedSafely env.response (raftSendRpcCallbackMem h env peerId request).1 h.node
          ((raftSendRpcCallbackMem h env peerId request).2.map fun r => r.1.node)
          (ResponseMustRefuse env) ↔
        ResponseFits h env peerId request) :=
  ⟨incoming_safe_iff h, response_safe_iff h⟩

def headerFromB (cmd : UInt16) (payloadLen : UInt64) : RpcHeader :=
  ⟨rpcMagic, 1, cmd, payloadLen, .ofCString idB, .ofCString idB⟩

def announcedEntry : Bytes := packAppendEntriesReq ⟨1, .ofCString idB, 0, 0, 0, 1⟩

def unterminatedHeader : RpcHeader :=
  ⟨rpcMagic, 1, rpcCmdRaftRequestVote, 61, ⟨List.replicate 37 98, rfl⟩, ⟨List.replicate 37 98, rfl⟩⟩

/-- A new node reads the entry through a null pointer, a vote request of ten bytes beyond its end,
and an id without a NUL beyond the header. -/
theorem raft_reception_unsafe :
    let h := (raftInit idA 0).host
    let append := headerFromB rpcCmdRaftAppendEntries 73
    let vote := headerFromB rpcCmdRaftRequestVote 10
    let ten : Bytes := List.replicate 10 0
    let whole : Bytes := List.replicate 61 0
    announcedEntry.length = 73 ∧
    (raftHandleIncomingRpcMem h 0 append (some announcedEntry)).2 = none ∧
    (⟨53, 8⟩ : PayloadRead) ∈ (raftHandleIncomingRpcMem h 0 vote (some ten)).1.payload ∧
    (⟨16, 75⟩ : PayloadRead) ∈
      (raftHandleIncomingRpcMem h 0 unterminatedHeader (some whole)).1.header ∧
    ¬ReceivedSafely announcedEntry (raftHandleIncomingRpcMem h 0 append (some announcedEntry)).1
      h.node ((raftHandleIncomingRpcMem h 0 append (some announcedEntry)).2.map Host.node)
      (IncomingMustRefuse rpcCmdRaftAppendEntries announcedEntry) ∧
    ¬ReceivedSafely ten (raftHandleIncomingRpcMem h 0 vote (some ten)).1 h.node
      ((raftHandleIncomingRpcMem h 0 vote (some ten)).2.map Host.node)
      (IncomingMustRefuse rpcCmdRaftRequestVote ten) ∧
    ¬ReceivedSafely whole (raftHandleIncomingRpcMem h 0 unterminatedHeader (some whole)).1 h.node
      ((raftHandleIncomingRpcMem h 0 unterminatedHeader (some whole)).2.map Host.node)
      (IncomingMustRefuse rpcCmdRaftRequestVote whole) := by
  intro h append vote ten whole
  have hnull : (raftHandleIncomingRpcMem h 0 append (some announcedEntry)).2 = none := by
    decide +kernel
  have hread : (⟨53, 8⟩ : PayloadRead) ∈
      (raftHandleIncomingRpcMem h 0 vote (some ten)).1.payload := by
    decide +kernel
  have hid : (⟨16, 75⟩ : PayloadRead) ∈
      (raftHandleIncomingRpcMem h 0 unterminatedHeader (some whole)).1.header := by
    decide +kernel
  refine ⟨by decide +kernel, hnull, hread, hid, fun hsafe => ?_, fun hsafe => ?_, fun hsafe => ?_⟩
  · exact hsafe.decoded (by rw [hnull]; rfl)
  · exact absurd (hsafe.within _ hread) (by decide)
  · exact absurd (hsafe.header _ hid) (by decide)

end DRoole
