import DRoole.Members.Join
import DRoole.Members.Partition
import DRoole.Rpc.Server

/-!
# A join through the server

`cluster_join` of one node against the server of another. The request arrives in any
pieces, between the callbacks of other connections, and the node reads whatever the
server has sent when the connection ends.

Either the call fails and leaves the node's table alone, or it returns 0 and both
sides are as a join should leave them at the place of the request in the history of
the server. The table of the server is that of a seed throughout, as long as no
request names the server itself or has an id without its NUL.
-/

namespace DRoole

open Lib

/-! ## The table of the server -/

/-- A JOIN request names a node, not the server `self`. -/
def WellNamed {ι : Type} (self : CString) : TableChange ι → Prop
  | .request _ header payload _ _ =>
    header.commandType = rpcCmdJoinReq → payload.length = 89 →
      0 ∈ (JoinRequestPayload.raw.read payload).nodeId.bytes ∧
        (JoinRequestPayload.raw.read payload).idText ≠ self
  | .gossip .. | .reap _ => True

instance {ι : Type} (self : CString) : (e : TableChange ι) → Decidable (WellNamed self e)
  | .request .. => inferInstanceAs (Decidable (_ → _ → _ ∧ _ ≠ _))
  | .gossip .. | .reap _ => inferInstanceAs (Decidable True)

theorem NodeInfo.Fits.withStatus {m : NodeInfo} (h : m.Fits) (status : NodeStatus) (now : UInt64) :
    NodeInfo.Fits { m with status := status.code, lastUpdatedTs := now } where
  nodeId := h.nodeId
  ipAddress := h.ipAddress
  role := h.role
  status := by
    show status.code < 65536
    cases status <;> decide

theorem NodeInfo.Fits.reapMember {m : NodeInfo} (h : m.Fits) (self : CString) (now : UInt64) :
    (DRoole.reapMember self now m).Fits := by
  unfold DRoole.reapMember
  split
  · exact h
  dsimp only
  generalize (if now > m.lastUpdatedTs then now - m.lastUpdatedTs else 0) = diff
  split
  · split
    · exact h.withStatus .dead m.lastUpdatedTs
    · exact h
  split
  · split
    · exact h.withStatus .suspect m.lastUpdatedTs
    · exact h
  · exact h

theorem toUInt32_lt_65536 (x : UInt16) : x.toUInt32 < 65536 := by
  rw [UInt32.lt_iff_toNat_lt, UInt16.toNat_toUInt32]
  exact x.toNat_lt

section
variable {S : ClusterManager} {nodeId : CString} {now : UInt64}

theorem SeedTable.updateStatus (h : SeedTable S) (nodeId : CString) (status : NodeStatus)
    (now : UInt64) : SeedTable (clusterUpdateMemberStatus S nodeId status now).1 ∧
      (clusterUpdateMemberStatus S nodeId status now).1.self = S.self := by
  have hself : (clusterUpdateMemberStatus S nodeId status now).1.self = S.self := by
    unfold clusterUpdateMemberStatus
    split
    · rfl
    · rfl
  refine ⟨⟨?_, fun y hy => ?_, hself ▸ h.selfId, fun y hy => ?_⟩, hself⟩
  · have hids := ids_clusterUpdateMemberStatus S nodeId status now
    rw [ClusterManager.ids, ClusterManager.ids] at hids
    rw [hids]
    exact h.distinct
  · rcases mem_updateMemberStatus hy with hy | ⟨m, hm, -, rfl⟩
    · exact h.fits y hy
    · exact (h.fits m hm).withStatus status now
  · rw [hself]
    rcases mem_updateMemberStatus hy with hy | ⟨m, hm, -, rfl⟩
    · exact h.selfAbsent y hy
    · exact h.selfAbsent m hm

theorem SeedTable.reaperTick (h : SeedTable S) (now : UInt64) :
    SeedTable (clusterReaperTick S now) := by
  refine ⟨?_, fun y hy => ?_, h.selfId, fun y hy => ?_⟩
  · have hids := ids_clusterReaperTick S now
    rw [ClusterManager.ids, ClusterManager.ids] at hids
    rw [hids]
    exact h.distinct
  · obtain ⟨m, hm, rfl⟩ := List.mem_map.1 hy
    exact (h.fits m hm).reapMember _ _
  · obtain ⟨m, hm, rfl⟩ := List.mem_map.1 hy
    rw [(reapMember_frame _ _ _).1]
    exact h.selfAbsent m hm

theorem mem_enlist {S' : ClusterManager} {req : JoinRequestPayload} {env : JoinEnv}
    (h : enlist S req env = some S') {y : NodeInfo} (hy : y ∈ S'.members) :
    y ∈ S.members ∨ (∃ m ∈ S.members, y = rejoin req env.wall m) ∨ y = newMember req env.wall := by
  unfold enlist at h
  split at h
  · cases h
    exact (mem_or_of_mem_modifyFirst hy).imp_right fun ⟨m, hm, _, e⟩ => .inl ⟨m, hm, e⟩
  · rcases addMember_cases S env.realloc (newMember req env.wall) with ⟨e, -⟩ | ⟨_, e, hmem, -⟩
    · rw [e] at h
      cases h
    · cases e.symm.trans h
      rw [hmem] at hy
      exact (List.mem_append.1 hy).imp_right fun hy => .inr (List.mem_singleton.1 hy)

theorem SeedTable.enlist {S' : ClusterManager} (hS : SeedTable S) {req : JoinRequestPayload}
    {env : JoinEnv} (hnul : 0 ∈ req.nodeId.bytes) (hself : req.idText ≠ S.self.nodeId)
    (h : DRoole.enlist S req env = some S') :
    SeedTable S' ∧ S'.self = S.self ∧ S'.members.length ≤ S.members.length + 1 := by
  have hlen : req.idText.bytes.length ≤ 36 := JoinRequestPayload.length_idText_le hnul
  have hid : (newMember req env.wall).nodeId = req.idText := CString.strncpy_of_le hlen
  have hsame := (enlist_members hlen hS.distinct h).1
  have hhandle : (clusterHandleJoinReq S req env).1 = S' := by
    rw [clusterHandleJoinReq, h]
  have hids : S'.ids.Nodup ∧ S'.members.length ≤ S.members.length + 1 := by
    have hcases := ids_clusterHandleJoinReq S req env
    rw [hhandle] at hcases
    have hcount : ∀ cm : ClusterManager, cm.members.length = cm.ids.length := fun cm =>
      (List.length_map _).symm
    rw [hcount, hcount]
    rcases hcases with e | ⟨hnew, e⟩
    · rw [e]
      exact ⟨hS.distinct, Nat.le_succ _⟩
    · rw [e, CString.strncpy_of_le hlen]
      exact ⟨List.concat_eq_append ▸ List.Nodup.concat hnew hS.distinct, by simp⟩
  have halive : NodeStatus.alive.code < 65536 := by decide
  refine ⟨⟨hids.1, fun y hy => ?_, hsame ▸ hS.selfId, fun y hy => ?_⟩, hsame, hids.2⟩
  · rcases mem_enlist h hy with hy | ⟨m, hm, rfl⟩ | rfl
    · exact hS.fits y hy
    · exact ⟨(hS.fits m hm).nodeId, CString.length_strncpy_le _ _, toUInt32_lt_65536 _, halive⟩
    · exact ⟨hid ▸ hlen, CString.length_strncpy_le _ _, toUInt32_lt_65536 _, halive⟩
  · rw [hsame]
    rcases mem_enlist h hy with hy | ⟨m, hm, rfl⟩ | rfl
    · exact hS.selfAbsent y hy
    · exact hS.selfAbsent m hm
    · rw [hid]
      exact hself

/-- **Step lemma**: the server keeps the table of a seed. -/
theorem SeedTable.apply {ι : Type} (hS : SeedTable S) {e : TableChange ι}
    (he : WellNamed S.self.nodeId e) :
    SeedTable (e.apply S) ∧ (e.apply S).self = S.self ∧
      (e.apply S).members.length ≤ S.members.length + 1 := by
  have hstatus : ∀ nodeId status now,
      (clusterUpdateMemberStatus S nodeId status now).1.members.length ≤ S.members.length + 1 := by
    intro nodeId status now
    have hids := congrArg List.length (ids_clusterUpdateMemberStatus S nodeId status now)
    rw [ClusterManager.ids, ClusterManager.ids, List.length_map, List.length_map] at hids
    rw [hids]
    exact Nat.le_succ _
  cases e with
  | request i header payload join now =>
    show SeedTable (serveRequest S header payload join now) ∧
      (serveRequest S header payload join now).self = S.self ∧
      (serveRequest S header payload join now).members.length ≤ S.members.length + 1
    unfold serveRequest
    split
    · rename_i hcmd
      split
      · rename_i h89
        obtain ⟨hnul, hself⟩ := he hcmd h89
        rw [clusterHandleJoinReq]
        cases henlist : DRoole.enlist S (JoinRequestPayload.raw.read payload) join with
        | none => exact ⟨hS, rfl, Nat.le_succ _⟩
        | some S' => exact hS.enlist hnul hself henlist
      · exact ⟨hS, rfl, Nat.le_succ _⟩
    split
    · exact ⟨(hS.updateStatus ..).1, (hS.updateStatus ..).2, hstatus ..⟩
    · exact ⟨hS, rfl, Nat.le_succ _⟩
  | gossip datagram now =>
    show SeedTable (onGossipReceive S datagram now) ∧ (onGossipReceive S datagram now).self = S.self ∧
      (onGossipReceive S datagram now).members.length ≤ S.members.length + 1
    unfold onGossipReceive
    split
    · exact ⟨hS, rfl, Nat.le_succ _⟩
    · exact ⟨(hS.updateStatus ..).1, (hS.updateStatus ..).2, hstatus ..⟩
  | reap now =>
    refine ⟨hS.reaperTick now, rfl, ?_⟩
    show (S.members.map _).length ≤ _
    rw [List.length_map]
    exact Nat.le_succ _

theorem SeedTable.foldl {ι : Type} : ∀ {history : List (TableChange ι)} {S : ClusterManager},
    SeedTable S → (∀ e ∈ history, WellNamed S.self.nodeId e) →
    SeedTable (history.foldl TableChange.apply S) ∧
      (history.foldl TableChange.apply S).self = S.self ∧
      (history.foldl TableChange.apply S).members.length ≤ S.members.length + history.length
  | [], _, hS, _ => ⟨hS, rfl, le_rfl⟩
  | e :: history, S, hS, hall => by
    obtain ⟨hS', hself, hlen⟩ := hS.apply (hall e List.mem_cons_self)
    have hall' : ∀ e' ∈ history, WellNamed (e.apply S).self.nodeId e' := by
      intro e' he'
      rw [hself]
      exact hall e' (List.mem_cons_of_mem _ he')
    obtain ⟨hS'', hself', hlen'⟩ := SeedTable.foldl hS' hall'
    refine ⟨hS'', hself'.trans hself, ?_⟩
    rw [List.foldl_cons, List.length_cons]
    omega

end

/-! ## The request -/

def joinBytes (J : ClusterManager) : Bytes :=
  serializerPackRpc (joinRequestHeader J) ++ JoinRequestPayload.raw.put (joinRequest J)

theorem wholeRequest_joinBytes {J : ClusterManager} {got unread payload : Bytes}
    {header : RpcHeader} (harr : joinBytes J = got ++ unread)
    (hreq : wholeRequest got = some (header, payload)) :
    header = joinRequestHeader J ∧ payload = JoinRequestPayload.raw.put (joinRequest J) := by
  have h90 := length_serializerPackRpc (joinRequestHeader J)
  have h89 : (JoinRequestPayload.raw.put (joinRequest J)).length = 89 :=
    JoinRequestPayload.raw.length_put _
  unfold wholeRequest at hreq
  obtain ⟨⟨-, -, hlen⟩, e⟩ := Option.ite_none_right_eq_some.1 hreq
  obtain ⟨rfl, rfl⟩ := Prod.mk.inj (Option.some.inj e)
  have htake : got.take 90 = serializerPackRpc (joinRequestHeader J) := by
    have htakes := congrArg (List.take 90) harr
    rw [joinBytes, List.take_append_of_le_length (by omega), List.take_append_of_le_length (by omega),
      List.take_of_length_le h90.le] at htakes
    exact htakes.symm
  rw [htake, serializerRpc_bijection.unpack_pack] at hlen ⊢
  have hfull : got.length = (joinBytes J).length := by
    rw [hlen, joinBytes, List.length_append, h90, h89]
    rfl
  have hgot : got = joinBytes J := by
    rw [harr, List.length_append] at hfull
    rw [harr, List.eq_nil_of_length_eq_zero (by omega : unread.length = 0), List.append_nil]
  refine ⟨rfl, ?_⟩
  rw [hgot, joinBytes, ← h90, List.drop_left]

/-! ## The answer -/

theorem clusterJoin_cut {J : ClusterManager} {seedIp : CString} {seedPort : UInt16} {env : SeedEnv}
    {header : RpcHeader} {body : Bytes} (hpre : env.reply <+: joinResponse header body)
    (hne : env.reply ≠ joinResponse header body) (hpos : 0 < body.length)
    (hlen : body.length < 2 ^ 64) : clusterJoin J seedIp seedPort env = (J, -1) := by
  have h90 := length_serializerPackRpc (joinRespHeader header body.length)
  have hplen : (joinRespHeader header body.length).payloadLen.toNat = body.length :=
    (UInt64.toNat_ofNat' ..).trans (Nat.mod_eq_of_lt hlen)
  obtain ⟨missing, hmissing⟩ := hpre
  unfold clusterJoin
  split
  · rfl
  split
  · rfl
  rename_i hbuf rest hread
  obtain ⟨hreply, hbuflen⟩ := readN_eq_some hread
  have hsplit : hbuf ++ (rest ++ missing) =
      serializerPackRpc (joinRespHeader header body.length) ++ body := by
    rw [← List.append_assoc, ← hreply, hmissing, joinResponse]
  obtain ⟨rfl, hrest⟩ := List.append_inj hsplit (hbuflen.trans h90.symm)
  rw [serializerRpc_bijection.unpack_pack]
  unfold receiveResponse
  rw [if_neg fun h => h.elim (fun h => h rfl) fun h => h rfl]
  split
  · split
    · rfl
    · have hshort : rest.length < body.length := by
        rw [← hrest, List.length_append, Nat.lt_add_right_iff_pos, List.length_pos_iff]
        rintro rfl
        exact hne (by rw [← hmissing, List.append_nil])
      rw [hplen, readN_eq_none hshort]
  · rename_i hzero
    rw [gt_iff_lt, UInt64.lt_iff_toNat_lt, hplen] at hzero
    exact absurd hpos hzero

theorem clusterJoin_whole {J : ClusterManager} {seedIp : CString} {seedPort : UInt16}
    {env : SeedEnv} {header : RpcHeader} {body : Bytes}
    (hreply : env.reply = joinResponse header body) (hpos : 0 < body.length)
    (hlen : body.length < 2 ^ 64) : clusterJoin J seedIp seedPort env = (J, -1) ∨
      (env.connect = true ∧ env.send = true ∧ env.malloc = true ∧
        (clusterJoin J seedIp seedPort env).2 = 0) := by
  have hplen : (joinRespHeader header body.length).payloadLen.toNat = body.length :=
    (UInt64.toNat_ofNat' ..).trans (Nat.mod_eq_of_lt hlen)
  have hread := readN_append (length_serializerPackRpc (joinRespHeader header body.length)) body
  have hbody := readN_append (rfl : body.length = body.length) []
  rw [List.append_nil] at hbody
  have hmagic : ¬ ((joinRespHeader header body.length).magic ≠ rpcMagic ∨
      (joinRespHeader header body.length).commandType ≠ rpcCmdJoinResp) :=
    fun h => h.elim (fun h => h rfl) fun h => h rfl
  rw [clusterJoin, hreply, joinResponse, hread]
  dsimp only
  split
  · exact .inl rfl
  rename_i hsent
  rw [serializerRpc_bijection.unpack_pack, receiveResponse, if_neg hmagic,
    if_pos (by rwa [gt_iff_lt, UInt64.lt_iff_toNat_lt, hplen]), hplen, hbody]
  split
  · exact .inl rfl
  rename_i hmalloc
  simp only [Bool.or_eq_true, Bool.not_eq_true', not_or, Bool.not_eq_false] at hsent hmalloc
  exact .inr ⟨hsent.1, hsent.2, hmalloc, rfl⟩

theorem length_buildResponse (cm : ClusterManager) (padding : Nat → Chars 1 × Chars 6) :
    (buildResponse cm padding).length = 45 + 112 * cm.members.length := by
  rw [← payload_answerOf cm ⟨0, 0, 0, 0, .zero, .zero⟩, SeedReply.length_payload, length_answerOf]

/-! ## Both sides -/

/-- **A join through the server.** A node joins through a server that also serves others. Its
call of `cluster_join` fails and changes nothing, or returns 0; then the server has handled its
request, at one place of the history, and both tables are as the join should leave them there. -/
theorem join_through_server {ι : Type} [DecidableEq ι] {cm : ClusterManager} (hseed : SeedTable cm)
    {ls : List (ServerTick ι)} {s : Server ι}
    (hrun : run serverTick (Server.start cm) ls = some s)
    (hnamed : ∀ e ∈ s.history, WellNamed cm.self.nodeId e)
    (hsize : cm.members.length + s.history.length < 2 ^ 32)
    (role : NodeRole) {nodeId : CString} (hid : nodeId.strncpy 36 ≠ cm.self.nodeId)
    (bindIp : CString) (port : UInt16) (now : UInt64) {i : ι} {c : Conn}
    (hconn : s.conns i = some c)
    (harr : s.arrived i = joinBytes (clusterInit role nodeId bindIp port now))
    {seedIp : CString} (hip : seedIp.bytes.length ≤ 45) (seedPort : UInt16) {env : SeedEnv}
    (hreply : env.reply = c.sock.output) (hrealloc : ∀ n, env.realloc n = true) :
    let J := clusterInit role nodeId bindIp port now
    clusterJoin J seedIp seedPort env = (J, -1) ∨
    ∃ before after join time,
      s.history = before ++ .request i (joinRequestHeader J)
        (JoinRequestPayload.raw.put (joinRequest J)) join time :: after ∧
      (clusterJoin J seedIp seedPort env).2 = 0 ∧
      Transferred (before.foldl TableChange.apply cm)
        ((before ++ [.request i (joinRequestHeader J)
          (JoinRequestPayload.raw.put (joinRequest J)) join time]).foldl TableChange.apply cm)
        J (clusterJoin J seedIp seedPort env).1 seedIp seedPort := by
  intro J
  have hok : ServerOk cm s :=
    run_induct (fun _ _ _ h _ hstep => h.step hstep) (serverOk_start cm) along_true hrun
  have hat := hok.conns i
  rw [hconn] at hat
  obtain ⟨got, hgot, hstand, hlist⟩ := hat
  have hsilent : env.reply = [] → clusterJoin J seedIp seedPort env = (J, -1) := by
    intro hnil
    unfold clusterJoin
    split
    · rfl
    · rw [hnil, readN_eq_none (by decide)]
  cases hstand.linearized hlist with
  | unhandled _ _ hout => exact .inl (hsilent (hreply.trans hout))
  | @handled header payload join time before after hreq hlisted honce hout =>
    obtain ⟨rfl, rfl⟩ := wholeRequest_joinBytes (harr.symm.trans hgot) hreq
    have hsub : ∀ e ∈ before, e ∈ s.history := fun e he => by
      rw [hlisted]
      exact List.mem_append_left _ he
    obtain ⟨hS, hself, hcount⟩ := hseed.foldl fun e he => hnamed e (hsub e he)
    have hless : before.length + 1 ≤ s.history.length := by
      rw [hlisted, List.length_append, List.length_cons]
      omega
    generalize hS' : before.foldl TableChange.apply cm = S at hS hself hcount hout
    have hothers : (others S (nodeId.strncpy 36)).length ≤ S.members.length :=
      List.length_filter_le _ _
    have h89 : (JoinRequestPayload.raw.put (joinRequest J)).length = 89 :=
      JoinRequestPayload.raw.length_put _
    have hread : JoinRequestPayload.raw.read (JoinRequestPayload.raw.put (joinRequest J)) =
        joinRequest J := by
      have := JoinRequestPayload.raw.read_put (joinRequest J) []
      rwa [List.append_nil] at this
    rw [answerRequest, if_pos ⟨rfl, h89⟩, hread,
      clusterHandleJoinReq] at hout
    cases henlist : enlist S (joinRequest J) join with
    | none =>
      rw [henlist] at hout
      exact .inl (hsilent (hreply.trans (List.prefix_nil.1 hout)))
    | some S₁ =>
      rw [henlist] at hout
      cases hmalloc : join.malloc with
      | false =>
        rw [hmalloc] at hout
        exact .inl (hsilent (hreply.trans (List.prefix_nil.1 hout)))
      | true =>
      rw [hmalloc] at hout
      change c.sock.output <+: joinResponse (joinRequestHeader J) (buildResponse S₁ join.padding)
        at hout
      have hlen := length_buildResponse S₁ join.padding
      have hS₁ := (hS.enlisted (hself ▸ hid) henlist).2.2
      by_cases hall : c.sock.output =
          joinResponse (joinRequestHeader J) (buildResponse S₁ join.padding)
      · refine (clusterJoin_whole (hreply.trans hall) (by omega) (by omega)).imp_right ?_
        rintro ⟨hconnect, hsend, hmalloc, hzero⟩
        refine ⟨before, after, join, time, hlisted, hzero, ?_⟩
        have hcmd : (joinRequestHeader J).commandType = rpcCmdJoinReq := rfl
        have hserve : TableChange.apply S (.request i (joinRequestHeader J)
            (JoinRequestPayload.raw.put (joinRequest J)) join time) = S₁ := by
          show serveRequest S _ _ _ _ = S₁
          rw [serveRequest, if_pos hcmd, if_pos h89, hread,
            clusterHandleJoinReq, henlist]
        rw [List.foldl_append, hS', List.foldl_cons, List.foldl_nil, hserve]
        exact hS.transferred (hself ▸ hid) hip henlist ⟨hconnect, hsend, hmalloc, hrealloc⟩
          (hreply.trans hall) (by omega)
      · exact .inl (clusterJoin_cut (hreply ▸ hout) (hreply ▸ hall) (by omega) (by omega))

def lonelySeed : ClusterManager := clusterInit .controlNode (.ofField [115]) (.ofField [49]) 7000 0

/-- The request of `asking` in two pieces, with a tick between them, and the answer in two. -/
def joinTicks : List (ServerTick Unit) :=
  [.accept () ⟨0, true, true, true⟩, .arrive () ((joinBytes asking).take 100),
    .event () (pieceEvent true false 89), .event () (pieceEvent true false 20), .reap 7,
    .arrive () ((joinBytes asking).drop 100), .event () (pieceEvent true false 100),
    .event () (pieceEvent false true 50), .event () (pieceEvent false true 500)]

def joinServer : Server Unit :=
  (run serverTick (Server.start lonelySeed) joinTicks).getD (Server.start lonelySeed)

def joinEnv : SeedEnv :=
  ⟨true, true, ((joinServer.conns ()).map (·.sock.output)).getD [], true, fun _ => true, 5,
    fun _ => (0, 0)⟩

theorem join_through_server_asking :
    ∃ before after join time,
      joinServer.history = before ++ .request () (joinRequestHeader asking)
        (JoinRequestPayload.raw.put (joinRequest asking)) join time :: after ∧
      (clusterJoin asking (.ofField [49]) 7000 joinEnv).2 = 0 ∧
      Transferred (before.foldl TableChange.apply lonelySeed)
        ((before ++ [.request () (joinRequestHeader asking)
          (JoinRequestPayload.raw.put (joinRequest asking)) join time]).foldl TableChange.apply
            lonelySeed)
        asking (clusterJoin asking (.ofField [49]) 7000 joinEnv).1 (.ofField [49]) 7000 := by
  have hsome : (run serverTick (Server.start lonelySeed) joinTicks).isSome := by decide +kernel
  obtain ⟨s, hs⟩ := Option.isSome_iff_exists.1 hsome
  have hrun : run serverTick (Server.start lonelySeed) joinTicks = some joinServer := by
    rw [joinServer, hs]
    rfl
  have hconns : (joinServer.conns ()).isSome := by decide +kernel
  obtain ⟨c, hc⟩ := Option.isSome_iff_exists.1 hconns
  have hreply : joinEnv.reply = c.sock.output := by
    show ((joinServer.conns ()).map (·.sock.output)).getD [] = _
    rw [hc]
    rfl
  have hseed : SeedTable lonelySeed :=
    ⟨List.nodup_nil, fun m hm => absurd hm List.not_mem_nil, by decide,
      fun m hm => absurd hm List.not_mem_nil⟩
  have hjoined : (clusterJoin asking (.ofField [49]) 7000 joinEnv).2 = 0 := by decide +kernel
  refine (join_through_server hseed hrun (by decide +kernel) (by decide +kernel) .workerNode
    (by decide) (.ofField [50]) 7001 0 hc (by decide +kernel) (by decide) 7000 hreply
    fun _ => rfl).resolve_left fun hfail => ?_
  rw [show clusterInit .workerNode (.ofField [97]) (.ofField [50]) 7001 0 = asking from rfl] at hfail
  rw [hfail] at hjoined
  cases hjoined

end DRoole
