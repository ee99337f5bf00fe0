import DRoole.Members.Manager

/-!
# Importing the table of a seed

What `cluster_join` makes of a well-formed response: the entries of the response,
without the joining node's own, are added in order as far as there is room, and the
seed after them unless it is among them.
-/

namespace DRoole

open Lib

/-! ## Listings -/

/-- What a table says of a node: its id, address, ports, role and status. -/
abbrev Listing := CString × CString × UInt16 × UInt16 × UInt32 × UInt32

def NodeInfo.listing (m : NodeInfo) : Listing :=
  (m.nodeId, m.ipAddress, m.tcpPort, m.udpPort, m.role, m.status)

def NodeInfoImage.listing (src : NodeInfoImage) : Listing :=
  (src.nodeId.text, src.ipAddress.text, ntohs src.tcpPort, ntohs src.udpPort,
    (ntohs src.role.toUInt16).toUInt32, (ntohs src.status.toUInt16).toUInt32)

/-- The entries that `cluster_join` does not skip. -/
def importable (self : CString) (nodes : List NodeInfoImage) : List NodeInfoImage :=
  nodes.filter fun n => n.idText ≠ self

/-- **The import loop** adds entries in order, all of them if the allocations succeed. -/
theorem importMembers_members (env : SeedEnv) (cm : ClusterManager) (nodes : List NodeInfoImage) :
    ∃ added, (importMembers env cm nodes).members = cm.members ++ added ∧
      added.map NodeInfo.listing <+:
        (importable cm.self.nodeId nodes).map NodeInfoImage.listing ∧
      ((∀ n, env.realloc n = true) → added.map NodeInfo.listing =
        (importable cm.self.nodeId nodes).map NodeInfoImage.listing) ∧
      (importMembers env cm nodes).self = cm.self := by
  induction nodes generalizing cm with
  | nil => exact ⟨[], (List.append_nil _).symm, List.nil_prefix, fun _ => rfl, rfl⟩
  | cons src nodes ih =>
    unfold importMembers
    split
    · rename_i hself
      have hskip : importable cm.self.nodeId (src :: nodes) = importable cm.self.nodeId nodes :=
        List.filter_cons_of_neg (by simp [hself])
      rw [hskip]
      exact ih cm
    · rename_i hself
      have htake : importable cm.self.nodeId (src :: nodes) =
          src :: importable cm.self.nodeId nodes := List.filter_cons_of_pos (by simp [hself])
      rw [htake]
      dsimp only
      rcases addMember_cases cm (env.realloc (.entry cm.members.length))
        (src.imported env.now (env.loads cm.members.length)) with ⟨e, hr⟩ | ⟨cm', e, hmem, hs, -⟩
      · rw [e]
        refine ⟨[], (List.append_nil _).symm, List.nil_prefix, fun hall => ?_, rfl⟩
        rw [hall] at hr
        cases hr
      · rw [e]
        obtain ⟨added, hadd, hpre, hall, hself'⟩ := ih cm'
        rw [hs] at hpre hall
        refine ⟨src.imported env.now (env.loads cm.members.length) :: added, ?_, ?_, ?_,
          hself'.trans hs⟩
        · show (importMembers env cm' nodes).members = _
          rw [hadd, hmem, List.append_assoc]
          rfl
        · exact List.cons_prefix_cons.2 ⟨rfl, hpre⟩
        · intro hr
          rw [List.map_cons, hall hr]
          rfl

/-- **The seed** is added if it is not there yet. -/
theorem ensureSeed_members (env : SeedEnv) (seedId seedIp : CString) (seedPort : UInt16)
    (cm : ClusterManager) :
    ((ensureSeed env seedId seedIp seedPort cm).members = cm.members ∧
      ((∃ m ∈ cm.members, m.nodeId = seedId) ∨ env.realloc .seed = false)) ∨
    ((ensureSeed env seedId seedIp seedPort cm).members =
      cm.members ++ [seedEntry seedId seedIp seedPort env.now] ∧
      ∀ m ∈ cm.members, m.nodeId ≠ seedId) := by
  unfold ensureSeed
  split
  · rename_i hfound
    exact .inl ⟨rfl, .inl (by simpa using hfound)⟩
  · rename_i hnone
    dsimp only
    rcases addMember_cases cm (env.realloc .seed)
      (seedEntry seedId seedIp seedPort env.now) with ⟨e, hr⟩ | ⟨cm', e, hmem, -⟩
    · rw [e]
      exact .inl ⟨rfl, .inr hr⟩
    · rw [e]
      exact .inr ⟨hmem, by simpa using hnone⟩

/-! ## Ids in a payload -/

theorem NodeInfoImage.raw_put (n : NodeInfoImage) :
    ∃ rest, NodeInfoImage.raw.put n = n.nodeId.bytes ++ rest := by
  rw [NodeInfoImage.raw, Codec.iso_put, Codec.pair_put]
  exact ⟨_, rfl⟩

theorem JoinRequestPayload.raw_put (r : JoinRequestPayload) :
    ∃ rest, JoinRequestPayload.raw.put r = r.nodeId.bytes ++ rest := by
  rw [JoinRequestPayload.raw, Codec.iso_put, Codec.pair_put]
  exact ⟨_, rfl⟩

/-- A terminated id does not run on into the next fields. -/
theorem NodeInfoImage.idText_eq {n : NodeInfoImage} (hnul : 0 ∈ n.nodeId.bytes) :
    n.idText = n.nodeId.text := by
  obtain ⟨rest, e⟩ := n.raw_put
  rw [NodeInfoImage.idText, e, CString.ofField_append hnul]
  rfl

theorem JoinRequestPayload.idText_eq {r : JoinRequestPayload} (hnul : 0 ∈ r.nodeId.bytes) :
    r.idText = r.nodeId.text := by
  obtain ⟨rest, e⟩ := r.raw_put
  rw [JoinRequestPayload.idText, e, CString.ofField_append hnul]
  rfl

theorem JoinRequestPayload.length_idText_le {r : JoinRequestPayload} (hnul : 0 ∈ r.nodeId.bytes) :
    r.idText.bytes.length ≤ 36 := by
  have hlt := CString.length_ofField_lt hnul
  rw [r.nodeId.length_eq] at hlt
  rw [JoinRequestPayload.idText_eq hnul]
  exact Nat.le_of_lt_succ hlt

/-! ## Well-formed responses -/

/-- A response of a seed that lists `nodes`. -/
structure SeedReply where
  version : UInt16
  originId : Chars 37
  requestId : Chars 37
  status : UInt32
  responderId : Chars 37
  nodes : List NodeInfoImage

namespace SeedReply

def payload (r : SeedReply) : Bytes :=
  JoinResponseHeader.raw.put ⟨r.status, htonl (UInt32.ofNat r.nodes.length), r.responderId⟩ ++
    (r.nodes.map NodeInfoImage.raw.put).flatten

def header (r : SeedReply) : RpcHeader :=
  ⟨rpcMagic, r.version, rpcCmdJoinResp, UInt64.ofNat r.payload.length, r.originId, r.requestId⟩

def bytes (r : SeedReply) : Bytes := serializerPackRpc r.header ++ r.payload

def seedId (r : SeedReply) : CString := r.responderId.text.strncpy 36

theorem length_payload (r : SeedReply) : r.payload.length = 45 + 112 * r.nodes.length := by
  have harray : ∀ nodes : List NodeInfoImage,
      (nodes.map NodeInfoImage.raw.put).flatten.length = 112 * nodes.length := by
    intro nodes
    induction nodes with
    | nil => rfl
    | cons n nodes ih =>
      rw [List.map_cons, List.flatten_cons, List.length_append, ih, NodeInfoImage.raw.length_put,
        List.length_cons, NodeInfoImage.raw_width]
      omega
  rw [payload, List.length_append, JoinResponseHeader.raw.length_put, harray]
  rfl

/-- The entries that the 32 bits of `member_count` announce. -/
def listed (r : SeedReply) : List NodeInfoImage := r.nodes.take (r.nodes.length % 2 ^ 32)

theorem listed_eq {r : SeedReply} (hcount : r.nodes.length < 2 ^ 32) : r.listed = r.nodes := by
  rw [listed, Nat.mod_eq_of_lt hcount, List.take_length]

theorem importResponse_eq (r : SeedReply) (env : SeedEnv) (seedIp : CString) (seedPort : UInt16)
    (cm : ClusterManager) :
    importResponse env seedIp seedPort r.payload cm =
      ensureSeed env r.seedId seedIp seedPort (importMembers env cm r.listed) := by
  have hdr : JoinResponseHeader.raw.read r.payload =
      ⟨r.status, htonl (UInt32.ofNat r.nodes.length), r.responderId⟩ :=
    JoinResponseHeader.raw.read_put ..
  have hn : (ntohl (htonl (UInt32.ofNat r.nodes.length))).toNat = r.nodes.length % 2 ^ 32 :=
    (congrArg UInt32.toNat (Word.bswap_bswap _)).trans (UInt32.toNat_ofNat' ..)
  have hnodes : responseNodes r.payload (r.nodes.length % 2 ^ 32) = r.listed := by
    have hraw := JoinResponseHeader.raw.length_put
      ⟨r.status, htonl (UInt32.ofNat r.nodes.length), r.responderId⟩
    rw [JoinResponseHeader.raw_width] at hraw
    rw [responseNodes, payload, List.drop_left' hraw]
    exact NodeInfoImage.raw.readMany_take r.nodes (Nat.mod_le ..)
  rw [importResponse, hdr]
  dsimp only
  rw [hn, hnodes]
  rfl

theorem toNat_payloadLen {r : SeedReply} (hlen : r.nodes.length < 2 ^ 57) :
    r.header.payloadLen.toNat = r.payload.length := by
  refine UInt64.toNat_ofNat_of_lt' ?_
  rw [r.length_payload]
  show _ < 2 ^ 64
  omega

end SeedReply

/-! ## Joining -/

theorem receiveResponse_reply {r : SeedReply} (hlen : r.nodes.length < 2 ^ 57) (env : SeedEnv)
    (cm : ClusterManager) (seedIp : CString) (seedPort : UInt16) :
    ((receiveResponse cm seedIp seedPort env r.header r.payload).1 = cm ∧ env.malloc = false) ∨
    (receiveResponse cm seedIp seedPort env r.header r.payload).1 =
      (ensureSeed env r.seedId seedIp seedPort (importMembers env cm r.listed)).activate := by
  have hplen := SeedReply.toNat_payloadLen hlen
  have hpos : r.header.payloadLen > 0 := by
    rw [gt_iff_lt, UInt64.lt_iff_toNat_lt, hplen, r.length_payload]
    exact Nat.lt_of_lt_of_le (by decide) (Nat.le_add_right 45 _)
  have hok : ¬ (r.header.magic ≠ rpcMagic ∨ r.header.commandType ≠ rpcCmdJoinResp) :=
    fun h => h.elim (fun h => h rfl) fun h => h rfl
  have hread : readN r.header.payloadLen.toNat r.payload = some (r.payload, []) := by
    have := readN_append hplen.symm []
    rwa [List.append_nil] at this
  rw [receiveResponse, if_neg hok, if_pos hpos]
  split
  · rename_i hm
    exact .inl ⟨rfl, by simpa using hm⟩
  · rw [hread]
    right
    show (importResponse env seedIp seedPort r.payload cm).activate = _
    rw [r.importResponse_eq]

theorem clusterJoin_bytes (r : SeedReply) {env : SeedEnv} (hreply : env.reply = r.bytes)
    (cm : ClusterManager) (seedIp : CString) (seedPort : UInt16) :
    clusterJoin cm seedIp seedPort env =
      if !env.connect || !env.send then (cm, -1)
      else receiveResponse cm seedIp seedPort env r.header r.payload := by
  rw [clusterJoin, hreply, SeedReply.bytes, readN_append (length_serializerPackRpc _)]
  show (if _ then _ else receiveResponse cm seedIp seedPort env
    (serializerUnpackRpc (serializerPackRpc r.header)) r.payload) = _
  rw [serializerRpc_bijection.unpack_pack]

/-- **`cluster_join`** on the response `r`. -/
theorem clusterJoin_reply {r : SeedReply} (hlen : r.nodes.length < 2 ^ 57) {env : SeedEnv}
    (hreply : env.reply = r.bytes) (cm : ClusterManager) (seedIp : CString) (seedPort : UInt16) :
    ((clusterJoin cm seedIp seedPort env).1 = cm ∧
      ¬ (env.connect = true ∧ env.send = true ∧ env.malloc = true)) ∨
    (clusterJoin cm seedIp seedPort env).1 =
      (ensureSeed env r.seedId seedIp seedPort (importMembers env cm r.listed)).activate := by
  rw [clusterJoin_bytes r hreply]
  split
  · rename_i hc
    exact .inl ⟨rfl, fun ⟨h1, h2, _⟩ => by simp [h1, h2] at hc⟩
  · exact (receiveResponse_reply hlen env cm seedIp seedPort).imp_left
      fun ⟨hcm, hm⟩ => ⟨hcm, fun ⟨_, _, h3⟩ => by simp [h3] at hm⟩

end DRoole
