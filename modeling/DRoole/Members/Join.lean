import DRoole.Members.Unique
import DRoole.Rpc.Session

/-!
# A join

A node asks a seed to join and imports the seed's answer. The seed lists the node
once, and the node ends with the seed's table in place of its own entry, followed by
the seed itself, as long as the number of entries fits `member_count`, which is 32
bits wide.
-/

namespace DRoole

open Lib

/-! ## At the seed -/

def JoinRequestPayload.listing (req : JoinRequestPayload) : Listing :=
  (req.idText, req.ipAddress.text.strncpy 45, ntohs req.tcpPort, ntohs req.udpPort,
    (ntohs req.role).toUInt32, NodeStatus.alive.code)

/-- **`cluster_handle_join_req`** lists the node once and leaves the others alone. -/
theorem enlist_members {cm cm' : ClusterManager} {req : JoinRequestPayload} {env : JoinEnv}
    (hid : req.idText.bytes.length ≤ 36) (hn : cm.ids.Nodup) (h : enlist cm req env = some cm') :
    cm'.self = cm.self ∧
    cm'.members.filter (fun m => !decide (m.nodeId = req.idText)) =
      cm.members.filter (fun m => !decide (m.nodeId = req.idText)) ∧
    ∃ m, cm'.members.filter (·.nodeId = req.idText) = [m] ∧ m.listing = req.listing := by
  unfold enlist at h
  split at h
  · rename_i hknown
    cases h
    have hmem : req.idText ∈ cm.members.map (·.nodeId) := by simpa using hknown
    obtain ⟨m, hm, e⟩ := filter_key_modifyFirst (f := rejoin req env.wall) (fun _ => rfl) hn hmem
    have hother := filter_not_modifyFirst (p := fun m => decide (m.nodeId = req.idText))
      (f := rejoin req env.wall) (fun _ => rfl) cm.members
    refine ⟨rfl, hother, rejoin req env.wall m, e, ?_⟩
    rw [NodeInfo.listing, JoinRequestPayload.listing, ← hm]
    rfl
  · rename_i hnew
    rcases addMember_cases cm env.realloc (newMember req env.wall) with ⟨e, -⟩ | ⟨_, e, hmem, hs, -⟩
    · rw [e] at h
      cases h
    · cases e.symm.trans h
      have hnewId : (newMember req env.wall).nodeId = req.idText := CString.strncpy_of_le hid
      have hnone : cm.members.filter (·.nodeId = req.idText) = [] :=
        List.filter_eq_nil_iff.2 (by simpa using hnew)
      refine ⟨hs, ?_, newMember req env.wall, ?_, ?_⟩
      · rw [hmem, List.filter_append, List.filter_cons_of_neg (by simp [hnewId]), List.filter_nil,
          List.append_nil]
      · rw [hmem, List.filter_append, hnone, List.filter_cons_of_pos (by simp [hnewId])]
        rfl
      · rw [NodeInfo.listing, JoinRequestPayload.listing, hnewId]
        rfl

/-! ## The answer -/

/-- An entry that fits the fields of the answer. -/
structure NodeInfo.Fits (m : NodeInfo) : Prop where
  nodeId : m.nodeId.bytes.length ≤ 36
  ipAddress : m.ipAddress.bytes.length ≤ 45
  role : m.role < 65536
  status : m.status < 65536

theorem toUInt32_ntohs_htons {x : UInt32} (hx : x < 65536) :
    (ntohs (htons x.toUInt16).toUInt32.toUInt16).toUInt32 = x := by
  have hswap : ntohs (htons x.toUInt16) = x.toUInt16 := Word.bswap_bswap _
  rw [UInt16.toUInt16_toUInt32, hswap, UInt32.toUInt32_toUInt16]
  exact UInt32.toNat_inj.1 (by rw [UInt32.toNat_mod]; exact Nat.mod_eq_of_lt hx)

theorem NodeInfo.Fits.listing_image {m : NodeInfo} (hm : m.Fits) (padding : Chars 1 × Chars 6) :
    (m.image padding).listing = m.listing := by
  have hport : ∀ x : UInt16, ntohs (htons x) = x := Word.bswap_bswap
  rw [NodeInfoImage.listing, NodeInfo.listing, NodeInfo.image]
  dsimp only
  rw [Chars.text_ofCString (Nat.lt_succ_of_le hm.nodeId),
    Chars.text_ofCString (Nat.lt_succ_of_le hm.ipAddress), hport, hport,
    toUInt32_ntohs_htons hm.role, toUInt32_ntohs_htons hm.status]

theorem NodeInfo.Fits.idText_image {m : NodeInfo} (hm : m.Fits) (padding : Chars 1 × Chars 6) :
    (m.image padding).idText = m.nodeId := by
  have hlen := Nat.lt_succ_of_le hm.nodeId
  rw [NodeInfoImage.idText_eq (CString.zero_mem_toField hlen)]
  exact Chars.text_ofCString hlen

def answerOf (cm : ClusterManager) (header : RpcHeader) (padding : Nat → Chars 1 × Chars 6) :
    SeedReply where
  version := 1
  originId := .ofCString (header.originId.text.strncpy 36)
  requestId := .zero
  status := 0
  responderId := .ofCString (cm.self.nodeId.strncpy 36)
  nodes := cm.members.mapIdx fun i m => m.image (padding i)

theorem length_answerOf (cm : ClusterManager) (header : RpcHeader)
    (padding : Nat → Chars 1 × Chars 6) :
    (answerOf cm header padding).nodes.length = cm.members.length := List.length_mapIdx

theorem payload_answerOf (cm : ClusterManager) (header : RpcHeader)
    (padding : Nat → Chars 1 × Chars 6) :
    (answerOf cm header padding).payload = buildResponse cm padding := by
  rw [SeedReply.payload, buildResponse, joinResponseHeader, length_answerOf]
  congr 2
  exact List.ext_getElem (by simp [answerOf]) fun i _ _ => by simp [answerOf]

theorem bytes_answerOf (cm : ClusterManager) (header : RpcHeader)
    (padding : Nat → Chars 1 × Chars 6) :
    (answerOf cm header padding).bytes = joinResponse header (buildResponse cm padding) := by
  rw [SeedReply.bytes, SeedReply.header, payload_answerOf]
  rfl

/-! ## At the node that joins -/

/-- Nothing fails while the answer is received. -/
structure SeedEnv.Works (env : SeedEnv) : Prop where
  connect : env.connect = true
  send : env.send = true
  malloc : env.malloc = true
  realloc : ∀ n, env.realloc n = true

theorem length_importResponse_le (cm : ClusterManager) (seedIp : CString) (seedPort : UInt16)
    (env : SeedEnv) (payload : Bytes) :
    (importResponse env seedIp seedPort payload cm).members.length ≤
      cm.members.length + 2 ^ 32 := by
  rw [importResponse]
  generalize (ntohl (JoinResponseHeader.raw.read payload).memberCount) = count
  generalize (JoinResponseHeader.raw.read payload).responderId.text.strncpy 36 = seedId
  obtain ⟨added, hadd, hpre, -, -⟩ :=
    importMembers_members env cm (responseNodes payload count.toNat)
  have hle := hpre.length_le
  rw [List.length_map, List.length_map, importable] at hle
  have hnodes : (responseNodes payload count.toNat).length = count.toNat := by
    rw [responseNodes, Codec.readMany, List.length_map, List.length_range]
  have hcount := count.toNat_lt
  have hfilter := List.length_filter_le (fun n => n.idText ≠ cm.self.nodeId)
    (responseNodes payload count.toNat)
  rcases ensureSeed_members env seedId seedIp seedPort
    (importMembers env cm (responseNodes payload count.toNat)) with ⟨e, -⟩ | ⟨e, -⟩
  · rw [e, hadd, List.length_append]
    omega
  · rw [e, hadd, List.length_append, List.length_append, List.length_singleton]
    omega

theorem length_receiveResponse_le (cm : ClusterManager) (seedIp : CString) (seedPort : UInt16)
    (env : SeedEnv) (hdr : RpcHeader) (rest : Bytes) :
    (receiveResponse cm seedIp seedPort env hdr rest).1.members.length ≤
      cm.members.length + 2 ^ 32 := by
  rw [receiveResponse]
  split
  · exact Nat.le_add_right ..
  split
  · split
    · exact Nat.le_add_right ..
    split
    · exact Nat.le_add_right ..
    · rw [ClusterManager.activate_members]
      exact length_importResponse_le ..
  · exact Nat.le_add_right ..

/-- One join adds at most 2^32 entries, whatever the answer is. -/
theorem length_clusterJoin_le (cm : ClusterManager) (seedIp : CString) (seedPort : UInt16)
    (env : SeedEnv) :
    (clusterJoin cm seedIp seedPort env).1.members.length ≤ cm.members.length + 2 ^ 32 := by
  rw [clusterJoin]
  split
  · exact Nat.le_add_right ..
  split
  · exact Nat.le_add_right ..
  · exact length_receiveResponse_le ..

theorem seedId_answerOf {cm : ClusterManager} (hself : cm.self.nodeId.bytes.length ≤ 36)
    (header : RpcHeader) (padding : Nat → Chars 1 × Chars 6) :
    (answerOf cm header padding).seedId = cm.self.nodeId := by
  rw [SeedReply.seedId, answerOf, CString.strncpy_of_le hself,
    Chars.text_ofCString (Nat.lt_succ_of_le hself), CString.strncpy_of_le hself]

theorem importable_answerOf {cm : ClusterManager} (hcm : ∀ m ∈ cm.members, m.Fits)
    (header : RpcHeader) (padding : Nat → Chars 1 × Chars 6) (self : CString) :
    (importable self (answerOf cm header padding).listed).map NodeInfoImage.listing =
      ((cm.members.take (cm.members.length % 2 ^ 32)).filter
        fun m => !decide (m.nodeId = self)).map NodeInfo.listing := by
  have htake : (answerOf cm header padding).listed =
      (cm.members.take (cm.members.length % 2 ^ 32)).mapIdx fun i m => m.image (padding i) := by
    rw [SeedReply.listed, length_answerOf]
    exact List.ext_getElem (by simp [answerOf]) fun i _ _ => by simp [answerOf]
  have hfits : ∀ m ∈ cm.members.take (cm.members.length % 2 ^ 32), m.Fits :=
    fun m hm => hcm m (List.mem_of_mem_take hm)
  rw [htake, importable]
  refine map_filter_mapIdx (fun i m hm => ?_) fun i m hm => (hfits m hm).listing_image _
  rw [(hfits m hm).idText_image, decide_not]

theorem clusterJoin_answerOf {cm joiner : ClusterManager} (hcm : ∀ m ∈ cm.members, m.Fits)
    (hself : cm.self.nodeId.bytes.length ≤ 36)
    (hseed : ∀ m ∈ cm.members, m.nodeId ≠ cm.self.nodeId) (hempty : joiner.members = [])
    {env : SeedEnv} (hw : env.Works) {header : RpcHeader} {padding : Nat → Chars 1 × Chars 6}
    (hreply : env.reply = joinResponse header (buildResponse cm padding))
    (hlen : cm.members.length < 2 ^ 57) (seedIp : CString) (seedPort : UInt16) :
    (clusterJoin joiner seedIp seedPort env).1.members.map NodeInfo.listing =
      ((cm.members.take (cm.members.length % 2 ^ 32)).filter
        fun m => !decide (m.nodeId = joiner.self.nodeId)).map NodeInfo.listing ++
      [(seedEntry cm.self.nodeId seedIp seedPort env.now).listing] := by
  rw [← bytes_answerOf] at hreply
  rw [← length_answerOf cm header padding] at hlen
  rcases clusterJoin_reply hlen hreply joiner seedIp seedPort with ⟨-, hfail⟩ | e
  · exact absurd ⟨hw.connect, hw.send, hw.malloc⟩ hfail
  rw [e, ClusterManager.activate_members, seedId_answerOf hself]
  obtain ⟨added, hadd, -, hall, -⟩ :=
    importMembers_members env joiner (answerOf cm header padding).listed
  have hadded := (hall hw.realloc).trans (importable_answerOf hcm header padding _)
  rw [hempty, List.nil_append] at hadd
  rcases ensureSeed_members env cm.self.nodeId seedIp seedPort
    (importMembers env joiner (answerOf cm header padding).listed) with ⟨-, hfound⟩ | ⟨e, -⟩
  · exfalso
    rcases hfound with ⟨m, hm, hid⟩ | hfail
    · rw [hadd] at hm
      have hlisted := List.mem_map_of_mem (f := NodeInfo.listing) hm
      rw [hadded] at hlisted
      obtain ⟨n, hn, hnm⟩ := List.mem_map.1 hlisted
      have hnid : n.nodeId = m.nodeId := congrArg Prod.fst hnm
      exact hseed n (List.mem_of_mem_take (List.mem_filter.1 hn).1) (hnid.trans hid)
    · rw [hw.realloc] at hfail
      cases hfail
  · rw [e, hadd, List.map_append, hadded]
    rfl

/-! ## Both sides -/

def others (cm : ClusterManager) (nodeId : CString) : List NodeInfo :=
  cm.members.filter fun m => !decide (m.nodeId = nodeId)

/-- The table of a seed: distinct ids that fit their fields, none of them its own. -/
structure SeedTable (S : ClusterManager) : Prop where
  distinct : (S.members.map (·.nodeId)).Nodup
  fits : ∀ m ∈ S.members, m.Fits
  selfId : S.self.nodeId.bytes.length ≤ 36
  selfAbsent : ∀ m ∈ S.members, m.nodeId ≠ S.self.nodeId

/-- Seed `S` has become `S'` and node `J` has become `J'` as a join should leave them. -/
structure Transferred (S S' J J' : ClusterManager) (seedIp : CString) (seedPort : UInt16) :
    Prop where
  listed : ∃ m, S'.members.filter (·.nodeId = J.self.nodeId) = [m] ∧
    m.listing = (J.self.nodeId, J.self.ipAddress, J.self.tcpPort, J.self.udpPort, J.self.role,
      NodeStatus.alive.code)
  kept : others S' J.self.nodeId = others S J.self.nodeId
  imported : ∃ role status, J'.members.map NodeInfo.listing =
    (others S J.self.nodeId).map NodeInfo.listing ++
      [(S.self.nodeId, seedIp, seedPort, seedPort, role, status)]
  absent : ∀ m ∈ J'.members, m.nodeId ≠ J.self.nodeId

section
variable (role : NodeRole) (nodeId bindIp : CString) (port : UInt16) (now : UInt64)

theorem idText_joinRequest : (joinRequest (clusterInit role nodeId bindIp port now)).idText =
    nodeId.strncpy 36 := by
  have hlen := Nat.lt_succ_of_le (nodeId.length_strncpy_le 36)
  have hfield : (joinRequest (clusterInit role nodeId bindIp port now)).nodeId =
      .ofCString (nodeId.strncpy 36) :=
    congrArg Chars.ofCString (CString.strncpy_strncpy nodeId 36)
  rw [JoinRequestPayload.idText_eq, hfield]
  · exact Chars.text_ofCString hlen
  · rw [hfield]
    exact CString.zero_mem_toField hlen

theorem listing_joinRequest : (joinRequest (clusterInit role nodeId bindIp port now)).listing =
    (clusterInit role nodeId bindIp port now).self.listing := by
  have hip : (bindIp.strncpy 45).bytes.length < 46 :=
    Nat.lt_succ_of_le (bindIp.length_strncpy_le 45)
  have haddr : (joinRequest (clusterInit role nodeId bindIp port now)).ipAddress =
      .ofCString (bindIp.strncpy 45) :=
    congrArg Chars.ofCString (CString.strncpy_strncpy bindIp 45)
  have hport : ntohs (htons port) = port := Word.bswap_bswap _
  have hrole : (ntohs (htons role.code.toUInt16)).toUInt32 = role.code := by
    have hswap : ntohs (htons role.code.toUInt16) = role.code.toUInt16 := Word.bswap_bswap _
    rw [hswap]
    cases role <;> rfl
  rw [JoinRequestPayload.listing, idText_joinRequest, haddr, Chars.text_ofCString hip,
    CString.strncpy_strncpy]
  show (_, _, ntohs (htons port), ntohs (htons port), (ntohs (htons role.code.toUInt16)).toUInt32,
    _) = _
  rw [hport, hrole]
  rfl

variable {S S' : ClusterManager} {jenv : JoinEnv}

/-- What the request does at the seed. -/
theorem enlist_joinRequest (hS : SeedTable S)
    (henlist : enlist S (joinRequest (clusterInit role nodeId bindIp port now)) jenv = some S') :
    S'.self = S.self ∧ others S' (nodeId.strncpy 36) = others S (nodeId.strncpy 36) ∧
    (∃ m, S'.members.filter (·.nodeId = nodeId.strncpy 36) = [m] ∧
      m.listing = (clusterInit role nodeId bindIp port now).self.listing) := by
  have hid : (joinRequest (clusterInit role nodeId bindIp port now)).idText.bytes.length ≤ 36 := by
    rw [idText_joinRequest]
    exact nodeId.length_strncpy_le 36
  have h := enlist_members hid hS.distinct henlist
  rwa [idText_joinRequest, listing_joinRequest] at h

variable {role nodeId bindIp port now}

theorem SeedTable.enlisted (hS : SeedTable S) (hid : nodeId.strncpy 36 ≠ S.self.nodeId)
    (henlist : enlist S (joinRequest (clusterInit role nodeId bindIp port now)) jenv = some S') :
    (∀ m ∈ S'.members, m.Fits) ∧ (∀ m ∈ S'.members, m.nodeId ≠ S'.self.nodeId) ∧
      S'.members.length = (others S (nodeId.strncpy 36)).length + 1 := by
  obtain ⟨hself, hkept, m₀, hone, hlisting⟩ := enlist_joinRequest role nodeId bindIp port now hS henlist
  have hcases : ∀ m ∈ S'.members, m = m₀ ∨ m ∈ S.members := by
    intro m hm
    by_cases h : m.nodeId = nodeId.strncpy 36
    · have : m ∈ S'.members.filter (·.nodeId = nodeId.strncpy 36) :=
        List.mem_filter.2 ⟨hm, decide_eq_true h⟩
      rw [hone] at this
      exact .inl (List.mem_singleton.1 this)
    · have : m ∈ others S' (nodeId.strncpy 36) := List.mem_filter.2 ⟨hm, by simp [h]⟩
      rw [hkept] at this
      exact .inr (List.mem_filter.1 this).1
  rw [NodeInfo.listing, NodeInfo.listing, Prod.mk.injEq, Prod.mk.injEq, Prod.mk.injEq,
    Prod.mk.injEq, Prod.mk.injEq] at hlisting
  obtain ⟨hnode, haddr, -, -, hrole, hstatus⟩ := hlisting
  refine ⟨fun m hm => ?_, fun m hm => ?_, ?_⟩
  · rcases hcases m hm with rfl | hm
    · refine ⟨?_, ?_, ?_, ?_⟩
      · rw [hnode]
        exact nodeId.length_strncpy_le 36
      · rw [haddr]
        exact bindIp.length_strncpy_le 45
      · rw [hrole]
        show role.code < 65536
        cases role <;> decide
      · rw [hstatus]
        show NodeStatus.alive.code < 65536
        decide
    · exact hS.fits m hm
  · rw [hself]
    rcases hcases m hm with rfl | hm
    · rw [hnode]
      exact hid
    · exact hS.selfAbsent m hm
  · have hlen := S'.members.length_eq_length_filter_add (·.nodeId = nodeId.strncpy 36)
    rw [hone, List.length_singleton] at hlen
    rw [hlen, ← hkept, Nat.add_comm]
    rfl

variable {seedIp : CString} {seedPort : UInt16} {env : SeedEnv}

theorem SeedTable.transferred (hS : SeedTable S) (hid : nodeId.strncpy 36 ≠ S.self.nodeId)
    (hip : seedIp.bytes.length ≤ 45)
    (henlist : enlist S (joinRequest (clusterInit role nodeId bindIp port now)) jenv = some S')
    (hw : env.Works) (hreply : env.reply = joinResponse
      (joinRequestHeader (clusterInit role nodeId bindIp port now)) (buildResponse S' jenv.padding))
    (hcount : (others S (nodeId.strncpy 36)).length + 1 < 2 ^ 32) :
    Transferred S S' (clusterInit role nodeId bindIp port now)
      (clusterJoin (clusterInit role nodeId bindIp port now) seedIp seedPort env).1 seedIp
      seedPort := by
  obtain ⟨hself, hkept, m₀, hone, hlisting⟩ := enlist_joinRequest role nodeId bindIp port now hS henlist
  obtain ⟨hfits, habsent, hlen⟩ := hS.enlisted hid henlist
  have hempty : (clusterInit role nodeId bindIp port now).members = [] := rfl
  have himport := clusterJoin_answerOf hfits (hself ▸ hS.selfId) habsent hempty hw hreply
    (by omega) seedIp seedPort
  have hothers : (S'.members.take (S'.members.length % 2 ^ 32)).filter
      (fun m => !decide (m.nodeId = nodeId.strncpy 36)) = others S (nodeId.strncpy 36) := by
    rw [Nat.mod_eq_of_lt (by omega), List.take_length]
    exact hkept
  have hseed : (seedEntry S'.self.nodeId seedIp seedPort env.now).listing =
      (S.self.nodeId, seedIp, seedPort, seedPort, 0, NodeStatus.alive.code) := by
    rw [NodeInfo.listing, seedEntry, hself, CString.strncpy_of_le hS.selfId,
      CString.strncpy_of_le hip]
  rw [hseed] at himport
  change _ = ((S'.members.take _).filter fun m => !decide (m.nodeId = nodeId.strncpy 36)).map _ ++ _
    at himport
  rw [hothers] at himport
  refine ⟨⟨m₀, hone, hlisting⟩, hkept, ⟨0, NodeStatus.alive.code, himport⟩, fun m hm => ?_⟩
  have hmem := List.mem_map_of_mem (f := NodeInfo.listing) hm
  rw [himport, List.mem_append, List.mem_singleton] at hmem
  rcases hmem with hmem | hmem
  · obtain ⟨n, hn, hnm⟩ := List.mem_map.1 hmem
    have hnid : n.nodeId = m.nodeId := congrArg Prod.fst hnm
    rw [← hnid]
    show n.nodeId ≠ nodeId.strncpy 36
    simpa using (List.mem_filter.1 hn).2
  · have hmid : m.nodeId = S.self.nodeId := congrArg Prod.fst hmem
    rw [hmid]
    exact hid.symm

/-- A larger table is not: the count is cut to 32 bits. -/
theorem SeedTable.not_transferred (hS : SeedTable S) (hid : nodeId.strncpy 36 ≠ S.self.nodeId)
    (henlist : enlist S (joinRequest (clusterInit role nodeId bindIp port now)) jenv = some S')
    (hw : env.Works) (hreply : env.reply = joinResponse
      (joinRequestHeader (clusterInit role nodeId bindIp port now)) (buildResponse S' jenv.padding))
    (hcount : 2 ^ 32 ≤ (others S (nodeId.strncpy 36)).length + 1) :
    ¬ Transferred S S' (clusterInit role nodeId bindIp port now)
      (clusterJoin (clusterInit role nodeId bindIp port now) seedIp seedPort env).1 seedIp
      seedPort := by
  intro ht
  obtain ⟨_, _, himported⟩ := ht.imported
  have hsize := congrArg List.length himported
  rw [List.length_map, List.length_append, List.length_map, List.length_singleton] at hsize
  change _ = (others S (nodeId.strncpy 36)).length + 1 at hsize
  rcases hcount.lt_or_eq with hgt | heq
  · have hle := length_clusterJoin_le (clusterInit role nodeId bindIp port now) seedIp seedPort env
    rw [hsize] at hle
    change _ ≤ 0 + 2 ^ 32 at hle
    omega
  · obtain ⟨hself, -, -⟩ := enlist_joinRequest role nodeId bindIp port now hS henlist
    obtain ⟨hfits, habsent, hlen⟩ := hS.enlisted hid henlist
    have hempty : (clusterInit role nodeId bindIp port now).members = [] := rfl
    have himport := clusterJoin_answerOf hfits (hself ▸ hS.selfId) habsent hempty hw hreply
      (by omega) seedIp seedPort
    rw [hlen, ← heq, Nat.mod_self, List.take_zero, List.filter_nil, List.map_nil,
      List.nil_append] at himport
    have hone := congrArg List.length himport
    rw [List.length_map, List.length_singleton, hsize] at hone
    omega

end

/-- **A join transfers the seed's table** exactly if the seed has fewer than 2^32 members with
the node among them. -/
theorem join_transfers_iff {S : ClusterManager} (hS : SeedTable S) (role : NodeRole)
    (nodeId bindIp : CString) (port : UInt16) (now : UInt64)
    (hid : nodeId.strncpy 36 ≠ S.self.nodeId) {seedIp : CString}
    (hip : seedIp.bytes.length ≤ 45) (seedPort : UInt16) {jenv : JoinEnv}
    (hrealloc : jenv.realloc = true) (hmalloc : jenv.malloc = true) :
    ∃ S' body, clusterHandleJoinReq S (joinRequest (clusterInit role nodeId bindIp port now)) jenv =
      (S', some body) ∧
    ∀ env : SeedEnv, env.Works →
      env.reply = joinResponse (joinRequestHeader (clusterInit role nodeId bindIp port now)) body →
      (Transferred S S' (clusterInit role nodeId bindIp port now)
        (clusterJoin (clusterInit role nodeId bindIp port now) seedIp seedPort env).1 seedIp
        seedPort ↔
      (S.members.filter (fun m => !decide (m.nodeId = nodeId.strncpy 36))).length + 1 < 2 ^ 32) := by
  obtain ⟨S', henlist, hhandle⟩ := clusterHandleJoinReq_some S
    (joinRequest (clusterInit role nodeId bindIp port now)) hrealloc hmalloc
  refine ⟨S', _, hhandle, fun env hw hreply => ⟨fun ht => ?_, fun hcount => ?_⟩⟩
  · by_contra hcount
    exact hS.not_transferred hid henlist hw hreply (Nat.le_of_not_lt hcount) ht
  · exact hS.transferred hid hip henlist hw hreply hcount

/-- An id of 32 bytes that spell the bits of `i`. -/
def numberedId (i : Nat) : CString :=
  ⟨(List.range 32).map fun k => if i.testBit k then 1 else 2, by
    simp only [List.mem_map, not_exists, not_and]
    intro k _
    split <;> decide⟩

theorem numberedId_inj {i j : Nat} (hi : i < 2 ^ 32) (hj : j < 2 ^ 32)
    (h : numberedId i = numberedId j) : i = j := by
  have hbits : ∀ k < 32, i.testBit k = j.testBit k := by
    intro k hk
    have hbytes : (List.range 32).map (fun k => if i.testBit k then (1 : UInt8) else 2) =
        (List.range 32).map fun k => if j.testBit k then 1 else 2 := congrArg CString.bytes h
    have hbyte := List.map_inj_left.1 hbytes k (List.mem_range.2 hk)
    revert hbyte
    cases i.testBit k <;> cases j.testBit k <;> decide
  refine Nat.eq_of_testBit_eq fun k => ?_
  by_cases hk : k < 32
  · exact hbits k hk
  · have hpow : 2 ^ 32 ≤ 2 ^ k := Nat.pow_le_pow_right (by decide) (Nat.le_of_not_lt hk)
    rw [Nat.testBit_lt_two_pow (hi.trans_le hpow), Nat.testBit_lt_two_pow (hj.trans_le hpow)]

def numberedMember (i : Nat) : NodeInfo := ⟨numberedId i, .empty, 0, 0, 0, 0, 0, 0, 0⟩

def crowdedSeed (n : Nat) : ClusterManager where
  self := ⟨⟨[115], by decide⟩, .empty, 7000, 7000, 1, 0, 0, 0, 0⟩
  state := .active
  members := (List.range n).map numberedMember
  memberCapacity := n
  fits := by rw [List.length_map, List.length_range]

theorem length_numberedId (i : Nat) : (numberedId i).bytes.length = 32 := by
  rw [numberedId, List.length_map, List.length_range]

theorem seedTable_crowdedSeed {n : Nat} (hn : n < 2 ^ 32) : SeedTable (crowdedSeed n) where
  distinct := by
    rw [crowdedSeed, List.map_map]
    refine List.Nodup.map_on (fun i hi j hj h => ?_) List.nodup_range
    exact numberedId_inj ((List.mem_range.1 hi).trans hn) ((List.mem_range.1 hj).trans hn) h
  fits m hm := by
    obtain ⟨i, -, rfl⟩ := List.mem_map.1 hm
    have hzero : (0 : UInt32) < 65536 := by decide
    refine ⟨?_, Nat.zero_le _, hzero, hzero⟩
    show (numberedId i).bytes.length ≤ 36
    rw [length_numberedId]
    decide
  selfId := by
    show 1 ≤ 36
    decide
  selfAbsent m hm h := by
    obtain ⟨i, -, rfl⟩ := List.mem_map.1 hm
    have hlen := congrArg (·.bytes.length) h
    change (numberedId i).bytes.length = 1 at hlen
    rw [length_numberedId] at hlen
    cases hlen

def nodeJ : CString := ⟨[106], by decide⟩

theorem others_crowdedSeed (n : Nat) : (others (crowdedSeed n) nodeJ).length = n := by
  have hall : others (crowdedSeed n) nodeJ = (List.range n).map numberedMember := by
    refine List.filter_eq_self.2 fun m hm => ?_
    obtain ⟨i, -, rfl⟩ := List.mem_map.1 hm
    rw [Bool.not_eq_true', decide_eq_false_iff_not]
    intro h
    have hlen := congrArg (·.bytes.length) h
    change (numberedId i).bytes.length = 1 at hlen
    rw [length_numberedId] at hlen
    cases hlen
  rw [hall, List.length_map, List.length_range]

def joinWorks : JoinEnv := ⟨9, true, true, fun _ => (.zero, .zero)⟩

def seedWorks (reply : Bytes) : SeedEnv :=
  ⟨true, true, reply, true, fun _ => true, 5, fun _ => (0, 0)⟩

theorem works_seedWorks (reply : Bytes) : (seedWorks reply).Works := ⟨rfl, rfl, rfl, fun _ => rfl⟩

/-- A seed with three members. -/
theorem join_transfers_three :
    ∃ S' body, clusterHandleJoinReq (crowdedSeed 3)
        (joinRequest (clusterInit .workerNode nodeJ .empty 7001 0)) joinWorks = (S', some body) ∧
      Transferred (crowdedSeed 3) S' (clusterInit .workerNode nodeJ .empty 7001 0)
        (clusterJoin (clusterInit .workerNode nodeJ .empty 7001 0) .empty 7000 (seedWorks
          (joinResponse (joinRequestHeader (clusterInit .workerNode nodeJ .empty 7001 0)) body))).1
        .empty 7000 := by
  have hip : CString.empty.bytes.length ≤ 45 := by decide
  have hrealloc : joinWorks.realloc = true := rfl
  have hmalloc : joinWorks.malloc = true := rfl
  obtain ⟨S', body, h, hiff⟩ := join_transfers_iff (seedTable_crowdedSeed (n := 3) (by decide))
    .workerNode nodeJ .empty 7001 0 (by decide) hip 7000 hrealloc hmalloc
  refine ⟨S', body, h, (hiff _ (works_seedWorks _) rfl).2 ?_⟩
  exact (Nat.add_lt_add_right (Nat.lt_succ_of_le (others_crowdedSeed 3).le) 1).trans (by decide)

/-- A seed with 2^32 - 1 members announces none of the 2^32 it then has. -/
theorem join_drops_members :
    SeedTable (crowdedSeed (2 ^ 32 - 1)) ∧
    ∃ S' body, clusterHandleJoinReq (crowdedSeed (2 ^ 32 - 1))
        (joinRequest (clusterInit .workerNode nodeJ .empty 7001 0)) joinWorks = (S', some body) ∧
      ¬ Transferred (crowdedSeed (2 ^ 32 - 1)) S' (clusterInit .workerNode nodeJ .empty 7001 0)
        (clusterJoin (clusterInit .workerNode nodeJ .empty 7001 0) .empty 7000 (seedWorks
          (joinResponse (joinRequestHeader (clusterInit .workerNode nodeJ .empty 7001 0)) body))).1
        .empty 7000 := by
  have hS := seedTable_crowdedSeed (n := 2 ^ 32 - 1) (by decide)
  have hrealloc : joinWorks.realloc = true := rfl
  have hmalloc : joinWorks.malloc = true := rfl
  obtain ⟨S', henlist, h⟩ := clusterHandleJoinReq_some (crowdedSeed (2 ^ 32 - 1))
    (joinRequest (clusterInit .workerNode nodeJ .empty 7001 0)) hrealloc hmalloc
  refine ⟨hS, S', _, h, hS.not_transferred (by decide) henlist (works_seedWorks _) rfl ?_⟩
  have hcount := others_crowdedSeed (2 ^ 32 - 1)
  have hid : nodeJ.strncpy 36 = nodeJ := by decide
  rw [hid, hcount]
  omega

end DRoole
