import DRoole.Members.Import

/-!
# The payload of a JOIN response

`cluster_join` takes `member_count` from the payload and walks as many entries
behind the response header. It does not compare the two with `payload_len`, so
the walk stays within the buffer only if the response is as long as it says.

`clusterJoinMem` computes what `clusterJoin` computes and lists the reads of the
payload. After the first read beyond the buffer the list says nothing: the
values found there are not those of the model.
-/

namespace DRoole

open Lib

/-- A read of `len` bytes of the payload. -/
structure PayloadRead where
  offset : Nat
  len : Nat
  deriving DecidableEq, Repr

/-- The bytes of its first argument that `strcmp` looks at: up to the first one
that ends the string or differs. -/
def strcmpReads : Bytes → Bytes → Nat
  | b :: bs, c :: s => if b = 0 ∨ b ≠ c then 1 else strcmpReads bs s + 1
  | _, _ => 1

/-- The bytes that `strncpy` looks at. -/
def strncpyReads (n : Nat) (bs : Bytes) : Nat := min n ((bs.takeWhile (· ≠ 0)).length + 1)

/-- The fields of an entry that are copied: `node_id`, `ip_address`, the ports,
`role` and `status`. -/
def copyReads (offset : Nat) : List PayloadRead :=
  [⟨offset, 37⟩, ⟨offset + 37, 46⟩, ⟨offset + 84, 2⟩, ⟨offset + 86, 2⟩, ⟨offset + 88, 4⟩,
    ⟨offset + 92, 4⟩]

def importMembersMem (env : SeedEnv) :
    ClusterManager → Nat → List NodeInfoImage → List PayloadRead × ClusterManager
  | cm, _, [] => ([], cm)
  | cm, offset, src :: nodes =>
    let compared : PayloadRead :=
      ⟨offset, strcmpReads (NodeInfoImage.raw.put src) cm.self.nodeId.bytes⟩
    if src.idText = cm.self.nodeId then
      let r := importMembersMem env cm (offset + 112) nodes
      (compared :: r.1, r.2)
    else
      let entry := src.imported env.now (env.loads cm.members.length)
      match addMember cm (env.realloc (.entry cm.members.length)) entry with
      | none => ([compared], cm)
      | some cm =>
        let r := importMembersMem env cm (offset + 112) nodes
        (compared :: (copyReads offset ++ r.1), r.2)

/-- Steps 5 to 7: `member_count` and `responder_id` are read before the entries. -/
def importResponseMem (env : SeedEnv) (seedIp : CString) (seedPort : UInt16) (payload : Bytes)
    (cm : ClusterManager) : List PayloadRead × ClusterManager :=
  let resp := JoinResponseHeader.raw.read payload
  let nodes := responseNodes payload (ntohl resp.memberCount).toNat
  let r := importMembersMem env cm 45 nodes
  (⟨4, 4⟩ :: ⟨8, strncpyReads 36 resp.responderId.bytes⟩ :: r.1,
    ensureSeed env (resp.responderId.text.strncpy 36) seedIp seedPort r.2)

def receiveResponseMem (cm : ClusterManager) (seedIp : CString) (seedPort : UInt16) (env : SeedEnv)
    (hdr : RpcHeader) (rest : Bytes) : List PayloadRead × ClusterManager × Int :=
  if hdr.magic ≠ rpcMagic ∨ hdr.commandType ≠ rpcCmdJoinResp then ([], cm, -1)
  else if hdr.payloadLen > 0 then
    if !env.malloc then ([], cm, -1)
    else match readN hdr.payloadLen.toNat rest with
      | none => ([], cm, -1)
      | some (payload, _) =>
        let r := importResponseMem env seedIp seedPort payload cm
        (r.1, r.2.activate, 0)
  else ([], cm.activate, 0)

def clusterJoinMem (cm : ClusterManager) (seedIp : CString) (seedPort : UInt16) (env : SeedEnv) :
    List PayloadRead × ClusterManager × Int :=
  if !env.connect || !env.send then ([], cm, -1)
  else match readN 90 env.reply with
    | none => ([], cm, -1)
    | some (hbuf, rest) => receiveResponseMem cm seedIp seedPort env (serializerUnpackRpc hbuf) rest

/-! ## The reads change nothing -/

theorem importMembersMem_snd (env : SeedEnv) (cm : ClusterManager) (offset : Nat)
    (nodes : List NodeInfoImage) :
    (importMembersMem env cm offset nodes).2 = importMembers env cm nodes := by
  induction nodes generalizing cm offset with
  | nil => rfl
  | cons src nodes ih =>
    rw [importMembersMem, importMembers]
    dsimp only
    split
    · exact ih cm _
    · cases addMember cm (env.realloc (.entry cm.members.length))
          (src.imported env.now (env.loads cm.members.length)) with
      | none => rfl
      | some cm' => exact ih cm' _

theorem receiveResponseMem_snd (cm : ClusterManager) (seedIp : CString) (seedPort : UInt16)
    (env : SeedEnv) (hdr : RpcHeader) (rest : Bytes) :
    (receiveResponseMem cm seedIp seedPort env hdr rest).2 =
      receiveResponse cm seedIp seedPort env hdr rest := by
  unfold receiveResponseMem receiveResponse importResponseMem importResponse
  simp only [importMembersMem_snd, apply_ite Prod.snd]
  cases readN hdr.payloadLen.toNat rest with
  | none => rfl
  | some p => rfl

theorem clusterJoinMem_snd (cm : ClusterManager) (seedIp : CString) (seedPort : UInt16)
    (env : SeedEnv) :
    (clusterJoinMem cm seedIp seedPort env).2 = clusterJoin cm seedIp seedPort env := by
  unfold clusterJoinMem clusterJoin
  split
  · rfl
  · cases readN 90 env.reply with
    | none => rfl
    | some p => exact receiveResponseMem_snd ..

/-! ## Where the reads are -/

theorem strcmpReads_le (bs s : Bytes) : strcmpReads bs s ≤ s.length + 1 := by
  induction bs generalizing s with
  | nil => exact Nat.le_add_left 1 s.length
  | cons b bs ih =>
    cases s with
    | nil => exact Nat.le_add_left 1 0
    | cons c s =>
      rw [strcmpReads, List.length_cons]
      split
      · exact Nat.le_add_left ..
      · exact Nat.succ_le_succ (ih s)

theorem mem_copyReads {a : PayloadRead} {offset : Nat} (ha : a ∈ copyReads offset) :
    a.offset + a.len ≤ offset + 112 := by
  simp only [copyReads, List.mem_cons, List.not_mem_nil, or_false] at ha
  rcases ha with rfl | rfl | rfl | rfl | rfl | rfl
  all_goals
    dsimp only
    omega

/-- **The walk** stays within the entries it is given. -/
theorem importMembersMem_within (env : SeedEnv) {cm : ClusterManager}
    (hself : cm.self.nodeId.bytes.length ≤ 36) (offset : Nat) (nodes : List NodeInfoImage) :
    ∀ a ∈ (importMembersMem env cm offset nodes).1,
      a.offset + a.len ≤ offset + 112 * nodes.length := by
  induction nodes generalizing cm offset with
  | nil => exact fun a ha => absurd ha List.not_mem_nil
  | cons src nodes ih =>
    have hcompared := strcmpReads_le (NodeInfoImage.raw.put src) cm.self.nodeId.bytes
    have hnext : ∀ {cm' : ClusterManager}, cm'.self = cm.self →
        ∀ a ∈ (importMembersMem env cm' (offset + 112) nodes).1,
          a.offset + a.len ≤ offset + 112 * (nodes.length + 1) := fun hs a ha => by
      have := ih (by rw [hs]; exact hself) (offset + 112) a ha
      omega
    rw [importMembersMem, List.length_cons]
    dsimp only
    split
    · intro a ha
      rcases List.mem_cons.1 ha with rfl | ha
      · dsimp only
        omega
      · exact hnext rfl a ha
    · rcases addMember_cases cm (env.realloc (.entry cm.members.length))
        (src.imported env.now (env.loads cm.members.length)) with ⟨e, -⟩ | ⟨cm', e, -, hs, -⟩
      · rw [e]
        intro a ha
        cases List.mem_singleton.1 ha
        dsimp only
        omega
      · rw [e]
        intro a ha
        rcases List.mem_cons.1 ha with rfl | ha
        · dsimp only
          omega
        rcases List.mem_append.1 ha with ha | ha
        · have := mem_copyReads ha
          omega
        · exact hnext hs a ha

/-- The length of a response that is complete: the header and the entries it announces. -/
def announcedSize (payload : Bytes) : Nat :=
  45 + 112 * (ntohl (JoinResponseHeader.raw.read payload).memberCount).toNat

theorem importResponseMem_within (env : SeedEnv) (seedIp : CString) (seedPort : UInt16)
    {payload : Bytes} {cm : ClusterManager} (hself : cm.self.nodeId.bytes.length ≤ 36)
    (hsize : announcedSize payload ≤ payload.length) :
    ∀ a ∈ (importResponseMem env seedIp seedPort payload cm).1,
      a.offset + a.len ≤ payload.length := by
  unfold announcedSize at hsize
  unfold importResponseMem
  generalize JoinResponseHeader.raw.read payload = resp at hsize
  intro a ha
  rcases List.mem_cons.1 ha with rfl | ha
  · dsimp only
    omega
  rcases List.mem_cons.1 ha with rfl | ha
  · have hid : strncpyReads 36 resp.responderId.bytes ≤ 36 := Nat.min_le_left ..
    dsimp only
    omega
  have hwithin := importMembersMem_within env hself 45 _ a ha
  have hcount : (responseNodes payload (ntohl resp.memberCount).toNat).length =
      (ntohl resp.memberCount).toNat := by
    rw [responseNodes, Codec.readMany, List.length_map, List.length_range]
  rw [hcount] at hwithin
  exact hwithin.trans hsize

/-! ## The bound -/

/-- The reads stay within the payload, and a payload that is too short is refused. -/
def RespectsPayload (cm : ClusterManager) (payload : Bytes)
    (r : List PayloadRead × ClusterManager × Int) : Prop :=
  (∀ a ∈ r.1, a.offset + a.len ≤ payload.length) ∧
    (payload.length < announcedSize payload → r.2.2 = -1 ∧ r.2.1.members = cm.members)

theorem respectsPayload_refused (cm : ClusterManager) (payload : Bytes) :
    RespectsPayload cm payload ([], cm, -1) :=
  ⟨fun _ ha => absurd ha List.not_mem_nil, fun _ => ⟨rfl, rfl⟩⟩

theorem respectsPayload_accepted {cm cm' : ClusterManager} {payload : Bytes}
    {reads : List PayloadRead}
    (hreads : announcedSize payload ≤ payload.length →
      ∀ a ∈ reads, a.offset + a.len ≤ payload.length) :
    RespectsPayload cm payload (reads, cm', 0) ↔ announcedSize payload ≤ payload.length := by
  refine ⟨fun ⟨_, hrefused⟩ => ?_, fun hsize => ⟨hreads hsize, fun hshort => ?_⟩⟩
  · by_contra hshort
    exact absurd (hrefused (Nat.lt_of_not_le hshort)).1 (show (0 : Int) ≠ -1 by decide)
  · exact absurd hsize (Nat.not_le.2 hshort)

theorem respectsPayload_receiveResponseMem {cm : ClusterManager}
    (hself : cm.self.nodeId.bytes.length ≤ 36) (seedIp : CString) (seedPort : UInt16) (env : SeedEnv)
    {hdr : RpcHeader} (hcmd : hdr.commandType = rpcCmdJoinResp) {payload : Bytes}
    (hlen : payload.length = hdr.payloadLen.toNat) (rest : Bytes) :
    RespectsPayload cm payload
        (receiveResponseMem cm seedIp seedPort env hdr (payload ++ rest)) ↔
      hdr.magic ≠ rpcMagic ∨ (payload ≠ [] ∧ env.malloc = false) ∨
        announcedSize payload ≤ payload.length := by
  unfold receiveResponseMem
  by_cases hmagic : hdr.magic = rpcMagic
  · rw [if_neg (fun h => h.elim (fun h => h hmagic) fun h => h hcmd)]
    by_cases hzero : hdr.payloadLen > 0
    · have hne : payload ≠ [] := by
        have hpos : 0 < hdr.payloadLen.toNat := UInt64.lt_iff_toNat_lt.1 hzero
        exact List.length_pos_iff.1 (hlen ▸ hpos)
      rw [if_pos hzero]
      cases hmalloc : env.malloc with
      | false =>
        exact iff_of_true (respectsPayload_refused cm payload) (.inr (.inl ⟨hne, rfl⟩))
      | true =>
        rw [readN_append hlen]
        refine (respectsPayload_accepted (importResponseMem_within env seedIp seedPort hself)).trans
          ⟨fun h => .inr (.inr h), ?_⟩
        rintro (h | ⟨-, h⟩ | h)
        · exact absurd hmagic h
        · cases h
        · exact h
    · have hnil : payload = [] := by
        have hle := UInt64.le_iff_toNat_le.1 (UInt64.not_lt.1 hzero)
        exact List.length_eq_zero_iff.1 (hlen.trans (Nat.le_zero.1 hle))
      rw [if_neg hzero]
      refine (respectsPayload_accepted fun _ _ ha => absurd ha List.not_mem_nil).trans
        ⟨fun h => .inr (.inr h), ?_⟩
      rintro (h | ⟨h, -⟩ | h)
      · exact absurd hmagic h
      · exact absurd hnil h
      · exact h
  · rw [if_pos (.inl hmagic)]
    exact iff_of_true (respectsPayload_refused cm payload) (.inl hmagic)

/-- **The import stays within the payload**, and refuses one that is too short, exactly
if `cluster_join` fails before the import or the payload is as long as it says. -/
theorem join_response_bounded_iff (cm : ClusterManager)
    (hself : cm.self.nodeId.bytes.length ≤ 36) (seedIp : CString) (seedPort : UInt16) (env : SeedEnv)
    (hdr : RpcHeader) (hcmd : hdr.commandType = rpcCmdJoinResp) (payload rest : Bytes)
    (hlen : payload.length = hdr.payloadLen.toNat)
    (hreply : env.reply = serializerPackRpc hdr ++ (payload ++ rest)) :
    (clusterJoinMem cm seedIp seedPort env).2 = clusterJoin cm seedIp seedPort env ∧
    (RespectsPayload cm payload (clusterJoinMem cm seedIp seedPort env) ↔
      env.connect = false ∨ env.send = false ∨ hdr.magic ≠ rpcMagic ∨
        (payload ≠ [] ∧ env.malloc = false) ∨ announcedSize payload ≤ payload.length) := by
  refine ⟨clusterJoinMem_snd cm seedIp seedPort env, ?_⟩
  have hunpack := serializerRpc_bijection.unpack_pack hdr
  unfold clusterJoinMem
  rw [hreply, readN_append (length_serializerPackRpc hdr)]
  dsimp only
  rw [hunpack]
  cases hconnect : env.connect with
  | false => exact iff_of_true (respectsPayload_refused cm payload) (.inl rfl)
  | true =>
    cases hsend : env.send with
    | false => exact iff_of_true (respectsPayload_refused cm payload) (.inr (.inl rfl))
    | true =>
      simp only [Bool.not_true, Bool.or_self, Bool.false_eq_true, if_false, reduceCtorEq, false_or]
      exact respectsPayload_receiveResponseMem hself seedIp seedPort env hcmd hlen rest

def newcomer : ClusterManager := clusterInit .workerNode (.ofField [97]) (.ofField [50]) 7001 0

/-- A seed that announces one entry, and what it sends behind the response header. -/
def oneAnnounced (entries : Bytes) : Bytes := JoinResponseHeader.raw.put ⟨0, htonl 1, .zero⟩ ++ entries

def joinAnswered (n : UInt64) (payload : Bytes) : SeedEnv :=
  { connect := true
    send := true
    reply := serializerPackRpc ⟨rpcMagic, 1, rpcCmdJoinResp, n, .zero, .zero⟩ ++ (payload ++ [])
    malloc := true
    realloc := fun _ => true
    now := 5
    loads := fun _ => (0, 0) }

theorem join_response_bounded_one :
    let payload := oneAnnounced (List.replicate 112 1)
    RespectsPayload newcomer payload
      (clusterJoinMem newcomer ⟨[49], by decide⟩ 7000 (joinAnswered 157 payload)) :=
  (join_response_bounded_iff newcomer (by decide) _ 7000 (joinAnswered 157 _)
    ⟨rpcMagic, 1, rpcCmdJoinResp, 157, .zero, .zero⟩ rfl (oneAnnounced (List.replicate 112 1)) []
    (by decide +kernel) rfl).2.2 (by decide +kernel)

/-- The entry is missing: it is read behind the end of the payload. -/
theorem announced_entry_missing :
    let payload := oneAnnounced []
    payload.length = 45 ∧ ¬ RespectsPayload newcomer payload
      (clusterJoinMem newcomer ⟨[49], by decide⟩ 7000 (joinAnswered 45 payload)) := by
  refine ⟨by decide +kernel, fun h => ?_⟩
  have hread : (⟨45, 1⟩ : PayloadRead) ∈
      (clusterJoinMem newcomer ⟨[49], by decide⟩ 7000 (joinAnswered 45 (oneAnnounced []))).1 := by
    decide +kernel
  exact absurd (h.1 _ hread) (by decide +kernel)

end DRoole
