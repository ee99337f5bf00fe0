import DRoole.Lib.Keyed
import DRoole.Wire.Codecs

/-!
# The cluster manager

`src/cluster/cluster_manager.c`: the table of members a node keeps, how a JOIN
request enters it, and how a joining node imports the table of its seed. A
stored `char` array is the text it holds; `role` and `status` are the 32-bit
words of the source's enumerations, since what arrives from another node need
not be an enumerator. `member_count` is the length of `members`.

A struct read from or written to a payload is its image in memory
(`JoinRequestPayload`, `JoinResponseHeader`, `NodeInfoImage`); `NodeInfo` is not
packed, and the bytes between its fields are what the allocator left there.

`cluster_name`, `heartbeat_interval_ms` and the log messages are left out.
-/

namespace DRoole

open Lib

/-! ## Data -/

inductive NodeRole where
  | unknown
  | controlNode
  | workerNode
  deriving DecidableEq, Repr

def NodeRole.code : NodeRole → UInt32
  | .unknown => 0
  | .controlNode => 1
  | .workerNode => 2

inductive NodeStatus where
  | alive
  | suspect
  | dead
  deriving DecidableEq, Repr

def NodeStatus.code : NodeStatus → UInt32
  | .alive => 0
  | .suspect => 1
  | .dead => 2

structure NodeInfo where
  nodeId : CString
  ipAddress : CString
  tcpPort : UInt16
  udpPort : UInt16
  role : UInt32
  status : UInt32
  cpuLoad : UInt8
  memLoad : UInt8
  lastUpdatedTs : UInt64
  deriving DecidableEq, Repr

inductive ClusterState where
  | init
  | joining
  | active
  | leaving
  | isolated
  deriving DecidableEq, Repr

/-- The table never holds more than it has room for. -/
structure ClusterManager where
  self : NodeInfo
  state : ClusterState
  members : List NodeInfo
  memberCapacity : Nat
  fits : members.length ≤ memberCapacity
  deriving DecidableEq, Repr

/-! ## The payloads -/

/-- `JoinRequestPayload`, its words as stored, in network order. -/
structure JoinRequestPayload where
  nodeId : Chars 37
  ipAddress : Chars 46
  tcpPort : UInt16
  udpPort : UInt16
  role : UInt16
  deriving DecidableEq, Repr

def JoinRequestPayload.equiv :
    Chars 37 × Chars 46 × UInt16 × UInt16 × UInt16 ≃ JoinRequestPayload where
  toFun := fun (nodeId, ipAddress, tcpPort, udpPort, role) =>
    ⟨nodeId, ipAddress, tcpPort, udpPort, role⟩
  invFun r := (r.nodeId, r.ipAddress, r.tcpPort, r.udpPort, r.role)

def JoinRequestPayload.raw : Codec JoinRequestPayload :=
  ((Codec.chars 37).pair <| (Codec.chars 46).pair <| Codec.word.pair <| Codec.word.pair
    Codec.word).iso JoinRequestPayload.equiv

/-- The string at `req->node_id`: without a NUL in the field it runs on into the next ones. -/
def JoinRequestPayload.idText (req : JoinRequestPayload) : CString :=
  CString.ofField (JoinRequestPayload.raw.put req)

/-- `JoinResponseHeader`, its words as stored. -/
structure JoinResponseHeader where
  status : UInt32
  memberCount : UInt32
  responderId : Chars 37
  deriving DecidableEq, Repr

def JoinResponseHeader.equiv : UInt32 × UInt32 × Chars 37 ≃ JoinResponseHeader where
  toFun := fun (status, memberCount, responderId) => ⟨status, memberCount, responderId⟩
  invFun h := (h.status, h.memberCount, h.responderId)

def JoinResponseHeader.raw : Codec JoinResponseHeader :=
  (Codec.word.pair <| Codec.word.pair (Codec.chars 37)).iso JoinResponseHeader.equiv

/-- A `NodeInfo` in memory: 112 bytes with one byte of padding before the ports
and six before the timestamp. -/
structure NodeInfoImage where
  nodeId : Chars 37
  ipAddress : Chars 46
  portPad : Chars 1
  tcpPort : UInt16
  udpPort : UInt16
  role : UInt32
  status : UInt32
  cpuLoad : UInt8
  memLoad : UInt8
  tsPad : Chars 6
  lastUpdatedTs : UInt64
  deriving DecidableEq, Repr

def NodeInfoImage.equiv :
    Chars 37 × Chars 46 × Chars 1 × UInt16 × UInt16 × UInt32 × UInt32 × UInt8 × UInt8 × Chars 6 ×
      UInt64 ≃ NodeInfoImage where
  toFun := fun (nodeId, ipAddress, portPad, tcpPort, udpPort, role, status, cpuLoad, memLoad,
      tsPad, lastUpdatedTs) =>
    ⟨nodeId, ipAddress, portPad, tcpPort, udpPort, role, status, cpuLoad, memLoad, tsPad,
      lastUpdatedTs⟩
  invFun n := (n.nodeId, n.ipAddress, n.portPad, n.tcpPort, n.udpPort, n.role, n.status, n.cpuLoad,
    n.memLoad, n.tsPad, n.lastUpdatedTs)

def NodeInfoImage.raw : Codec NodeInfoImage :=
  ((Codec.chars 37).pair <| (Codec.chars 46).pair <| (Codec.chars 1).pair <| Codec.word.pair <|
    Codec.word.pair <| Codec.word.pair <| Codec.word.pair <| Codec.word.pair <| Codec.word.pair <|
    (Codec.chars 6).pair Codec.word).iso NodeInfoImage.equiv

theorem JoinResponseHeader.raw_width : JoinResponseHeader.raw.width = 45 := rfl

theorem NodeInfoImage.raw_width : NodeInfoImage.raw.width = 112 := rfl

/-! ## The table -/

def clusterInit (role : NodeRole) (nodeId bindIp : CString) (port : UInt16) (now : UInt64) :
    ClusterManager :=
  { self :=
      { nodeId := nodeId.strncpy 36
        ipAddress := bindIp.strncpy 45
        tcpPort := port
        udpPort := port
        role := role.code
        status := NodeStatus.alive.code
        cpuLoad := 0
        memLoad := 0
        lastUpdatedTs := now }
    state := .init
    members := []
    memberCapacity := 0
    fits := Nat.le_refl 0 }

/-- `ensure_capacity`; `realloc` is whether the allocation succeeds. -/
def ensureCapacity (cm : ClusterManager) (realloc : Bool) : ClusterManager :=
  if cm.members.length < cm.memberCapacity then cm
  else if realloc then
    { cm with
      memberCapacity := if cm.memberCapacity ≠ 0 then cm.memberCapacity * 2 else 8
      fits := by have := cm.fits; split <;> omega }
  else cm

/-- The step all three writers make: `ensure_capacity`, then the entry goes into
the next slot unless there is none. -/
def addMember (cm : ClusterManager) (realloc : Bool) (m : NodeInfo) : Option ClusterManager :=
  let cm := ensureCapacity cm realloc
  if hroom : cm.members.length < cm.memberCapacity then
    some { cm with
      members := cm.members ++ [m]
      fits := by rw [List.length_append]; exact hroom }
  else none

def updateMember (cm : ClusterManager) (nodeId : CString) (f : NodeInfo → NodeInfo) :
    ClusterManager :=
  { cm with
    members := modifyFirst (·.nodeId = nodeId) f cm.members
    fits := by rw [length_modifyFirst]; exact cm.fits }

/-- `cluster_update_member_status` at monotonic time `now`, with its return code. -/
def clusterUpdateMemberStatus (cm : ClusterManager) (nodeId : CString) (status : NodeStatus)
    (now : UInt64) : ClusterManager × Int :=
  if cm.members.any (·.nodeId = nodeId) then
    (updateMember cm nodeId fun m => { m with status := status.code, lastUpdatedTs := now }, 1)
  else (cm, 0)

theorem ensureCapacity_frame (cm : ClusterManager) (realloc : Bool) :
    let cm' := ensureCapacity cm realloc
    cm'.members = cm.members ∧ cm'.self = cm.self ∧ cm'.state = cm.state := by
  unfold ensureCapacity
  dsimp only
  split
  · exact ⟨rfl, rfl, rfl⟩
  split
  · exact ⟨rfl, rfl, rfl⟩
  · exact ⟨rfl, rfl, rfl⟩

theorem ensureCapacity_room (cm : ClusterManager) :
    (ensureCapacity cm true).members.length < (ensureCapacity cm true).memberCapacity := by
  have hfits := cm.fits
  unfold ensureCapacity
  split
  · assumption
  rw [if_pos rfl]
  dsimp only
  split
  · omega
  · omega

theorem addMember_cases (cm : ClusterManager) (realloc : Bool) (m : NodeInfo) :
    (addMember cm realloc m = none ∧ realloc = false) ∨
      ∃ cm', addMember cm realloc m = some cm' ∧ cm'.members = cm.members ++ [m] ∧
        cm'.self = cm.self ∧ cm'.state = cm.state := by
  obtain ⟨hmem, hself, hstate⟩ := ensureCapacity_frame cm realloc
  unfold addMember
  dsimp only
  split
  · refine .inr ⟨_, rfl, ?_, hself, hstate⟩
    show (ensureCapacity cm realloc).members ++ [m] = _
    rw [hmem]
  · rename_i hfull
    refine .inl ⟨rfl, Bool.eq_false_iff.2 fun hr => ?_⟩
    rw [hr] at hfull
    exact hfull (ensureCapacity_room cm)

/-! ## A JOIN request -/

/-- What `cluster_handle_join_req` takes from outside: `time(NULL)`, the two
allocations, and the padding of each entry of the response. -/
structure JoinEnv where
  wall : UInt64
  realloc : Bool
  malloc : Bool
  padding : Nat → Chars 1 × Chars 6

def rejoin (req : JoinRequestPayload) (wall : UInt64) (m : NodeInfo) : NodeInfo :=
  { m with
    ipAddress := req.ipAddress.text.strncpy 45
    tcpPort := ntohs req.tcpPort
    udpPort := ntohs req.udpPort
    role := (ntohs req.role).toUInt32
    status := NodeStatus.alive.code
    lastUpdatedTs := wall }

def newMember (req : JoinRequestPayload) (wall : UInt64) : NodeInfo :=
  { nodeId := req.idText.strncpy 36
    ipAddress := req.ipAddress.text.strncpy 45
    tcpPort := ntohs req.tcpPort
    udpPort := ntohs req.udpPort
    role := (ntohs req.role).toUInt32
    status := NodeStatus.alive.code
    cpuLoad := 0
    memLoad := 0
    lastUpdatedTs := wall }

/-- `cluster_handle_join_req` up to `build_response`; `none` if the table is full. -/
def enlist (cm : ClusterManager) (req : JoinRequestPayload) (env : JoinEnv) :
    Option ClusterManager :=
  if cm.members.any (·.nodeId = req.idText) then
    some (updateMember cm req.idText (rejoin req env.wall))
  else addMember cm env.realloc (newMember req env.wall)

/-- An entry of the response. The 16-bit swap is applied to the 32-bit `role` and `status`. -/
def NodeInfo.image (m : NodeInfo) (padding : Chars 1 × Chars 6) : NodeInfoImage :=
  { nodeId := .ofCString m.nodeId
    ipAddress := .ofCString m.ipAddress
    portPad := padding.1
    tcpPort := htons m.tcpPort
    udpPort := htons m.udpPort
    role := (htons m.role.toUInt16).toUInt32
    status := (htons m.status.toUInt16).toUInt32
    cpuLoad := m.cpuLoad
    memLoad := m.memLoad
    tsPad := padding.2
    lastUpdatedTs := htobe64 m.lastUpdatedTs }

/-- The header of the response; `member_count` goes through a 32-bit `htonl`. -/
def joinResponseHeader (cm : ClusterManager) : JoinResponseHeader :=
  { status := 0
    memberCount := htonl (UInt32.ofNat cm.members.length)
    responderId := .ofCString (cm.self.nodeId.strncpy 36) }

def buildResponse (cm : ClusterManager) (padding : Nat → Chars 1 × Chars 6) : Bytes :=
  JoinResponseHeader.raw.put (joinResponseHeader cm) ++
    (cm.members.mapIdx fun i m => NodeInfoImage.raw.put (m.image (padding i))).flatten

/-- `cluster_handle_join_req`: the table it leaves, and the payload if it returns 0. -/
def clusterHandleJoinReq (cm : ClusterManager) (req : JoinRequestPayload) (env : JoinEnv) :
    ClusterManager × Option Bytes :=
  match enlist cm req env with
  | none => (cm, none)
  | some cm => (cm, if env.malloc then some (buildResponse cm env.padding) else none)

theorem clusterHandleJoinReq_some (cm : ClusterManager) (req : JoinRequestPayload) {env : JoinEnv}
    (hr : env.realloc = true) (hm : env.malloc = true) :
    ∃ cm', enlist cm req env = some cm' ∧
      clusterHandleJoinReq cm req env = (cm', some (buildResponse cm' env.padding)) := by
  have henlist : ∃ cm', enlist cm req env = some cm' := by
    unfold enlist
    split
    · exact ⟨_, rfl⟩
    · rcases addMember_cases cm env.realloc (newMember req env.wall) with ⟨-, hf⟩ | ⟨cm', e, -⟩
      · rw [hr] at hf
        cases hf
      · exact ⟨cm', e⟩
  obtain ⟨cm', e⟩ := henlist
  exact ⟨cm', e, by rw [clusterHandleJoinReq, e, hm]; rfl⟩

/-! ## Joining a cluster -/

def rpcCmdJoinReq : UInt16 := 0x01
def rpcCmdJoinResp : UInt16 := 0x02
def rpcCmdLeave : UInt16 := 0x03
def rpcCmdSyncRules : UInt16 := 0x10

def joinRequest (cm : ClusterManager) : JoinRequestPayload :=
  { nodeId := .ofCString (cm.self.nodeId.strncpy 36)
    ipAddress := .ofCString (cm.self.ipAddress.strncpy 45)
    tcpPort := htons cm.self.tcpPort
    udpPort := htons cm.self.udpPort
    role := htons cm.self.role.toUInt16 }

def joinRequestHeader (cm : ClusterManager) : RpcHeader :=
  { magic := rpcMagic
    version := 1
    commandType := rpcCmdJoinReq
    payloadLen := 89
    originId := .ofCString (cm.self.nodeId.strncpy 36)
    requestId := .zero }

/-- Where `cluster_join` may have to grow the table: for an imported entry, at the length the table
has then, and for the seed's own entry. -/
inductive Growth where
  | entry (length : Nat)
  | seed

/-- What `cluster_join` takes from outside: the outcome of the connection and of
the sends, the bytes the seed answers with, the allocation of the payload buffer
and of the table at each place, the clock, and the loads that the slot of a
table entry holds before it is filled. -/
structure SeedEnv where
  connect : Bool
  send : Bool
  reply : Bytes
  malloc : Bool
  realloc : Growth → Bool
  now : UInt64
  loads : Nat → UInt8 × UInt8

/-- The string at `src->node_id` of an entry of the response. -/
def NodeInfoImage.idText (src : NodeInfoImage) : CString :=
  CString.ofField (NodeInfoImage.raw.put src)

/-- An entry as it is imported; `cpu_load` and `mem_load` are not copied. -/
def NodeInfoImage.imported (src : NodeInfoImage) (now : UInt64) (loads : UInt8 × UInt8) :
    NodeInfo :=
  { nodeId := src.nodeId.text
    ipAddress := src.ipAddress.text
    tcpPort := ntohs src.tcpPort
    udpPort := ntohs src.udpPort
    role := (ntohs src.role.toUInt16).toUInt32
    status := (ntohs src.status.toUInt16).toUInt32
    cpuLoad := loads.1
    memLoad := loads.2
    lastUpdatedTs := now }

def importMembers (env : SeedEnv) : ClusterManager → List NodeInfoImage → ClusterManager
  | cm, [] => cm
  | cm, src :: nodes =>
    if src.idText = cm.self.nodeId then importMembers env cm nodes
    else
      let entry := src.imported env.now (env.loads cm.members.length)
      match addMember cm (env.realloc (.entry cm.members.length)) entry with
      | none => cm
      | some cm => importMembers env cm nodes

/-- The entry `cluster_join` adds for the seed itself. -/
def seedEntry (seedId seedIp : CString) (seedPort : UInt16) (now : UInt64) : NodeInfo :=
  { nodeId := seedId.strncpy 36
    ipAddress := seedIp.strncpy 45
    tcpPort := seedPort
    udpPort := seedPort
    role := 0
    status := NodeStatus.alive.code
    cpuLoad := 0
    memLoad := 0
    lastUpdatedTs := now }

/-- "Explicitly ensure the Seed is in the list with its real ID". -/
def ensureSeed (env : SeedEnv) (seedId seedIp : CString) (seedPort : UInt16)
    (cm : ClusterManager) : ClusterManager :=
  if cm.members.any (·.nodeId = seedId) then cm
  else
    let entry := seedEntry seedId seedIp seedPort env.now
    (addMember cm (env.realloc .seed) entry).getD cm

/-- The entries of a payload that announces `n` of them. -/
def responseNodes (payload : Bytes) (n : Nat) : List NodeInfoImage :=
  NodeInfoImage.raw.readMany n (payload.drop 45)

/-- Steps 5 to 7 of `cluster_join`: what the payload of the response does to the table. -/
def importResponse (env : SeedEnv) (seedIp : CString) (seedPort : UInt16) (payload : Bytes)
    (cm : ClusterManager) : ClusterManager :=
  let resp := JoinResponseHeader.raw.read payload
  let nodes := responseNodes payload (ntohl resp.memberCount).toNat
  ensureSeed env (resp.responderId.text.strncpy 36) seedIp seedPort (importMembers env cm nodes)

def ClusterManager.activate (cm : ClusterManager) : ClusterManager := { cm with state := .active }

@[simp] theorem ClusterManager.activate_members (cm : ClusterManager) :
    cm.activate.members = cm.members := rfl

/-- `cluster_join` from the header of the response on; `rest` is what follows the header. -/
def receiveResponse (cm : ClusterManager) (seedIp : CString) (seedPort : UInt16) (env : SeedEnv)
    (hdr : RpcHeader) (rest : Bytes) : ClusterManager × Int :=
  if hdr.magic ≠ rpcMagic ∨ hdr.commandType ≠ rpcCmdJoinResp then (cm, -1)
  else if hdr.payloadLen > 0 then
    if !env.malloc then (cm, -1)
    else match readN hdr.payloadLen.toNat rest with
      | none => (cm, -1)
      | some (payload, _) =>
        ((importResponse env seedIp seedPort payload cm).activate, 0)
  else (cm.activate, 0)

def clusterJoin (cm : ClusterManager) (seedIp : CString) (seedPort : UInt16) (env : SeedEnv) :
    ClusterManager × Int :=
  if !env.connect || !env.send then (cm, -1)
  else match readN 90 env.reply with
    | none => (cm, -1)
    | some (hbuf, rest) => receiveResponse cm seedIp seedPort env (serializerUnpackRpc hbuf) rest

end DRoole
