import DRoole.Members.Detector
import DRoole.Rpc.Session

/-!
# Leaving

A node gossips over UDP and leaves over TCP. `LeaveNet` is the node, the packets it
has sent, its LEAVE requests in flight, and a receiver. A packet can arrive late, out
of order or several times, so it stays in the network when it is received; a LEAVE
arrives once. The receiver does not look at the sequence number of a packet, so a
packet that was sent before the LEAVE and arrives after it revives the node.
-/

namespace DRoole

open Lib

/-! ## Status of a node -/

def statusOf (cm : ClusterManager) (nodeId : CString) : Option UInt32 :=
  (cm.members.find? (·.nodeId = nodeId)).map (·.status)

theorem statusOf_clusterUpdateMemberStatus (cm : ClusterManager) (nodeId : CString)
    (status : NodeStatus) (now : UInt64) :
    statusOf (clusterUpdateMemberStatus cm nodeId status now).1 nodeId =
      (statusOf cm nodeId).map fun _ => status.code := by
  unfold clusterUpdateMemberStatus
  split
  · have hfind : (updateMember cm nodeId fun m =>
        { m with status := status.code, lastUpdatedTs := now }).members.find? (·.nodeId = nodeId) =
        (cm.members.find? (·.nodeId = nodeId)).map fun m =>
          { m with status := status.code, lastUpdatedTs := now } := by
      refine find?_modifyFirst ?_ _
      exact fun _ => rfl
    rw [statusOf, hfind, statusOf, Option.map_map, Option.map_map]
    rfl
  · rename_i hnone
    have hfind : cm.members.find? (·.nodeId = nodeId) = none := by
      rw [List.find?_eq_none]
      simpa using hnone
    rw [statusOf, hfind]
    rfl

theorem statusOf_clusterReaperTick (cm : ClusterManager) (now : UInt64) (nodeId : CString) :
    statusOf (clusterReaperTick cm now) nodeId =
      (cm.members.find? (·.nodeId = nodeId)).map fun m =>
        (reapMember cm.self.nodeId now m).status := by
  have hkey : (fun m : NodeInfo => decide (m.nodeId = nodeId)) ∘ reapMember cm.self.nodeId now =
      fun m => decide (m.nodeId = nodeId) := by
    funext m
    rw [Function.comp_apply, (reapMember_frame _ _ m).1]
  rw [statusOf, clusterReaperTick, List.find?_map, hkey, Option.map_map]
  rfl

/-! ## Messages -/

def heartbeatPacket (self : CString) (mono : UInt64) : GossipPacket :=
  { magic := gossipMagic
    type := 1
    sequence := mono.toUInt32
    nodeId := .ofCString (self.strncpy 36) }

theorem gossipFrom_pack {pkt : GossipPacket} (hmagic : pkt.magic = gossipMagic) :
    gossipFrom (serializerPackGossip pkt) = some pkt.nodeId.text := by
  have hlen : (serializerPackGossip pkt).length = 49 := serializerGossip_bijection.length_pack _
  rw [gossipFrom, List.take_of_length_le (by rw [hlen]; decide), hlen, if_neg (by decide),
    serializerGossip_bijection.unpack_pack]
  dsimp only
  rw [if_neg (not_not.2 hmagic)]

theorem gossipFrom_heartbeatPacket (nodeId : CString) (mono : UInt64) :
    gossipFrom (serializerPackGossip (heartbeatPacket nodeId mono)) = some (nodeId.strncpy 36) := by
  rw [gossipFrom_pack rfl]
  exact congrArg some (Chars.text_ofCString (Nat.lt_succ_of_le (nodeId.length_strncpy_le 36)))

/-- A heartbeat makes the node alive, whatever status it was listed under. -/
theorem statusOf_heartbeat (cm : ClusterManager) (nodeId : CString) (mono now : UInt64) :
    statusOf (onGossipReceive cm (serializerPackGossip (heartbeatPacket nodeId mono)) now)
      (nodeId.strncpy 36) =
        (statusOf cm (nodeId.strncpy 36)).map fun _ => NodeStatus.alive.code := by
  rw [onGossipReceive, gossipFrom_heartbeatPacket]
  exact statusOf_clusterUpdateMemberStatus ..

def leaveText : CString := ⟨[76, 69, 65, 86, 69, 45, 77, 83, 71], by decide⟩

def leaveHeader (cm : ClusterManager) : RpcHeader :=
  { magic := rpcMagic
    version := 1
    commandType := rpcCmdLeave
    payloadLen := 0
    originId := .ofCString (cm.self.nodeId.strncpy 36)
    requestId := .ofCString leaveText }

/-- What a LEAVE request does to the table. -/
def receiveLeave (cm : ClusterManager) (header : RpcHeader) (now : UInt64) : ClusterManager :=
  (clusterUpdateMemberStatus cm header.originText .dead now).1

/-- It is the LEAVE branch of `handle_processing`. -/
theorem handleProcessing_leave {ev : Event} {c : Conn}
    (hcmd : c.session.header.commandType = rpcCmdLeave) :
    (handleProcessing ev c).1.cluster = receiveLeave ev.cluster c.session.header ev.now := by
  have hjoin : c.session.header.commandType ≠ rpcCmdJoinReq := by
    rw [hcmd]
    decide
  rw [handleProcessing]
  dsimp only
  rw [if_neg hjoin, if_pos hcmd]
  rfl

/-! ## The network -/

/-- `left` counts the LEAVEs the node has sent. A packet carries the count at which it was sent,
a LEAVE the count it makes. `gone` is the LEAVE the receiver has handled, until it handles a JOIN
of the node or a packet that was sent after the LEAVE. -/
structure LeaveNet where
  active : Bool
  left : Nat
  packets : List (Nat × Bytes)
  leaves : List Nat
  receiver : ClusterManager
  gone : Option Nat

inductive LeaveLabel where
  | heartbeat (mono : UInt64)
  | leave
  | recvGossip (sent : Nat) (datagram : Bytes) (now : UInt64)
  | recvLeave (k : Nat) (now : UInt64)
  | reap (now : UInt64)
  | join (env : JoinEnv)

/-- The steps of `node` and of the receiver. The node gossips until it leaves; it starts again
with a JOIN, whose answer it waits for. -/
def leaveStep (node : ClusterManager) (s : LeaveNet) : LeaveLabel → Option LeaveNet
  | .heartbeat mono =>
    if s.active then
      let datagram := serializerPackGossip (heartbeatPacket node.self.nodeId mono)
      some { s with packets := s.packets ++ [(s.left, datagram)] }
    else none
  | .leave =>
    if s.active then
      some { s with active := false, left := s.left + 1, leaves := s.leaves ++ [s.left + 1] }
    else none
  | .recvGossip sent datagram now =>
    if (sent, datagram) ∈ s.packets then
      some { s with
        receiver := onGossipReceive s.receiver datagram now
        gone := s.gone.filter fun k => sent < k }
    else none
  | .recvLeave k now =>
    if k ∈ s.leaves then
      some { s with
        leaves := s.leaves.erase k
        receiver := receiveLeave s.receiver (leaveHeader node) now
        gone := some k }
    else none
  | .reap now => some { s with receiver := clusterReaperTick s.receiver now }
  | .join env =>
    if s.active then none
    else some { s with
      active := true
      receiver := (clusterHandleJoinReq s.receiver (joinRequest node) env).1
      gone := none }

def LeaveNet.start (receiver : ClusterManager) (active : Bool) : LeaveNet :=
  ⟨active, 0, [], [], receiver, none⟩

/-- A packet that was sent before a LEAVE is not received after it, while the receiver lists
the node. -/
def InOrder (nodeId : CString) (s : LeaveNet) : LeaveLabel → Prop
  | .recvGossip sent _ _ => (statusOf s.receiver nodeId).isSome → ∀ k ∈ s.gone, k ≤ sent
  | _ => True

instance (nodeId : CString) (s : LeaveNet) (l : LeaveLabel) : Decidable (InOrder nodeId s l) := by
  cases l <;> unfold InOrder <;> infer_instance

/-! ## Runs -/

/-- After the LEAVE the node is dead, if it is listed. -/
def Gone (nodeId : CString) (s : LeaveNet) : Prop :=
  s.gone.isSome → ∀ status ∈ statusOf s.receiver nodeId, status = NodeStatus.dead.code

section
variable {node : ClusterManager} {nodeId : CString} (hnode : node.self.nodeId = nodeId.strncpy 36)
include hnode

theorem originText_leaveHeader : (leaveHeader node).originText = nodeId.strncpy 36 := by
  have hlen := Nat.lt_succ_of_le (nodeId.length_strncpy_le 36)
  have hfield : (leaveHeader node).originId = .ofCString (nodeId.strncpy 36) := by
    rw [leaveHeader, hnode, CString.strncpy_strncpy]
  rw [RpcHeader.originText, hfield]
  exact (CString.ofField_append (CString.zero_mem_toField hlen) _).trans (Chars.text_ofCString hlen)

/-- The packets in the network are heartbeats of the node. -/
def Heartbeats (node : ClusterManager) (s : LeaveNet) : Prop :=
  ∀ p ∈ s.packets, ∃ mono, p.2 = serializerPackGossip (heartbeatPacket node.self.nodeId mono)

omit hnode in
theorem Heartbeats.step {s s' : LeaveNet} {l : LeaveLabel} (hs : Heartbeats node s)
    (hstep : leaveStep node s l = some s') : Heartbeats node s' := by
  cases l with
  | heartbeat mono =>
    obtain ⟨-, e⟩ := Option.ite_none_right_eq_some.1 hstep
    cases e
    intro p hp
    rcases List.mem_append.1 hp with hp | hp
    · exact hs p hp
    · cases List.mem_singleton.1 hp
      exact ⟨mono, rfl⟩
  | leave | recvGossip | recvLeave =>
    obtain ⟨-, e⟩ := Option.ite_none_right_eq_some.1 hstep
    cases e
    exact hs
  | reap now =>
    cases hstep
    exact hs
  | join env =>
    obtain ⟨-, e⟩ := Option.ite_none_left_eq_some.1 hstep
    cases e
    exact hs

/-- A packet keeps the node gone if it is not a late one, or the receiver does not list the
node. -/
theorem gone_recvGossip_iff {s s' : LeaveNet} {sent : Nat} {datagram : Bytes} {now : UInt64}
    (hbeats : Heartbeats node s)
    (hstep : leaveStep node s (.recvGossip sent datagram now) = some s') :
    Gone (nodeId.strncpy 36) s' ↔
      InOrder (nodeId.strncpy 36) s (.recvGossip sent datagram now) := by
  obtain ⟨hmem, e⟩ := Option.ite_none_right_eq_some.1 hstep
  cases e
  obtain ⟨mono, e⟩ := hbeats _ hmem
  have hstatus := statusOf_heartbeat s.receiver node.self.nodeId mono now
  rw [← e, hnode, CString.strncpy_strncpy] at hstatus
  show ((s.gone.filter _).isSome → ∀ status ∈ statusOf (onGossipReceive ..) _, _) ↔
    ((statusOf s.receiver _).isSome → ∀ k ∈ s.gone, k ≤ sent)
  rw [hstatus]
  constructor
  · intro hgone hlisted k hk
    by_contra hlate
    have hkept : (s.gone.filter fun k => sent < k) = some k :=
      Option.filter_eq_some_iff.2 ⟨hk, decide_eq_true (Nat.not_le.1 hlate)⟩
    obtain ⟨status, hs⟩ := Option.isSome_iff_exists.1 hlisted
    have hdead := hgone (Option.isSome_iff_exists.2 ⟨k, hkept⟩) NodeStatus.alive.code
      (Option.map_eq_some_iff.2 ⟨status, hs, rfl⟩)
    exact absurd hdead (by decide)
  · intro horder hgone status hs
    obtain ⟨k, hk⟩ := Option.isSome_iff_exists.1 hgone
    obtain ⟨hk, hlt⟩ := Option.filter_eq_some_iff.1 hk
    obtain ⟨old, hold, -⟩ := Option.map_eq_some_iff.1 hs
    have hle := horder (Option.isSome_iff_exists.2 ⟨old, hold⟩) k hk
    exact absurd hle (Nat.not_le.2 (of_decide_eq_true hlt))

/-- **Step lemma.** A step keeps the node gone if and only if it is in order. -/
theorem gone_step_iff {s s' : LeaveNet} {l : LeaveLabel} (hbeats : Heartbeats node s)
    (hs : Gone (nodeId.strncpy 36) s) (hstep : leaveStep node s l = some s') :
    Gone (nodeId.strncpy 36) s' ↔ InOrder (nodeId.strncpy 36) s l := by
  cases l with
  | heartbeat | leave =>
    obtain ⟨-, e⟩ := Option.ite_none_right_eq_some.1 hstep
    cases e
    exact iff_of_true hs trivial
  | recvGossip sent datagram now => exact gone_recvGossip_iff hnode hbeats hstep
  | recvLeave k now =>
    obtain ⟨-, e⟩ := Option.ite_none_right_eq_some.1 hstep
    cases e
    refine iff_of_true (fun _ status hstatus => ?_) trivial
    dsimp only at hstatus
    rw [receiveLeave, originText_leaveHeader hnode, statusOf_clusterUpdateMemberStatus] at hstatus
    obtain ⟨_, -, e⟩ := Option.map_eq_some_iff.1 hstatus
    exact e.symm
  | reap now =>
    cases hstep
    refine iff_of_true (fun hgone status hstatus => ?_) trivial
    dsimp only at hstatus
    rw [statusOf_clusterReaperTick] at hstatus
    obtain ⟨m, hm, e⟩ := Option.map_eq_some_iff.1 hstatus
    rw [← e]
    refine status_reapMember_of_dead (hs hgone m.status ?_)
    rw [statusOf, hm]
    rfl
  | join env =>
    obtain ⟨-, e⟩ := Option.ite_none_left_eq_some.1 hstep
    cases e
    exact iff_of_true (fun hgone => absurd hgone Bool.false_ne_true) trivial

/-- **Run lemma.** -/
theorem gone_run_iff {s s' : LeaveNet} {as : List LeaveLabel} (hbeats : Heartbeats node s)
    (hs : Gone (nodeId.strncpy 36) s) (hrun : run (leaveStep node) s as = some s') :
    (∀ bs t, bs <+: as → run (leaveStep node) s bs = some t → Gone (nodeId.strncpy 36) t) ↔
      Along (leaveStep node) (InOrder (nodeId.strncpy 36)) s as := by
  refine Iff.trans ?_ (forall_run_iff_along
    (P := fun t => Heartbeats node t ∧ Gone (nodeId.strncpy 36) t)
    (fun t l t' ht hstep => ?_) ⟨hbeats, hs⟩ hrun)
  · refine forall₄_congr fun bs t _ hbs => ?_
    refine (and_iff_right ?_).symm
    exact run_induct (fun _ _ _ h _ hstep => h.step hstep) hbeats along_true hbs
  · exact (and_iff_right (ht.1.step hstep)).trans (gone_step_iff hnode ht.1 ht.2 hstep)

end

/-- **A node that left stays left** all along a run if and only if no packet that it sent before
its LEAVE is received after it by a receiver that lists it. -/
theorem left_stays_left (role : NodeRole) (nodeId bindIp : CString) (port : UInt16)
    (now₀ : UInt64) (receiver : ClusterManager) (active : Bool) {as : List LeaveLabel}
    {s : LeaveNet}
    (hrun : run (leaveStep (clusterInit role nodeId bindIp port now₀)) (.start receiver active) as =
      some s) :
    (∀ bs t, bs <+: as →
      run (leaveStep (clusterInit role nodeId bindIp port now₀)) (.start receiver active) bs =
        some t → Gone (nodeId.strncpy 36) t) ↔
    Along (leaveStep (clusterInit role nodeId bindIp port now₀)) (InOrder (nodeId.strncpy 36))
      (.start receiver active) as := by
  have hgone : Gone (nodeId.strncpy 36) (.start receiver active) :=
    fun hgone => absurd hgone Bool.false_ne_true
  have hbeats : Heartbeats (clusterInit role nodeId bindIp port now₀) (.start receiver active) :=
    fun _ hp => absurd hp List.not_mem_nil
  have hnode : (clusterInit role nodeId bindIp port now₀).self.nodeId = nodeId.strncpy 36 := rfl
  exact gone_run_iff hnode hbeats hgone hrun

def leaver : ClusterManager := clusterInit .workerNode nodeB .empty 7002 0

def listing : ClusterManager :=
  (clusterHandleJoinReq started (joinRequest leaver) ⟨9, true, true, fun _ => (.zero, .zero)⟩).1

def leaveAfter (as : List LeaveLabel) : LeaveNet :=
  (run (leaveStep leaver) (.start listing true) as).getD (.start listing true)

def packetB : Bytes := serializerPackGossip (heartbeatPacket nodeB 100)

theorem left_stays_left_in_order :
    statusOf (leaveAfter [.heartbeat 100, .recvGossip 0 packetB 105, .leave, .recvLeave 1 110,
      .reap 120]).receiver nodeB = some NodeStatus.dead.code ∧
    ∀ bs t, bs <+: [.heartbeat 100, .recvGossip 0 packetB 105, .leave, .recvLeave 1 110, .reap 120] →
      run (leaveStep leaver) (.start listing true) bs = some t → Gone nodeB t := by
  have hok : Along (leaveStep leaver) (InOrder nodeB) (.start listing true) [.heartbeat 100,
      .recvGossip 0 packetB 105, .leave, .recvLeave 1 110, .reap 120] := by
    decide +kernel
  have hrun : run (leaveStep leaver) (.start listing true) [.heartbeat 100,
      .recvGossip 0 packetB 105, .leave, .recvLeave 1 110, .reap 120] =
      some (leaveAfter [.heartbeat 100, .recvGossip 0 packetB 105, .leave, .recvLeave 1 110,
        .reap 120]) := rfl
  exact ⟨by decide +kernel,
    (left_stays_left .workerNode nodeB .empty 7002 0 listing true hrun).2 hok⟩

/-- The packet is sent before the LEAVE and received after it. -/
theorem late_gossip_revives :
    (leaveAfter [.heartbeat 100, .leave, .recvLeave 1 110]).gone = some 1 ∧
    statusOf (leaveAfter [.heartbeat 100, .leave, .recvLeave 1 110]).receiver nodeB =
      some NodeStatus.dead.code ∧
    statusOf (leaveAfter [.heartbeat 100, .leave, .recvLeave 1 110,
      .recvGossip 0 packetB 120]).receiver nodeB = some NodeStatus.alive.code := by
  decide +kernel

end DRoole
