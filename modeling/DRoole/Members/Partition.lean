import DRoole.Members.Fanout

/-!
# A partition of the gossip network

Every node gossips to the members it does not take for dead, and takes a member for
dead when it has not heard of it for three seconds. `GossipNet` is a set of nodes, each
at an address, and the datagrams that have been sent; the network may lose a datagram,
or deliver it late, out of order or several times.

When two sides of the network have been cut off from each other for long enough, each
takes the other for dead and stops gossiping to it. From then on no heartbeat, whatever
the network delivers, makes either side hear of the other again.
-/

namespace DRoole

open Lib

/-- The tables of the nodes, and the datagrams that can still arrive. -/
structure GossipNet (ι : Type) where
  nodes : ι → ClusterManager
  wire : List GossipSend

/-- `lost` are the datagrams of a firing that the network loses at once. A LEAVE is the one of
node `k`, handled at node `i`. -/
inductive GossipTick (ι : Type) where
  | heartbeat (i : ι) (read : Bool) (mono : UInt64) (rand : Nat) (lost : GossipSend → Bool)
  | deliver (i : ι) (s : GossipSend) (now : UInt64)
  | reap (i : ι) (now : UInt64)
  | leave (k i : ι) (now : UInt64)

section
variable {ι : Type} [DecidableEq ι] (addr : ι → CString × UInt16) (side : ι → Bool)

def GossipNet.set (net : GossipNet ι) (i : ι) (cm : ClusterManager) : GossipNet ι :=
  { net with nodes := Function.update net.nodes i cm }

def gossipTick (net : GossipNet ι) : GossipTick ι → Option (GossipNet ι)
  | .heartbeat i read mono rand lost =>
    some { net with
      wire := net.wire ++ (onHeartbeatTimer (net.nodes i) read mono rand).filter (!lost ·) }
  | .deliver i s now =>
    if s ∈ net.wire ∧ (s.ip, s.port) = addr i then
      some (net.set i (onGossipReceive (net.nodes i) s.datagram now))
    else none
  | .reap i now => some (net.set i (clusterReaperTick (net.nodes i) now))
  | .leave k i now => some (net.set i (receiveLeave (net.nodes i) (leaveHeader (net.nodes k)) now))

def Across (i : ι) (dest : CString × UInt16) : Prop := ∃ j, side j ≠ side i ∧ dest = addr j

/-- Ids fit their field and name nodes of one side, and a table lists whoever is at an address
under its own id. -/
structure Named (net : GossipNet ι) : Prop where
  short : ∀ i, (net.nodes i).self.nodeId.bytes.length ≤ 36
  distinct : ∀ i j, (net.nodes i).self.nodeId = (net.nodes j).self.nodeId → side i = side j
  listed : ∀ i, ∀ m ∈ (net.nodes i).members, ∀ j, (m.ipAddress, m.udpPort) = addr j →
    m.nodeId = (net.nodes j).self.nodeId

/-- Whatever can arrive at a node is a heartbeat of its own side. -/
def WireSeparate (net : GossipNet ι) : Prop :=
  ∀ s ∈ net.wire, ∀ j, (s.ip, s.port) = addr j → ∃ i mono, side i = side j ∧
    s.datagram = serializerPackGossip (heartbeatPacket (net.nodes i).self.nodeId mono)

/-- Node `i` takes the other side for dead. -/
def TakenForDead (net : GossipNet ι) (i : ι) : Prop :=
  ∀ m ∈ (net.nodes i).members, Across addr side i (m.ipAddress, m.udpPort) →
    m.status = NodeStatus.dead.code

/-- Node `i` has not heard of the other side since `time`. -/
def NotHeardSince (time : Nat) (net : GossipNet ι) (i : ι) : Prop :=
  ∀ m ∈ (net.nodes i).members, Across addr side i (m.ipAddress, m.udpPort) →
    m.status = NodeStatus.dead.code ∨ m.lastUpdatedTs.toNat ≤ time

/-- The network loses every datagram to the other side. -/
def CutOff (net : GossipNet ι) : GossipTick ι → Prop
  | .heartbeat i read mono rand lost =>
    ∀ s ∈ onHeartbeatTimer (net.nodes i) read mono rand, Across addr side i (s.ip, s.port) →
      lost s = true
  | _ => True

end

/-! ## What the steps do to an entry -/

theorem reapMember_address (self : CString) (now : UInt64) (m : NodeInfo) :
    (reapMember self now m).ipAddress = m.ipAddress ∧
      (reapMember self now m).udpPort = m.udpPort := by
  unfold reapMember
  split
  · exact ⟨rfl, rfl⟩
  dsimp only
  generalize (if now > m.lastUpdatedTs then now - m.lastUpdatedTs else 0) = diff
  split
  · split
    · exact ⟨rfl, rfl⟩
    · exact ⟨rfl, rfl⟩
  split
  · split
    · exact ⟨rfl, rfl⟩
    · exact ⟨rfl, rfl⟩
  · exact ⟨rfl, rfl⟩

theorem mem_updateMemberStatus {cm : ClusterManager} {nodeId : CString} {status : NodeStatus}
    {now : UInt64} {y : NodeInfo}
    (hy : y ∈ (clusterUpdateMemberStatus cm nodeId status now).1.members) :
    y ∈ cm.members ∨ ∃ m ∈ cm.members, m.nodeId = nodeId ∧
      y = { m with status := status.code, lastUpdatedTs := now } := by
  unfold clusterUpdateMemberStatus at hy
  split at hy
  · refine (mem_or_of_mem_modifyFirst hy).imp_right ?_
    rintro ⟨m, hm, hid, rfl⟩
    exact ⟨m, hm, of_decide_eq_true hid, rfl⟩
  · exact .inl hy

/-- How a step changes an entry of node `i`. -/
inductive EntryTick {ι : Type} (addr : ι → CString × UInt16) (net : GossipNet ι) (i : ι) :
    GossipTick ι → NodeInfo → NodeInfo → Prop
  | same (l : GossipTick ι) (m : NodeInfo) : EntryTick addr net i l m m
  | heard {s : GossipSend} {now : UInt64} {m : NodeInfo} (hs : s ∈ net.wire)
      (hdest : (s.ip, s.port) = addr i) (hid : gossipFrom s.datagram = some m.nodeId) :
      EntryTick addr net i (.deliver i s now) m
        { m with status := NodeStatus.alive.code, lastUpdatedTs := now }
  | reaped (now : UInt64) (m : NodeInfo) :
      EntryTick addr net i (.reap i now) m (reapMember (net.nodes i).self.nodeId now m)
  | left (k : ι) (now : UInt64) (m : NodeInfo) :
      EntryTick addr net i (.leave k i now) m
        { m with status := NodeStatus.dead.code, lastUpdatedTs := now }

theorem EntryTick.frame {ι : Type} {addr : ι → CString × UInt16} {net : GossipNet ι} {i : ι}
    {l : GossipTick ι} {m y : NodeInfo} (h : EntryTick addr net i l m y) :
    y.nodeId = m.nodeId ∧ (y.ipAddress, y.udpPort) = (m.ipAddress, m.udpPort) := by
  cases h with
  | same => exact ⟨rfl, rfl⟩
  | heard => exact ⟨rfl, rfl⟩
  | reaped now =>
    obtain ⟨hip, hport⟩ := reapMember_address (net.nodes i).self.nodeId now m
    exact ⟨(reapMember_frame _ _ _).1, by rw [hip, hport]⟩
  | left => exact ⟨rfl, rfl⟩

section
variable {ι : Type} [DecidableEq ι] {addr : ι → CString × UInt16} {side : ι → Bool}
  {net net' : GossipNet ι} {l : GossipTick ι}

theorem exists_entry_set {i j : ι} {cm : ClusterManager} {y : NodeInfo}
    (hy : y ∈ ((net.set j cm).nodes i).members)
    (hj : i = j → y ∈ cm.members → ∃ m ∈ (net.nodes i).members, EntryTick addr net i l m y) :
    ∃ m ∈ (net.nodes i).members, EntryTick addr net i l m y := by
  by_cases hij : i = j
  · refine hj hij ?_
    rw [GossipNet.set, hij] at hy
    dsimp only at hy
    rwa [Function.update_self] at hy
  · rw [GossipNet.set] at hy
    dsimp only at hy
    rw [Function.update_of_ne hij] at hy
    exact ⟨y, hy, .same l y⟩

theorem exists_entry (h : gossipTick addr net l = some net') {i : ι} {y : NodeInfo}
    (hy : y ∈ (net'.nodes i).members) :
    ∃ m ∈ (net.nodes i).members, EntryTick addr net i l m y := by
  cases l with
  | heartbeat j read mono rand lost =>
    cases h
    exact ⟨y, hy, .same _ y⟩
  | deliver j s now =>
    obtain ⟨⟨hs, hdest⟩, e⟩ := Option.ite_none_right_eq_some.1 h
    cases e
    refine exists_entry_set hy fun hij hy => ?_
    subst hij
    unfold onGossipReceive at hy
    split at hy
    · exact ⟨y, hy, .same _ y⟩
    · rename_i nodeId hfrom
      rcases mem_updateMemberStatus hy with hy | ⟨m, hm, rfl, rfl⟩
      · exact ⟨y, hy, .same _ y⟩
      · exact ⟨m, hm, .heard hs hdest hfrom⟩
  | reap j now =>
    cases h
    refine exists_entry_set hy fun hij hy => ?_
    subst hij
    obtain ⟨m, hm, rfl⟩ := List.mem_map.1 hy
    exact ⟨m, hm, .reaped now m⟩
  | leave k j now =>
    cases h
    refine exists_entry_set hy fun hij hy => ?_
    subst hij
    rcases mem_updateMemberStatus hy with hy | ⟨m, hm, -, rfl⟩
    · exact ⟨y, hy, .same _ y⟩
    · exact ⟨m, hm, .left k now m⟩

theorem self_gossipTick (h : gossipTick addr net l = some net') (i : ι) :
    (net'.nodes i).self = (net.nodes i).self := by
  have hset : ∀ j cm, cm.self = (net.nodes j).self →
      ((net.set j cm).nodes i).self = (net.nodes i).self := by
    intro j cm hself
    show (Function.update net.nodes j cm i).self = _
    by_cases hij : i = j
    · rw [hij, Function.update_self, hself]
    · rw [Function.update_of_ne hij]
  have hstatus : ∀ (cm : ClusterManager) nodeId status now,
      (clusterUpdateMemberStatus cm nodeId status now).1.self = cm.self := by
    intro cm nodeId status now
    unfold clusterUpdateMemberStatus
    split
    · rfl
    · rfl
  cases l with
  | heartbeat j read mono rand lost =>
    cases h
    rfl
  | deliver j s now =>
    obtain ⟨-, e⟩ := Option.ite_none_right_eq_some.1 h
    cases e
    refine hset j _ ?_
    unfold onGossipReceive
    split
    · rfl
    · exact hstatus ..
  | reap j now =>
    cases h
    exact hset j _ rfl
  | leave k j now =>
    cases h
    exact hset j _ (hstatus ..)

/-! ## What the steps keep -/

theorem exists_member_of_send {cm : ClusterManager} {read : Bool} {mono : UInt64} {rand : Nat}
    {s : GossipSend} (hs : s ∈ onHeartbeatTimer cm read mono rand) :
    ∃ m ∈ cm.members, m.status ≠ NodeStatus.dead.code ∧
      (s.ip, s.port) = (m.ipAddress, m.udpPort) ∧
      s.datagram = serializerPackGossip (heartbeatPacket cm.self.nodeId mono) := by
  cases read with
  | false => exact absurd hs List.not_mem_nil
  | true =>
    rw [onHeartbeatTimer_eq] at hs
    obtain ⟨p, -, hp⟩ := List.mem_filterMap.1 (List.mem_of_mem_take hs)
    obtain ⟨m, hm, hok, rfl⟩ := sendAt_eq_some hp
    exact ⟨m, List.mem_of_getElem? hm, (of_decide_eq_true hok).2, rfl, rfl⟩

theorem Named.step (hn : Named addr side net) (h : gossipTick addr net l = some net') :
    Named addr side net' where
  short i := by
    rw [self_gossipTick h]
    exact hn.short i
  distinct i j := by
    rw [self_gossipTick h, self_gossipTick h]
    exact hn.distinct i j
  listed i y hy j hj := by
    obtain ⟨m, hm, hmy⟩ := exists_entry h hy
    rw [hmy.frame.1, self_gossipTick h]
    exact hn.listed i m hm j (hmy.frame.2.symm.trans hj)

/-- A step adds nothing for the other side when the network loses it, or when its node takes
the other side for dead. -/
theorem WireSeparate.step (hw : WireSeparate addr side net)
    (hcut : CutOff addr side net l ∨ ∀ i, TakenForDead addr side net i)
    (h : gossipTick addr net l = some net') : WireSeparate addr side net' := by
  have hold : ∀ s ∈ net.wire, ∀ j, (s.ip, s.port) = addr j → ∃ i mono, side i = side j ∧
      s.datagram = serializerPackGossip (heartbeatPacket (net'.nodes i).self.nodeId mono) := by
    intro s hs j hj
    obtain ⟨i, mono, hij, hdata⟩ := hw s hs j hj
    exact ⟨i, mono, hij, by rw [self_gossipTick h, hdata]⟩
  intro s hs j hj
  cases l with
  | heartbeat i read mono rand lost =>
    cases h
    rcases List.mem_append.1 hs with hs | hs
    · exact hold s hs j hj
    obtain ⟨hs, hkept⟩ := List.mem_filter.1 hs
    obtain ⟨m, hm, hlive, hmem, hdata⟩ := exists_member_of_send hs
    refine ⟨i, mono, ?_, hdata⟩
    by_contra hij
    rcases hcut with hcut | hdead
    · rw [hcut s hs ⟨j, Ne.symm hij, hj⟩] at hkept
      cases hkept
    · exact hlive (hdead i m hm ⟨j, Ne.symm hij, hmem.symm.trans hj⟩)
  | deliver i s' now =>
    obtain ⟨-, e⟩ := Option.ite_none_right_eq_some.1 h
    cases e
    exact hold s hs j hj
  | reap i now =>
    cases h
    exact hold s hs j hj
  | leave k i now =>
    cases h
    exact hold s hs j hj

omit [DecidableEq ι] in
/-- An entry of the other side is not the sender of a datagram that can arrive. -/
theorem not_heard_of_across (hn : Named addr side net) (hw : WireSeparate addr side net) {i : ι}
    {m : NodeInfo} (hm : m ∈ (net.nodes i).members)
    (hacross : Across addr side i (m.ipAddress, m.udpPort)) {s : GossipSend} (hs : s ∈ net.wire)
    (hdest : (s.ip, s.port) = addr i) : gossipFrom s.datagram ≠ some m.nodeId := by
  obtain ⟨j, hij, hj⟩ := hacross
  obtain ⟨k, mono, hki, hdata⟩ := hw s hs i hdest
  rw [hdata, gossipFrom_heartbeatPacket, CString.strncpy_of_le (hn.short k), hn.listed i m hm j hj]
  intro e
  exact hij ((hn.distinct k j (Option.some.inj e)).symm.trans hki)

theorem TakenForDead.step {i : ι} (hd : TakenForDead addr side net i) (hn : Named addr side net)
    (hw : WireSeparate addr side net) (h : gossipTick addr net l = some net') :
    TakenForDead addr side net' i := by
  intro y hy hacross
  obtain ⟨m, hm, hmy⟩ := exists_entry h hy
  rw [hmy.frame.2] at hacross
  cases hmy with
  | same => exact hd _ hm hacross
  | heard hs hdest hid => exact absurd hid (not_heard_of_across hn hw hm hacross hs hdest)
  | reaped now => exact status_reapMember_of_dead (hd m hm hacross)
  | left => rfl

theorem NotHeardSince.step {time : Nat} {i : ι} (hold : NotHeardSince addr side time net i)
    (hn : Named addr side net) (hw : WireSeparate addr side net)
    (h : gossipTick addr net l = some net') : NotHeardSince addr side time net' i := by
  intro y hy hacross
  obtain ⟨m, hm, hmy⟩ := exists_entry h hy
  rw [hmy.frame.2] at hacross
  cases hmy with
  | same => exact hold _ hm hacross
  | heard hs hdest hid => exact absurd hid (not_heard_of_across hn hw hm hacross hs hdest)
  | reaped now =>
    refine (hold m hm hacross).imp status_reapMember_of_dead fun hts => ?_
    rw [(reapMember_frame _ _ _).2]
    exact hts
  | left => exact .inl rfl

end

/-! Three nodes, the last of which is cut off. -/

end DRoole
