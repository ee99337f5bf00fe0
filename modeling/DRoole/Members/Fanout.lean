import DRoole.Lib.Circuit
import DRoole.Members.Leave

/-!
# Gossip fan-out

`on_heartbeat_timer` of `src/main.c` walks the table once around from a random
position and sends its packet to the first three members it does not skip.

The indices are natural numbers: a table of 112-byte entries has fewer than
`2^63` of them, so `start_idx + i` does not wrap.
-/

namespace DRoole

open Lib

/-- One `udp_send`, and the position of the member it goes to. -/
structure GossipSend where
  position : Nat
  ip : CString
  port : UInt16
  datagram : Bytes
  deriving DecidableEq, Repr

/-- "Don't gossip to self or dead nodes". -/
def gossipsTo (cm : ClusterManager) (m : NodeInfo) : Bool :=
  m.nodeId ≠ cm.self.nodeId ∧ m.status ≠ NodeStatus.dead.code

/-- The loop of `on_heartbeat_timer` with `turns` turns left, at turn `i` with
`sent` packets out. -/
def fanoutLoop (cm : ClusterManager) (out : Bytes) (startIdx : Nat) :
    (turns i sent : Nat) → List GossipSend
  | 0, _, _ => []
  | turns + 1, i, sent =>
    if sent < 3 then
      let targetIdx := (startIdx + i) % cm.members.length
      match cm.members[targetIdx]? with
      | none => fanoutLoop cm out startIdx turns (i + 1) sent
      | some m =>
        if gossipsTo cm m then
          ⟨targetIdx, m.ipAddress, m.udpPort, out⟩ ::
            fanoutLoop cm out startIdx turns (i + 1) (sent + 1)
        else fanoutLoop cm out startIdx turns (i + 1) sent
    else []

/-- `on_heartbeat_timer`: the packets of one firing. `read` is whether the count of
expirations can be read. -/
def onHeartbeatTimer (cm : ClusterManager) (read : Bool) (mono : UInt64) (rand : Nat) :
    List GossipSend :=
  if !read then []
  else
    let out := serializerPackGossip (heartbeatPacket cm.self.nodeId mono)
    if cm.members.length > 0 then
      fanoutLoop cm out (rand % cm.members.length) cm.members.length 0 0
    else []

/-! ## The loop -/

/-- The packet for a position, if its member is not skipped. -/
def sendAt (cm : ClusterManager) (out : Bytes) (p : Nat) : Option GossipSend :=
  (cm.members[p]?.filter (gossipsTo cm)).map fun m => ⟨p, m.ipAddress, m.udpPort, out⟩

/-- **The loop** sends to the first members it does not skip, until three packets are out. -/
theorem fanoutLoop_eq (cm : ClusterManager) (out : Bytes) (startIdx turns i sent : Nat) :
    fanoutLoop cm out startIdx turns i sent =
      (((List.range' i turns).map fun j => (startIdx + j) % cm.members.length).filterMap
        (sendAt cm out)).take (3 - sent) := by
  induction turns generalizing i sent with
  | zero => simp [fanoutLoop]
  | succ turns ih =>
    rw [fanoutLoop, List.range'_succ, List.map_cons]
    dsimp only
    by_cases hsent : sent < 3
    · rw [if_pos hsent]
      cases hm : cm.members[(startIdx + i) % cm.members.length]? with
      | none =>
        have hskip : sendAt cm out ((startIdx + i) % cm.members.length) = none := by
          rw [sendAt, hm]
          rfl
        rw [List.filterMap_cons_none hskip]
        exact ih (i + 1) sent
      | some m =>
        dsimp only
        by_cases hok : gossipsTo cm m = true
        · have hsend : sendAt cm out ((startIdx + i) % cm.members.length) =
              some ⟨(startIdx + i) % cm.members.length, m.ipAddress, m.udpPort, out⟩ := by
            rw [sendAt, hm, Option.filter_some, if_pos hok]
            rfl
          rw [if_pos hok, List.filterMap_cons_some hsend, ih (i + 1) (sent + 1),
            show 3 - sent = 3 - (sent + 1) + 1 by omega, List.take_succ_cons]
        · have hskip : sendAt cm out ((startIdx + i) % cm.members.length) = none := by
            rw [sendAt, hm, Option.filter_some, if_neg hok]
            rfl
          rw [if_neg hok, List.filterMap_cons_none hskip]
          exact ih (i + 1) sent
    · rw [if_neg hsent, show 3 - sent = 0 by omega, List.take_zero]

theorem onHeartbeatTimer_eq (cm : ClusterManager) (mono : UInt64) (rand : Nat) :
    onHeartbeatTimer cm true mono rand =
      ((circuit (rand % cm.members.length) cm.members.length).filterMap
        (sendAt cm (serializerPackGossip (heartbeatPacket cm.self.nodeId mono)))).take 3 := by
  unfold onHeartbeatTimer
  rw [if_neg (by decide)]
  dsimp only
  split
  · rw [fanoutLoop_eq, ← List.range_eq_range']
    rfl
  · rename_i hempty
    rw [Nat.eq_zero_of_not_pos hempty]
    rfl

theorem sendAt_eq_some {cm : ClusterManager} {out : Bytes} {p : Nat} {s : GossipSend}
    (h : sendAt cm out p = some s) :
    ∃ m, cm.members[p]? = some m ∧ gossipsTo cm m = true ∧
      s = ⟨p, m.ipAddress, m.udpPort, out⟩ := by
  obtain ⟨m, hm, rfl⟩ := Option.map_eq_some_iff.1 h
  obtain ⟨hm, hok⟩ := Option.filter_eq_some_iff.1 hm
  exact ⟨m, hm, hok, rfl⟩

/-! ## One firing -/

section
variable (cm : ClusterManager) (out : Bytes) (ps : List Nat)

theorem map_position_filterMap :
    (ps.filterMap (sendAt cm out)).map GossipSend.position =
      ps.filter fun p => cm.members[p]?.any (gossipsTo cm) := by
  induction ps with
  | nil => rfl
  | cons p ps ih =>
    cases hm : cm.members[p]?.filter (gossipsTo cm) with
    | none =>
      have hskip : sendAt cm out p = none := by
        rw [sendAt, hm]
        rfl
      have hno : ¬ cm.members[p]?.any (gossipsTo cm) = true := by
        rw [Option.any_eq_true_iff_get]
        rintro ⟨hsome, hok⟩
        have := Option.filter_eq_none_iff.1 hm
        exact this _ (Option.eq_some_of_isSome hsome) hok
      rw [List.filterMap_cons_none hskip, ih, List.filter_cons, if_neg hno]
    | some m =>
      have hsend : sendAt cm out p = some ⟨p, m.ipAddress, m.udpPort, out⟩ := by
        rw [sendAt, hm]
        rfl
      obtain ⟨hp, hok⟩ := Option.filter_eq_some_iff.1 hm
      have hyes : cm.members[p]?.any (gossipsTo cm) = true := by
        rw [hp]
        exact hok
      rw [List.filterMap_cons_some hsend, List.map_cons, ih, List.filter_cons, if_pos hyes]

end

/-- **Gossip fan-out.** One firing sends to distinct positions, to members that are
neither the node itself nor dead, and to three of them or to all there are. -/
theorem gossip_fanout (cm : ClusterManager) (mono : UInt64) (rand : Nat) :
    let sends := onHeartbeatTimer cm true mono rand
    (sends.map GossipSend.position).Nodup ∧
    (∀ s ∈ sends, ∃ m, cm.members[s.position]? = some m ∧ m.nodeId ≠ cm.self.nodeId ∧
      m.status ≠ NodeStatus.dead.code ∧ s.ip = m.ipAddress ∧ s.port = m.udpPort ∧
      s.datagram = serializerPackGossip (heartbeatPacket cm.self.nodeId mono)) ∧
    sends.length = min 3 (cm.members.countP fun m =>
      m.nodeId ≠ cm.self.nodeId ∧ m.status ≠ NodeStatus.dead.code) := by
  intro sends
  have hsends : sends = _ := onHeartbeatTimer_eq cm mono rand
  rw [hsends]
  refine ⟨?_, fun s hs => ?_, ?_⟩
  · rw [List.map_take, map_position_filterMap]
    exact ((nodup_circuit ..).filter _).sublist (List.take_sublist ..)
  · obtain ⟨p, -, hp⟩ := List.mem_filterMap.1 (List.mem_of_mem_take hs)
    obtain ⟨m, hm, hok, rfl⟩ := sendAt_eq_some hp
    obtain ⟨hself, halive⟩ := of_decide_eq_true hok
    exact ⟨m, hm, hself, halive, rfl, rfl, rfl⟩
  · have hlen := congrArg List.length (map_position_filterMap cm
      (serializerPackGossip (heartbeatPacket cm.self.nodeId mono))
      (circuit (rand % cm.members.length) cm.members.length))
    rw [List.length_map, ← List.countP_eq_length_filter, countP_circuit] at hlen
    rw [List.length_take, hlen]
    rfl

end DRoole
