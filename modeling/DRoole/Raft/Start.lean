import DRoole.Raft.Moves

/-!
# Starting a node

`example_raft_init`: `raft_init`, one `raft_add_peer` for each peer,
`raft_restore_state`, `raft_start`. Here the disk is what it holds, a
`Durable`; its bytes are the subject of the WAL modules.
-/

namespace DRoole

open Lib

/-- The arguments of one `raft_add_peer` call. -/
structure PeerAddr where
  id : CString
  ip : CString
  port : UInt16

/-- `raft_restore_state` on a WAL that holds `d`. -/
def restoreDurable (nd : RaftNode) (d : Durable) : RaftNode :=
  d.log.foldl pushEntry
    { nd with currentTerm := d.currentTerm, votedFor := d.votedFor.strncpy 36 }

def addPeers (nd : RaftNode) (ps : List PeerAddr) : RaftNode :=
  ps.foldl (fun nd p => (raftAddPeer nd true p.id p.ip p.port).1) nd

/-- `example_raft_init` on a disk that holds `d`. -/
def boot (nodeId : CString) (ps : List PeerAddr) (d : Durable) (now rand : UInt64) : RaftNode :=
  raftStart (restoreDurable (addPeers (raftInit nodeId rand) ps) d) now

/-! ## The parts -/

theorem foldl_pushEntry_log (es : List RaftLogEntry) (nd : RaftNode) :
    (es.foldl pushEntry nd).log = nd.log ++ es := by
  induction es generalizing nd with
  | nil => simp
  | cons e es ih => rw [List.foldl_cons, ih, pushEntry_log, List.append_assoc, List.singleton_append]

theorem foldl_pushEntry_withLog (es : List RaftLogEntry) (nd : RaftNode) :
    es.foldl pushEntry nd = nd.withLog (es.foldl pushEntry nd) := by
  induction es generalizing nd with
  | nil => rfl
  | cons e es ih =>
    rw [List.foldl_cons, ih, pushEntry_withLog nd e]
    rfl

theorem restoreDurable_eq (nd : RaftNode) (d : Durable) :
    restoreDurable nd d =
      { nd with
        currentTerm := d.currentTerm
        votedFor := d.votedFor.strncpy 36
        log := nd.log ++ d.log
        logCapacity := (restoreDurable nd d).logCapacity } := by
  have hlog := foldl_pushEntry_log d.log
    { nd with currentTerm := d.currentTerm, votedFor := d.votedFor.strncpy 36 }
  unfold restoreDurable
  nth_rewrite 1 [foldl_pushEntry_withLog]
  rw [RaftNode.withLog, hlog]

theorem raftAddPeer_frame (nd : RaftNode) (p : PeerAddr) :
    let nd' := (raftAddPeer nd true p.id p.ip p.port).1
    nd' = { nd.soften nd' with peers := nd'.peers } := by
  unfold raftAddPeer
  split
  · rfl
  split
  · rfl
  · rfl

theorem addPeers_frame (ps : List PeerAddr) (nd : RaftNode) :
    addPeers nd ps = { nd.soften (addPeers nd ps) with peers := (addPeers nd ps).peers } := by
  induction ps generalizing nd with
  | nil => rfl
  | cons p ps ih =>
    have hfold : addPeers nd (p :: ps) = addPeers (raftAddPeer nd true p.id p.ip p.port).1 ps := rfl
    rw [hfold, ih, raftAddPeer_frame nd p]
    rfl

theorem raftAddPeer_new {nd : RaftNode} {p : PeerAddr} (hnew : p.id ∉ nd.peers.map (·.nodeId))
    (hle : p.id.bytes.length ≤ 36) :
    (raftAddPeer nd true p.id p.ip p.port).1.peers.map (·.nodeId) =
      nd.peers.map (·.nodeId) ++ [p.id] := by
  have hfind : findPeer nd.peers p.id = none := by
    unfold findPeer
    rw [List.find?_eq_none]
    intro q hq hid
    exact hnew (List.mem_map.2 ⟨q, hq, by simpa using hid⟩)
  unfold raftAddPeer
  rw [hfind, if_neg (by simp), if_neg (by simp)]
  simp [CString.strncpy_of_le hle]

theorem addPeers_ids (ps : List PeerAddr) (nd : RaftNode)
    (hnd : (nd.peers.map (·.nodeId) ++ ps.map (·.id)).Nodup)
    (hle : ∀ p ∈ ps, p.id.bytes.length ≤ 36) :
    (addPeers nd ps).peers.map (·.nodeId) = nd.peers.map (·.nodeId) ++ ps.map (·.id) := by
  induction ps generalizing nd with
  | nil => simp [addPeers]
  | cons p ps ih =>
    rw [List.map_cons] at hnd
    have hnew : p.id ∉ nd.peers.map (·.nodeId) := fun hmem =>
      (List.nodup_append.1 hnd).2.2 _ hmem _ List.mem_cons_self rfl
    have hids := raftAddPeer_new hnew (hle p List.mem_cons_self)
    have hfold : addPeers nd (p :: ps) = addPeers (raftAddPeer nd true p.id p.ip p.port).1 ps := rfl
    rw [hfold, ih _ (by rwa [hids, List.append_assoc]) fun q hq => hle q (List.mem_cons_of_mem _ hq),
      hids, List.append_assoc, List.map_cons, List.singleton_append]

/-- A started node: the durable state of the disk, no role, no snapshot, and its peers. -/
structure Started (nodeId : CString) (ps : List PeerAddr) (d : Durable) (nd : RaftNode) : Prop where
  id : nd.nodeId = nodeId.strncpy 36
  term : nd.currentTerm = d.currentTerm
  vote : nd.votedFor = d.votedFor.strncpy 36
  log : nd.log = d.log
  state : nd.state = .follower
  commit : nd.commitIndex = 0
  applied : nd.lastApplied = 0
  peers : nd.peers.map (·.nodeId) = ps.map (·.id)
  noSnapshot : nd.lastSnapshotIndex = 0 ∧ nd.lastSnapshotTerm = 0

theorem Started.durable_eq {nodeId : CString} {ps : List PeerAddr} {d : Durable} {nd : RaftNode}
    (h : Started nodeId ps d nd) (hle : d.votedFor.bytes.length ≤ 36) : nd.durable = d := by
  unfold RaftNode.durable
  rw [h.term, h.vote, h.log, CString.strncpy_of_le hle]

theorem boot_started {nodeId : CString} {ps : List PeerAddr} (d : Durable) (now rand : UInt64)
    (hnd : (ps.map (·.id)).Nodup) (hle : ∀ p ∈ ps, p.id.bytes.length ≤ 36) :
    Started nodeId ps d (boot nodeId ps d now rand) := by
  have hids := addPeers_ids ps (raftInit nodeId rand) (by simpa [raftInit] using hnd) hle
  have hframe := addPeers_frame ps (raftInit nodeId rand)
  unfold boot raftStart setHeartbeat
  rw [restoreDurable_eq]
  generalize addPeers (raftInit nodeId rand) ps = nd at *
  rw [hframe]
  exact ⟨rfl, rfl, rfl, rfl, rfl, rfl, rfl, by simpa [raftInit] using hids, rfl, rfl⟩

end DRoole
