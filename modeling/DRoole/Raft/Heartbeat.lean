import DRoole.Raft.Moves

/-!
# Speaking as leader

`raft_send_rpc_callback` hands the reply to `raft_handle_append_entries_response`
before it returns, so the loop of `leader_tick` can be demoted between two
peers. It does not look: it goes on sending, with the term it was demoted to,
and then runs the commit loop against that term. `leaderTick_speaks_iff` says
exactly for which replies a leader's tick stays within its leadership.
-/

namespace DRoole

open Lib

/-- The call is an AppendEntries request of the leader of its term, a commit by
a leader, or neither. -/
def SpeaksAsLeader (s : Stamp) : Prop :=
  match s.call with
  | .sendRpc _ (.appendEntries req) => s.node.state = .leader ∧ req.term = s.node.currentTerm
  | .commit _ => s.node.state = .leader
  | _ => True

instance (s : Stamp) : Decidable (SpeaksAsLeader s) := by
  unfold SpeaksAsLeader
  split <;> infer_instance

/-- Every request and every commit of a trace is a leader's. -/
def LeaderSpeech (tr : List Stamp) : Prop := ∀ s ∈ tr, SpeaksAsLeader s

instance (tr : List Stamp) : Decidable (LeaderSpeech tr) := by
  unfold LeaderSpeech; infer_instance

@[simp] theorem leaderSpeech_append {tr tr' : List Stamp} :
    LeaderSpeech (tr ++ tr') ↔ LeaderSpeech tr ∧ LeaderSpeech tr' := List.forall_mem_append

@[simp] theorem leaderSpeech_singleton {s : Stamp} : LeaderSpeech [s] ↔ SpeaksAsLeader s :=
  List.forall_mem_singleton

/-! ## Replies -/

theorem appendEntriesResponse_of_lt {h : Host} {id : CString} {r : RaftAppendEntriesResp}
    (hlt : h.node.currentTerm < r.term) :
    raftHandleAppendEntriesResponse h id r = becomeFollower h r.term := by
  unfold raftHandleAppendEntriesResponse
  rw [if_pos hlt]

theorem appendEntriesResponse_of_le {h : Host} (id : CString) {r : RaftAppendEntriesResp}
    (hle : ¬ h.node.currentTerm < r.term) :
    ∃ ps, ps.length = h.node.peers.length ∧
      raftHandleAppendEntriesResponse h id r = h.modify fun nd => { nd with peers := ps } := by
  unfold raftHandleAppendEntriesResponse
  rw [if_neg hle]
  split
  · exact ⟨_, rfl, rfl⟩
  split
  · exact ⟨_, rfl, rfl⟩
  split
  · exact ⟨_, length_updatePeer _ _ _, rfl⟩
  split
  · exact ⟨_, length_updatePeer _ _ _, rfl⟩
  · exact ⟨_, rfl, rfl⟩

theorem sendHeartbeat_cases {h : Host} (p : RaftPeer) (reply : Option RaftAppendEntriesResp)
    (hs : h.node.state = .leader) :
    (((∀ r, reply = some r → r.term ≤ h.node.currentTerm) ∧
        (sendHeartbeat p reply h).node.state = .leader ∧
        (sendHeartbeat p reply h).node.currentTerm = h.node.currentTerm) ∨
      ∃ r, reply = some r ∧ h.node.currentTerm < r.term ∧
        (sendHeartbeat p reply h).node.state = .follower ∧
        (sendHeartbeat p reply h).node.currentTerm = r.term) ∧
    (sendHeartbeat p reply h).node.peers.length = h.node.peers.length := by
  unfold sendHeartbeat
  cases reply with
  | none => exact ⟨.inl ⟨by simp, hs, rfl⟩, rfl⟩
  | some r =>
    dsimp only
    by_cases hlt : h.node.currentTerm < r.term
    · rw [appendEntriesResponse_of_lt (h := h.emit _) hlt]
      exact ⟨.inr ⟨r, rfl, hlt, rfl, rfl⟩, rfl⟩
    · obtain ⟨ps, hlen, e⟩ := appendEntriesResponse_of_le (h := h.emit _) p.nodeId hlt
      rw [e]
      refine ⟨.inl ⟨?_, hs, rfl⟩, hlen⟩
      intro r' hr'
      cases hr'
      grind

theorem leaderSpeech_sendHeartbeat {h : Host} (p : RaftPeer)
    (reply : Option RaftAppendEntriesResp) (hs : h.node.state = .leader)
    (hok : LeaderSpeech h.trace) : LeaderSpeech (sendHeartbeat p reply h).trace := by
  have hsend : LeaderSpeech (h.emit (.sendRpc p.nodeId (.appendEntries (heartbeat h.node p)))).trace :=
    leaderSpeech_append.2 ⟨hok, leaderSpeech_singleton.2 ⟨hs, rfl⟩⟩
  unfold sendHeartbeat
  cases reply with
  | none => exact hsend
  | some r =>
    dsimp only
    by_cases hlt : h.node.currentTerm < r.term
    · rw [appendEntriesResponse_of_lt (h := h.emit _) hlt]
      exact leaderSpeech_append.2 ⟨hsend, leaderSpeech_singleton.2 trivial⟩
    · obtain ⟨ps, -, e⟩ := appendEntriesResponse_of_le (h := h.emit _) p.nodeId hlt
      rw [e]
      exact hsend

/-! ## The heartbeat loop -/

theorem sendHeartbeat_trace (p : RaftPeer) (reply : Option RaftAppendEntriesResp) (h : Host) :
    (h.emit (.sendRpc p.nodeId (.appendEntries (heartbeat h.node p)))).trace ⊆
      (sendHeartbeat p reply h).trace := by
  unfold sendHeartbeat
  cases reply with
  | none => exact fun _ => id
  | some r => exact (raftHandleAppendEntriesResponse_moves _ p.nodeId r).trace_subset

theorem forPeers_sendHeartbeat_trace (n i : Nat) (rs : List (Option RaftAppendEntriesResp))
    (h : Host) : h.trace ⊆ (forPeers sendHeartbeat n i rs h).trace := by
  refine forPeers_induct (P := fun g => h.trace ⊆ g.trace) rs (fun p r g _ _ hg => ?_) n i rs h
    (fun _ => id) (fun _ => id)
  exact List.Subset.trans hg
    (List.Subset.trans (List.subset_append_left _ _) (sendHeartbeat_trace p r g))

/-- A follower that still has a peer to go speaks out of turn. -/
theorem not_leaderSpeech_of_follower {h : Host} {n i : Nat}
    (rs : List (Option RaftAppendEntriesResp)) (hs : h.node.state = .follower)
    (hi : i < h.node.peers.length) :
    ¬ LeaderSpeech (forPeers sendHeartbeat (n + 1) i rs h).trace := by
  intro hok
  simp only [forPeers, List.getElem?_eq_getElem hi] at hok
  have hmem := forPeers_sendHeartbeat_trace n (i + 1) rs.tail _
    (sendHeartbeat_trace h.node.peers[i] rs.head?.join h (List.mem_append_right _ List.mem_cons_self))
  have hl : h.node.state = .leader := (hok _ hmem).1
  rw [hs] at hl
  cases hl

/-- No reply but the last of `n` has a term later than `t`. -/
def LaterOnlyLast (t : UInt64) (n : Nat) (rs : List (Option RaftAppendEntriesResp)) : Prop :=
  ∀ k r, k + 1 < n → rs[k]? = some (some r) → r.term ≤ t

/-- The last of `n` replies has no term later than `t`. -/
def LastNotLater (t : UInt64) (n : Nat) (rs : List (Option RaftAppendEntriesResp)) : Prop :=
  ∀ k r, k + 1 = n → rs[k]? = some (some r) → r.term ≤ t

section Shift

variable {t : UInt64} {n : Nat} {rs : List (Option RaftAppendEntriesResp)}

theorem term_le_tail_iff {p q : Nat → Prop} (hpq : ∀ k, p (k + 1) ↔ q k)
    (h0 : ∀ r, rs[0]? = some (some r) → r.term ≤ t) :
    (∀ k r, p k → rs[k]? = some (some r) → r.term ≤ t) ↔
      ∀ k r, q k → rs.tail[k]? = some (some r) → r.term ≤ t := by
  constructor
  · intro h k r hk hr
    exact h (k + 1) r ((hpq k).2 hk) (by simpa using hr)
  · intro h k r hk hr
    cases k with
    | zero => exact h0 r hr
    | succ k => exact h k r ((hpq k).1 hk) (by simpa using hr)

theorem laterOnlyLast_succ (h0 : ∀ r, rs[0]? = some (some r) → r.term ≤ t) :
    LaterOnlyLast t (n + 1) rs ↔ LaterOnlyLast t n rs.tail :=
  term_le_tail_iff (fun _ => Nat.succ_lt_succ_iff) h0

theorem lastNotLater_succ (h0 : ∀ r, rs[0]? = some (some r) → r.term ≤ t) :
    LastNotLater t (n + 1) rs ↔ LastNotLater t n rs.tail :=
  term_le_tail_iff (fun _ => Nat.succ_inj) h0

end Shift

theorem forPeers_sendHeartbeat_succ {h : Host} {i : Nat} (n : Nat)
    (rs : List (Option RaftAppendEntriesResp)) (hi : i < h.node.peers.length) :
    forPeers sendHeartbeat (n + 1) i rs h =
      forPeers sendHeartbeat n (i + 1) rs.tail (sendHeartbeat h.node.peers[i] rs[0]?.join h) := by
  rw [forPeers, List.getElem?_eq_getElem hi, List.head?_eq_getElem?]

theorem forPeers_sendHeartbeat_iff {t : UInt64} (n i : Nat)
    (rs : List (Option RaftAppendEntriesResp)) (h : Host) (hlen : i + n = h.node.peers.length)
    (hs : h.node.state = .leader) (ht : h.node.currentTerm = t) (hok : LeaderSpeech h.trace) :
    (LeaderSpeech (forPeers sendHeartbeat n i rs h).trace ↔ LaterOnlyLast t n rs) ∧
    (LaterOnlyLast t n rs →
      ((forPeers sendHeartbeat n i rs h).node.state = .leader ↔ LastNotLater t n rs)) := by
  induction n generalizing i rs h with
  | zero =>
    refine ⟨iff_of_true hok fun k r hk => absurd hk (by omega), fun _ => ?_⟩
    exact iff_of_true hs fun k r hk => absurd hk (by omega)
  | succ n ih =>
    have hi : i < h.node.peers.length := by omega
    have hok' := leaderSpeech_sendHeartbeat h.node.peers[i] rs[0]?.join hs hok
    obtain ⟨hcase, hlen'⟩ := sendHeartbeat_cases h.node.peers[i] rs[0]?.join hs
    have hloop := forPeers_sendHeartbeat_succ n rs hi
    generalize sendHeartbeat h.node.peers[i] rs[0]?.join h = g at hok' hcase hlen' hloop
    rcases hcase with ⟨hle, hgs, hgt⟩ | ⟨r, hr, hlt, hgs, -⟩
    · -- still leading: the rest of the loop is the loop over the other peers
      have hle0 : ∀ r, rs[0]? = some (some r) → r.term ≤ t := fun r hr =>
        ht ▸ hle r (Option.join_eq_some_iff.2 hr)
      rw [hloop, laterOnlyLast_succ hle0, lastNotLater_succ hle0]
      exact ih (i + 1) rs.tail g (by omega) hgs (hgt.trans ht) hok'
    · -- demoted here: the next peer, if there is one, gets a request of a follower
      have hlt : t < r.term := ht ▸ hlt
      cases n with
      | zero =>
        have hlater : LaterOnlyLast t 1 rs := fun k r hk => absurd hk (by omega)
        refine ⟨iff_of_true (hloop ▸ hok') hlater, fun _ => iff_of_false ?_ fun hlast => ?_⟩
        · rw [hloop]
          intro hl
          exact absurd (hgs.symm.trans hl) (by decide)
        · have := hlast 0 r rfl (Option.join_eq_some_iff.1 hr)
          grind
      | succ n =>
        have hnot : ¬ LaterOnlyLast t (n + 1 + 1) rs := fun hl => by
          have := hl 0 r (by omega) (Option.join_eq_some_iff.1 hr)
          grind
        refine ⟨iff_of_false ?_ hnot, fun hl => absurd hl hnot⟩
        rw [hloop]
        exact not_leaderSpeech_of_follower rs.tail hgs (by omega)

/-! ## What the replies acknowledge -/

/-- A peer once its reply is in, at a leader of term `t`. -/
def RaftPeer.answered (t : UInt64) (p : RaftPeer) : Option RaftAppendEntriesResp → RaftPeer
  | some r => if r.term = t ∧ r.success ≠ 0 then { p with matchIndex := r.matchIndex } else p
  | none => p

/-- The peers of a leader once the replies are in. -/
def answeredPeers (nd : RaftNode) (replies : List (Option RaftAppendEntriesResp)) : List RaftPeer :=
  nd.peers.mapIdx fun k p => p.answered nd.currentTerm replies[k]?.join

theorem RaftPeer.answered_of_ne {t : UInt64} {r : RaftAppendEntriesResp} (p : RaftPeer)
    (ht : r.term ≠ t) : p.answered t (some r) = p := if_neg fun h => ht h.1

theorem sendHeartbeat_peers {h : Host} {i : Nat} {p : RaftPeer}
    (reply : Option RaftAppendEntriesResp) (hs : h.node.state = .leader)
    (hnd : h.node.peerIds.Nodup) (hp : h.node.peers[i]? = some p) :
    ∃ q, q.nodeId = p.nodeId ∧ q.matchIndex = (p.answered h.node.currentTerm reply).matchIndex ∧
      (sendHeartbeat p reply h).node.peers = h.node.peers.set i q := by
  obtain ⟨hi, hpi⟩ := List.getElem?_eq_some_iff.1 hp
  have hself : h.node.peers = h.node.peers.set i p := by rw [← hpi, List.set_getElem_self]
  have hfind : ∃ q, findPeer h.node.peers p.nodeId = some q :=
    Option.isSome_iff_exists.1 (List.find?_isSome.2 ⟨p, List.mem_of_getElem? hp, by simp⟩)
  obtain ⟨q, hq⟩ := hfind
  cases reply with
  | none => exact ⟨p, rfl, rfl, hself⟩
  | some r =>
    simp only [sendHeartbeat, raftHandleAppendEntriesResponse, Host.emit_node, hq]
    by_cases hgt : r.term > h.node.currentTerm
    · rw [p.answered_of_ne (by grind), if_pos hgt]
      exact ⟨p, rfl, rfl, hself⟩
    by_cases hlt : r.term < h.node.currentTerm
    · rw [p.answered_of_ne (by grind), if_neg hgt, if_pos (.inr hlt)]
      exact ⟨p, rfl, rfl, hself⟩
    have heq : r.term = h.node.currentTerm := by grind
    have hcur : ¬ (h.node.state ≠ .leader ∨ r.term < h.node.currentTerm) := by simp [hs, hlt]
    rw [if_neg hgt, if_neg hcur]
    by_cases hr : r.success ≠ 0
    · rw [if_pos hr, RaftPeer.answered, if_pos ⟨heq, hr⟩]
      exact ⟨{ p with matchIndex := r.matchIndex, nextIndex := r.matchIndex + 1 }, rfl, rfl,
        updatePeer_eq_set _ hnd hp⟩
    · rw [if_neg hr, RaftPeer.answered, if_neg fun h => hr h.2]
      split
      · exact ⟨{ p with nextIndex := p.nextIndex - 1 }, rfl, rfl, updatePeer_eq_set _ hnd hp⟩
      · exact ⟨p, rfl, rfl, hself⟩

theorem forPeers_sendHeartbeat_matchIndex {t : UInt64} (n i : Nat)
    (rs : List (Option RaftAppendEntriesResp)) (h : Host) (hlen : i + n = h.node.peers.length)
    (hs : 0 < n → h.node.state = .leader ∧ h.node.currentTerm = t)
    (hnd : h.node.peerIds.Nodup) (hlater : LaterOnlyLast t n rs) (k : Nat) :
    (forPeers sendHeartbeat n i rs h).node.peers[k]?.map (·.matchIndex) =
      h.node.peers[k]?.map fun p =>
        if k < i then p.matchIndex else (p.answered t rs[k - i]?.join).matchIndex := by
  induction n generalizing i rs h with
  | zero =>
    by_cases hk : k < i
    · simp only [forPeers, if_pos hk]
    · rw [forPeers, List.getElem?_eq_none (by omega)]
      rfl
  | succ n ih =>
    have hi : i < h.node.peers.length := by omega
    obtain ⟨hlead, rfl⟩ := hs n.succ_pos
    obtain ⟨q, hid, hm, hps⟩ := sendHeartbeat_peers rs[0]?.join hlead hnd
      (List.getElem?_eq_getElem hi)
    obtain ⟨hcase, hlen'⟩ := sendHeartbeat_cases h.node.peers[i] rs[0]?.join hlead
    rw [forPeers_sendHeartbeat_succ n rs hi]
    generalize sendHeartbeat h.node.peers[i] rs[0]?.join h = g at hcase hlen' hps
    have hnext : 0 < n → g.node.state = .leader ∧ g.node.currentTerm = h.node.currentTerm := by
      intro hn
      rcases hcase with ⟨-, hg⟩ | ⟨r, hr, hlt, -⟩
      · exact hg
      · have := hlater 0 r (by omega) (Option.join_eq_some_iff.1 hr)
        grind
    have hids : g.node.peerIds = h.node.peerIds := by
      unfold RaftNode.peerIds
      rw [hps, List.map_set, hid, ← List.getElem_map RaftPeer.nodeId, List.set_getElem_self]
      simpa using hi
    have htail : LaterOnlyLast h.node.currentTerm n rs.tail := fun k r hk hr =>
      hlater (k + 1) r (by omega) (by simpa using hr)
    rw [ih (i + 1) rs.tail g (by omega) hnext (hids ▸ hnd) htail, hps, List.getElem?_set]
    rcases Nat.lt_trichotomy k i with hk | rfl | hk
    · simp only [if_neg (show ¬ i = k by omega), if_pos hk, if_pos (Nat.lt_succ_of_lt hk)]
    · simp only [if_pos hi, Nat.lt_succ_self, Nat.lt_irrefl, Nat.sub_self, if_true, if_false,
        Option.map_some, List.getElem?_eq_getElem hi, hm]
    · have hsub : k - i = k - (i + 1) + 1 := by omega
      simp only [if_neg (show ¬ i = k by omega), if_neg (show ¬ k < i by omega),
        if_neg (show ¬ k < i + 1 by omega), hsub, List.getElem?_tail]

/-- The term after the loop, when the last reply is a later one. -/
theorem forPeers_sendHeartbeat_term {t : UInt64} (n i : Nat)
    (rs : List (Option RaftAppendEntriesResp)) (h : Host) (hlen : i + n = h.node.peers.length)
    (hs : h.node.state = .leader) (ht : h.node.currentTerm = t) (hlater : LaterOnlyLast t n rs)
    {k : Nat} {r : RaftAppendEntriesResp} (hk : k + 1 = n) (hr : rs[k]? = some (some r))
    (hlt : t < r.term) : (forPeers sendHeartbeat n i rs h).node.currentTerm = r.term := by
  induction n generalizing i rs h k with
  | zero => omega
  | succ n ih =>
    obtain rfl : k = n := Nat.succ.inj hk
    have hi : i < h.node.peers.length := by omega
    obtain ⟨hcase, hlen'⟩ := sendHeartbeat_cases h.node.peers[i] rs[0]?.join hs
    rw [forPeers_sendHeartbeat_succ k rs hi]
    generalize sendHeartbeat h.node.peers[i] rs[0]?.join h = g at hcase hlen'
    rcases hcase with ⟨hle, hgs, hgt⟩ | ⟨r', hr', hlt', -, hgt⟩
    · cases k with
      | zero =>
        have := hle r (Option.join_eq_some_iff.2 hr)
        grind
      | succ k =>
        refine ih (i + 1) rs.tail g (by omega) hgs (hgt.trans ht) (fun k r hk hr => ?_) rfl
          (by simpa using hr)
        exact hlater (k + 1) r (by omega) (by simpa using hr)
    · cases k with
      | zero =>
        rw [Option.join_eq_some_iff.1 hr'] at hr
        cases hr
        exact hgt
      | succ k =>
        have := hlater 0 r' (by omega) (Option.join_eq_some_iff.1 hr')
        grind

/-! ## The commit loop -/

theorem commitLoop_trace (fuel : Nat) (n : UInt64) (h : Host) :
    h.trace ⊆ (commitLoop fuel n h).trace :=
  commitLoop_induct (P := fun g => h.trace ⊆ g.trace)
    (fun _ _ _ _ hg => List.Subset.trans hg (List.subset_append_left _ _)) fuel n h fun _ => id

theorem leaderSpeech_commitLoop {h : Host} (fuel : Nat) (n : UInt64)
    (hs : h.node.state = .leader) (hok : LeaderSpeech h.trace) :
    LeaderSpeech (commitLoop fuel n h).trace := by
  refine (commitLoop_induct (P := fun g => LeaderSpeech g.trace ∧ g.node.state = .leader)
    (fun g n _ _ hg => ?_) fuel n h ⟨hok, hs⟩).1
  exact ⟨leaderSpeech_append.2 ⟨hg.1, leaderSpeech_singleton.2 hg.2⟩, hg.2⟩

/-- A node that does not lead commits out of turn, unless the commit test fails
at every index from `n` on. -/
theorem leaderSpeech_commitLoop_iff {h : Host} (fuel : Nat) (n : UInt64)
    (hs : h.node.state ≠ .leader) (hok : LeaderSpeech h.trace)
    (hlast : lastLogIndex h.node + 1 ≠ 0)
    (hfuel : fuel = (lastLogIndex h.node).toNat + 1 - n.toNat) :
    LeaderSpeech (commitLoop fuel n h).trace ↔
      ∀ m, n ≤ m → m ≤ lastLogIndex h.node → committable h.node m = false := by
  induction fuel generalizing n with
  | zero =>
    refine iff_of_true hok fun m hn hm => ?_
    rw [UInt64.le_iff_toNat_le] at hn hm
    omega
  | succ fuel ih =>
    have hle : n ≤ lastLogIndex h.node := by
      rw [UInt64.le_iff_toNat_le]
      omega
    simp only [commitLoop, if_pos hle]
    split
    · rename_i hc
      refine iff_of_false (fun hsp => ?_) fun hall => ?_
      · have hmem : ⟨h.node, .commit n⟩ ∈ (commitLoop fuel (n + 1) (setCommit h n)).trace :=
          commitLoop_trace _ _ _ (List.mem_append_right _ List.mem_cons_self)
        exact hs (hsp _ hmem)
      · have := hall n (UInt64.le_refl n) hle
        rw [hc] at this
        cases this
    · rename_i hc
      have hn : (n + 1).toNat = n.toNat + 1 := toNat_succ (by grind)
      rw [ih (n + 1) (by omega)]
      constructor
      · intro hall m hnm hm
        by_cases e : m = n
        · subst e
          simpa using hc
        · exact hall m (by grind) hm
      · intro hall m hnm hm
        exact hall m (by grind) hm

/-! ## The tick -/

theorem heartbeatRound_frame (h : Host) (now : UInt64)
    (replies : List (Option RaftAppendEntriesResp)) :
    let nd := (heartbeatRound h now replies).node
    nd.commitIndex = h.node.commitIndex ∧ nd.log = h.node.log ∧
      nd.lastSnapshotIndex = h.node.lastSnapshotIndex ∧
      nd.lastSnapshotTerm = h.node.lastSnapshotTerm := by
  refine (heartbeatRound_moves h now replies).invariant
    (P := fun g => g.node.commitIndex = h.node.commitIndex ∧ g.node.log = h.node.log ∧
      g.node.lastSnapshotIndex = h.node.lastSnapshotIndex ∧
      g.node.lastSnapshotTerm = h.node.lastSnapshotTerm) ⟨rfl, rfl, rfl, rfl⟩
    fun x y l hx hk hm => ?_
  cases hm with
  | quiet | send | follow | ack | backOff => exact hx
  | _ =>
    obtain ⟨_, _, -, hk⟩ := hk
    exact hk.elim

theorem committable_congr {a b : RaftNode} (hl : a.log = b.log)
    (hs : a.lastSnapshotIndex = b.lastSnapshotIndex) (ht : a.lastSnapshotTerm = b.lastSnapshotTerm)
    (hterm : a.currentTerm = b.currentTerm)
    (hm : a.peers.map (·.matchIndex) = b.peers.map (·.matchIndex)) (n : UInt64) :
    committable a n = committable b n := by
  have hlen : a.peers.length = b.peers.length := by simpa using congrArg List.length hm
  have hrep : ∀ nd : RaftNode, replicas nd n =
      (nd.peers.map (·.matchIndex)).foldl (fun r m => if m ≥ n then r + 1 else r) 1 :=
    fun nd => by rw [List.foldl_map]; rfl
  simp only [committable, termAtIndex_congr hl hs ht, hterm, hrep, hm, hlen]

/-- The commit test after the heartbeats, when the last reply is of a later term. -/
theorem committable_heartbeatRound {nd : RaftNode} {now : UInt64}
    {replies : List (Option RaftAppendEntriesResp)} (hs : nd.state = .leader)
    (hnd : nd.peerIds.Nodup) (hdue : heartbeatDue nd now = true)
    (hlater : LaterOnlyLast nd.currentTerm nd.peers.length replies) {k : Nat}
    {r : RaftAppendEntriesResp} (hk : k + 1 = nd.peers.length) (hr : replies[k]? = some (some r))
    (hlt : nd.currentTerm < r.term) (n : UInt64) :
    committable (heartbeatRound nd.host now replies).node n =
      committable { nd with currentTerm := r.term, peers := answeredPeers nd replies } n := by
  obtain ⟨-, hl, hsi, hst⟩ := heartbeatRound_frame nd.host now replies
  refine committable_congr ?_ ?_ ?_ ?_ ?_ n
  · exact hl
  · exact hsi
  · exact hst
  · rw [heartbeatRound, RaftNode.host, if_pos hdue]
    exact forPeers_sendHeartbeat_term _ 0 _ _ (Nat.zero_add _) hs rfl hlater hk hr hlt
  · refine List.ext_getElem? fun j => ?_
    rw [heartbeatRound, RaftNode.host, if_pos hdue, List.getElem?_map, List.getElem?_map,
      forPeers_sendHeartbeat_matchIndex _ 0 _ _ (Nat.zero_add _) (fun _ => ⟨hs, rfl⟩) hnd hlater]
    simp only [answeredPeers, List.getElem?_mapIdx, Option.map_map, Nat.not_lt_zero, if_false,
      Nat.sub_zero]
    rfl

/-- **When a leader's tick stays within its leadership.** Exactly when no
heartbeat is due, or no reply but the last peer's has a later term, and, if the
last one has, no index passes the commit test against that term with what the
other replies acknowledge. (`raft_add_peer` refuses an id twice; for
`last_log_index = 2^64 - 1` the commit loop of the source does not end.) -/
theorem leaderTick_speaks_iff (nd : RaftNode) (now : UInt64)
    (replies : List (Option RaftAppendEntriesResp)) (hs : nd.state = .leader)
    (hnd : nd.peerIds.Nodup) (hlast : lastLogIndex nd + 1 ≠ 0) :
    LeaderSpeech (leaderTick nd.host now replies).trace ↔
      heartbeatDue nd now = false ∨
      (∀ k r, k + 1 < nd.peers.length → replies[k]? = some (some r) → r.term ≤ nd.currentTerm) ∧
      (∀ k r, k + 1 = nd.peers.length → replies[k]? = some (some r) → nd.currentTerm < r.term →
        ∀ n, nd.commitIndex + 1 ≤ n → n ≤ lastLogIndex nd →
          committable { nd with currentTerm := r.term, peers := answeredPeers nd replies } n =
            false) := by
  have hnil : LeaderSpeech nd.host.trace := by simp [RaftNode.host, LeaderSpeech]
  obtain ⟨hcommit, hlog, hsnap, -⟩ := heartbeatRound_frame nd.host now replies
  have hg_last : lastLogIndex (heartbeatRound nd.host now replies).node = lastLogIndex nd :=
    lastLogIndex_congr hlog hsnap
  have hg_commit : (heartbeatRound nd.host now replies).node.commitIndex = nd.commitIndex := hcommit
  unfold leaderTick
  dsimp only
  by_cases hdue : heartbeatDue nd now = true
  swap
  · have e : heartbeatRound nd.host now replies = nd.host := if_neg hdue
    rw [e]
    exact iff_of_true (leaderSpeech_commitLoop _ _ hs hnil) (.inl (by simpa using hdue))
  simp only [hdue, Bool.true_eq_false, false_or]
  obtain ⟨hspeech, hstate⟩ := forPeers_sendHeartbeat_iff nd.peers.length 0 replies
    (nd.host.modify fun nd =>
      { nd with lastHeartbeatMs := now, heartbeatsSent := nd.heartbeatsSent + 1 })
    (Nat.zero_add _) hs rfl hnil
  have e : forPeers sendHeartbeat nd.peers.length 0 replies (nd.host.modify fun nd =>
      { nd with lastHeartbeatMs := now, heartbeatsSent := nd.heartbeatsSent + 1 }) =
      heartbeatRound nd.host now replies := (if_pos hdue).symm
  rw [e] at hspeech hstate
  have htest := @committable_heartbeatRound nd now replies hs hnd hdue
  generalize heartbeatRound nd.host now replies = g at *
  change _ ↔ LaterOnlyLast nd.currentTerm nd.peers.length replies ∧ _
  by_cases hlater : LaterOnlyLast nd.currentTerm nd.peers.length replies
  swap
  · refine iff_of_false (fun hok => hlater (hspeech.1 ?_)) fun h => hlater h.1
    exact fun s hs => hok s (commitLoop_trace _ _ _ hs)
  have hg := hspeech.2 hlater
  by_cases hnot : LastNotLater nd.currentTerm nd.peers.length replies
  · refine iff_of_true (leaderSpeech_commitLoop _ _ ((hstate hlater).2 hnot) hg) ⟨hlater, ?_⟩
    intro k r hk hr hlt
    have := hnot k r hk hr
    grind
  · have hs' : g.node.state ≠ .leader := fun hl => hnot ((hstate hlater).1 hl)
    have hturns : commitTurns g.node =
        (lastLogIndex g.node).toNat + 1 - (g.node.commitIndex + 1).toNat := rfl
    rw [leaderSpeech_commitLoop_iff _ _ hs' hg (hg_last ▸ hlast) hturns, hg_last, hg_commit]
    constructor
    · intro hall
      refine ⟨hlater, fun k r hk hr hlt n hn hn' => ?_⟩
      rw [← htest hlater hk hr hlt]
      exact hall n hn hn'
    · rintro ⟨-, hall⟩ n hn hn'
      simp only [LastNotLater, not_forall] at hnot
      obtain ⟨k, r, hk, hr, hle⟩ := hnot
      have hlt : nd.currentTerm < r.term := by grind
      rw [htest hlater hk hr hlt]
      exact hall k r hk hr hlt n hn hn'

/-- Node `a` leads term 1 with peers `b` and `c`, heartbeats due. -/
def firstLeader : RaftNode :=
  { raftInit idA 0 with
    currentTerm := 1
    state := .leader
    peers := [idB, idC].map fun i =>
      { nodeId := i, ipAddress := CString.empty, port := 0, nextIndex := 1, matchIndex := 0,
        inflightRpcs := 0, voteGranted := false } }

/-- Replies of the leader's own term keep its tick within its leadership. -/
theorem leaderTick_speaks_same_term :
    LeaderSpeech (leaderTick firstLeader.host 50 [some ⟨1, 1, 0⟩, some ⟨1, 1, 0⟩]).trace := by
  refine (leaderTick_speaks_iff firstLeader 50 _ (by decide) (by decide) (by decide)).2 (.inr ⟨?_, ?_⟩)
  · intro k r hk hr
    obtain rfl : k = 0 := Nat.lt_one_iff.1 (Nat.lt_of_succ_lt_succ hk)
    cases hr
    decide
  · intro k r hk hr hlt
    obtain rfl : k = 1 := Nat.succ.inj hk
    cases hr
    exact absurd hlt (by decide)

/-- The first peer replies with term 5: the second gets a request of term 5 from a follower. -/
theorem follower_sends_heartbeat :
    ¬ LeaderSpeech (leaderTick firstLeader.host 50 [some ⟨5, 0, 0⟩]).trace := by
  decide

end DRoole
