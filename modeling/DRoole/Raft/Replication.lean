import DRoole.Raft.Applied
import DRoole.Raft.LeaderHint
import DRoole.Raft.Reply

/-!
# A leader's record of its peers

`raft_handle_append_entries_response` overwrites `match_index` and `next_index`
with what a reply reports and steps `next_index` back on a refusal, whatever it
has on record; `raft_add_peer` starts a peer with `next_index` 0. This module has
the record as such: what it means that it is in order (`LeadOk`), which replies
keep it so (`ReplyOk`), and that an election starts it in order (`Poised`).
`Raft/Period` has the peers that give the replies.
-/

namespace DRoole

open Lib

def Leads (t : UInt64) (nd : RaftNode) : Prop := nd.state = .leader ∧ nd.currentTerm = t

instance (t : UInt64) (nd : RaftNode) : Decidable (Leads t nd) := inferInstanceAs (Decidable (_ ∧ _))

/-- Another entry has an index below `2^64`. -/
def Room (nd : RaftNode) : Prop := nd.lastSnapshotIndex.toNat + nd.log.length + 1 < 2 ^ 64

instance (nd : RaftNode) : Decidable (Room nd) := inferInstanceAs (Decidable (_ < _))

/-- Index 0, the snapshot's, or that of an entry in the log. -/
def Known (nd : RaftNode) (i : UInt64) : Prop :=
  i = 0 ∨ i = nd.lastSnapshotIndex ∨ ∃ e, getLogEntry nd i = some e ∧ e.index = i

/-- The record of every peer is in order: what is acknowledged comes before what
is next, which is in the log or right after it, and the `prev_log_index` of a
heartbeat does not wrap and is known. -/
def BookOk (nd : RaftNode) : Prop :=
  ∀ p ∈ nd.peers, p.matchIndex < p.nextIndex ∧ 1 ≤ p.nextIndex ∧
    p.nextIndex.toNat ≤ (lastLogIndex nd).toNat + 1 ∧
    (heartbeat nd p).prevLogIndex.toNat + 1 = p.nextIndex.toNat ∧
    Known nd (heartbeat nd p).prevLogIndex

/-- `q` is a later record of peer `p`. -/
structure Ahead (q p : RaftPeer) : Prop where
  id : q.nodeId = p.nodeId
  le : p.matchIndex ≤ q.matchIndex

instance : Std.Refl Ahead := ⟨fun _ => ⟨rfl, UInt64.le_refl _⟩⟩

instance : IsTrans RaftPeer Ahead :=
  ⟨fun _ _ _ h h' => ⟨h.id.trans h'.id, UInt64.le_trans h'.le h.le⟩⟩

/-- The peers of `b` are peers of `a`, and none has a lower `match_index`. -/
def Advances (a b : RaftNode) : Prop := List.SublistForall₂ Ahead b.peers a.peers

/-! ## Replies in line -/

/-- A success reports an index the leader knows, not below the one on record; a
refusal leaves `next_index` above `match_index` and at an index that is known. -/
def ReplyOk (nd : RaftNode) (id : CString) (r : RaftAppendEntriesResp) : Prop :=
  r.term = nd.currentTerm → ∀ p ∈ findPeer nd.peers id,
    if r.success ≠ 0 then
      p.matchIndex ≤ r.matchIndex ∧ r.matchIndex ≤ lastLogIndex nd ∧
        (r.matchIndex = 0 ∨ nd.lastSnapshotIndex ≤ r.matchIndex)
    else p.nextIndex > 1 →
      p.matchIndex < p.nextIndex - 1 ∧
        (p.nextIndex - 1 = 1 ∨ nd.lastSnapshotIndex < p.nextIndex - 1)

/-! ## The invariant -/

/-- The record of one peer, in numbers. -/
structure Tracked (nd : RaftNode) (p : RaftPeer) : Prop where
  match_lt : p.matchIndex.toNat < p.nextIndex.toNat
  next_le : p.nextIndex.toNat ≤ nd.lastSnapshotIndex.toNat + nd.log.length + 1
  low : p.nextIndex.toNat = 1 ∨ nd.lastSnapshotIndex.toNat < p.nextIndex.toNat

/-- A leader with its record in order. -/
structure LeadOk (nd : RaftNode) : Prop where
  indexed : Indexed nd.lastSnapshotIndex nd.log
  room : Room nd
  tracked : ∀ p ∈ nd.peers, Tracked nd p

namespace Advances

variable {a b c : RaftNode}

theorem of_forall₂ (h : List.Forall₂ Ahead b.peers a.peers) : Advances a b :=
  List.sublistForall₂_iff.2 ⟨_, h, List.Sublist.refl _⟩

theorem of_sublist (h : b.peers.Sublist a.peers) : Advances a b := h.sublistForall₂

theorem trans (hab : Advances a b) (hbc : Advances b c) : Advances a c :=
  IsTrans.trans (r := List.SublistForall₂ Ahead) _ _ _ hbc hab

end Advances

/-- Neither the record, nor the log, nor the leadership changes. -/
structure SameBook (a b : RaftNode) : Prop where
  peers : b.peers = a.peers
  log : b.log = a.log
  snapshot : b.lastSnapshotIndex = a.lastSnapshotIndex
  snapshotTerm : b.lastSnapshotTerm = a.lastSnapshotTerm
  state : b.state = a.state
  term : b.currentTerm = a.currentTerm

/-- A leader's log is the same or has one more entry, and the peers left have the same records. -/
structure Carried (a b : RaftNode) : Prop where
  peers : b.peers.Sublist a.peers
  log : b.log = a.log ∨ ∃ data, b.log = a.log ++ [submitEntry a data]
  snapshot : b.lastSnapshotIndex = a.lastSnapshotIndex
  snapshotTerm : b.lastSnapshotTerm = a.lastSnapshotTerm

theorem SameBook.refl (a : RaftNode) : SameBook a a := ⟨rfl, rfl, rfl, rfl, rfl, rfl⟩

theorem SameBook.trans {a b c : RaftNode} (h : SameBook a b) (h' : SameBook b c) : SameBook a c :=
  ⟨h'.peers.trans h.peers, h'.log.trans h.log, h'.snapshot.trans h.snapshot,
    h'.snapshotTerm.trans h.snapshotTerm, h'.state.trans h.state, h'.term.trans h.term⟩

theorem SameBook.carried {a b : RaftNode} (h : SameBook a b) : Carried a b :=
  ⟨h.peers ▸ List.Sublist.refl _, .inl h.log, h.snapshot, h.snapshotTerm⟩

theorem SameBook.leads_iff {t : UInt64} {a b : RaftNode} (h : SameBook a b) :
    Leads t b ↔ Leads t a := by
  unfold Leads
  rw [h.state, h.term]

theorem SameBook.room_iff {a b : RaftNode} (h : SameBook a b) : Room b ↔ Room a := by
  unfold Room
  rw [h.snapshot, h.log]

theorem Carried.log_le {a b : RaftNode} (h : Carried a b) : a.log <+: b.log := by
  rcases h.log with e | ⟨data, e⟩ <;> rw [e]
  exact List.prefix_append ..

theorem updatePeer_ahead {ps : List RaftPeer} {id : CString} {f : RaftPeer → RaftPeer}
    (hf : ∀ p, findPeer ps id = some p → Ahead (f p) p) :
    List.Forall₂ Ahead (updatePeer id f ps) ps := by
  induction ps with
  | nil => exact .nil
  | cons p ps ih =>
    unfold updatePeer
    split
    · rename_i hp
      refine .cons (hf p ?_) (List.forall₂_refl ps)
      exact List.find?_cons_of_pos (by simpa using hp)
    · rename_i hp
      refine .cons (Std.Refl.refl p) (ih fun q hq => hf q ?_)
      unfold findPeer at hq ⊢
      rw [List.find?_cons_of_neg (by simpa using hp), hq]

namespace LeadOk

variable {a b : RaftNode}

theorem toNat_lastLogIndex (hok : LeadOk a) :
    (lastLogIndex a).toNat = a.lastSnapshotIndex.toNat + a.log.length := by
  have hroom := hok.room
  unfold Room at hroom
  exact DRoole.toNat_lastLogIndex ⟨hok.indexed, by omega⟩

theorem withPeers (hok : LeadOk a) (hsnap : b.lastSnapshotIndex = a.lastSnapshotIndex)
    (hlog : b.log = a.log) (hpeers : ∀ p ∈ b.peers, p ∈ a.peers ∨ Tracked a p) : LeadOk b := by
  refine ⟨by rw [hsnap, hlog]; exact hok.indexed, by rw [Room, hsnap, hlog]; exact hok.room,
    fun p hp => ?_⟩
  have htr : Tracked a p := (hpeers p hp).elim (hok.tracked p) id
  exact ⟨htr.match_lt, by rw [hsnap, hlog]; exact htr.next_le, by rw [hsnap]; exact htr.low⟩

theorem carried (hok : LeadOk a) (hroom : Room b) (hc : Carried a b) : LeadOk b ∧ Advances a b := by
  have hlen : a.log.length ≤ b.log.length := hc.log_le.length_le
  refine ⟨⟨?_, hroom, fun p hp => ?_⟩, .of_sublist hc.peers⟩
  · rw [hc.snapshot]
    rcases hc.log with e | ⟨data, e⟩ <;> rw [e]
    · exact hok.indexed
    · exact indexed_submitEntry hok.indexed data
  · have htr := hok.tracked p (hc.peers.subset hp)
    have hle := htr.next_le
    exact ⟨htr.match_lt, by rw [hc.snapshot]; omega, by rw [hc.snapshot]; exact htr.low⟩

theorem updatePeer (hok : LeadOk a) {id : CString} {f : RaftPeer → RaftPeer}
    (hf : ∀ p, findPeer a.peers id = some p → Ahead (f p) p ∧ Tracked a (f p)) :
    let b := { a with peers := DRoole.updatePeer id f a.peers }
    LeadOk b ∧ Advances a b := by
  refine ⟨hok.withPeers rfl rfl fun q hq => ?_, .of_forall₂ (updatePeer_ahead fun p hp => (hf p hp).1)⟩
  refine (mem_updatePeer hq).imp_right ?_
  rintro ⟨p, hp, rfl⟩
  exact (hf p hp).2

theorem recordMatch (hok : LeadOk a) {id : CString} {p : RaftPeer} {m : UInt64}
    (hp : findPeer a.peers id = some p) (hle : p.matchIndex ≤ m) (hm : m ≤ lastLogIndex a)
    (hlow : m = 0 ∨ a.lastSnapshotIndex ≤ m) :
    LeadOk (DRoole.recordMatch id m a) ∧ Advances a (DRoole.recordMatch id m a) := by
  have hroom := hok.room
  unfold Room at hroom
  have hm := UInt64.le_iff_toNat_le.1 hm
  rw [hok.toNat_lastLogIndex] at hm
  have hnext : (m + 1).toNat = m.toNat + 1 := by
    rw [UInt64.toNat_add, UInt64.toNat_one]
    omega
  refine hok.updatePeer fun q hq => ?_
  cases hp.symm.trans hq
  refine ⟨⟨rfl, hle⟩, ?_, ?_, ?_⟩
  · show m.toNat < (m + 1).toNat
    omega
  · show (m + 1).toNat ≤ _
    omega
  · show (m + 1).toNat = 1 ∨ _ < (m + 1).toNat
    rcases hlow with rfl | hlow
    · exact .inl rfl
    · have := UInt64.le_iff_toNat_le.1 hlow
      exact .inr (by omega)

theorem backOff (hok : LeadOk a) {id : CString} {p : RaftPeer}
    (hp : findPeer a.peers id = some p) (hn : p.nextIndex > 1)
    (hmatch : p.matchIndex < p.nextIndex - 1)
    (hlow : p.nextIndex - 1 = 1 ∨ a.lastSnapshotIndex < p.nextIndex - 1) :
    LeadOk (DRoole.backOff id a) ∧ Advances a (DRoole.backOff id a) := by
  have htr := hok.tracked p (List.mem_of_find?_eq_some hp)
  have hle := htr.next_le
  have hprev : (p.nextIndex - 1).toNat = p.nextIndex.toNat - 1 :=
    UInt64.toNat_sub_of_le _ _ (UInt64.le_of_lt hn)
  refine hok.updatePeer fun q hq => ?_
  cases hp.symm.trans hq
  refine ⟨⟨rfl, UInt64.le_refl _⟩, UInt64.lt_iff_toNat_lt.1 hmatch, ?_, ?_⟩
  · show (p.nextIndex - 1).toNat ≤ _
    omega
  · exact hlow.imp (congrArg UInt64.toNat) UInt64.lt_iff_toNat_lt.1

end LeadOk

/-! ## Replies -/

theorem leads_of_response {t : UInt64} {h : Host} {id : CString} {r : RaftAppendEntriesResp}
    (hl : Leads t (raftHandleAppendEntriesResponse h id r).node) :
    Leads t h.node ∧ ¬ h.node.currentTerm < r.term := by
  by_cases hlt : h.node.currentTerm < r.term
  · rw [appendEntriesResponse_of_lt hlt] at hl
    exact absurd hl.1 (by simp [becomeFollower, persistState])
  · obtain ⟨ps, -, e⟩ := appendEntriesResponse_of_le id hlt
    rw [e] at hl
    exact ⟨hl, hlt⟩

/-- A reply of another term, or from nobody that is known, changes nothing. The others are
recorded in the peer that is found. -/
theorem response_cases {t : UInt64} {h : Host} {id : CString} {r : RaftAppendEntriesResp}
    (hl : Leads t (raftHandleAppendEntriesResponse h id r).node) :
    (raftHandleAppendEntriesResponse h id r).node = h.node ∨
    (r.term = h.node.currentTerm ∧ ∃ p, findPeer h.node.peers id = some p ∧
      ((r.success ≠ 0 ∧
          (raftHandleAppendEntriesResponse h id r).node = recordMatch id r.matchIndex h.node) ∨
        (r.success = 0 ∧ p.nextIndex > 1 ∧
          (raftHandleAppendEntriesResponse h id r).node = backOff id h.node))) := by
  obtain ⟨-, hle⟩ := leads_of_response hl
  unfold raftHandleAppendEntriesResponse
  rw [if_neg hle]
  split
  · exact .inl rfl
  rename_i hst
  have hterm : r.term = h.node.currentTerm := by
    obtain ⟨-, hge⟩ := not_or.1 hst
    grind
  split
  · exact .inl rfl
  rename_i p hp
  split
  · rename_i hsucc
    exact .inr ⟨hterm, p, hp, .inl ⟨hsucc, rfl⟩⟩
  rename_i hsucc
  split
  · rename_i hn
    exact .inr ⟨hterm, p, hp, .inr ⟨not_not.1 hsucc, hn, rfl⟩⟩
  · exact .inl rfl

/-- **A reply in line** keeps the record of a leader in order. -/
theorem LeadOk.response {t : UInt64} {h : Host} (hok : LeadOk h.node) {id : CString}
    {r : RaftAppendEntriesResp} (hr : ReplyOk h.node id r)
    (hl : Leads t (raftHandleAppendEntriesResponse h id r).node) :
    LeadOk (raftHandleAppendEntriesResponse h id r).node ∧
      Advances h.node (raftHandleAppendEntriesResponse h id r).node := by
  rcases response_cases hl with e | ⟨hterm, p, hp, ⟨hsucc, e⟩ | ⟨hsucc, hn, e⟩⟩ <;> rw [e]
  · exact hok.carried hok.room (SameBook.refl _).carried
  · have hr := hr hterm p hp
    rw [if_pos hsucc] at hr
    exact hok.recordMatch hp hr.1 hr.2.1 hr.2.2
  · have hr := hr hterm p hp
    rw [if_neg (not_not.2 hsucc)] at hr
    exact hok.backOff hp hn (hr hn).1 (hr hn).2

/-! ## The calls of a leader -/

theorem tick_sameBook {t : UInt64} {h : Host} (hl : Leads t h.node) (env : TickEnv) :
    SameBook (heartbeatRound h env.now env.appendReplies).node (raftTick h env).node := by
  have hcommit : SameBook (heartbeatRound h env.now env.appendReplies).node
      (leaderTick h env.now env.appendReplies).node :=
    commitLoop_induct (P := fun g => SameBook (heartbeatRound h env.now env.appendReplies).node g.node)
      (fun _ _ _ _ hg => hg.trans ⟨rfl, rfl, rfl, rfl, rfl, rfl⟩) _ _ _ (.refl _)
  have happly : SameBook (leaderTick h env.now env.appendReplies).node (raftTick h env).node := by
    unfold raftTick
    rw [if_pos hl.1]
    obtain ⟨n, e⟩ := applyCommittedEntries_node (leaderTick h env.now env.appendReplies)
    rw [e]
    exact ⟨rfl, rfl, rfl, rfl, rfl, rfl⟩
  exact hcommit.trans happly

theorem submit_carried (h : Host) (alloc : Alloc) (data : Bytes) :
    Carried h.node (raftSubmit h alloc data).1.node := by
  have hsoft := ensureLogCapacity_soft h.node alloc.realloc
  have hcap : SameBook h.node (ensureLogCapacity h.node alloc.realloc) := by
    rw [hsoft]
    exact ⟨rfl, rfl, rfl, rfl, rfl, rfl⟩
  unfold raftSubmit
  split
  · exact (SameBook.refl _).carried
  dsimp only
  split
  · exact hcap.carried
  · refine ⟨hcap.carried.peers, .inr ⟨data, ?_⟩, hcap.snapshot, hcap.snapshotTerm⟩
    have hentry : submitEntry (ensureLogCapacity h.node alloc.realloc) data =
        submitEntry h.node data := by
      rw [submitEntry, submitEntry, hcap.term, lastLogIndex_congr hcap.log hcap.snapshot]
    show (ensureLogCapacity h.node alloc.realloc).log ++
      [submitEntry (ensureLogCapacity h.node alloc.realloc) data] = _
    rw [hentry, hcap.log]

theorem stepDown_of_leader {h : Host} {term : UInt64} (hl : (stepDown h term).node.state = .leader) :
    stepDown h term = h := by
  unfold stepDown at hl ⊢
  split at hl
  · exact absurd hl (by simp [becomeFollower, persistState])
  · rename_i hle
    rw [if_neg hle]

theorem appendEntries_of_leader {h : Host} {now : UInt64} {req : RaftAppendEntriesReq}
    {es : List RaftLogEntry} (hl : (raftHandleAppendEntries h now req es).1.node.state = .leader) :
    (raftHandleAppendEntries h now req es).1 = h := by
  by_cases hterm : req.term < h.node.currentTerm
  · rw [raftHandleAppendEntries_stale now es hterm]
  · have hheard := (raftHandleAppendEntries_heard now es hterm).state
    exact absurd (hheard.symm.trans hl) (by decide)

/-- A call that neither adds a peer nor brings a reply to a heartbeat. -/
def Plain (nd : RaftNode) : ApiCall → Prop
  | .tick _ | .appendEntriesResponse .. => False
  | .addPeer _ peerId _ _ => (findPeer nd.peers peerId).isSome
  | _ => True

instance (nd : RaftNode) : (c : ApiCall) → Decidable (Plain nd c)
  | .tick _ | .appendEntriesResponse .. => .isFalse id
  | .addPeer .. => inferInstanceAs (Decidable (_ = true))
  | .submit .. | .removePeer .. | .requestVote .. | .appendEntries .. | .installSnapshot
  | .requestVoteResponse .. => .isTrue trivial

theorem call_carried {t : UInt64} {h : Host} (hl : Leads t h.node) {c : ApiCall}
    (hc : Plain h.node c) (hl' : Leads t (h.call c).node) : Carried h.node (h.call c).node := by
  have hsame : Carried h.node h.node := (SameBook.refl _).carried
  cases c with
  | tick | appendEntriesResponse => exact hc.elim
  | submit alloc data => exact submit_carried h alloc data
  | addPeer realloc peerId ip port =>
    show Carried h.node (raftAddPeer h.node realloc peerId ip port).1
    have hknown : (findPeer h.node.peers peerId).isSome := hc
    rw [raftAddPeer, if_pos hknown]
    exact hsame
  | removePeer peerId =>
    show Carried h.node (raftRemovePeer h.node peerId).1
    unfold raftRemovePeer
    split
    · exact ⟨List.eraseP_sublist .., .inl rfl, rfl, rfl⟩
    · exact hsame
  | requestVote now req =>
    show Carried h.node (raftHandleRequestVote h now req).1.node
    have hl' : (raftHandleRequestVote h now req).1.node.state = .leader := hl'.1
    rcases raftHandleRequestVote_cases h now req with e | ⟨-, e⟩ <;> rw [e] at hl' ⊢
    · rw [stepDown_of_leader hl']
      exact hsame
    · rw [stepDown_of_leader (h := h) hl']
      exact ⟨List.Sublist.refl _, .inl rfl, rfl, rfl⟩
  | appendEntries now req es =>
    show Carried h.node (raftHandleAppendEntries h now req es).1.node
    rw [appendEntries_of_leader hl'.1]
    exact hsame
  | installSnapshot => exact hsame
  | requestVoteResponse alloc peerId resp =>
    have hl' : (raftHandleRequestVoteResponse h alloc peerId resp).node.state = .leader := hl'.1
    show Carried h.node (raftHandleRequestVoteResponse h alloc peerId resp).node
    unfold raftHandleRequestVoteResponse at hl' ⊢
    split at hl'
    · exact absurd hl' (by simp [becomeFollower, persistState])
    · rename_i hle
      rw [if_neg hle, if_pos (.inl (by rw [hl.1]; decide))]
      exact hsame

/-! ## The start of a period -/

/-- The record of a peer that has not answered yet, of a leader elected with last index `base`. -/
def Fresh (base : UInt64) (p : RaftPeer) : Prop := p.matchIndex = 0 ∧ p.nextIndex = base + 1

/-- The log is numbered and, up to an election, ends at `base`. A leader's record is in order and
no peer has answered. -/
structure Poised (base : UInt64) (nd : RaftNode) : Prop where
  indexed : Indexed nd.lastSnapshotIndex nd.log
  last : nd.state = .candidate → lastLogIndex nd = base
  lead : nd.state = .leader → Room nd → LeadOk nd ∧ base ≤ lastLogIndex nd
  fresh : nd.state = .leader → ∀ p ∈ nd.peers, Fresh base p

namespace Poised

variable {base : UInt64} {a b : RaftNode}

theorem frame (hp : Poised base a) (hs : SameBook a b) : Poised base b where
  indexed := by
    rw [hs.snapshot, hs.log]
    exact hp.indexed
  last := by
    rw [hs.state, lastLogIndex_congr hs.log hs.snapshot]
    exact hp.last
  lead := by
    intro hl hroom
    rw [lastLogIndex_congr hs.log hs.snapshot]
    obtain ⟨hok, hle⟩ := hp.lead (hs.state ▸ hl) (hs.room_iff.1 hroom)
    exact ⟨(hok.carried hroom hs.carried).1, hle⟩
  fresh := by
    rw [hs.state, hs.peers]
    exact hp.fresh

theorem of_follower (hp : Poised base a) (hsnap : b.lastSnapshotIndex = a.lastSnapshotIndex)
    (hlog : b.log = a.log) (hs : b.state = .follower) : Poised base b where
  indexed := by
    rw [hsnap, hlog]
    exact hp.indexed
  last := fun hc => absurd (hs.symm.trans hc) (by decide)
  lead := fun hl => absurd (hs.symm.trans hl) (by decide)
  fresh := fun hl => absurd (hs.symm.trans hl) (by decide)

theorem of_candidate (hp : Poised base a) (hlast : lastLogIndex a = base)
    (hsnap : b.lastSnapshotIndex = a.lastSnapshotIndex) (hlog : b.log = a.log)
    (hs : b.state = .candidate) : Poised base b where
  indexed := by
    rw [hsnap, hlog]
    exact hp.indexed
  last := fun _ => (lastLogIndex_congr hlog hsnap).trans hlast
  lead := fun hl => absurd (hs.symm.trans hl) (by decide)
  fresh := fun hl => absurd (hs.symm.trans hl) (by decide)

/-- `become_leader` sets every `next_index` right after the log. -/
theorem takeLead (hp : Poised base a) (hs : a.state = .candidate) :
    Poised base (DRoole.takeLead a) := by
  have hfresh : ∀ p ∈ (DRoole.takeLead a).peers, Fresh base p := by
    intro p hmem
    obtain ⟨q, -, rfl⟩ := List.mem_map.1 hmem
    exact ⟨rfl, by rw [← hp.last hs]⟩
  have hlast : lastLogIndex (DRoole.takeLead a) = base := hp.last hs
  refine ⟨hp.indexed, fun _ => hlast, fun _ hroom => ⟨⟨hp.indexed, hroom, fun p hmem => ?_⟩, ?_⟩,
    fun _ => hfresh⟩
  · obtain ⟨hmatch, hnext⟩ := hfresh p hmem
    have hbase : base.toNat = a.lastSnapshotIndex.toNat + a.log.length := by
      unfold Room at hroom
      have hroom : a.lastSnapshotIndex.toNat + a.log.length + 1 < 2 ^ 64 := hroom
      rw [← hp.last hs]
      exact toNat_lastLogIndex ⟨hp.indexed, by omega⟩
    have hroom : a.lastSnapshotIndex.toNat + a.log.length + 1 < 2 ^ 64 := hroom
    have hnext : p.nextIndex.toNat = a.lastSnapshotIndex.toNat + a.log.length + 1 := by
      rw [hnext, UInt64.toNat_add, UInt64.toNat_one, hbase]
      omega
    refine ⟨?_, hnext.le, .inr ?_⟩
    · rw [hmatch, hnext]
      exact Nat.succ_pos _
    · show a.lastSnapshotIndex.toNat < _
      omega
  · rw [hlast]
    exact UInt64.le_refl _

end Poised

/-- The labels of an election and of what follows it within one call at `h0`. -/
def ElectionLabel (h0 h : Host) : Label → Prop
  | .reconfigure | .accept _ | .ack .. | .backOff _ => False
  | .campaign => h = h0
  | _ => True

theorem Poised.move {base : UInt64} {h0 h h' : Host} {l : Label} (hp : Poised base h.node)
    (hbase : lastLogIndex h0.node = base) (hl : ElectionLabel h0 h l) (hm : Move l h h') :
    Poised base h'.node := by
  cases hm with
  | quiet | send | grant | commit | apply | skip => exact hp.frame ⟨rfl, rfl, rfl, rfl, rfl, rfl⟩
  | follow | yield => exact hp.of_follower rfl rfl rfl
  | campaign =>
    obtain rfl : h = h0 := hl
    exact hp.of_candidate hbase rfl rfl rfl
  | count id p hs => exact hp.of_candidate (hp.last hs) rfl rfl hs
  | elect hs => exact hp.takeLead hs
  | append data hs =>
    have hc : Carried h.node
        (persistState (h.modify fun nd => { nd with log := nd.log ++ [submitEntry nd data] })).node :=
      ⟨List.Sublist.refl _, .inr ⟨data, rfl⟩, rfl, rfl⟩
    refine ⟨indexed_submitEntry hp.indexed data, fun hc => absurd (hs.symm.trans hc) (by decide),
      fun _ hroom => ?_, fun _ => hp.fresh hs⟩
    have hbefore : Room h.node := by
      have hlen := hc.log_le.length_le
      unfold Room at hroom ⊢
      rw [hc.snapshot] at hroom
      omega
    obtain ⟨hok, hle⟩ := hp.lead hs hbefore
    have hok' := (hok.carried hroom hc).1
    refine ⟨hok', UInt64.le_trans hle ?_⟩
    rw [UInt64.le_iff_toNat_le, hok.toNat_lastLogIndex, hok'.toNat_lastLogIndex, hc.snapshot]
    exact Nat.add_le_add_left hc.log_le.length_le _
  | reconfigure | accept | ack | backOff => exact hl.elim

theorem electionLabel_of_voteResp {id : CString} {resp : RaftRequestVoteResp} {h0 h : Host}
    {l : Label} (hl : VoteRespLabel id resp h l) : ElectionLabel h0 h l := by
  cases l with
  | reconfigure | accept | ack | backOff | campaign => exact hl.elim
  | _ => trivial

theorem electionLabel_of_tick {h0 h : Host} {env : TickEnv} {l : Label}
    (hs : h0.node.state ≠ .leader) (hl : TickLabel h0 env h l) : ElectionLabel h0 h l := by
  rcases hl with hl | ⟨hlead, -⟩ | ⟨-, -, hl⟩
  · cases l with
    | reconfigure | accept | ack | backOff | campaign => exact hl.elim
    | _ => trivial
  · exact absurd hlead hs
  · cases l with
    | reconfigure | accept | ack | backOff =>
      obtain ⟨_, _, -, hl⟩ := hl
      exact hl.elim
    | campaign => exact hl
    | _ => trivial

theorem Host.Moves.state_ne_leader {K : Host → Label → Prop} {h h' : Host} (hm : h.Moves K h')
    (hK : ∀ g, ¬ K g .elect) (hs : h.node.state ≠ .leader) : h'.node.state ≠ .leader := by
  refine hm.invariant (P := fun g => g.node.state ≠ .leader) hs fun x y l hx hk hl => ?_
  cases hl with
  | elect => exact absurd hk (hK x)
  | follow | yield | campaign => simp [becomeFollower, persistState, voteSelf, startElection]
  | _ => exact hx

/-- A node that a call makes leader starts with its record in order. -/
theorem poised_of_elected {h : Host} {c : ApiCall} (hidx : Indexed h.node.lastSnapshotIndex h.node.log)
    (hs : h.node.state ≠ .leader) (hl : (h.call c).node.state = .leader) :
    Poised (lastLogIndex h.node) (h.call c).node := by
  have hp : Poised (lastLogIndex h.node) h.node :=
    ⟨hidx, fun _ => rfl, fun hl => absurd hl hs, fun hl => absurd hl hs⟩
  have hm := h.call_moves c
  cases c with
  | tick env =>
    exact hm.invariant (P := fun g => Poised (lastLogIndex h.node) g.node) hp fun _ _ _ hx hk hmv =>
      hx.move rfl (electionLabel_of_tick hs hk) hmv
  | requestVoteResponse alloc id resp =>
    exact hm.invariant (P := fun g => Poised (lastLogIndex h.node) g.node) hp fun _ _ _ hx hk hmv =>
      hx.move (rfl : lastLogIndex h.node = _) (electionLabel_of_voteResp hk) hmv
  | addPeer | removePeer =>
    exact absurd hl (hm.state_ne_leader (fun _ hk => by simp [CallLabel] at hk) hs)
  | _ => exact absurd hl (hm.state_ne_leader (fun _ hk => hk.elim) hs)

/-! ## The record in order -/

theorem LeadOk.bookOk {nd : RaftNode} (hok : LeadOk nd) : BookOk nd := by
  intro p hp
  have htr := hok.tracked p hp
  have hroom := hok.room
  have hlt := htr.match_lt
  have hle := htr.next_le
  unfold Room at hroom
  have hone : 1 ≤ p.nextIndex := by
    rw [UInt64.le_iff_toNat_le, UInt64.toNat_one]
    omega
  have hprev : (heartbeat nd p).prevLogIndex.toNat = p.nextIndex.toNat - 1 :=
    UInt64.toNat_sub_of_le _ _ hone
  refine ⟨UInt64.lt_iff_toNat_lt.2 hlt, hone, by rw [hok.toNat_lastLogIndex]; exact hle,
    by omega, ?_⟩
  rcases htr.low with hlow | hlow
  · exact .inl (UInt64.toNat_inj.1 (by rw [hprev, hlow]; rfl))
  rcases Nat.lt_or_ge nd.lastSnapshotIndex.toNat (p.nextIndex.toNat - 1) with hgt | hge
  · generalize (heartbeat nd p).prevLogIndex = i at *
    have hpos : i.toNat - nd.lastSnapshotIndex.toNat - 1 < nd.log.length := by omega
    have hentry : getLogEntry nd i = some nd.log[i.toNat - nd.lastSnapshotIndex.toNat - 1] := by
      rw [getLogEntry_eq, if_neg (by omega), List.getElem?_eq_getElem hpos]
    exact .inr (.inr ⟨_, hentry, index_of_getLogEntry hok.indexed hentry⟩)
  · exact .inr (.inl (UInt64.toNat_inj.1 (by omega)))

end DRoole
