import DRoole.Raft.Progress
import DRoole.Raft.Replication

/-!
# A leader and its peers, over one term

A leader with the nodes that answer it: the requests it has sent, the replies that
are on their way, and the peers, which take calls of their own in between. Requests
and replies may be lost, delayed, repeated and reordered, or a reply may come back
within the `send_rpc` call of the heartbeat it answers.

A peer in the leader's term keeps its log, since the leader sends no entries. So all
its successes report the same index, and `PeriodInv` ties the leader's record of the
peer to that index.
-/

namespace DRoole

open Lib

/-- A leader, its peers, what it has sent and what they have answered, each reply with the request
that it answers. -/
structure Period where
  leader : Host
  peer : CString → Host
  requests : List (CString × RaftAppendEntriesReq)
  replies : List (CString × RaftAppendEntriesReq × RaftAppendEntriesResp)

namespace Period

def start (h : Host) (peer : CString → Host) : Period := ⟨h, peer, [], []⟩

def send (s : Period) (p : RaftPeer) : Period :=
  { s with
    leader := s.leader.emit (.sendRpc p.nodeId (.appendEntries (heartbeat s.leader.node p)))
    requests := s.requests ++ [(p.nodeId, heartbeat s.leader.node p)] }

def serve (s : Period) (id : CString) (req : RaftAppendEntriesReq) (now : UInt64) : Period :=
  let r := raftHandleAppendEntries (s.peer id) now req []
  { s with
    peer := Function.update s.peer id r.1
    replies := s.replies ++ [(id, req, r.2)] }

def take (s : Period) (id : CString) (resp : RaftAppendEntriesResp) : Period :=
  { s with leader := raftHandleAppendEntriesResponse s.leader id resp }

/-- What the peer of record `p` answers at time `now` to the heartbeat that it is sent. -/
def replyTo (s : Period) (p : RaftPeer) (now : UInt64) : RaftAppendEntriesResp :=
  (raftHandleAppendEntries (s.peer p.nodeId) now (heartbeat s.leader.node p) []).2

/-- A heartbeat, which is answered within the call if the peer handles it at once. -/
def beat (s : Period) (p : RaftPeer) : Option UInt64 → Period
  | none => s.send p
  | some now =>
    ((s.send p).serve p.nodeId (heartbeat s.leader.node p) now).take p.nodeId (s.replyTo p now)

def beats : Nat → Nat → List (Option UInt64) → Period → Period
  | 0, _, _, s => s
  | n + 1, i, served, s =>
    match s.leader.node.peers[i]? with
    | none => s
    | some p => beats n (i + 1) served.tail (s.beat p served.head?.join)

/-- The replies that come back within these heartbeats. -/
def brought : Nat → Nat → List (Option UInt64) → Period → List (Option RaftAppendEntriesResp)
  | 0, _, _, _ => []
  | n + 1, i, served, s =>
    match s.leader.node.peers[i]? with
    | none => []
    | some p =>
      served.head?.join.map (s.replyTo p) ::
        brought n (i + 1) served.tail (s.beat p served.head?.join)

/-- The leader at the head of its heartbeats. -/
def due (s : Period) (now : UInt64) : Period :=
  { s with leader := s.leader.modify fun nd =>
      { nd with lastHeartbeatMs := now, heartbeatsSent := nd.heartbeatsSent + 1 } }

/-- `raft_tick` of the leader; `served` says which peers answer within the call, and when. -/
def tick (s : Period) (env : TickEnv) (served : List (Option UInt64)) : Period :=
  if heartbeatDue s.leader.node env.now then
    let replies := (s.due env.now).brought s.leader.node.peers.length 0 served
    { (s.due env.now).beats s.leader.node.peers.length 0 served with
      leader := raftTick s.leader { env with appendReplies := replies } }
  else { s with leader := raftTick s.leader { env with appendReplies := [] } }

end Period

inductive PeriodAction where
  | tick (env : TickEnv) (served : List (Option UInt64))
  /-- Another call of the leader. -/
  | call (c : ApiCall)
  | peerCall (id : CString) (c : ApiCall)
  /-- A request reaches its peer. -/
  | deliver (id : CString) (req : RaftAppendEntriesReq) (now : UInt64)
  /-- A reply reaches the leader. -/
  | answer (id : CString) (req : RaftAppendEntriesReq) (resp : RaftAppendEntriesResp)

def Period.step (s : Period) : PeriodAction → Option Period
  | .tick env served => some (s.tick env served)
  | .call c => some { s with leader := s.leader.call c }
  | .peerCall id c => some { s with peer := Function.update s.peer id ((s.peer id).call c) }
  | .deliver id req now => if (id, req) ∈ s.requests then some (s.serve id req now) else none
  | .answer id req resp => if (id, req, resp) ∈ s.replies then some (s.take id resp) else none

/-! ## The conditions -/

/-- The log of `g` ends in the log that the leader was elected with, at `base`: not before its
snapshot, and with the term that the leader has there. -/
def LogInLine (base : UInt64) (leader g : RaftNode) : Prop :=
  leader.lastSnapshotIndex ≤ lastLogIndex g ∧ lastLogIndex g ≤ base ∧
    termAtIndex g (lastLogIndex g) = termAtIndex leader (lastLogIndex g)

instance (base : UInt64) (leader g : RaftNode) : Decidable (LogInLine base leader g) :=
  inferInstanceAs (Decidable (_ ∧ _ ∧ _))

/-- The peer that handles a request does not itself lead the term; if it is in that term, its log
is in line. -/
def ServeOk (t base : UInt64) (s : Period) (id : CString) : Prop :=
  ¬ Leads t (s.peer id).node ∧
    ((s.peer id).node.currentTerm = t → LogInLine base s.leader.node (s.peer id).node)

instance (t base : UInt64) (s : Period) (id : CString) : Decidable (ServeOk t base s id) :=
  inferInstanceAs (Decidable (_ ∧ (_ → _)))

/-- A refusal answers a request that was sent with the present `next_index`. -/
def InTurn (nd : RaftNode) (id : CString) (req : RaftAppendEntriesReq)
    (resp : RaftAppendEntriesResp) : Prop :=
  resp.success = 0 → ∀ p ∈ findPeer nd.peers id, req.prevLogIndex = p.nextIndex - 1

instance (nd : RaftNode) (id : CString) (req : RaftAppendEntriesReq)
    (resp : RaftAppendEntriesResp) : Decidable (InTurn nd id req resp) :=
  inferInstanceAs (Decidable (_ → _))

/-- The two conditions on a peer that answers within the heartbeat. -/
def BeatOk (t base : UInt64) (s : Period) (p : RaftPeer) : Option UInt64 → Prop
  | none => True
  | some now => ServeOk t base s p.nodeId ∧
      InTurn s.leader.node p.nodeId (heartbeat s.leader.node p) (s.replyTo p now)

instance (t base : UInt64) (s : Period) (p : RaftPeer) :
    (served : Option UInt64) → Decidable (BeatOk t base s p served)
  | none => .isTrue trivial
  | some _ => inferInstanceAs (Decidable (_ ∧ _))

def BeatsOk (t base : UInt64) : Nat → Nat → List (Option UInt64) → Period → Prop
  | 0, _, _, _ => True
  | n + 1, i, served, s =>
    match s.leader.node.peers[i]? with
    | none => True
    | some p => BeatOk t base s p served.head?.join ∧
        BeatsOk t base n (i + 1) served.tail (s.beat p served.head?.join)

instance decidableBeatsOk (t base : UInt64) : (n i : Nat) → (served : List (Option UInt64)) →
    (s : Period) → Decidable (BeatsOk t base n i served s)
  | 0, _, _, _ => .isTrue trivial
  | n + 1, i, served, s => by
    unfold BeatsOk
    split
    · exact .isTrue trivial
    · rename_i p _
      have := decidableBeatsOk t base n (i + 1) served.tail (s.beat p served.head?.join)
      infer_instance

/-- A call of a peer: it does not lead term `t`, nobody else sends it requests of that term, and
no election overflows its term. -/
def PeerCallOk (t : UInt64) (g : Host) (c : ApiCall) : Prop :=
  ¬ Leads t g.node ∧
    match c with
    | .appendEntries _ req _ => req.term ≠ t
    | .tick env => ¬ termOverflows g.node env.now
    | _ => True

instance (t : UInt64) (g : Host) (c : ApiCall) : Decidable (PeerCallOk t g c) := by
  unfold PeerCallOk
  cases c <;> infer_instance

/-- The node leads term `t` and the step is in line. -/
def PeriodOk (t base : UInt64) (s : Period) (a : PeriodAction) : Prop :=
  (Leads t s.leader.node ∧ Room s.leader.node) ∧
    match a with
    | .tick env served => heartbeatDue s.leader.node env.now = true →
        BeatsOk t base s.leader.node.peers.length 0 served (s.due env.now)
    | .call c => Plain s.leader.node c
    | .peerCall id c => PeerCallOk t (s.peer id) c
    | .deliver id _ _ => ServeOk t base s id
    | .answer id req resp => InTurn s.leader.node id req resp

instance (t base : UInt64) (s : Period) (a : PeriodAction) : Decidable (PeriodOk t base s a) := by
  unfold PeriodOk
  cases a <;> infer_instance

/-! ## A peer within the term -/

theorem handleHeartbeat_log (h : Host) (now : UInt64) (req : RaftAppendEntriesReq) :
    lastLogIndex (raftHandleAppendEntries h now req []).1.node = lastLogIndex h.node := by
  by_cases hacc : TakesEntries h.node req
  · obtain ⟨-, -, hlog, hsnap, -⟩ := raftHandleAppendEntries_accepted now [] hacc
    exact lastLogIndex_congr hlog hsnap
  · obtain ⟨-, hlog, hsnap, -⟩ := raftHandleAppendEntries_refused now [] hacc
    exact lastLogIndex_congr hlog hsnap

/-- A node in term `t` has left it, leads it, or has the log of `nd` still. -/
def Holds (t : UInt64) (nd : RaftNode) (g : Host) : Prop :=
  t < g.node.currentTerm ∨ (g.node.currentTerm = t ∧ (g.node.state = .leader ∨
    (g.node.log = nd.log ∧ g.node.lastSnapshotIndex = nd.lastSnapshotIndex)))

theorem Holds.of_same {t : UInt64} {nd : RaftNode} {g g' : Host} (h : Holds t nd g)
    (hterm : g'.node.currentTerm = g.node.currentTerm) (hstate : g'.node.state = g.node.state)
    (hlog : g'.node.log = g.node.log)
    (hsnap : g'.node.lastSnapshotIndex = g.node.lastSnapshotIndex) : Holds t nd g' := by
  unfold Holds
  rw [hterm, hstate, hlog, hsnap]
  exact h

theorem Holds.move {t : UInt64} {g x y : Host} {c : ApiCall} (hc : PeerCallOk t g c)
    (hx : Holds t g.node x) {l : Label} (hl : CallLabel g x l c) (hm : Move l x y) :
    Holds t g.node y := by
  have hleader : x.node.state = .leader → y.node.state = .leader →
      y.node.currentTerm = x.node.currentTerm → Holds t g.node y := by
    intro _ hlead hterm
    unfold Holds
    rw [hterm]
    exact hx.imp_right fun hx => ⟨hx.1, .inl hlead⟩
  cases hm with
  | quiet | reconfigure | send | grant | count | ack | backOff | commit | apply | skip =>
    exact hx.of_same rfl rfl rfl rfl
  | follow t' ht =>
    refine .inl ?_
    show t < t'
    exact hx.elim (fun h => UInt64.lt_trans h ht) fun h => h.1 ▸ ht
  | yield =>
    refine hx.elim (fun h => .inl h) fun h => ?_
    cases c with
    | appendEntries now req es => exact absurd (hl.2.2.trans h.1) hc.2
    | tick env =>
      rcases hl with hl | ⟨-, _, _, -, hl⟩ | ⟨-, -, _, _, -, hl⟩
      all_goals exact hl.elim
    | addPeer | removePeer => simp [CallLabel] at hl
    | _ => exact hl.elim
  | campaign now rand =>
    obtain ⟨env, rfl, rfl, hs, hdue⟩ := callLabel_campaign hl
    have hover : x.node.currentTerm + 1 ≠ 0 := fun h0 => hc.2 ⟨hs, hdue, h0⟩
    have hlt : x.node.currentTerm < x.node.currentTerm + 1 := by grind
    refine .inl ?_
    show t < x.node.currentTerm + 1
    exact hx.elim (fun h => UInt64.lt_trans h hlt) fun h => h.1 ▸ hlt
  | elect => exact hx.imp_right fun h => ⟨h.1, .inl rfl⟩
  | append data hs => exact hleader hs hs rfl
  | accept es =>
    obtain ⟨now, req, rfl⟩ := callLabel_accept hl
    refine hx.elim (fun h => .inl h) fun h => ?_
    exact absurd (hl.2.1.trans h.1) hc.2

/-- **A peer in the term** that does not lead it keeps the end of its log over a call. -/
theorem peerCall_lastLogIndex {t : UInt64} {g : Host} {c : ApiCall} (hc : PeerCallOk t g c)
    (hterm : g.node.currentTerm = t) (hterm' : (g.call c).node.currentTerm = t)
    (hlead : ¬ Leads t (g.call c).node) : lastLogIndex (g.call c).node = lastLogIndex g.node := by
  have hholds : Holds t g.node (g.call c) :=
    (g.call_moves c).invariant (P := Holds t g.node) (.inr ⟨hterm, .inr ⟨rfl, rfl⟩⟩)
      fun _ _ _ hx hl hm => hx.move hc hl hm
  rcases hholds with hlt | ⟨-, hs | ⟨hlog, hsnap⟩⟩
  · exact absurd hlt (by rw [hterm']; exact UInt64.lt_irrefl _)
  · exact absurd ⟨hs, hterm'⟩ hlead
  · exact lastLogIndex_congr hlog hsnap

theorem peerCall_term_le {t : UInt64} {g : Host} {c : ApiCall} (hc : PeerCallOk t g c) :
    g.node.currentTerm ≤ (g.call c).node.currentTerm := by
  refine Host.call_term_le fun env e => ?_
  subst e
  exact hc.2

/-! ## The invariant -/

/-- The record of a peer whose log ends at `m`: nothing is known of it, or `next_index` is still
above `m` and `match_index` 0 or `m`. -/
def OnRecord (snap base m : UInt64) (p : RaftPeer) : Prop :=
  Fresh base p ∨ (snap ≤ m ∧ m ≤ base ∧ m < p.nextIndex ∧
    (p.matchIndex = 0 ∨ (p.matchIndex = m ∧ p.nextIndex = m + 1)))

/-- A reply of a peer whose log ends at `m`. -/
def ReplyFits (t snap base m : UInt64) (req : RaftAppendEntriesReq) (resp : RaftAppendEntriesResp) :
    Prop :=
  resp.term = t → snap ≤ m ∧ m ≤ base ∧
    if resp.success ≠ 0 then resp.matchIndex = m
    else req.prevLogIndex ≠ 0 ∧ req.prevLogIndex ≠ m

/-- Peer `id` at node `g`, with its log ending at `m` once it is in term `t`, and the record that
the leader `nd` has of it. -/
structure PeerInv (t base : UInt64) (nd g : RaftNode)
    (replies : List (CString × RaftAppendEntriesReq × RaftAppendEntriesResp)) (id : CString)
    (m : UInt64) : Prop where
  ends : g.currentTerm = t → ¬ Leads t g → lastLogIndex g = m
  reply : ∀ req resp, (id, req, resp) ∈ replies →
    resp.term ≤ g.currentTerm ∧ ReplyFits t nd.lastSnapshotIndex base m req resp
  record : ∀ p ∈ nd.peers, p.nodeId = id → OnRecord nd.lastSnapshotIndex base m p
  early : g.currentTerm < t → ∀ p ∈ nd.peers, p.nodeId = id → Fresh base p

/-- A request of the leader is of term `t`, and its `prev_log_term` that of the leader's log. -/
structure SentOk (t : UInt64) (nd : RaftNode) (req : RaftAppendEntriesReq) : Prop where
  term : req.term = t
  prev_le : req.prevLogIndex.toNat ≤ nd.lastSnapshotIndex.toNat + nd.log.length
  prevTerm : req.prevLogTerm = termAtIndex nd req.prevLogIndex

structure PeriodInv (t base : UInt64) (s : Period) : Prop where
  lead : LeadOk s.leader.node
  base_le : base ≤ lastLogIndex s.leader.node
  request : ∀ id req, (id, req) ∈ s.requests → SentOk t s.leader.node req
  peer : ∀ id, ∃ m, PeerInv t base s.leader.node (s.peer id).node s.replies id m

/-- As long as the node leads, the invariant holds and the record is ahead of that of `a`. -/
def Kept (t base : UInt64) (a : RaftNode) (s : Period) : Prop :=
  Leads t s.leader.node → Room s.leader.node → PeriodInv t base s ∧ Advances a s.leader.node

/-! ## Steps of the leader -/

theorem termAtIndex_of_carried {a b : RaftNode} (hc : Carried a b) {i : UInt64}
    (hi : i.toNat ≤ a.lastSnapshotIndex.toNat + a.log.length) :
    termAtIndex b i = termAtIndex a i := by
  have hget : getLogEntry b i = getLogEntry a i := by
    rw [getLogEntry_eq, getLogEntry_eq, hc.snapshot]
    split
    · rfl
    obtain ⟨es, e⟩ := hc.log_le
    rw [← e, List.getElem?_append_left (by omega)]
  unfold termAtIndex
  rw [hget, hc.snapshot, hc.snapshotTerm]

theorem SentOk.carried {t : UInt64} {a b : RaftNode} {req : RaftAppendEntriesReq}
    (hs : SentOk t a req) (hc : Carried a b) : SentOk t b req where
  term := hs.term
  prev_le := by
    have hlen := hc.log_le.length_le
    have hle := hs.prev_le
    rw [hc.snapshot]
    omega
  prevTerm := by
    rw [termAtIndex_of_carried hc hs.prev_le]
    exact hs.prevTerm

section
variable {t base : UInt64} {s : Period} {a : RaftNode}

theorem PeriodInv.carry (hinv : PeriodInv t base s) {h : Host} (hroom : Room h.node)
    (hc : Carried s.leader.node h.node) : PeriodInv t base { s with leader := h } := by
  have hok := (hinv.lead.carried hroom hc).1
  refine ⟨hok, UInt64.le_trans hinv.base_le ?_, fun id req hreq => (hinv.request id req hreq).carried hc,
    fun id => ?_⟩
  · show lastLogIndex s.leader.node ≤ lastLogIndex h.node
    rw [UInt64.le_iff_toNat_le, hinv.lead.toNat_lastLogIndex, hok.toNat_lastLogIndex, hc.snapshot]
    exact Nat.add_le_add_left hc.log_le.length_le _
  · obtain ⟨m, hm⟩ := hinv.peer id
    exact ⟨m, hm.ends, hc.snapshot ▸ hm.reply,
      fun p hp hid => hc.snapshot ▸ hm.record p (hc.peers.subset hp) hid,
      fun hlt p hp => hm.early hlt p (hc.peers.subset hp)⟩

theorem Kept.same (hk : Kept t base a s) {h : Host} (hs : SameBook s.leader.node h.node) :
    Kept t base a { s with leader := h } := by
  intro hl hroom
  obtain ⟨hinv, hadv⟩ := hk (hs.leads_iff.1 hl) (hs.room_iff.1 hroom)
  exact ⟨hinv.carry hroom hs.carried,
    hadv.trans (hinv.lead.carried hroom hs.carried).2⟩

theorem Kept.send (hk : Kept t base a s) {p : RaftPeer} (hp : p ∈ s.leader.node.peers) :
    Kept t base a (s.send p) := by
  intro hl hroom
  obtain ⟨hinv, hadv⟩ := hk hl hroom
  refine ⟨⟨hinv.lead, hinv.base_le, fun id req hreq => ?_, fun id => ?_⟩, hadv⟩
  · rcases List.mem_append.1 hreq with hreq | hreq
    · exact hinv.request id req hreq
    · cases List.mem_singleton.1 hreq
      have hbook := hinv.lead.bookOk p hp
      refine ⟨hl.2, ?_, rfl⟩
      have hle := hbook.2.2.1
      have hprev := hbook.2.2.2.1
      rw [hinv.lead.toNat_lastLogIndex] at hle
      show (heartbeat s.leader.node p).prevLogIndex.toNat ≤ _
      change _ ≤ s.leader.node.lastSnapshotIndex.toNat + s.leader.node.log.length
      omega
  · obtain ⟨m, hm⟩ := hinv.peer id
    exact ⟨m, hm.ends, hm.reply, hm.record, hm.early⟩

/-! ## Steps of a peer -/

/-- Peer `id` takes a step from `g` to `g'`. It keeps the end of its log while it is in the term,
and answers with what fits that. -/
theorem PeerInv.step {nd g g' : RaftNode} {id : CString} {m : UInt64}
    {replies rs : List (CString × RaftAppendEntriesReq × RaftAppendEntriesResp)}
    (hm : PeerInv t base nd g replies id m) (hle : g.currentTerm ≤ g'.currentTerm)
    (hends : g.currentTerm = t → g'.currentTerm = t → ¬ Leads t g' → lastLogIndex g' = m)
    (hrs : ∀ q ∈ rs, q.2.2.term = g.currentTerm ∧
      ReplyFits t nd.lastSnapshotIndex base m q.2.1 q.2.2) :
    ∃ m, PeerInv t base nd g' (replies ++ rs) id m := by
  -- before the peer is in the term its log may still change, and `m` with it
  by_cases hearly : g.currentTerm < t
  · refine ⟨lastLogIndex g', fun _ _ => rfl, fun req resp hmem => ?_,
      fun p hp hid => .inl (hm.early hearly p hp hid), fun _ => hm.early hearly⟩
    have hterm : resp.term ≤ g.currentTerm := by
      rcases List.mem_append.1 hmem with hmem | hmem
      · exact (hm.reply req resp hmem).1
      · rw [(hrs _ hmem).1]
        exact UInt64.le_refl _
    refine ⟨UInt64.le_trans hterm hle, fun ht => ?_⟩
    exact absurd (UInt64.lt_of_le_of_lt hterm hearly) (by rw [ht]; exact UInt64.lt_irrefl _)
  · refine ⟨m, fun hterm hlead => ?_, fun req resp hmem => ?_, hm.record, fun hlt => ?_⟩
    · refine hends (UInt64.le_antisymm ?_ (UInt64.not_lt.1 hearly)) hterm hlead
      rw [← hterm]
      exact hle
    · rcases List.mem_append.1 hmem with hmem | hmem
      · obtain ⟨hterm, hfits⟩ := hm.reply req resp hmem
        exact ⟨UInt64.le_trans hterm hle, hfits⟩
      · obtain ⟨hterm, hfits⟩ := hrs _ hmem
        exact ⟨hterm ▸ hle, hfits⟩
    · exact absurd (UInt64.lt_of_le_of_lt hle hlt) hearly

theorem PeerInv.of_ne {nd g : RaftNode} {id j : CString} {m : UInt64}
    {replies rs : List (CString × RaftAppendEntriesReq × RaftAppendEntriesResp)}
    (hm : PeerInv t base nd g replies j m) (hne : j ≠ id) (hrs : ∀ q ∈ rs, q.1 = id) :
    PeerInv t base nd g (replies ++ rs) j m :=
  ⟨hm.ends, fun req resp hmem => hm.reply req resp
    ((List.mem_append.1 hmem).resolve_right fun hmem => hne (hrs _ hmem)), hm.record, hm.early⟩

theorem Kept.peerStep (hk : Kept t base a s) {id : CString} {g : Host}
    {rs : List (CString × RaftAppendEntriesReq × RaftAppendEntriesResp)}
    (hid : ∀ q ∈ rs, q.1 = id)
    (hstep : PeriodInv t base s → ∀ m, PeerInv t base s.leader.node (s.peer id).node s.replies id m →
      ∃ m, PeerInv t base s.leader.node g.node (s.replies ++ rs) id m) :
    Kept t base a { s with peer := Function.update s.peer id g, replies := s.replies ++ rs } := by
  intro hl hroom
  obtain ⟨hinv, hadv⟩ := hk hl hroom
  refine ⟨⟨hinv.lead, hinv.base_le, hinv.request, fun j => ?_⟩, hadv⟩
  obtain ⟨m, hm⟩ := hinv.peer j
  show ∃ m, PeerInv t base s.leader.node (Function.update s.peer id g j).node (s.replies ++ rs) j m
  by_cases e : j = id
  · subst e
    rw [Function.update_self]
    exact hstep hinv m hm
  · rw [Function.update_of_ne e]
    exact ⟨m, hm.of_ne e hid⟩

/-- What a peer in the term answers: its successes report the end of its log, and it refuses no
request whose previous entry is that end. -/
theorem replyFits_of_handled {g : Host} (now : UInt64) {req : RaftAppendEntriesReq} {nd : RaftNode}
    (hsent : SentOk t nd req) (hterm : g.node.currentTerm = t)
    (hline : LogInLine base nd g.node) :
    ReplyFits t nd.lastSnapshotIndex base (lastLogIndex g.node) req
      (raftHandleAppendEntries g now req []).2 := by
  intro _
  refine ⟨hline.1, hline.2.1, ?_⟩
  by_cases hacc : TakesEntries g.node req
  · have hsucc : (raftHandleAppendEntries g now req []).2.success ≠ 0 := by
      rw [(raftHandleAppendEntries_accepted now [] hacc).1]
      decide
    rw [if_pos hsucc]
    exact (raftHandleAppendEntries_success hsucc).2.2
  · have hfail := (raftHandleAppendEntries_refused now [] hacc).1
    rw [if_neg (not_not.2 hfail)]
    have hstale : ¬ req.term < g.node.currentTerm := by
      rw [hsent.term, hterm]
      exact UInt64.lt_irrefl _
    have hprev : prevMatches g.node req = false := by
      rw [Bool.eq_false_iff]
      exact fun h => hacc ⟨hstale, h⟩
    simp only [prevMatches, decide_eq_false_iff_not, not_or] at hprev
    refine ⟨hprev.1, fun hend => hprev.2 ?_⟩
    rw [hsent.prevTerm, hend]
    exact hline.2.2

/-- **A peer handles a request** of the leader. -/
theorem Kept.serve (hk : Kept t base a s) {id : CString} {req : RaftAppendEntriesReq}
    (hreq : (id, req) ∈ s.requests) (hok : ServeOk t base s id) (now : UInt64) :
    Kept t base a (s.serve id req now) := by
  refine hk.peerStep (fun q hq => by rw [List.mem_singleton.1 hq]) fun hinv m hm => ?_
  refine hm.step ?_ (fun hterm _ _ => ?_) fun q hq => ?_
  · exact Host.call_term_le (c := .appendEntries now req []) nofun
  · rw [handleHeartbeat_log]
    exact hm.ends hterm hok.1
  · cases List.mem_singleton.1 hq
    have hresp := raftHandleAppendEntries_resp_term (s.peer id) now req []
    refine ⟨hresp, fun ht => ?_⟩
    have hterm : (s.peer id).node.currentTerm = t := hresp.symm.trans ht
    have hfits := replyFits_of_handled now (hinv.request id req hreq) hterm (hok.2 hterm)
    rw [hm.ends hterm hok.1] at hfits
    exact hfits ht

theorem Kept.peerCall (hk : Kept t base a s) {id : CString} {c : ApiCall}
    (hc : PeerCallOk t (s.peer id) c) :
    Kept t base a { s with peer := Function.update s.peer id ((s.peer id).call c) } := by
  have hstep : Kept t base a { s with
      peer := Function.update s.peer id ((s.peer id).call c), replies := s.replies ++ [] } := by
    refine hk.peerStep (fun q hq => absurd hq List.not_mem_nil) fun _ m hm => ?_
    refine hm.step (peerCall_term_le hc) (fun hterm hterm' hlead => ?_)
      fun q hq => absurd hq List.not_mem_nil
    rw [peerCall_lastLogIndex hc hterm hterm' hlead]
    exact hm.ends hterm hc.1
  rw [List.append_nil] at hstep
  exact hstep

/-! ## Replies -/

theorem toNat_end_succ {nd : RaftNode} (hok : LeadOk nd) {m : UInt64} (hle : m ≤ lastLogIndex nd) :
    (m + 1).toNat = m.toNat + 1 := by
  have hroom := hok.room
  have hm := UInt64.le_iff_toNat_le.1 hle
  rw [hok.toNat_lastLogIndex] at hm
  unfold Room at hroom
  rw [UInt64.toNat_add, UInt64.toNat_one]
  omega

/-- A refusal in turn shows that `next_index` is well above the end of the peer's log, which the
peer has not reported yet. -/
theorem OnRecord.refused {snap m : UInt64} {p : RaftPeer} (hp : OnRecord snap base m p)
    (hsnap : snap ≤ m) (hm : m ≤ base) (hbase : (base + 1).toNat = base.toNat + 1)
    (hsucc : (m + 1).toNat = m.toNat + 1) (hn : p.nextIndex > 1) (hne : p.nextIndex - 1 ≠ m) :
    p.matchIndex = 0 ∧ m < p.nextIndex - 1 ∧ snap < p.nextIndex - 1 := by
  have hprev : (p.nextIndex - 1).toNat = p.nextIndex.toNat - 1 :=
    UInt64.toNat_sub_of_le _ _ (UInt64.le_of_lt hn)
  have hne : (p.nextIndex - 1).toNat ≠ m.toNat := fun h => hne (UInt64.toNat_inj.1 h)
  have hsnap := UInt64.le_iff_toNat_le.1 hsnap
  have hm := UInt64.le_iff_toNat_le.1 hm
  simp only [UInt64.lt_iff_toNat_lt]
  rcases hp with ⟨hmatch, hnext⟩ | ⟨-, -, hlt, hmatch | ⟨-, hnext⟩⟩
  · rw [hnext] at hprev ⊢
    rw [hnext] at hne
    refine ⟨hmatch, ?_, ?_⟩ <;> omega
  · have hlt := UInt64.lt_iff_toNat_lt.1 hlt
    refine ⟨hmatch, ?_, ?_⟩ <;> omega
  · rw [hnext] at hprev hne
    omega

theorem PeriodInv.replyOk (hinv : PeriodInv t base s) (hl : Leads t s.leader.node) {id : CString}
    {req : RaftAppendEntriesReq} {resp : RaftAppendEntriesResp}
    (hmem : (id, req, resp) ∈ s.replies) (hturn : InTurn s.leader.node id req resp) :
    ReplyOk s.leader.node id resp := by
  obtain ⟨m, hm⟩ := hinv.peer id
  intro hterm p hp
  obtain ⟨hsnap, hbase, hfits⟩ := (hm.reply req resp hmem).2 (hterm.trans hl.2)
  have hrec := hm.record p (List.mem_of_find?_eq_some hp) (findPeer_nodeId hp)
  by_cases hsucc : resp.success = 0
  · rw [if_neg (not_not.2 hsucc)] at hfits ⊢
    intro hn
    have hprev := hturn hsucc p hp
    rw [hprev] at hfits
    obtain ⟨hmatch, -, hlow⟩ := hrec.refused hsnap hbase
      (toNat_end_succ hinv.lead hinv.base_le)
      (toNat_end_succ hinv.lead (UInt64.le_trans hbase hinv.base_le)) hn hfits.2
    refine ⟨?_, .inr hlow⟩
    rw [hmatch]
    exact UInt64.pos_iff_ne_zero.2 hfits.1
  · rw [if_pos hsucc] at hfits ⊢
    rw [hfits]
    refine ⟨?_, UInt64.le_trans hbase hinv.base_le, .inr hsnap⟩
    rcases hrec with ⟨hmatch, -⟩ | ⟨-, -, -, hmatch | ⟨hmatch, -⟩⟩ <;> rw [hmatch]
    · exact UInt64.zero_le
    · exact UInt64.zero_le
    · exact UInt64.le_refl _

theorem PeriodInv.onRecord_of_reply (hinv : PeriodInv t base s) {id : CString} {m : UInt64}
    (hm : PeerInv t base s.leader.node (s.peer id).node s.replies id m)
    {req : RaftAppendEntriesReq} {resp : RaftAppendEntriesResp}
    (hmem : (id, req, resp) ∈ s.replies) (hturn : InTurn s.leader.node id req resp)
    (hterm : resp.term = t) {p : RaftPeer} (hp : findPeer s.leader.node.peers id = some p) :
    (resp.success ≠ 0 → OnRecord s.leader.node.lastSnapshotIndex base m
      { p with matchIndex := resp.matchIndex, nextIndex := resp.matchIndex + 1 }) ∧
    (resp.success = 0 → p.nextIndex > 1 → OnRecord s.leader.node.lastSnapshotIndex base m
      { p with nextIndex := p.nextIndex - 1 }) := by
  obtain ⟨hsnap, hbase, hfits⟩ := (hm.reply req resp hmem).2 hterm
  have hmsucc := toNat_end_succ hinv.lead (UInt64.le_trans hbase hinv.base_le)
  refine ⟨fun hsucc => ?_, fun hsucc hn => ?_⟩
  · rw [if_pos hsucc] at hfits
    refine .inr ⟨hsnap, hbase, ?_, .inr ⟨hfits, by rw [hfits]⟩⟩
    show m < resp.matchIndex + 1
    rw [hfits, UInt64.lt_iff_toNat_lt, hmsucc]
    exact Nat.lt_succ_self _
  · rw [if_neg (not_not.2 hsucc), hturn hsucc p hp] at hfits
    have hrec := hm.record p (List.mem_of_find?_eq_some hp) (findPeer_nodeId hp)
    obtain ⟨hmatch, hlt, -⟩ := hrec.refused hsnap hbase
      (toNat_end_succ hinv.lead hinv.base_le) hmsucc hn hfits.2
    exact .inr ⟨hsnap, hbase, hlt, .inl hmatch⟩

theorem mem_peers_of_response {h : Host} {id : CString} {r : RaftAppendEntriesResp}
    (hl : Leads t (raftHandleAppendEntriesResponse h id r).node) {q : RaftPeer}
    (hq : q ∈ (raftHandleAppendEntriesResponse h id r).node.peers) :
    q ∈ h.node.peers ∨ (q.nodeId = id ∧ r.term = h.node.currentTerm ∧
      ∃ p, findPeer h.node.peers id = some p ∧
      ((r.success ≠ 0 ∧ q = { p with matchIndex := r.matchIndex, nextIndex := r.matchIndex + 1 }) ∨
        (r.success = 0 ∧ p.nextIndex > 1 ∧ q = { p with nextIndex := p.nextIndex - 1 }))) := by
  rcases response_cases hl with e | ⟨hterm, p, hp, ⟨hsucc, e⟩ | ⟨hsucc, hn, e⟩⟩ <;> rw [e] at hq
  · exact .inl hq
  · refine (mem_updatePeer hq).imp_right ?_
    rintro ⟨p', hp', rfl⟩
    cases hp.symm.trans hp'
    have hid := findPeer_nodeId hp
    exact ⟨hid, hterm, p, hp, .inl ⟨hsucc, rfl⟩⟩
  · refine (mem_updatePeer hq).imp_right ?_
    rintro ⟨p', hp', rfl⟩
    cases hp.symm.trans hp'
    have hid := findPeer_nodeId hp
    exact ⟨hid, hterm, p, hp, .inr ⟨hsucc, hn, rfl⟩⟩

/-- **The leader handles a reply** in turn. -/
theorem Kept.take (hk : Kept t base a s) {id : CString} {req : RaftAppendEntriesReq}
    {resp : RaftAppendEntriesResp} (hmem : (id, req, resp) ∈ s.replies)
    (hturn : InTurn s.leader.node id req resp) : Kept t base a (s.take id resp) := by
  intro hl hroom
  have hl : Leads t (raftHandleAppendEntriesResponse s.leader id resp).node := hl
  obtain ⟨hlead, hle⟩ := leads_of_response hl
  obtain ⟨ps, -, e⟩ := appendEntriesResponse_of_le id hle
  have hnode : (raftHandleAppendEntriesResponse s.leader id resp).node =
      { s.leader.node with peers := ps } := congrArg Host.node e
  have hroom : Room (raftHandleAppendEntriesResponse s.leader id resp).node := hroom
  have hroom0 : Room s.leader.node := by
    rw [hnode] at hroom
    exact hroom
  obtain ⟨hinv, hadv⟩ := hk hlead hroom0
  obtain ⟨hok', hadv'⟩ := hinv.lead.response (hinv.replyOk hlead hmem hturn) hl
  have hsnap : (raftHandleAppendEntriesResponse s.leader id resp).node.lastSnapshotIndex =
      s.leader.node.lastSnapshotIndex := by rw [hnode]
  refine ⟨⟨hok', ?_, fun j r hr => ?_, fun j => ?_⟩, hadv.trans hadv'⟩
  · show base ≤ lastLogIndex (raftHandleAppendEntriesResponse s.leader id resp).node
    rw [hnode]
    exact hinv.base_le
  · have hsent := hinv.request j r hr
    show SentOk t (raftHandleAppendEntriesResponse s.leader id resp).node r
    rw [hnode]
    exact ⟨hsent.term, hsent.prev_le, hsent.prevTerm⟩
  obtain ⟨m, hm⟩ := hinv.peer j
  refine ⟨m, hm.ends, ?_, fun q hq hid => ?_, fun hlt q hq hid => ?_⟩
  · show ∀ req' resp', _ → _ ∧ ReplyFits t
      (raftHandleAppendEntriesResponse s.leader id resp).node.lastSnapshotIndex base m req' resp'
    rw [hsnap]
    exact hm.reply
  · show OnRecord (raftHandleAppendEntriesResponse s.leader id resp).node.lastSnapshotIndex base m q
    rw [hsnap]
    rcases mem_peers_of_response hl hq with hq | ⟨hqid, hterm, p, hp, hnew⟩
    · exact hm.record q hq hid
    obtain rfl : id = j := hqid.symm.trans hid
    have hrec := hinv.onRecord_of_reply hm hmem hturn (hterm.trans hlead.2) hp
    rcases hnew with ⟨hsucc, rfl⟩ | ⟨hsucc, hn, rfl⟩
    · exact hrec.1 hsucc
    · exact hrec.2 hsucc hn
  · rcases mem_peers_of_response hl hq with hq | ⟨hqid, hterm, -⟩
    · exact hm.early hlt q hq hid
    · obtain rfl : id = j := hqid.symm.trans hid
      have hreply := (hm.reply req resp hmem).1
      rw [hterm, hlead.2] at hreply
      exact absurd hlt (UInt64.not_lt.2 hreply)

/-! ## Ticks -/

theorem Period.beat_leader (s : Period) (p : RaftPeer) (served : Option UInt64) :
    (s.beat p served).leader = sendHeartbeat p (served.map (s.replyTo p)) s.leader := by
  cases served with
  | none => rfl
  | some now => rfl

/-- The heartbeats are those of `leader_tick`, with the replies they bring. -/
theorem Period.beats_leader (n i : Nat) (served : List (Option UInt64)) (s : Period) :
    (s.beats n i served).leader = forPeers sendHeartbeat n i (s.brought n i served) s.leader := by
  induction n generalizing i served s with
  | zero => rfl
  | succ n ih =>
    cases hp : s.leader.node.peers[i]? with
    | none => simp only [beats, forPeers, hp]
    | some p =>
      simp only [beats, brought, forPeers, hp, List.tail_cons, List.head?_cons, Option.join_some]
      rw [ih, beat_leader]

theorem Kept.beat (hk : Kept t base a s) {p : RaftPeer} (hp : p ∈ s.leader.node.peers)
    {served : Option UInt64} (hok : BeatOk t base s p served) : Kept t base a (s.beat p served) := by
  have hsend := hk.send hp
  cases served with
  | none => exact hsend
  | some now =>
    have hreq : (p.nodeId, heartbeat s.leader.node p) ∈ (s.send p).requests :=
      List.mem_append_right _ (List.mem_singleton.2 rfl)
    refine (hsend.serve hreq hok.1 now).take ?_ hok.2
    exact List.mem_append_right _ (List.mem_singleton.2 rfl)

theorem Kept.beats {n i : Nat} {served : List (Option UInt64)} (hk : Kept t base a s)
    (hok : BeatsOk t base n i served s) : Kept t base a (s.beats n i served) := by
  induction n generalizing i served s with
  | zero => exact hk
  | succ n ih =>
    unfold Period.beats
    unfold BeatsOk at hok
    split
    · exact hk
    · rename_i p hp
      rw [hp] at hok
      exact ih (hk.beat (List.mem_of_getElem? hp) hok.1) hok.2

/-- **A tick** of the leader. -/
theorem Kept.tick (hk : Kept t base a s) (hl : Leads t s.leader.node) {env : TickEnv}
    {served : List (Option UInt64)}
    (hok : heartbeatDue s.leader.node env.now = true →
      BeatsOk t base s.leader.node.peers.length 0 served (s.due env.now)) :
    Kept t base a (s.tick env served) := by
  unfold Period.tick
  split
  · rename_i hdue
    have hstart : Kept t base a (s.due env.now) := hk.same ⟨rfl, rfl, rfl, rfl, rfl, rfl⟩
    refine (hstart.beats (hok hdue)).same ?_
    rw [Period.beats_leader]
    have hbook := tick_sameBook hl { env with
      appendReplies := (s.due env.now).brought s.leader.node.peers.length 0 served }
    unfold heartbeatRound at hbook
    rw [if_pos hdue] at hbook
    exact hbook
  · rename_i hdue
    refine hk.same ?_
    have hbook := tick_sameBook hl { env with appendReplies := [] }
    unfold heartbeatRound at hbook
    rw [if_neg hdue] at hbook
    exact hbook

/-! ## A period -/

/-- **One step** in line. -/
theorem Kept.step (hk : Kept t base a s) {act : PeriodAction} (hok : PeriodOk t base s act)
    {s' : Period} (hs : s.step act = some s') : Kept t base a s' := by
  obtain ⟨⟨hl, hroom⟩, hok⟩ := hok
  cases act with
  | tick env served =>
    cases hs
    exact hk.tick hl hok
  | call c =>
    cases hs
    intro hl' hroom'
    obtain ⟨hinv, hadv⟩ := hk hl hroom
    have hc := call_carried hl hok hl'
    exact ⟨hinv.carry hroom' hc, hadv.trans (hinv.lead.carried hroom' hc).2⟩
  | peerCall id c =>
    cases hs
    exact hk.peerCall hok
  | deliver id req now =>
    have hs : (if (id, req) ∈ s.requests then some (s.serve id req now) else none) = some s' := hs
    split at hs
    · rename_i hmem
      cases hs
      exact hk.serve hmem hok now
    · cases hs
  | answer id req resp =>
    have hs : (if (id, req, resp) ∈ s.replies then some (s.take id resp) else none) = some s' := hs
    split at hs
    · rename_i hmem
      cases hs
      exact hk.take hmem hok
    · cases hs

theorem Kept.run (hk : Kept t base a s) {acts : List PeriodAction} {s' : Period}
    (hal : Along Period.step (PeriodOk t base) s acts) (hr : Lib.run Period.step s acts = some s') :
    Kept t base a s' :=
  run_induct (P := Kept t base a) (fun _ _ _ hk hok hs => hk.step hok hs) hk hal hr

theorem PeriodInv.kept (hinv : PeriodInv t base s) : Kept t base s.leader.node s :=
  fun _ _ => ⟨hinv, .of_sublist (List.Sublist.refl _)⟩

theorem leads_of_along {acts : List PeriodAction} {s' : Period}
    (hal : Along Period.step (PeriodOk t base) s acts) (hr : Lib.run Period.step s acts = some s')
    (hl : Leads t s'.leader.node) (hroom : Room s'.leader.node) :
    Leads t s.leader.node ∧ Room s.leader.node := by
  cases acts with
  | nil =>
    cases hr
    exact ⟨hl, hroom⟩
  | cons act acts => exact hal.1.1

end

theorem periodInv_start {t : UInt64} {h : Host} {c : ApiCall}
    (hidx : Indexed h.node.lastSnapshotIndex h.node.log) (hs : h.node.state ≠ .leader)
    (hl : Leads t (h.call c).node) (hroom : Room (h.call c).node) (peer : CString → Host) :
    PeriodInv t (lastLogIndex h.node) (.start (h.call c) peer) := by
  have hp := poised_of_elected hidx hs hl.1
  obtain ⟨hok, hle⟩ := hp.lead hl.1 hroom
  refine ⟨hok, hle, fun _ _ hreq => absurd hreq List.not_mem_nil, fun id =>
    ⟨lastLogIndex (peer id).node, fun _ _ => rfl, fun _ _ hmem => absurd hmem List.not_mem_nil,
      fun p hmem _ => .inl (hp.fresh hl.1 p hmem), fun _ p hmem _ => hp.fresh hl.1 p hmem⟩⟩

/-- **The record of a leader's peers** over a period of one term, from the call `c` that begins
it: at every moment it is in order, and no `match_index` has decreased since any earlier moment. -/
theorem leader_bookkeeping_stable (t : UInt64) (h : Host) (c : ApiCall) (peer : CString → Host)
    (before after : List PeriodAction) {mid last : Period}
    (hidx : Indexed h.node.lastSnapshotIndex h.node.log) (hs : h.node.state ≠ .leader)
    (hbefore : Along Period.step (PeriodOk t (lastLogIndex h.node)) (.start (h.call c) peer) before)
    (hmid : run Period.step (.start (h.call c) peer) before = some mid)
    (hafter : Along Period.step (PeriodOk t (lastLogIndex h.node)) mid after)
    (hlast : run Period.step mid after = some last)
    (hl : Leads t last.leader.node) (hroom : Room last.leader.node) :
    BookOk last.leader.node ∧ Advances mid.leader.node last.leader.node := by
  obtain ⟨hlmid, hroommid⟩ := leads_of_along hafter hlast hl hroom
  obtain ⟨hl0, hroom0⟩ := leads_of_along hbefore hmid hlmid hroommid
  have hstart := (periodInv_start hidx hs hl0 hroom0 peer).kept
  obtain ⟨hinv, -⟩ := hstart.run hbefore hmid hlmid hroommid
  obtain ⟨hend, hadv⟩ := hinv.kept.run hafter hlast hl hroom
  exact ⟨hend.lead.bookOk, hadv⟩

def memberOfThree (self p q : CString) : Host :=
  let nd := (raftAddPeer (raftInit self 0) true p .empty 0).1
  (raftAddPeer nd true q .empty 0).1.host

/-- Node `a` with two entries of term 1, a candidate in term 3. -/
def formerLeader : Host :=
  (memberOfThree idA idB idC).calls
    [plainTick 150, .requestVoteResponse Alloc.ok idC ⟨1, 1⟩, .submit Alloc.ok [7],
      .requestVote 160 ⟨2, idC, 9, 9⟩, plainTick 600]

/-- Node `b` with the first of them, after its vote for `a` in term 3. -/
def shortLog : Host :=
  (memberOfThree idB idA idC).calls
    [.appendEntries 160 ⟨1, idA, 0, 0, 0, 1⟩ [⟨1, 1, [0], 0⟩], .requestVote 610 ⟨3, idA, 2, 1⟩]

def leaderTickAt (now : UInt64) (served : List (Option UInt64)) : PeriodAction :=
  .tick { now := now, electionNow := now, rand := 0, voteReplies := [], appendReplies := [] } served

/-- `b` refuses the heartbeat for index 2. -/
def refusedOnce : List PeriodAction :=
  [leaderTickAt 700 [], .deliver idB ⟨3, idA, 2, 1, 0, 0⟩ 705,
    .answer idB ⟨3, idA, 2, 1, 0, 0⟩ ⟨3, 0, 0⟩, .call (.submit Alloc.ok [8])]

/-- It accepts the next one within the call; its reply comes again, `c` is removed, and the
heartbeat after that is answered too. -/
def thenAccepted : List PeriodAction :=
  [leaderTickAt 760 [some 765, none], .answer idB ⟨3, idA, 1, 1, 0, 0⟩ ⟨3, 1, 1⟩,
    .peerCall idB (plainTick 770), .call (.removePeer idC), leaderTickAt 820 [some 830]]

def electedInThree : Period :=
  .start (formerLeader.call (.requestVoteResponse Alloc.ok idC ⟨3, 1⟩)) fun _ => shortLog

theorem run_refusedOnce : (run Period.step electedInThree refusedOnce).isSome := by decide +kernel

def afterRefusal : Period := (run Period.step electedInThree refusedOnce).get run_refusedOnce

theorem run_thenAccepted : (run Period.step afterRefusal thenAccepted).isSome := by decide +kernel

def afterAcceptance : Period := (run Period.step afterRefusal thenAccepted).get run_thenAccepted

/-- What the leader has on record of `b` after the two parts of the run. -/
theorem leader_bookkeeping_refused_then_accepted :
    (findPeer afterRefusal.leader.node.peers idB).map (fun p => (p.matchIndex, p.nextIndex)) =
      some (0, 2) ∧
    (findPeer afterAcceptance.leader.node.peers idB).map (fun p => (p.matchIndex, p.nextIndex)) =
      some (1, 2) ∧
    BookOk afterAcceptance.leader.node ∧
    Advances afterRefusal.leader.node afterAcceptance.leader.node :=
  ⟨by decide +kernel, by decide +kernel,
    leader_bookkeeping_stable 3 formerLeader (.requestVoteResponse Alloc.ok idC ⟨3, 1⟩)
      (fun _ => shortLog) refusedOnce thenAccepted (by decide +kernel) (by decide +kernel)
      (by decide +kernel) (Option.some_get run_refusedOnce).symm (by decide +kernel)
      (Option.some_get run_thenAccepted).symm (by decide +kernel) (by decide +kernel)⟩

/-- Node `a`, elected in term 2 by `c`. -/
def leaderOfTwo : Host :=
  (memberOfThree idA idB idC).calls
    [plainTick 150, plainTick 400, .requestVoteResponse Alloc.ok idC ⟨2, 1⟩]

/-- Node `b`, elected in term 1 by `c`, with an entry of its own after the no-op. -/
def leaderOfOne : Host :=
  (memberOfThree idB idA idC).calls
    [plainTick 150, .requestVoteResponse Alloc.ok idC ⟨1, 1⟩, .submit Alloc.ok [7]]

/-- A peer added to a leader has `next_index` 0, and the heartbeat to it the
`prev_log_index` `2^64 - 1`; a peer that answers the leader's second heartbeat
with a longer log gets a `next_index` past the end of the leader's. -/
theorem leader_bookkeeping_broken :
    (Leads 2 leaderOfTwo.node ∧
      let added := (leaderOfTwo.call (.addPeer true idD .empty 0)).node
      (findPeer added.peers idD).map (fun p => (p.nextIndex, (heartbeat added p).prevLogIndex)) =
        some (0, 18446744073709551615)) ∧
    ∃ p, findPeer leaderOfTwo.node.peers idB = some p ∧
      let request := heartbeat leaderOfTwo.node p
      let reply := (raftHandleAppendEntries
        (leaderOfOne.call (.appendEntries 420 request [])) 470 request []).2
      let after := (leaderOfTwo.call (.appendEntriesResponse idB reply)).node
      Leads 2 after ∧ lastLogIndex after = 1 ∧
        (findPeer after.peers idB).map (fun p => (p.matchIndex, p.nextIndex)) = some (2, 3) := by
  refine ⟨by decide +kernel, leaderOfTwo.node.peers.head (by decide +kernel), ?_⟩
  decide +kernel

end DRoole
