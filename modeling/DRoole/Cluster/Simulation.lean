import DRoole.Cluster.Abstraction

/-!
# The cluster simulates the election protocol

`Sim cfg c s` relates a cluster to a state of `Lib.Election`: every node
abstracts to its local state, every packet in the net stands for a message of
the protocol, and the two histories agree. A move of one node is matched by at
most one step of the protocol (`Sim.move`), hence a step of the cluster by some
(`Sim.step`) and a run by a run (`Sim.run`).
-/

namespace DRoole

open Lib Lib.Election

/-- Steps of the protocol among the members. -/
abbrev Steps (cfg : Config) : State CString Pos → State CString Pos → Prop :=
  Relation.ReflTransGen (Election.Step cfg.members.toFinset)

def Packet.src : Packet → CString
  | .request src _ _ | .voteResp src _ _ | .appendResp src _ _ => src

def Packet.dst : Packet → CString
  | .request _ dst _ | .voteResp _ dst _ | .appendResp _ dst _ => dst

/-- What a packet stands for in the protocol. -/
def Packet.Meant (k : Past CString Pos) : Packet → Prop
  | .request src _ (.requestVote req) =>
    req.candidateId = src ∧ (src, req.term.toNat, req.pos) ∈ k.asked
  | .request src _ (.appendEntries req) => (src, req.term.toNat) ∈ k.announced
  | .voteResp src dst resp =>
    resp.voteGranted ≠ 0 → (src, dst, resp.term.toNat) ∈ k.granted
  | .appendResp .. => True

/-- A packet between two different members that stands for a message. -/
structure PacketOk (cfg : Config) (k : Past CString Pos) (p : Packet) : Prop where
  src : p.src ∈ cfg.members
  dst : p.dst ∈ cfg.members
  ne : p.src ≠ p.dst
  meant : p.Meant k

theorem Packet.Meant.mono {k k' : Past CString Pos} (hk : k.Le k') {p : Packet}
    (h : p.Meant k) : p.Meant k' := by
  match p, h with
  | .request _ _ (.requestVote _), h => exact ⟨h.1, hk.asked h.2⟩
  | .request _ _ (.appendEntries _), h => exact hk.announced h
  | .voteResp .., h => exact fun hg => hk.granted (h hg)
  | .appendResp .., h => exact h

/-- In the history `v` voted for `x` in term `t` at position `q`. -/
def VotedIn (hist : List (CString × Stamp)) (v x : CString) (t : ℕ) (q : Pos) : Prop :=
  ∃ st, (v, st) ∈ hist ∧ st.call = .vote x ∧ st.node.currentTerm.toNat = t ∧ pos st.node = q

/-- The simulation relation. -/
structure Sim (cfg : Config) (c : Cluster) (s : State CString Pos) : Prop where
  node : ∀ i ∈ cfg.members, NodeOk cfg i (c.nodes i)
  loc : ∀ i ∈ cfg.members, s.loc i = absNode (c.nodes i)
  asked : ∀ i ∈ cfg.members, (c.nodes i).state = .candidate →
    (i, (c.nodes i).currentTerm.toNat, pos (c.nodes i)) ∈ s.past.asked
  disk : ∀ i ∈ cfg.members, c.disk i = (c.nodes i).durable
  net : ∀ p ∈ c.net, PacketOk cfg s.past p
  cast : ∀ v x t q, (v, x, t, q) ∈ s.past.cast → VotedIn c.hist v x t q
  led : ∀ i st, (i, st) ∈ c.hist → st.call = .elect →
    (i, st.node.currentTerm.toNat, pos st.node) ∈ s.past.led

/-! ## Updates of one node -/

theorem Cluster.update_host (c : Cluster) (i : CString) : c.update i (c.nodes i).host [] = c := by
  simp [Cluster.update, RaftNode.host, sends]

@[simp] theorem sends_append (i : CString) (tr tr' : List Stamp) :
    sends i (tr ++ tr') = sends i tr ++ sends i tr' := List.filterMap_append

section Update

variable {cfg : Config} {c : Cluster} {i : CString} {h h' : Host} {rs rs' : List Packet}
  {s s' : State CString Pos}

theorem Sim.advance (hsim : Sim cfg (c.update i h rs) s) (hsteps : Steps cfg s s')
    (Δ : List Stamp) (htr : h'.trace = h.trace ++ Δ) (hnode : NodeOk cfg i h'.node)
    (hsync : Synced (c.disk i) h')
    (hloc : s'.loc = Function.update s.loc i (absNode h'.node))
    (hasked : h'.node.state = .candidate →
      (i, h'.node.currentTerm.toNat, pos h'.node) ∈ s'.past.asked)
    (hnet : ∀ p ∈ sends i Δ ++ rs', p ∈ rs ∨ PacketOk cfg s'.past p)
    (hcast : ∀ v x t q, (v, x, t, q) ∈ s'.past.cast → (v, x, t, q) ∈ s.past.cast ∨
      (v = i ∧ ∃ st ∈ Δ, st.call = .vote x ∧ st.node.currentTerm.toNat = t ∧ pos st.node = q))
    (hled : ∀ st ∈ Δ, st.call = .elect →
      (i, st.node.currentTerm.toNat, pos st.node) ∈ s'.past.led) :
    Sim cfg (c.update i h' rs') s' := by
  have hle := past_le hsteps
  have hold : ∀ j, j ≠ i → (c.update i h' rs').nodes j = (c.update i h rs).nodes j := by
    intro j hj
    simp [Cluster.update, hj]
  have hself : (c.update i h' rs').nodes i = h'.node := Function.update_self ..
  constructor
  · intro j hj
    by_cases e : j = i
    · rw [e, hself]; exact hnode
    · rw [hold j e]; exact hsim.node j hj
  · intro j hj
    rw [hloc]
    by_cases e : j = i
    · rw [e, hself, Function.update_self]
    · rw [hold j e, Function.update_of_ne e]; exact hsim.loc j hj
  · intro j hj
    by_cases e : j = i
    · rw [e, hself]; exact hasked
    · rw [hold j e]
      exact fun hc => hle.asked (hsim.asked j hj hc)
  · intro j hj
    by_cases e : j = i
    · rw [e, hself]
      simpa [Cluster.update] using hsync.record
    · have := hsim.disk j hj
      rw [hold j e, ← this]
      simp [Cluster.update, e]
  · intro p hp
    have hokold : p ∈ (c.update i h rs).net → PacketOk cfg s'.past p := fun hp =>
      { hsim.net p hp with meant := (hsim.net p hp).meant.mono hle }
    simp only [Cluster.update, htr, sends_append, List.mem_append] at hp hokold
    rcases hp with (hp | hp | hp) | hp
    · exact hokold (.inl (.inl hp))
    · exact hokold (.inl (.inr hp))
    · exact (hnet p (List.mem_append_left _ hp)).elim (fun h => hokold (.inr h)) id
    · exact (hnet p (List.mem_append_right _ hp)).elim (fun h => hokold (.inr h)) id
  · intro v x t q hq
    rcases hcast v x t q hq with hq | ⟨rfl, st, hst, hcall⟩
    · obtain ⟨st, hst, hcall⟩ := hsim.cast v x t q hq
      refine ⟨st, ?_, hcall⟩
      simp only [Cluster.update, htr, List.map_append, List.mem_append] at hst ⊢
      tauto
    · refine ⟨st, ?_, hcall⟩
      simp only [Cluster.update, htr, List.map_append, List.mem_append]
      exact .inr (.inr (List.mem_map_of_mem hst))
  · intro j st hst hcall
    have hokold := hsim.led j st
    simp only [Cluster.update, htr, List.map_append, List.mem_append] at hst hokold
    rcases hst with hst | hst | hst
    · exact hle.led (hokold (.inl hst) hcall)
    · exact hle.led (hokold (.inr hst) hcall)
    · obtain ⟨st', hst', e⟩ := List.mem_map.1 hst
      cases e
      exact hled st hst' hcall

theorem Sim.stay (hsim : Sim cfg (c.update i h rs) s) (hi : i ∈ cfg.members)
    (Δ : List Stamp) (htr : h'.trace = h.trace ++ Δ) (hnode : NodeOk cfg i h'.node)
    (hsync : Synced (c.disk i) h') (habs : absNode h'.node = absNode h.node)
    (hnet : ∀ p ∈ sends i Δ, PacketOk cfg s.past p) (hled : ∀ st ∈ Δ, st.call ≠ .elect) :
    Sim cfg (c.update i h' rs) s := by
  have hself : (c.update i h rs).nodes i = h.node := Function.update_self ..
  have hloc := hsim.loc i hi
  have hasked := hsim.asked i hi
  rw [hself] at hloc hasked
  have hstate : absState h'.node.state = absState h.node.state := congrArg Local.role habs
  have hterm : h'.node.currentTerm.toNat = h.node.currentTerm.toNat := congrArg Local.term habs
  have hpos : pos h'.node = pos h.node := congrArg Local.pos habs
  refine hsim.advance .refl Δ htr hnode hsync ?_ ?_ ?_ (fun _ _ _ _ hq => .inl hq)
    fun st hst he => absurd he (hled st hst)
  · rw [habs, ← hloc, Function.update_eq_self]
  · intro hc
    rw [hterm, hpos]
    refine hasked ?_
    rw [hc] at hstate
    cases hs : h.node.state <;> simp [hs, absState] at hstate ⊢
  · intro p hp
    rcases List.mem_append.1 hp with hp | hp
    · exact .inr (hnet p hp)
    · exact .inl hp

/-! ## Moves -/

theorem Sim.nodeAt (hsim : Sim cfg (c.update i h rs) s) (hi : i ∈ cfg.members) :
    NodeOk cfg i h.node := by
  have hself : (c.update i h rs).nodes i = h.node := Function.update_self ..
  exact hself ▸ hsim.node i hi

theorem Sim.locAt (hsim : Sim cfg (c.update i h rs) s) (hi : i ∈ cfg.members) :
    s.loc i = absNode h.node := by
  have hself : (c.update i h rs).nodes i = h.node := Function.update_self ..
  exact hself ▸ hsim.loc i hi

theorem Sim.askedAt (hsim : Sim cfg (c.update i h rs) s) (hi : i ∈ cfg.members)
    (hs : h.node.state = .candidate) :
    (i, h.node.currentTerm.toNat, pos h.node) ∈ s.past.asked := by
  have hself : (c.update i h rs).nodes i = h.node := Function.update_self ..
  have := hsim.asked i hi
  rw [hself] at this
  exact this hs

theorem Sim.packet (hsim : Sim cfg (c.update i h rs) s) {p : Packet} (hp : p ∈ c.net) :
    PacketOk cfg s.past p :=
  hsim.net p (List.mem_append_left _ (List.mem_append_left _ hp))

/-- The moves a node of the cluster makes, and the packets that justify them.
(A granted vote comes with its reply and is treated apart.) -/
def NetLabel (c : Cluster) (i : CString) (h : Host) : Label → Prop
  | .reconfigure => False
  | .grant _ => False
  | .accept es => es = []
  | .campaign => h.node.currentTerm + 1 ≠ 0
  | .yield => ∃ src req, .request src i (.appendEntries req) ∈ c.net ∧
      req.term = h.node.currentTerm
  | .count id => ∃ resp, .voteResp id i resp ∈ c.net ∧ resp.voteGranted ≠ 0 ∧
      resp.term = h.node.currentTerm
  | .send id (.requestVote req) => id ∈ h.node.peerIds ∧ h.node.state = .candidate ∧
      req = voteRequest h.node
  | .send id (.appendEntries req) => h.node.state = .leader ∧
      ∃ p ∈ h.node.peers, id = p.nodeId ∧ req = heartbeat h.node p
  | .ack id m => ∃ resp, .appendResp id i resp ∈ c.net ∧ m = resp.matchIndex ∧
      resp.success ≠ 0 ∧ resp.term = h.node.currentTerm
  | .commit n => h.node.state = .leader ∧ committable h.node n = true ∨
      ∃ src req, .request src i (.appendEntries req) ∈ c.net ∧
        req.leaderCommit > h.node.commitIndex
  | _ => True

section Matched

variable (hsim : Sim cfg (c.update i h rs) s) (hi : i ∈ cfg.members)
  (hsync : Synced (c.disk i) h)

include hsim hi hsync

theorem Sim.matched {l : Label} (hm : Move l h h') (hl : l ≠ .reconfigure)
    (hstep : Election.Step cfg.members.toFinset s s') (Δ : List Stamp)
    (htr : h'.trace = h.trace ++ Δ)
    (hloc : s'.loc = Function.update s.loc i (absNode h'.node))
    (hasked : h'.node.state = .candidate →
      (i, h'.node.currentTerm.toNat, pos h'.node) ∈ s'.past.asked)
    (hnet : ∀ p ∈ sends i Δ, PacketOk cfg s'.past p)
    (hcast : ∀ v x t q, (v, x, t, q) ∈ s'.past.cast → (v, x, t, q) ∈ s.past.cast ∨
      (v = i ∧ ∃ st ∈ Δ, st.call = .vote x ∧ st.node.currentTerm.toNat = t ∧ pos st.node = q))
    (hled : ∀ st ∈ Δ, st.call = .elect →
      (i, st.node.currentTerm.toNat, pos st.node) ∈ s'.past.led) :
    ∃ s', Steps cfg s s' ∧ Sim cfg (c.update i h' rs) s' := by
  refine ⟨s', .single hstep, hsim.advance (.single hstep) Δ htr ((hsim.nodeAt hi).move hl hm)
    (hsync.move hm) hloc hasked (fun p hp => ?_) hcast hled⟩
  rcases List.mem_append.1 hp with hp | hp
  · exact .inr (hnet p hp)
  · exact .inl hp

theorem Sim.unseen {l : Label} (hm : Move l h h') (hl : l ≠ .reconfigure) (Δ : List Stamp)
    (htr : h'.trace = h.trace ++ Δ) (habs : absNode h'.node = absNode h.node)
    (hnet : ∀ p ∈ sends i Δ, PacketOk cfg s.past p) (hled : ∀ st ∈ Δ, st.call ≠ .elect) :
    ∃ s', Steps cfg s s' ∧ Sim cfg (c.update i h' rs) s' :=
  ⟨s, .refl, hsim.stay hi Δ htr ((hsim.nodeAt hi).move hl hm) (hsync.move hm) habs hnet hled⟩

theorem Sim.follow {t : UInt64} (ht : h.node.currentTerm < t) :
    ∃ s', Steps cfg s s' ∧ Sim cfg (c.update i (becomeFollower h t) rs) s' := by
  have hloc := hsim.locAt hi
  have hterm : (s.loc i).term < t.toNat := by
    rw [hloc]
    exact UInt64.lt_iff_toNat_lt.1 ht
  refine hsim.matched hi hsync (Move.follow t ht) (by simp) (.advance s i _ hterm) [_] rfl ?_
    nofun (by simp [sends]) (fun _ _ _ _ => .inl) (by simp)
  rw [hloc]
  rfl

theorem Sim.yield (hs : h.node.state ≠ .follower) {src : CString} {req : RaftAppendEntriesReq}
    (hp : .request src i (.appendEntries req) ∈ c.net) (ht : req.term = h.node.currentTerm) :
    ∃ s', Steps cfg s s' ∧ Sim cfg (c.update i (becomeFollower h h.node.currentTerm) rs) s' := by
  have hloc := hsim.locAt hi
  have hok := hsim.packet hp
  have hann : (src, (s.loc i).term) ∈ s.past.announced := by
    rw [hloc]
    show (src, h.node.currentTerm.toNat) ∈ s.past.announced
    rw [← ht]
    exact hok.meant
  have hrole : (s.loc i).role ≠ .follower := by
    rw [hloc]
    cases hst : h.node.state <;> simp_all [absNode, absState]
  refine hsim.matched hi hsync (Move.yield hs) (by simp) (.yield s i src hann hok.ne hrole) [_] rfl
    ?_ RaftState.noConfusion (by simp [sends]) (fun _ _ _ _ => .inl) (by simp)
  rw [hloc]
  rfl

theorem Sim.campaign (now rand : UInt64) (hmax : h.node.currentTerm + 1 ≠ 0) :
    ∃ s', Steps cfg s s' ∧ Sim cfg (c.update i (voteSelf h now rand) rs) s' := by
  have hok := hsim.nodeAt hi
  have hloc := hsim.locAt hi
  have habs := hok.absNode_startElection hi hmax now rand
  have hterm : (h.node.currentTerm + 1).toNat = h.node.currentTerm.toNat + 1 := toNat_succ hmax
  have hself : h.node.nodeId.strncpy 36 = i := by
    rw [hok.id, CString.strncpy_of_le (cfg.length_le i hi)]
  have hstep : Election.Step cfg.members.toFinset s _ := .campaign s i
  rw [hloc] at hstep
  refine hsim.matched hi hsync (Move.campaign now rand) (by simp) hstep [_, _]
    (List.append_assoc _ _ _) (congrArg (Function.update s.loc i) habs.symm) ?_ (by simp [sends]) ?_ (by simp)
  · intro _
    show (i, (h.node.currentTerm + 1).toNat, pos h.node) ∈ _
    rw [hterm]
    exact .inl rfl
  · rintro v x t q (hq | hq)
    · cases hq
      refine .inr ⟨rfl, _, List.mem_cons_self, ?_, hterm, rfl⟩
      exact congrArg Call.vote hself
    · exact .inl hq

theorem Sim.count {id : CString} {p : RaftPeer} (hs : h.node.state = .candidate)
    (hp : findPeer h.node.peers id = some p) (hg : p.voteGranted = false)
    {resp : RaftRequestVoteResp} (hmem : .voteResp id i resp ∈ c.net) (hpos : resp.voteGranted ≠ 0)
    (ht : resp.term = h.node.currentTerm) :
    ∃ s', Steps cfg s s' ∧ Sim cfg (c.update i (h.modify (countVote id)) rs) s' := by
  have hloc := hsim.locAt hi
  have hgranted : (id, i, (s.loc i).term) ∈ s.past.granted := by
    rw [hloc]
    show (id, i, h.node.currentTerm.toNat) ∈ s.past.granted
    rw [← ht]
    exact (hsim.packet hmem).meant hpos
  have hrole : (s.loc i).role = .candidate := by
    rw [hloc]
    simp [absNode, absState, hs]
  have hstep : Election.Step cfg.members.toFinset s _ := .count s i id hrole hgranted
  rw [hloc] at hstep
  refine hsim.matched hi hsync (Move.count id p hs hp hg) (by simp) hstep []
    (List.append_nil _).symm (congrArg (Function.update s.loc i) (NodeOk.absNode_countVote hs hp).symm) ?_ (by simp [sends])
    (fun _ _ _ _ => .inl) (by simp)
  exact fun _ => hsim.askedAt hi hs

theorem Sim.elect (hs : h.node.state = .candidate) (hw : wonElection h.node = true) :
    ∃ s', Steps cfg s s' ∧ Sim cfg (c.update i ((h.modify takeLead).emit .elect) rs) s' := by
  have hok := hsim.nodeAt hi
  have hloc := hsim.locAt hi
  have hrole : (s.loc i).role = .candidate := by
    rw [hloc]
    simp [absNode, absState, hs]
  have htally : (s.loc i).tally = tally h.node := by
    rw [hloc]
    simp [absNode, hs]
  have hmaj : Majority cfg.members.toFinset (s.loc i).tally := by
    rw [htally]
    exact hok.majority hi hs hw
  have hmem : i ∈ (s.loc i).tally := by
    rw [htally]
    exact Finset.mem_insert.2 (.inl hok.id.symm)
  have hstep : Election.Step cfg.members.toFinset s _ := .elect s i hrole hmaj hmem
  rw [hloc] at hstep
  refine hsim.matched hi hsync (Move.elect hs hw) (by simp) hstep [_] rfl
    (congrArg (Function.update s.loc i) (NodeOk.absNode_takeLead hs).symm) RaftState.noConfusion
    (by simp [sends]) (fun _ _ _ _ => .inl) ?_
  intro st hst _
  cases List.mem_singleton.1 hst
  exact .inl rfl

theorem Sim.append (hs : h.node.state = .leader) (data : Bytes) :
    ∃ s', Steps cfg s s' ∧ Sim cfg (c.update i (persistState <| h.modify fun nd =>
      { nd with log := nd.log ++ [submitEntry nd data] }) rs) s' := by
  have hloc := hsim.locAt hi
  have hrole : (s.loc i).role = .leader := by
    rw [hloc]
    simp [absNode, absState, hs]
  have hstep : Election.Step cfg.members.toFinset s _ :=
    .append s i (pos { h.node with log := h.node.log ++ [submitEntry h.node data] }) hrole
  rw [hloc] at hstep
  refine hsim.matched hi hsync (Move.append data hs) (by simp) hstep [_] rfl rfl
    (fun hc => absurd (hs.symm.trans hc) (by decide)) (by simp [sends]) (fun _ _ _ _ => .inl)
    (by simp)

theorem Sim.requestVote {id : CString} (hid : id ∈ h.node.peerIds)
    (hs : h.node.state = .candidate) :
    ∃ s', Steps cfg s s' ∧
      Sim cfg (c.update i (h.emit (.sendRpc id (.requestVote (voteRequest h.node)))) rs) s' := by
  have hok := hsim.nodeAt hi
  refine hsim.unseen hi hsync (Move.send _ _) (by simp) [_] rfl rfl (fun p hp => ?_) (by simp)
  obtain rfl : p = .request i id (.requestVote (voteRequest h.node)) := by simpa [sends] using hp
  obtain ⟨hmem, hne⟩ := hok.peer_mem hid
  refine ⟨hi, hmem, hne.symm, ?_, hsim.askedAt hi hs⟩
  show h.node.nodeId.strncpy 36 = i
  rw [hok.id, CString.strncpy_of_le (cfg.length_le i hi)]

theorem Sim.announce {id : CString} {req : RaftAppendEntriesReq} (hid : id ∈ h.node.peerIds)
    (hs : h.node.state = .leader) (ht : req.term = h.node.currentTerm) :
    ∃ s', Steps cfg s s' ∧
      Sim cfg (c.update i (h.emit (.sendRpc id (.appendEntries req))) rs) s' := by
  have hok := hsim.nodeAt hi
  have hloc := hsim.locAt hi
  have hrole : (s.loc i).role = .leader := by
    rw [hloc]
    simp [absNode, absState, hs]
  have hstep : Election.Step cfg.members.toFinset s _ := .announce s i hrole
  rw [hloc] at hstep
  refine hsim.matched hi hsync (Move.send _ _) (by simp) hstep [_] rfl ?_
    (fun hc => absurd (hs.symm.trans hc) (by decide)) (fun p hp => ?_) (fun _ _ _ _ => .inl)
    (by simp)
  · show s.loc = Function.update s.loc i (absNode h.node)
    rw [← hloc, Function.update_eq_self]
  · obtain rfl : p = .request i id (.appendEntries req) := by simpa [sends] using hp
    obtain ⟨hmem, hne⟩ := hok.peer_mem hid
    refine ⟨hi, hmem, hne.symm, .inl ?_⟩
    rw [ht]
    rfl

/-- **One move of a node** is matched by the protocol. -/
theorem Sim.move {l : Label} (hk : NetLabel c i h l) (hm : Move l h h') :
    ∃ s', Steps cfg s s' ∧ Sim cfg (c.update i h' rs) s' := by
  have hl : l ≠ .reconfigure := fun e => by rw [e] at hk; exact hk
  have hm' := hm
  cases hm with
  | quiet b => exact hsim.unseen hi hsync hm' hl [] (List.append_nil _).symm rfl (by simp [sends]) (by simp)
  | reconfigure => exact absurd rfl hl
  | send id req =>
    cases req with
    | requestVote req =>
      obtain ⟨hid, hs, rfl⟩ := hk
      exact hsim.requestVote hi hsync hid hs
    | appendEntries req =>
      obtain ⟨hs, p, hp, rfl, rfl⟩ := hk
      exact hsim.announce hi hsync (List.mem_map_of_mem hp) hs rfl
  | follow t ht => exact hsim.follow hi hsync ht
  | yield hs =>
    obtain ⟨src, req, hp, ht⟩ := hk
    exact hsim.yield hi hsync hs hp ht
  | campaign now rand => exact hsim.campaign hi hsync now rand hk
  | grant => exact hk.elim
  | count id p hs hp hg =>
    obtain ⟨resp, hmem, hpos, ht⟩ := hk
    exact hsim.count hi hsync hs hp hg hmem hpos ht
  | elect hs hw => exact hsim.elect hi hsync hs hw
  | append data hs => exact hsim.append hi hsync hs data
  | accept es hs =>
    obtain rfl : es = [] := hk
    exact hsim.unseen hi hsync hm' hl [_] rfl rfl (by simp [sends]) (by simp)
  | ack id m hs =>
    exact hsim.unseen hi hsync hm' hl [] (List.append_nil _).symm
      (NodeOk.absNode_recordMatch id m) (by simp [sends]) (by simp)
  | backOff id p hs hp hn =>
    exact hsim.unseen hi hsync hm' hl [] (List.append_nil _).symm
      (NodeOk.absNode_backOff id) (by simp [sends]) (by simp)
  | commit n => exact hsim.unseen hi hsync hm' hl [_] rfl rfl (by simp [sends]) (by simp)
  | apply e hlt he => exact hsim.unseen hi hsync hm' hl [_] rfl rfl (by simp [sends]) (by simp)
  | skip hlt he =>
    exact hsim.unseen hi hsync hm' hl [] (List.append_nil _).symm rfl (by simp [sends]) (by simp)

theorem Sim.moves (hm : h.Moves (NetLabel c i) h') :
    ∃ s', Steps cfg s s' ∧ Sim cfg (c.update i h' rs) s' ∧ Synced (c.disk i) h' := by
  refine Lib.Moves.invariant (P := fun g => ∃ s', Steps cfg s s' ∧ Sim cfg (c.update i g rs) s' ∧
    Synced (c.disk i) g) hm ⟨s, .refl, hsim, hsync⟩ fun x y l hx hk hl => ?_
  obtain ⟨s₁, hs₁, hsim₁, hsync₁⟩ := hx
  obtain ⟨s₂, hs₂, hsim₂⟩ := hsim₁.move hi hsync₁ hk hl
  exact ⟨s₂, hs₁.trans hs₂, hsim₂, hsync₁.move hl⟩

end Matched

theorem Sim.grant (hsim : Sim cfg (c.update i h []) s) (hi : i ∈ cfg.members)
    (hsync : Synced (c.disk i) h) {src : CString} {req : RaftRequestVoteReq} {r : UInt64}
    (hmem : .request src i (.requestVote req) ∈ c.net) (hr : r ≤ h.node.currentTerm)
    (hm : Move (.grant req) h (castVote h req.candidateId)) :
    ∃ s', Steps cfg s s' ∧
      Sim cfg (c.update i (castVote h req.candidateId) [.voteResp i src ⟨r, 1⟩]) s' := by
  have hok := hsim.nodeAt hi
  have hloc := hsim.locAt hi
  obtain ⟨hsrc, -, hne, hcand, hasked⟩ := hsim.packet hmem
  have hcopy : req.candidateId.strncpy 36 = src := by
    rw [hcand]
    exact CString.strncpy_of_le (cfg.length_le src hsrc)
  obtain ⟨ht, hv, hl⟩ : req.term = h.node.currentTerm ∧ alreadyVoted h.node req = false ∧
      logOk h.node req = true := by
    cases hm with
    | grant _ ht hv hl => exact ⟨ht, hv, hl⟩
  have hask : (src, (s.loc i).term, req.pos) ∈ s.past.asked := by
    rw [hloc]
    show (src, h.node.currentTerm.toNat, req.pos) ∈ s.past.asked
    rw [← ht]
    exact hasked
  have hfree : (s.loc i).vote = none ∨ (s.loc i).vote = some src := by
    rw [hloc]
    unfold absNode absVote
    rcases alreadyVoted_eq_false.1 hv with hnil | hsame
    · simp [hnil]
    · simp [hsame, hcand, cfg.nonempty src hsrc]
  have hle : (s.loc i).pos ≤ req.pos := by
    rw [hloc]
    exact (logOk_iff _ _).1 hl
  have hr' : r.toNat ≤ (s.loc i).term := by
    rw [hloc]
    exact UInt64.le_iff_toNat_le.1 hr
  have hstep : Election.Step cfg.members.toFinset s _ :=
    .grant s i src req.pos r.toNat hask hfree hle hr' hne
  have habs : absNode (castVote h req.candidateId).node =
      { absNode h.node with vote := some src } := by
    rw [← NodeOk.absNode_vote (cfg.nonempty src hsrc), ← hcopy]
    rfl
  rw [hloc] at hstep
  refine ⟨_, .single hstep, hsim.advance (.single hstep) [_, _] (List.append_assoc _ _ _)
    (hok.move (by simp) hm) (hsync.move hm) (congrArg (Function.update s.loc i) habs.symm)
    (fun hc => hsim.askedAt hi hc) (fun p hp => .inr ?_) ?_ (by simp)⟩
  · obtain rfl : p = .voteResp i src ⟨r, 1⟩ := by simpa [sends] using hp
    exact ⟨hi, hsrc, hne.symm, fun _ => .inl rfl⟩
  · rintro v x t q (hq | hq)
    · cases hq
      exact .inr ⟨rfl, _, List.mem_cons_self, congrArg Call.vote hcopy, rfl, rfl⟩
    · exact .inl hq

theorem Sim.reply (hsim : Sim cfg (c.update i h []) s) (hrs : ∀ p ∈ rs, PacketOk cfg s.past p) :
    Sim cfg (c.update i h rs) s where
  node := hsim.node
  loc := hsim.loc
  asked := hsim.asked
  disk := hsim.disk
  net := by
    intro q hq
    have hold := hsim.net q
    simp only [Cluster.update, List.mem_append, List.append_nil] at hq hold
    rcases hq with hq | hq
    · exact hold hq
    · exact hrs q hq
  cast := hsim.cast
  led := hsim.led

end Update

/-! ## Calls -/

section Calls

variable {c : Cluster} {i : CString}

theorem tick_moves (h : Host) {now electionNow rand : UInt64} (hmax : ¬ termOverflows h.node now) :
    h.Moves (NetLabel c i) (raftTick h (tickEnv now electionNow rand)) := by
  have happly : ∀ g : Host, g.Moves (NetLabel c i) (applyCommittedEntries g) := fun g =>
    (applyLoop_moves _ g).mono fun x l hl => by cases l <;> trivial
  unfold raftTick
  refine Moves.trans ?_ (happly _)
  split
  · rename_i hs
    refine ((leaderTick_moves h now []).restrict (P := fun g => g.node.state = .leader) hs ?_).mono ?_
    · intro x y l hx hk hm
      cases hm with
      | quiet | send | commit => exact hx
      | _ =>
        obtain ⟨_, _, hr, -⟩ := hk
        cases hr
    · rintro x l ⟨hx, hk⟩
      cases l with
      | send id req =>
        obtain ⟨p, hp, rfl, rfl⟩ := hk
        exact ⟨hx, p, hp, rfl, rfl⟩
      | commit n => exact .inl ⟨hx, hk.2⟩
      | quiet => trivial
      | _ =>
        obtain ⟨_, _, hr, -⟩ := hk
        cases hr
  · rename_i hs
    unfold followerCandidateTick
    split
    · rename_i hd
      have hcampaign : h.Moves (NetLabel c i) (voteSelf h electionNow rand) :=
        Moves.one (Move.campaign _ _) fun h0 => hmax ⟨hs, hd, h0⟩
      unfold becomeCandidate
      refine (forPeers_induct (P := fun g => h.Moves (NetLabel c i) g ∧
        g.node = (voteSelf h electionNow rand).node) [] (fun p r g hp hr hg => ?_) _ _ _ _
        (fun _ => id) ⟨hcampaign, rfl⟩).1
      cases r with
      | some r => cases hr r rfl
      | none =>
        refine ⟨hg.1.trans (Moves.one (Move.send _ _) ⟨List.mem_map_of_mem hp, ?_, ?_⟩), hg.2⟩
        · rw [hg.2]; rfl
        · rw [hg.2]; rfl
    · exact Moves.refl h

/-- A reply to a vote request adds nothing the net does not justify. -/
theorem voteResp_moves (h : Host) {src : CString} {resp : RaftRequestVoteResp}
    (hp : .voteResp src i resp ∈ c.net) :
    h.Moves (NetLabel c i) (raftHandleRequestVoteResponse h Alloc.ok src resp) := by
  refine (raftHandleRequestVoteResponse_moves h Alloc.ok src resp).mono fun x l hl => ?_
  cases l with
  | count id =>
    obtain ⟨rfl, hg, ht⟩ := hl
    exact ⟨resp, hp, hg, ht⟩
  | follow | elect | quiet | append => trivial
  | _ => exact hl.elim

theorem appendResp_moves (h : Host) {src : CString} {resp : RaftAppendEntriesResp}
    (hp : .appendResp src i resp ∈ c.net) :
    h.Moves (NetLabel c i) (raftHandleAppendEntriesResponse h src resp) := by
  refine (raftHandleAppendEntriesResponse_moves h src resp).mono fun x l hl => ?_
  cases l with
  | ack id m =>
    obtain ⟨rfl, hm, hok, ht⟩ := hl
    exact ⟨resp, hp, hm, hok, ht⟩
  | follow | backOff => trivial
  | _ => exact hl.elim

theorem appendEntries_moves (h : Host) (now : UInt64) {src : CString} {req : RaftAppendEntriesReq}
    (hp : .request src i (.appendEntries req) ∈ c.net) :
    h.Moves (NetLabel c i) (raftHandleAppendEntries h now req []).1 := by
  refine (raftHandleAppendEntries_moves h now req []).mono fun x l hl => ?_
  cases l with
  | yield => exact ⟨src, req, hp, hl.2.2⟩
  | accept es => exact hl.1
  | commit n => exact .inr ⟨src, req, hp, hl.1⟩
  | follow | quiet => trivial
  | _ => exact hl.elim

theorem submit_moves (h : Host) (data : Bytes) :
    h.Moves (NetLabel c i) (raftSubmit h Alloc.ok data).1 := by
  refine (raftSubmit_moves h Alloc.ok data).mono fun x l hl => ?_
  cases l with
  | quiet | append => trivial
  | _ => exact hl.elim

end Calls

/-! ## Steps and runs -/

section Steps

variable {cfg : Config} {c c' : Cluster} {s : State CString Pos}

theorem Sim.start (hsim : Sim cfg c s) {i : CString} (hi : i ∈ cfg.members) :
    Sim cfg (c.update i (c.nodes i).host []) s ∧ Synced (c.disk i) (c.nodes i).host := by
  rw [c.update_host]
  exact ⟨hsim, hsim.disk i hi, spoken_nil _⟩

theorem Sim.call (hsim : Sim cfg c s) {i : CString} (hi : i ∈ cfg.members) {h : Host}
    (hm : (c.nodes i).host.Moves (NetLabel c i) h) :
    ∃ s', Steps cfg s s' ∧ Sim cfg (c.update i h []) s' := by
  obtain ⟨hsim, hsync⟩ := hsim.start hi
  obtain ⟨s', hs, hsim', -⟩ := hsim.moves hi hsync hm
  exact ⟨s', hs, hsim'⟩

theorem Sim.handleRequestVote (hsim : Sim cfg c s) {src dst : CString} {req : RaftRequestVoteReq}
    (hp : .request src dst (.requestVote req) ∈ c.net) (now : UInt64) :
    ∃ s', Steps cfg s s' ∧ Sim cfg (deliver c now (.request src dst (.requestVote req))) s' := by
  obtain ⟨hsrc, hdst, hne, -⟩ := hsim.net _ hp
  have hdst : dst ∈ cfg.members := hdst
  obtain ⟨hsim, hsync⟩ := hsim.start hdst
  have hdown : (c.nodes dst).host.Moves (NetLabel c dst) (stepDown (c.nodes dst).host req.term) :=
    (stepDown_moves _ _).mono fun _ l hl => by subst hl; trivial
  obtain ⟨s₁, hs₁, hsim₁, hsync₁⟩ := hsim.moves hdst hsync hdown
  unfold deliver
  dsimp only
  rcases raftHandleRequestVote_cases (c.nodes dst).host now req with e | ⟨hgrant, e⟩ <;> rw [e]
  · refine ⟨s₁, hs₁, hsim₁.reply fun p hp => ?_⟩
    cases List.mem_singleton.1 hp
    exact ⟨hdst, hsrc, hne.symm, fun h0 => absurd rfl h0⟩
  · obtain ⟨s₂, hs₂, hsim₂⟩ := hsim₁.grant hdst hsync₁ hp (le_stepDown _ _) hgrant
    obtain ⟨s₃, hs₃, hsim₃, -⟩ := hsim₂.moves hdst (hsync₁.move hgrant)
      (soft_moves _ (setHeartbeat now) rfl trivial)
    exact ⟨s₃, (hs₁.trans hs₂).trans hs₃, hsim₃⟩

theorem Sim.crash (hsim : Sim cfg c s) {i : CString} (hi : i ∈ cfg.members) (now rand : UInt64) :
    ∃ s', Steps cfg s s' ∧ Sim cfg { c with
      nodes := Function.update c.nodes i (boot i (cfg.peersOf i) (c.disk i) now rand) } s' := by
  have hnd := hsim.node i hi
  have hdisk := hsim.disk i hi
  obtain ⟨hst, hok⟩ := boot_nodeOk hi (c.disk i) now rand
  have habs := absNode_boot hi hnd now rand
  rw [← hdisk] at habs
  generalize boot i (cfg.peersOf i) (c.disk i) now rand = nd at hst hok habs
  have hcrash : c.update i nd.host [] = { c with nodes := Function.update c.nodes i nd } := by
    simp [Cluster.update, RaftNode.host, sends]
  rw [← hcrash]
  obtain ⟨hsim, -⟩ := hsim.start hi
  have hsync : Synced (c.disk i) nd.host :=
    ⟨(hst.durable_eq (by rw [hdisk]; exact hnd.vote_le)).symm, spoken_nil _⟩
  have hstep : Election.Step cfg.members.toFinset s _ := .restart s i
  rw [hsim.locAt hi] at hstep
  refine ⟨_, .single hstep, hsim.advance (.single hstep) [] rfl hok hsync
    (congrArg (Function.update s.loc i) habs.symm) (fun hc => ?_) (fun p hp => .inl hp)
    (fun _ _ _ _ => .inl) (by simp)⟩
  exact absurd (hst.state.symm.trans hc) (by decide)

/-- What a step can be: a call made of justified moves, whose only answers are
AppendEntries responses; a vote request; a crash. -/
theorem Sim.step_cases (hsim : Sim cfg c s) {a : Action} (ha : DRoole.step cfg c a = some c') :
    (∃ i ∈ cfg.members, ∃ h rs, (c.nodes i).host.Moves (NetLabel c i) h ∧
      (∀ p ∈ rs, ∃ src req now, a = .deliver (.request src i (.appendEntries req)) now ∧
        .request src i (.appendEntries req) ∈ c.net ∧
        p = .appendResp i src (raftHandleAppendEntries (c.nodes i).host now req []).2) ∧
      c' = c.update i h rs) ∨
    (∃ src dst req now, .request src dst (.requestVote req) ∈ c.net ∧
      c' = deliver c now (.request src dst (.requestVote req))) ∨
    (∃ i ∈ cfg.members, ∃ now rand, c' = { c with
      nodes := Function.update c.nodes i (boot i (cfg.peersOf i) (c.disk i) now rand) }) := by
  cases a with
  | tick i now electionNow rand =>
    simp only [DRoole.step, Option.ite_none_right_eq_some, Option.some.injEq] at ha
    obtain ⟨⟨hi, hmax⟩, rfl⟩ := ha
    exact .inl ⟨i, hi, _, [], tick_moves _ hmax, nofun, rfl⟩
  | submit i data =>
    simp only [DRoole.step, Option.ite_none_right_eq_some, Option.some.injEq] at ha
    obtain ⟨hi, rfl⟩ := ha
    exact .inl ⟨i, hi, _, [], submit_moves _ data, nofun, rfl⟩
  | deliver p now =>
    simp only [DRoole.step, Option.ite_none_right_eq_some, Option.some.injEq] at ha
    obtain ⟨hp, rfl⟩ := ha
    have hok := hsim.net p hp
    match p, hp, hok with
    | .request src dst (.requestVote req), hp, _ => exact .inr (.inl ⟨src, dst, req, now, hp, rfl⟩)
    | .request src dst (.appendEntries req), hp, hok =>
      refine .inl ⟨dst, hok.dst, _, _, appendEntries_moves _ now hp, fun p hp' => ?_, rfl⟩
      exact ⟨src, req, now, rfl, hp, List.mem_singleton.1 hp'⟩
    | .voteResp src dst resp, hp, hok =>
      exact .inl ⟨dst, hok.dst, _, [], voteResp_moves _ hp, nofun, rfl⟩
    | .appendResp src dst resp, hp, hok =>
      exact .inl ⟨dst, hok.dst, _, [], appendResp_moves _ hp, nofun, rfl⟩
  | crash i now rand =>
    simp only [DRoole.step, Option.ite_none_right_eq_some, Option.some.injEq] at ha
    obtain ⟨hi, rfl⟩ := ha
    exact .inr (.inr ⟨i, hi, now, rand, rfl⟩)

/-- **One step of the cluster** is matched by the protocol. -/
theorem Sim.step (hsim : Sim cfg c s) {a : Action} (ha : DRoole.step cfg c a = some c') :
    ∃ s', Steps cfg s s' ∧ Sim cfg c' s' := by
  rcases hsim.step_cases ha with ⟨i, hi, h, rs, hm, hrs, rfl⟩ | ⟨src, dst, req, now, hp, rfl⟩ |
    ⟨i, hi, now, rand, rfl⟩
  · obtain ⟨s', hs, hsim'⟩ := hsim.call hi hm
    refine ⟨s', hs, hsim'.reply fun p hp => ?_⟩
    obtain ⟨src, req, now, -, hreq, rfl⟩ := hrs p hp
    have hok := hsim.net _ hreq
    exact ⟨hi, hok.src, hok.ne.symm, trivial⟩
  · exact hsim.handleRequestVote hp now
  · exact hsim.crash hi now rand

/-- **A run of the cluster** is matched by a run of the protocol. -/
theorem Sim.run {as : List Action} (hsim : Sim cfg c s) (hr : run (DRoole.step cfg) c as = some c') :
    ∃ s', Steps cfg s s' ∧ Sim cfg c' s' := by
  refine run_induct (P := fun c' => ∃ s', Steps cfg s s' ∧ Sim cfg c' s') ?_
    ⟨s, .refl, hsim⟩ along_true hr
  rintro c₁ a c₂ ⟨s₁, hs₁, hsim₁⟩ - ha
  obtain ⟨s₂, hs₂, hsim₂⟩ := hsim₁.step ha
  exact ⟨s₂, hs₁.trans hs₂, hsim₂⟩

theorem sim_init (cfg : Config) (now rand : CString → UInt64) :
    ∃ s, Inv cfg.members.toFinset s ∧ Sim cfg (initCluster cfg now rand) s := by
  have hboot : ∀ i ∈ cfg.members, _ := fun i hi => boot_nodeOk hi Durable.empty (now i) (rand i)
  let s : State CString Pos :=
    { loc := fun i =>
        if i ∈ cfg.members then absNode ((initCluster cfg now rand).nodes i)
        else ⟨0, .follower, none, toLex (0, 0), ∅⟩
      past := ⟨∅, ∅, ∅, ∅, ∅⟩ }
  refine ⟨s, inv_init _ (fun i => ?_) rfl, ?_⟩
  · show (if _ then _ else _ : Local CString Pos).role = _
    split
    · rename_i hi
      exact congrArg absState (hboot i hi).1.state
    · rfl
  · constructor
    · exact fun i hi => (hboot i hi).2
    · exact fun i hi => if_pos hi
    · exact fun i hi hc => absurd ((hboot i hi).1.state.symm.trans hc) (by decide)
    · exact fun i hi => ((hboot i hi).1.durable_eq (Nat.zero_le _)).symm
    · exact fun p hp => absurd hp List.not_mem_nil
    · exact fun v x t q hq => absurd hq (Set.notMem_empty _)
    · exact fun i st hst => absurd hst List.not_mem_nil

end Steps

end DRoole
