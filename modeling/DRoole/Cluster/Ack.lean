import DRoole.Cluster.Apply
import DRoole.Raft.Reply

/-!
# Acknowledgements

A follower that accepts an AppendEntries request reports the end of its own log
as matching, also when that log goes on past the entries the request vouches
for. Every commit rests on such a report: as long as no such request is accepted,
a leader never counts a peer for an entry of its own term (`Unacked`), and
nothing is committed or applied, however long the cluster runs
(`aligned_commits_nothing`).
-/

namespace DRoole

open Lib Lib.Election

/-! ## Logs that grow -/

/-- The term does not fall and the log is only appended to. -/
structure Grows (a b : RaftNode) : Prop where
  term : a.currentTerm ≤ b.currentTerm
  log : a.log <+: b.log

theorem Grows.refl (a : RaftNode) : Grows a a := ⟨UInt64.le_refl _, List.prefix_refl _⟩

theorem Grows.trans {a b c : RaftNode} (hab : Grows a b) (hbc : Grows b c) : Grows a c :=
  ⟨UInt64.le_trans hab.term hbc.term, hab.log.trans hbc.log⟩

/-- Index `m` is in the log, or 0, and every entry of term `t` is after it. -/
structure Before (log : List RaftLogEntry) (t m : UInt64) : Prop where
  le : m.toNat ≤ log.length
  entry : ∀ k e, log[k]? = some e → e.term = t → m.toNat ≤ k

namespace Before

variable {log log' : List RaftLogEntry} {t m m' : UInt64}

theorem mono (h : Before log t m) (hm : m' ≤ m) : Before log t m' :=
  have hm := UInt64.le_iff_toNat_le.1 hm
  ⟨hm.trans h.le, fun k e he ht => hm.trans (h.entry k e he ht)⟩

theorem grow (h : Before log t m) (hl : log <+: log') : Before log' t m := by
  refine ⟨h.le.trans hl.length_le, fun k e he ht => ?_⟩
  by_cases hk : k < log.length
  · obtain ⟨es, rfl⟩ := hl
    rw [List.getElem?_append_left hk] at he
    exact h.entry k e he ht
  · exact h.le.trans (Nat.le_of_not_lt hk)

theorem of_ne (hne : ∀ e ∈ log, e.term ≠ t) (hm : m.toNat ≤ log.length) : Before log t m :=
  ⟨hm, fun _ e he ht => absurd ht (hne e (List.mem_of_getElem? he))⟩

end Before

/-! ## A node that nobody acknowledges -/

/-- Nothing is committed, and no peer is known to hold an entry of the present term. -/
structure Unacked (nd : RaftNode) : Prop where
  commit : nd.commitIndex = 0
  applied : nd.lastApplied = 0
  noSnapshot : nd.lastSnapshotIndex = 0
  lastIndex : lastLogIndex nd = UInt64.ofNat nd.log.length
  peers_pos : 0 < nd.peers.length
  terms : ∀ e ∈ nd.log, e.term ≤ nd.currentTerm
  candidate : nd.state = .candidate →
    nd.currentTerm ≠ 0 ∧ ∀ e ∈ nd.log, e.term ≠ nd.currentTerm
  leader : nd.state = .leader → nd.currentTerm ≠ 0 ∧
    ∀ p ∈ nd.peers, Before nd.log nd.currentTerm p.matchIndex ∧
      Before nd.log nd.currentTerm (p.nextIndex - 1)

theorem toNat_ofNat_length_le (log : List RaftLogEntry) :
    (UInt64.ofNat log.length).toNat ≤ log.length := by
  rw [UInt64.toNat_ofNat']
  exact Nat.mod_le ..

theorem replicas_eq_one {nd : RaftNode} {n : UInt64} (h : ∀ p ∈ nd.peers, ¬ p.matchIndex ≥ n) :
    replicas nd n = 1 := by
  unfold replicas
  generalize nd.peers = ps at h
  induction ps with
  | nil => rfl
  | cons p ps ih =>
    rw [List.foldl_cons, if_neg (h p List.mem_cons_self)]
    exact ih fun q hq => h q (List.mem_cons_of_mem _ hq)

theorem Unacked.not_committable {nd : RaftNode} (hok : Unacked nd) (hs : nd.state = .leader)
    (n : UInt64) : committable nd n = false := by
  obtain ⟨hterm, hpeers⟩ := hok.leader hs
  have hlen := hok.peers_pos
  rw [Bool.eq_false_iff]
  intro hc
  simp only [committable, decide_eq_true_eq] at hc
  obtain ⟨hat, hmany⟩ := hc
  unfold termAtIndex at hat
  rw [hok.noSnapshot] at hat
  split at hat
  · exact hterm hat.symm
  rename_i hn
  split at hat
  swap
  · exact hterm hat.symm
  rename_i e he
  unfold getLogEntry at he
  rw [hok.noSnapshot] at he
  split at he
  · cases he
  have hpos : n.toNat ≠ 0 := fun h0 => hn (UInt64.toNat_inj.1 h0)
  have hsub : (n - 0 - 1).toNat = n.toNat - 1 := by
    rw [UInt64.sub_zero, UInt64.toNat_sub_of_le _ _ (by
      rw [UInt64.le_iff_toNat_le, UInt64.toNat_one]; omega), UInt64.toNat_one]
  rw [hsub] at he
  have hone : replicas nd n = 1 := replicas_eq_one fun p hp hge => by
    have hb := (hpeers p hp).1.entry _ e he hat
    have hge := UInt64.le_iff_toNat_le.1 hge
    omega
  rw [hone] at hmany
  have : (1 : UInt32).toNat = 1 := rfl
  omega

def AckLabel (h : Host) : Label → Prop
  | .reconfigure => False
  | .commit _ => False
  | .accept es => es = []
  | .campaign => h.node.currentTerm + 1 ≠ 0
  | .ack _ m => Before h.node.log h.node.currentTerm m
  | .send _ (.appendEntries req) => h.node.state = .leader ∧
      ∃ p ∈ h.node.peers, req = heartbeat h.node p
  | _ => True

variable {l : Label} {h h' : Host}

theorem Move.grows (hk : AckLabel h l) (hm : Move l h h') : Grows h.node h'.node := by
  cases hm with
  | follow t ht => exact ⟨UInt64.le_of_lt ht, List.prefix_refl _⟩
  | campaign now rand =>
    refine ⟨?_, List.prefix_refl _⟩
    rw [UInt64.le_iff_toNat_le]
    show _ ≤ (h.node.currentTerm + 1).toNat
    rw [toNat_succ hk]
    exact Nat.le_succ _
  | append data hs => exact ⟨UInt64.le_refl _, List.prefix_append ..⟩
  | accept es hs =>
    obtain rfl : es = [] := hk
    exact Grows.refl _
  | _ => exact ⟨UInt64.le_refl _, List.prefix_refl _⟩

/-- **One move** keeps a node unacknowledged. -/
theorem Unacked.move (hok : Unacked h.node) (hk : AckLabel h l) (hm : Move l h h') :
    Unacked h'.node := by
  have hstuck : ¬ h.node.lastApplied < h.node.commitIndex := by
    rw [hok.commit, hok.applied]
    exact fun hlt => absurd hlt (by decide)
  cases hm with
  | quiet | send | grant => exact { hok with }
  | reconfigure | commit => exact hk.elim
  | apply e hlt | skip hlt => exact absurd hlt hstuck
  | follow t ht =>
    exact { hok with
      terms := fun e he => UInt64.le_trans (hok.terms e he) (UInt64.le_of_lt ht)
      candidate := nofun
      leader := nofun }
  | yield hs => exact { hok with candidate := nofun, leader := nofun }
  | campaign now rand =>
    have hlt : ∀ e ∈ h.node.log, e.term < h.node.currentTerm + 1 := fun e he => by
      have hle := UInt64.le_iff_toNat_le.1 (hok.terms e he)
      rw [UInt64.lt_iff_toNat_lt, toNat_succ hk]
      omega
    exact { hok with
      peers_pos := (List.length_map ..).symm ▸ hok.peers_pos
      terms := fun e he => UInt64.le_of_lt (hlt e he)
      candidate := fun _ => ⟨hk, fun e he => UInt64.ne_of_lt (hlt e he)⟩
      leader := nofun }
  | count id p hs hp hg =>
    exact { hok with
      peers_pos := (length_updatePeer ..).symm ▸ hok.peers_pos
      leader := fun hl => absurd (hs.symm.trans hl) (by decide) }
  | elect hs hw =>
    obtain ⟨hterm, hne⟩ := hok.candidate hs
    refine { hok with
      peers_pos := (List.length_map ..).symm ▸ hok.peers_pos
      candidate := nofun
      leader := fun _ => ⟨hterm, fun q hq => ?_⟩ }
    obtain ⟨p, -, rfl⟩ := List.mem_map.1 hq
    refine ⟨.of_ne hne (Nat.zero_le _), .of_ne hne ?_⟩
    rw [UInt64.add_sub_cancel, hok.lastIndex]
    exact toNat_ofNat_length_le _
  | append data hs =>
    have hlast : lastLogIndex h.node + 1 = UInt64.ofNat (h.node.log.length + 1) := by
      rw [hok.lastIndex, UInt64.ofNat_add]
      rfl
    obtain ⟨hterm, hpeers⟩ := hok.leader hs
    refine { hok with
      lastIndex := ?_
      terms := fun e he => ?_
      candidate := fun hc => absurd (hs.symm.trans hc) (by decide)
      leader := fun _ => ⟨hterm, fun p hp => ?_⟩ }
    · show lastLogIndex { h.node with log := h.node.log ++ [_] } =
        UInt64.ofNat (h.node.log ++ [_]).length
      rw [List.length_append, List.length_singleton, ← hlast]
      simp [lastLogIndex, submitEntry]
    · rcases List.mem_append.1 he with he | he
      · exact hok.terms e he
      · cases List.mem_singleton.1 he
        exact UInt64.le_refl _
    · have hl : h.node.log <+: h.node.log ++ [submitEntry h.node data] := List.prefix_append ..
      exact ⟨(hpeers p hp).1.grow hl, (hpeers p hp).2.grow hl⟩
  | accept es hs =>
    obtain rfl : es = [] := hk
    exact { hok with }
  | ack id m hs =>
    obtain ⟨hterm, hpeers⟩ := hok.leader hs
    refine { hok with
      peers_pos := (length_updatePeer ..).symm ▸ hok.peers_pos
      leader := fun _ => ⟨hterm, fun q hq => ?_⟩ }
    rcases mem_updatePeer hq with hq | ⟨p, -, rfl⟩
    · exact hpeers q hq
    · refine ⟨hk, ?_⟩
      rw [UInt64.add_sub_cancel]
      exact hk
  | backOff id p hs hp hn =>
    obtain ⟨hterm, hpeers⟩ := hok.leader hs
    refine { hok with
      peers_pos := (length_updatePeer ..).symm ▸ hok.peers_pos
      leader := fun _ => ⟨hterm, fun q hq => ?_⟩ }
    rcases mem_updatePeer hq with hq | ⟨r, hr, rfl⟩
    · exact hpeers q hq
    · cases hp.symm.trans hr
      have hmem := hpeers p (List.mem_of_find?_eq_some hp)
      exact ⟨hmem.1, hmem.2.mono (by grind)⟩

/-! ## Messages -/

/-- A request of a node vouches for no entry of its term and commits nothing. -/
structure ReqOk (nd : RaftNode) (req : RaftAppendEntriesReq) : Prop where
  term : req.term ≤ nd.currentTerm
  commit : req.leaderCommit = 0
  prev : Before nd.log req.term req.prevLogIndex

/-- A positive response to a node is for a request of a term the node has
reached, and acknowledges no entry of that term. -/
def RespOk (nd : RaftNode) (resp : RaftAppendEntriesResp) : Prop :=
  resp.success ≠ 0 →
    ∃ t, resp.term ≤ t ∧ t ≤ nd.currentTerm ∧ Before nd.log t resp.matchIndex

section

variable {nd nd' : RaftNode}

theorem ReqOk.grow {req : RaftAppendEntriesReq} (hok : ReqOk nd req) (hg : Grows nd nd') :
    ReqOk nd' req :=
  ⟨UInt64.le_trans hok.term hg.term, hok.commit, hok.prev.grow hg.log⟩

theorem RespOk.grow {resp : RaftAppendEntriesResp} (hok : RespOk nd resp) (hg : Grows nd nd') :
    RespOk nd' resp := by
  intro hs
  obtain ⟨t, hle, ht, hb⟩ := hok hs
  exact ⟨t, hle, UInt64.le_trans ht hg.term, hb.grow hg.log⟩

/-- A response of the node's present term acknowledges none of its entries. -/
theorem RespOk.before {resp : RaftAppendEntriesResp} (hok : RespOk nd resp)
    (hs : resp.success ≠ 0) (ht : resp.term = nd.currentTerm) :
    Before nd.log nd.currentTerm resp.matchIndex := by
  obtain ⟨t, hle, hle', hb⟩ := hok hs
  obtain rfl : t = nd.currentTerm := by grind
  exact hb

theorem Unacked.reqOk_heartbeat (hok : Unacked nd) (hs : nd.state = .leader) {p : RaftPeer}
    (hp : p ∈ nd.peers) : ReqOk nd (heartbeat nd p) :=
  ⟨UInt64.le_refl _, hok.commit, ((hok.leader hs).2 p hp).2⟩

end

/-- A node and its trace: nothing applied, and its requests in order. -/
structure HostOk (h : Host) : Prop where
  node : Unacked h.node
  req : ∀ st ∈ h.trace, ∀ id req, st.call = .sendRpc id (.appendEntries req) → ReqOk h.node req
  apply : ∀ st ∈ h.trace, ∀ e, st.call ≠ .apply e

theorem HostOk.host {nd : RaftNode} (hok : Unacked nd) : HostOk nd.host :=
  ⟨hok, fun _ hst => absurd hst List.not_mem_nil, fun _ hst => absurd hst List.not_mem_nil⟩

theorem HostOk.move (hok : HostOk h) (hk : AckLabel h l) (hm : Move l h h') : HostOk h' where
  node := hok.node.move hk hm
  req := by
    intro st hst id req hcall
    rcases hm.mem_trace hst with hst | hnew
    · exact (hok.req st hst id req hcall).grow (hm.grows hk)
    · rw [hcall] at hnew
      obtain ⟨rfl, -⟩ := hnew
      have hg := hm.grows hk
      obtain ⟨hs, p, hp, rfl⟩ := hk
      exact (hok.node.reqOk_heartbeat hs hp).grow hg
  apply := by
    intro st hst e hcall
    rcases hm.mem_trace hst with hst | hnew
    · exact hok.apply st hst e hcall
    · rw [hcall] at hnew
      subst hnew
      cases hm with
      | apply _ hlt =>
        rw [hok.node.commit, hok.node.applied] at hlt
        exact absurd hlt (by decide)

/-! ## Along a run -/

/-- A delivered AppendEntries request is refused, or vouches for the whole log
of the node that accepts it. -/
def Aligned (c : Cluster) : Action → Prop
  | .deliver (.request _ dst (.appendEntries req)) _ =>
    req.term < (c.nodes dst).currentTerm ∨ prevMatches (c.nodes dst) req = false ∨
      lastLogIndex (c.nodes dst) ≤ req.prevLogIndex
  | _ => True

instance (c : Cluster) : (a : Action) → Decidable (Aligned c a)
  | .deliver (.request _ dst (.appendEntries req)) _ =>
    inferInstanceAs (Decidable (req.term < (c.nodes dst).currentTerm ∨
      prevMatches (c.nodes dst) req = false ∨ lastLogIndex (c.nodes dst) ≤ req.prevLogIndex))
  | .deliver (.request _ _ (.requestVote _)) _ | .deliver (.voteResp ..) _
  | .deliver (.appendResp ..) _ | .tick .. | .submit .. | .crash .. => .isTrue trivial

/-- Nobody is acknowledged, and nothing applied. -/
structure AckOk (cfg : Config) (c : Cluster) : Prop where
  node : ∀ i ∈ cfg.members, Unacked (c.nodes i)
  req : ∀ src dst req, .request src dst (.appendEntries req) ∈ c.net → ReqOk (c.nodes src) req
  resp : ∀ src dst resp, .appendResp src dst resp ∈ c.net → RespOk (c.nodes dst) resp
  apply : ∀ p ∈ c.hist, ∀ e, p.2.call ≠ .apply e

section Runs

variable {cfg : Config} {c c' : Cluster} {s : State CString Pos}

theorem AckOk.ackLabel (hok : AckOk cfg c) {i : CString} {x : Host} (hx : Unacked x.node)
    (hg : Grows (c.nodes i) x.node) (hk : NetLabel c i x l) : AckLabel x l := by
  cases l with
  | reconfigure => exact hk
  | accept es => exact hk
  | campaign => exact hk
  | ack id m =>
    obtain ⟨resp, hmem, rfl, hs, ht⟩ := hk
    exact ((hok.resp _ _ _ hmem).grow hg).before hs ht
  | commit n =>
    rcases hk with ⟨hs, hc⟩ | ⟨src, req, hmem, hlt⟩
    · rw [hx.not_committable hs n] at hc
      cases hc
    · rw [(hok.req _ _ _ hmem).commit] at hlt
      exact absurd (UInt64.lt_iff_toNat_lt.1 hlt) (Nat.not_lt_zero _)
  | send id req =>
    cases req with
    | requestVote _ => trivial
    | appendEntries req =>
      obtain ⟨hs, p, hp, -, e⟩ := hk
      exact ⟨hs, p, hp, e⟩
  | _ => trivial

theorem mem_sends {src dst i : CString} {req : Request} {tr : List Stamp}
    (hp : .request src dst req ∈ sends i tr) : ∃ st ∈ tr, src = i ∧ st.call = .sendRpc dst req := by
  obtain ⟨st, hst, e⟩ := List.mem_filterMap.1 hp
  split at e
  · rename_i hcall
    cases e
    exact ⟨st, hst, rfl, hcall⟩
  · cases e

theorem AckOk.update (hok : AckOk cfg c) {i : CString} {K : Host → Label → Prop} {h : Host}
    {rs : List Packet} (hi : i ∈ cfg.members) (hm : (c.nodes i).host.Moves K h)
    (hk : ∀ x l, Unacked x.node → Grows (c.nodes i) x.node → K x l → AckLabel x l)
    (hreq : ∀ src dst req, .request src dst req ∉ rs)
    (hresp : ∀ src dst resp, .appendResp src dst resp ∈ rs → RespOk (c.nodes dst) resp) :
    AckOk cfg (c.update i h rs) := by
  have hhost : HostOk h ∧ Grows (c.nodes i) h.node := by
    refine hm.invariant (P := fun x : Host => HostOk x ∧ Grows (c.nodes i) x.node)
      ⟨.host (hok.node i hi), Grows.refl _⟩ fun x y l hx hl hmove => ?_
    have hlabel := hk x l hx.1.node hx.2 hl
    exact ⟨hx.1.move hlabel hmove, hx.2.trans (hmove.grows hlabel)⟩
  have hself : (c.update i h rs).nodes i = h.node := Function.update_self ..
  have hgrows : ∀ j, Grows (c.nodes j) ((c.update i h rs).nodes j) := by
    intro j
    by_cases e : j = i
    · subst e
      rw [hself]
      exact hhost.2
    · have hother : (c.update i h rs).nodes j = c.nodes j := Function.update_of_ne e ..
      rw [hother]
      exact Grows.refl _
  refine ⟨fun j hj => ?_, fun src dst req hp => ?_, fun src dst resp hp => ?_, fun p hp e => ?_⟩
  · by_cases e : j = i
    · rw [e, hself]
      exact hhost.1.node
    · have hother : (c.update i h rs).nodes j = c.nodes j := Function.update_of_ne e ..
      rw [hother]
      exact hok.node j hj
  · rcases List.mem_append.1 hp with hp | hp
    · rcases List.mem_append.1 hp with hp | hp
      · exact (hok.req src dst req hp).grow (hgrows src)
      · obtain ⟨st, hst, rfl, hcall⟩ := mem_sends hp
        rw [hself]
        exact hhost.1.req st hst dst req hcall
    · exact (hreq _ _ _ hp).elim
  · rcases List.mem_append.1 hp with hp | hp
    · rcases List.mem_append.1 hp with hp | hp
      · exact (hok.resp src dst resp hp).grow (hgrows dst)
      · obtain ⟨st, -, hst⟩ := List.mem_filterMap.1 hp
        split at hst <;> cases hst
    · exact (hresp src dst resp hp).grow (hgrows dst)
  · rcases List.mem_append.1 hp with hp | hp
    · exact hok.apply p hp e
    · obtain ⟨st, hst, rfl⟩ := List.mem_map.1 hp
      exact hhost.1.apply st hst e

theorem Config.peersOf_length_pos (cfg : Config) {i : CString} (hi : i ∈ cfg.members) :
    0 < (cfg.peersOf i).length := by
  have hlen := (cfg.peers_perm i hi).length_eq
  rw [List.length_map, List.length_erase_of_mem hi] at hlen
  have htwo := cfg.two_le
  omega

theorem Started.unacked {i : CString} {ps : List PeerAddr} {d : Durable} {nd : RaftNode}
    (hst : Started i ps d nd) (hps : 0 < ps.length)
    (hlast : lastLogIndex nd = UInt64.ofNat nd.log.length)
    (hterms : ∀ e ∈ d.log, e.term ≤ d.currentTerm) : Unacked nd where
  commit := hst.commit
  applied := hst.applied
  noSnapshot := hst.noSnapshot.1
  lastIndex := hlast
  peers_pos := by
    have hlen := congrArg List.length hst.peers
    simp only [List.length_map] at hlen
    omega
  terms := by
    rw [hst.log, hst.term]
    exact hterms
  candidate := fun hc => absurd (hst.state.symm.trans hc) (by decide)
  leader := fun hl => absurd (hst.state.symm.trans hl) (by decide)

theorem AckOk.crash (hok : AckOk cfg c) (hsim : Sim cfg c s) {i : CString} (hi : i ∈ cfg.members)
    (now rand : UInt64) :
    AckOk cfg { c with
      nodes := Function.update c.nodes i (boot i (cfg.peersOf i) (c.disk i) now rand) } := by
  rw [hsim.disk i hi]
  have hst := (boot_nodeOk hi (c.nodes i).durable now rand).1
  generalize boot i (cfg.peersOf i) (c.nodes i).durable now rand = nd at hst
  have hold := hok.node i hi
  have hlast : lastLogIndex nd = UInt64.ofNat nd.log.length := by
    rw [lastLogIndex_congr hst.log (hst.noSnapshot.1.trans hold.noSnapshot.symm), hold.lastIndex,
      hst.log]
    rfl
  have hgrows : ∀ j, Grows (c.nodes j) (Function.update c.nodes i nd j) := by
    intro j
    by_cases e : j = i
    · subst e
      rw [Function.update_self]
      exact ⟨hst.term ▸ UInt64.le_refl _, hst.log ▸ List.prefix_refl _⟩
    · rw [Function.update_of_ne e]
      exact Grows.refl _
  refine ⟨fun j hj => ?_, fun src dst req hp => (hok.req src dst req hp).grow (hgrows src),
    fun src dst resp hp => (hok.resp src dst resp hp).grow (hgrows dst), hok.apply⟩
  by_cases e : j = i
  · subst e
    show Unacked (Function.update c.nodes j nd j)
    rw [Function.update_self]
    exact hst.unacked (cfg.peersOf_length_pos hi) hlast hold.terms
  · show Unacked (Function.update c.nodes i nd j)
    rw [Function.update_of_ne e]
    exact hok.node j hj

/-- **One step** whose delivery is aligned leaves everybody unacknowledged. -/
theorem AckOk.step (hok : AckOk cfg c) (hsim : Sim cfg c s) {a : Action} (hal : Aligned c a)
    (ha : DRoole.step cfg c a = some c') : AckOk cfg c' := by
  rcases hsim.step_cases ha with ⟨i, hi, h, rs, hm, hrs, rfl⟩ | ⟨src, dst, req, now, hp, rfl⟩ |
    ⟨i, hi, now, rand, rfl⟩
  · refine hok.update hi hm (fun x l hx hg hk => hok.ackLabel hx hg hk) (fun src dst req hp => ?_)
      fun src dst resp hp => ?_
    · obtain ⟨_, _, _, -, -, e⟩ := hrs _ hp
      cases e
    · obtain ⟨from', req, now, rfl, hmem, e⟩ := hrs _ hp
      cases e
      intro hs
      obtain ⟨hle, hprev, hmatch⟩ := raftHandleAppendEntries_success hs
      have hreq := hok.req _ _ _ hmem
      refine ⟨req.term, ?_, hreq.term, ?_⟩
      · rw [raftHandleAppendEntries_resp_term]
        exact hle
      · rw [hmatch]
        refine hreq.prev.mono ?_
        rcases hal with hlt | hno | hle'
        · exact absurd hle (UInt64.not_le.2 hlt)
        · exact absurd (hno.symm.trans hprev) (by decide)
        · exact hle'
  · refine hok.update (hsim.net _ hp).dst (raftHandleRequestVote_moves _ now req)
      (fun x l _ _ hk => ?_) (fun _ _ _ hp => ?_) fun _ _ _ hp => ?_
    · cases l with
      | follow | grant | quiet => trivial
      | _ => exact hk.elim
    · cases List.mem_singleton.1 hp
    · cases List.mem_singleton.1 hp
  · exact hok.crash hsim hi now rand

theorem ackOk_init (cfg : Config) (now rand : CString → UInt64) :
    AckOk cfg (initCluster cfg now rand) := by
  refine ⟨fun i hi => ?_, fun _ _ _ hp => absurd hp List.not_mem_nil,
    fun _ _ _ hp => absurd hp List.not_mem_nil, fun _ hp => absurd hp List.not_mem_nil⟩
  have hst := (boot_nodeOk hi Durable.empty (now i) (rand i)).1
  refine hst.unacked (cfg.peersOf_length_pos hi) ?_ nofun
  unfold lastLogIndex
  rw [hst.log, hst.noSnapshot.1]
  rfl

/-- **No progress**: nothing is ever committed or applied in a run in which a node accepts an
AppendEntries request only if the request vouches for its whole log. -/
theorem aligned_commits_nothing {as : List Action} {now rand : CString → UInt64}
    (hal : Along (DRoole.step cfg) Aligned (initCluster cfg now rand) as)
    (hr : run (DRoole.step cfg) (initCluster cfg now rand) as = some c) :
    (∀ i ∈ cfg.members, (c.nodes i).commitIndex = 0) ∧ appliedEntries c = [] := by
  obtain ⟨s₀, -, hsim₀⟩ := sim_init cfg now rand
  have hok : AckOk cfg c := by
    refine (run_induct (P := fun c => AckOk cfg c ∧ ∃ s, Sim cfg c s) ?_
      ⟨ackOk_init cfg now rand, s₀, hsim₀⟩ hal hr).1
    rintro c₁ a c₂ ⟨hok, s, hsim⟩ hal ha
    obtain ⟨s', -, hsim'⟩ := hsim.step ha
    exact ⟨hok.step hsim hal ha, s', hsim'⟩
  refine ⟨fun i hi => (hok.node i hi).commit, List.eq_nil_iff_forall_not_mem.2 fun a ha => ?_⟩
  obtain ⟨st, hst, hcall, -⟩ := mem_appliedEntries ha
  exact hok.apply _ hst a.entry hcall

end Runs

/-- `a` is elected, and `b` answers its heartbeat with an empty log. -/
def alignedRun : List Action :=
  firstElection ++
  [.tick idA 200 200 0,
   .deliver (.request idA idB (.appendEntries ⟨1, idA, 0, 0, 0, 0⟩)) 200,
   .deliver (.appendResp idB idA ⟨1, 1, 0⟩) 0,
   .tick idA 300 300 0]

theorem alignedRun_isSome : (run (step threeNodes) threeStarted alignedRun).isSome := by
  decide +kernel

theorem alignedRun_along : Along (step threeNodes) Aligned threeStarted alignedRun := by
  decide +kernel

theorem aligned_commits_nothing_elected :
    ∃ c, run (step threeNodes) threeStarted alignedRun = some c ∧ (c.nodes idA).state = .leader ∧
      (c.nodes idA).log ≠ [] ∧ (c.nodes idA).commitIndex = 0 ∧ appliedEntries c = [] := by
  have hr := (Option.some_get alignedRun_isSome).symm
  have hnone := aligned_commits_nothing alignedRun_along hr
  exact ⟨_, hr, by decide +kernel, by decide +kernel, hnone.1 idA (by decide), hnone.2⟩

end DRoole
