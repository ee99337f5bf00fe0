import DRoole.Cluster.Election

/-!
# What the nodes of a cluster apply

The heartbeats of `leader_tick` carry no entries, so a log only ever holds what
its own node appended as leader (`LogOk`). But a follower acknowledges, and
commits up to, the end of its own log. Two nodes can therefore apply the same
index, and whenever they do they apply entries of different terms:
`state_machine_safety`.
-/

namespace DRoole

open Lib Lib.Election

/-- The node of the trace won an election in term `t`. -/
def Elected (tr : List Stamp) (t : UInt64) : Prop :=
  ∃ st ∈ tr, st.call = .elect ∧ st.node.currentTerm = t

/-- The log of a node with trace `tr`: its own entries, and what it applied. -/
structure LogOk (tr : List Stamp) (nd : RaftNode) : Prop where
  noSnapshot : nd.lastSnapshotIndex = 0
  leads : nd.state = .leader → Elected tr nd.currentTerm
  entries : ∀ e ∈ nd.log, Elected tr e.term
  applied : ∀ st ∈ tr, ∀ e, st.call = .apply e →
    nd.log[(st.node.lastApplied - 1).toNat]? = some e

theorem Elected.mono {tr tr' : List Stamp} {t : UInt64} (h : Elected tr t) (hsub : tr ⊆ tr') :
    Elected tr' t := by
  obtain ⟨st, hst, he⟩ := h
  exact ⟨st, hsub hst, he⟩

namespace LogOk

variable {tr Δ : List Stamp} {nd nd' : RaftNode}

theorem extend (hok : LogOk tr nd) (hsnap : nd'.lastSnapshotIndex = nd.lastSnapshotIndex)
    (hleads : nd'.state = .leader → Elected (tr ++ Δ) nd'.currentTerm) (es : List RaftLogEntry)
    (hlog : nd'.log = nd.log ++ es) (hes : ∀ e ∈ es, Elected (tr ++ Δ) e.term)
    (happly : ∀ st ∈ Δ, ∀ e, st.call = .apply e →
      nd.log[(st.node.lastApplied - 1).toNat]? = some e) : LogOk (tr ++ Δ) nd' where
  noSnapshot := hsnap.trans hok.noSnapshot
  leads := hleads
  entries := by
    intro e he
    rw [hlog] at he
    rcases List.mem_append.1 he with he | he
    · exact (hok.entries e he).mono (List.subset_append_left _ _)
    · exact hes e he
  applied := by
    intro st hst e he
    have hold : nd.log[(st.node.lastApplied - 1).toNat]? = some e := by
      rcases List.mem_append.1 hst with hst | hst
      · exact hok.applied st hst e he
      · exact happly st hst e he
    rw [hlog, List.getElem?_append_left (List.getElem?_eq_some_iff.1 hold).1, hold]

theorem frame (hok : LogOk tr nd) (hsnap : nd'.lastSnapshotIndex = nd.lastSnapshotIndex)
    (hleads : nd'.state = .leader → nd.state = .leader ∧ nd'.currentTerm = nd.currentTerm)
    (hlog : nd'.log = nd.log)
    (happly : ∀ st ∈ Δ, ∀ e, st.call = .apply e →
      nd.log[(st.node.lastApplied - 1).toNat]? = some e) : LogOk (tr ++ Δ) nd' := by
  refine hok.extend hsnap (fun hs => ?_) [] (by rw [hlog, List.append_nil]) nofun happly
  obtain ⟨hl, ht⟩ := hleads hs
  rw [ht]
  exact (hok.leads hl).mono (List.subset_append_left _ _)

theorem move {pre : List Stamp} {l : Label} {h h' : Host} (hok : LogOk (pre ++ h.trace) h.node)
    (hk : ∀ es, l = .accept es → es = []) (hm : Move l h h') :
    LogOk (pre ++ h'.trace) h'.node := by
  cases hm with
  | quiet | reconfigure | count | ack | backOff | skip =>
    exact { hok with }
  | send | commit =>
    show LogOk (pre ++ (h.trace ++ [_])) _
    rw [← List.append_assoc]
    exact hok.frame rfl (fun hs => ⟨hs, rfl⟩) rfl (by simp)
  | follow | yield =>
    show LogOk (pre ++ (h.trace ++ [_])) _
    rw [← List.append_assoc]
    exact hok.frame rfl nofun rfl (by simp)
  | campaign now rand =>
    show LogOk (pre ++ (h.trace ++ [_] ++ [_])) _
    rw [← List.append_assoc, ← List.append_assoc, List.append_assoc _ [_] [_]]
    exact hok.frame rfl nofun rfl (by simp)
  | grant req =>
    show LogOk (pre ++ (h.trace ++ [_] ++ [_])) _
    rw [← List.append_assoc, ← List.append_assoc, List.append_assoc _ [_] [_]]
    exact hok.frame rfl (fun hs => ⟨hs, rfl⟩) rfl (by simp)
  | elect hs hw =>
    show LogOk (pre ++ (h.trace ++ [⟨takeLead h.node, .elect⟩])) _
    rw [← List.append_assoc]
    refine hok.extend rfl (fun _ => ?_) [] (List.append_nil _).symm nofun (by simp)
    exact ⟨_, List.mem_append_right _ List.mem_cons_self, rfl, rfl⟩
  | append data hs =>
    show LogOk (pre ++ (h.trace ++ [_])) _
    rw [← List.append_assoc]
    have hel : ∀ Δ, Elected (pre ++ h.trace ++ Δ) h.node.currentTerm := fun Δ =>
      (hok.leads hs).mono (List.subset_append_left _ _)
    refine hok.extend rfl (fun _ => hel _) [submitEntry h.node data] rfl (fun e he => ?_) (by simp)
    cases List.mem_singleton.1 he
    exact hel _
  | accept es hs =>
    obtain rfl := hk es rfl
    show LogOk (pre ++ (h.trace ++ [_])) _
    rw [← List.append_assoc]
    exact hok.frame rfl (fun hs => ⟨hs, rfl⟩) rfl (by simp)
  | apply e hlt he =>
    show LogOk (pre ++ (h.trace ++ [⟨bumpApplied h.node, .apply e⟩])) _
    rw [← List.append_assoc]
    refine hok.frame rfl (fun hs => ⟨hs, rfl⟩) rfl fun st hst e' he' => ?_
    cases List.mem_singleton.1 hst
    cases he'
    simp only [getLogEntry, hok.noSnapshot] at he
    split at he
    · cases he
    · rw [UInt64.sub_zero] at he
      exact he

end LogOk

/-! ## Along a run -/

def traceOf (i : CString) (hist : List (CString × Stamp)) : List Stamp :=
  (hist.filter fun p => p.1 = i).map (·.2)

theorem mem_traceOf {i : CString} {hist : List (CString × Stamp)} {st : Stamp} :
    st ∈ traceOf i hist ↔ (i, st) ∈ hist := by
  simp only [traceOf, List.mem_map, List.mem_filter, decide_eq_true_eq, Prod.exists]
  constructor
  · rintro ⟨j, st', ⟨hmem, rfl⟩, rfl⟩
    exact hmem
  · exact fun hmem => ⟨i, st, ⟨hmem, rfl⟩, rfl⟩

theorem traceOf_append (i : CString) (hist hist' : List (CString × Stamp)) :
    traceOf i (hist ++ hist') = traceOf i hist ++ traceOf i hist' := by
  simp [traceOf]

theorem traceOf_map_self (i : CString) (tr : List Stamp) : traceOf i (tr.map (i, ·)) = tr := by
  induction tr with
  | nil => rfl
  | cons st tr ih => simpa [traceOf] using ih

theorem traceOf_map_of_ne {i j : CString} (h : j ≠ i) (tr : List Stamp) :
    traceOf j (tr.map (i, ·)) = [] := by
  simp [traceOf, h.symm]

/-- Every log of the cluster is in order, and only members have a history. -/
structure LogsOk (cfg : Config) (c : Cluster) : Prop where
  log : ∀ i ∈ cfg.members, LogOk (traceOf i c.hist) (c.nodes i)
  member : ∀ p ∈ c.hist, p.1 ∈ cfg.members

section Runs

variable {cfg : Config} {c c' : Cluster} {s : State CString Pos}

theorem LogsOk.update (hok : LogsOk cfg c) {i : CString} (hi : i ∈ cfg.members) {h : Host}
    (rs : List Packet)
    (hm : (c.nodes i).host.Moves (fun _ l => ∀ es, l = .accept es → es = []) h) :
    LogsOk cfg (c.update i h rs) := by
  refine ⟨fun j hj => ?_, fun p hp => ?_⟩
  · by_cases e : j = i
    · subst e
      have hself : (c.update j h rs).nodes j = h.node := Function.update_self ..
      have htr : traceOf j (c.update j h rs).hist = traceOf j c.hist ++ h.trace := by
        simp only [Cluster.update, traceOf_append, traceOf_map_self]
      rw [hself, htr]
      refine Lib.Moves.invariant (P := fun g => LogOk (traceOf j c.hist ++ g.trace) g.node) hm ?_
        fun x y l hx hk hl => hx.move hk hl
      simpa [RaftNode.host] using hok.log j hj
    · have hother : (c.update i h rs).nodes j = c.nodes j := Function.update_of_ne e ..
      have htr : traceOf j (c.update i h rs).hist = traceOf j c.hist := by
        simp only [Cluster.update, traceOf_append, traceOf_map_of_ne e, List.append_nil]
      rw [hother, htr]
      exact hok.log j hj
  · rcases List.mem_append.1 hp with hp | hp
    · exact hok.member p hp
    · obtain ⟨st, -, rfl⟩ := List.mem_map.1 hp
      exact hi

theorem LogOk.boot {tr : List Stamp} {nd : RaftNode} (hok : LogOk tr nd) {i : CString}
    (hi : i ∈ cfg.members) (now rand : UInt64) :
    LogOk tr (boot i (cfg.peersOf i) nd.durable now rand) := by
  have hst := (boot_nodeOk hi nd.durable now rand).1
  have hlog : (DRoole.boot i (cfg.peersOf i) nd.durable now rand).log = nd.log := hst.log
  exact
    { noSnapshot := hst.noSnapshot.1
      leads := fun hl => absurd (hst.state.symm.trans hl) (by decide)
      entries := fun e he => hok.entries e (hlog ▸ he)
      applied := fun st hmem e he => hlog ▸ hok.applied st hmem e he }

theorem LogsOk.step (hok : LogsOk cfg c) (hsim : Sim cfg c s) {a : Action}
    (ha : DRoole.step cfg c a = some c') : LogsOk cfg c' := by
  rcases hsim.step_cases ha with ⟨i, hi, h, rs, hm, -, rfl⟩ | ⟨src, dst, req, now, hp, rfl⟩ |
    ⟨i, hi, now, rand, rfl⟩
  · refine hok.update hi rs (hm.mono fun x l hl es e => ?_)
    subst e
    exact hl
  · refine hok.update (hsim.net _ hp).dst _
      ((raftHandleRequestVote_moves _ now req).mono fun x l hl es e => ?_)
    subst e
    exact hl.elim
  · refine ⟨fun j hj => ?_, hok.member⟩
    show LogOk (traceOf j c.hist) (Function.update c.nodes i _ j)
    by_cases e : j = i
    · subst e
      rw [Function.update_self, hsim.disk j hj]
      exact (hok.log j hj).boot hj now rand
    · rw [Function.update_of_ne e]
      exact hok.log j hj

theorem LogsOk.run {as : List Action} {now rand : CString → UInt64}
    (hr : run (DRoole.step cfg) (initCluster cfg now rand) as = some c) :
    LogsOk cfg c ∧ ∃ s, Inv cfg.members.toFinset s ∧ Sim cfg c s := by
  obtain ⟨s₀, hinv₀, hsim₀⟩ := sim_init cfg now rand
  refine run_induct (P := fun c => LogsOk cfg c ∧ ∃ s, Inv cfg.members.toFinset s ∧ Sim cfg c s)
    ?_ ⟨⟨fun i hi => ?_, fun p hp => absurd hp List.not_mem_nil⟩, s₀, hinv₀, hsim₀⟩ along_true hr
  · rintro c₁ a c₂ ⟨hok, s, hinv, hsim⟩ - ha
    obtain ⟨s', hs, hsim'⟩ := hsim.step ha
    exact ⟨hok.step hsim ha, s', hinv.steps hs, hsim'⟩
  · have hst := (boot_nodeOk hi Durable.empty (now i) (rand i)).1
    have hlog : ((initCluster cfg now rand).nodes i).log = [] := hst.log
    exact
      { noSnapshot := hst.noSnapshot.1
        leads := fun hl => absurd (hst.state.symm.trans hl) (by decide)
        entries := by simp [hlog]
        applied := fun st hst => absurd hst List.not_mem_nil }

end Runs

/-! ## State machine safety -/

/-- One call of the apply callback. -/
structure AppliedEntry where
  node : CString
  index : UInt64
  entry : RaftLogEntry
  deriving DecidableEq

/-- The calls of the apply callbacks in the history of the cluster. -/
def appliedEntries (c : Cluster) : List AppliedEntry :=
  c.hist.filterMap fun p =>
    match p.2.call with
    | .apply e => some ⟨p.1, p.2.node.lastApplied, e⟩
    | _ => none

/-- Two nodes that apply the same index apply the same command. -/
def StateMachineSafe (c : Cluster) : Prop :=
  ∀ a ∈ appliedEntries c, ∀ b ∈ appliedEntries c, a.index = b.index →
    a.entry.term = b.entry.term ∧ a.entry.data = b.entry.data

instance (c : Cluster) : Decidable (StateMachineSafe c) := by
  unfold StateMachineSafe; infer_instance

theorem mem_appliedEntries {c : Cluster} {a : AppliedEntry} (ha : a ∈ appliedEntries c) :
    ∃ st, (a.node, st) ∈ c.hist ∧ st.call = .apply a.entry ∧ st.node.lastApplied = a.index := by
  obtain ⟨⟨i, st⟩, hst, he⟩ := List.mem_filterMap.1 ha
  dsimp only at he
  split at he
  · rename_i e hcall
    cases he
    exact ⟨st, hst, hcall, rfl⟩
  · cases he

section

variable {cfg : Config} {now rand : CString → UInt64}

theorem LogsOk.getElem?_of_applied {c : Cluster} (hok : LogsOk cfg c) {a : AppliedEntry}
    (ha : a ∈ appliedEntries c) :
    a.node ∈ cfg.members ∧ (c.nodes a.node).log[(a.index - 1).toNat]? = some a.entry := by
  obtain ⟨st, hst, he, hn⟩ := mem_appliedEntries ha
  have hi := hok.member _ hst
  rw [← hn]
  exact ⟨hi, (hok.log _ hi).applied st (mem_traceOf.2 hst) _ he⟩

/-- Entries of two different nodes have different terms. -/
theorem LogsOk.term_ne {c : Cluster} {s : State CString Pos} (hok : LogsOk cfg c)
    (hsim : Sim cfg c s) (hinv : Inv cfg.members.toFinset s) {i j : CString}
    (hi : i ∈ cfg.members) (hj : j ∈ cfg.members) (hne : i ≠ j) {e e' : RaftLogEntry}
    (he : e ∈ (c.nodes i).log) (he' : e' ∈ (c.nodes j).log) : e.term ≠ e'.term := by
  intro ht
  obtain ⟨st, hst, hel, hterm⟩ := (hok.log i hi).entries e he
  obtain ⟨st', hst', hel', hterm'⟩ := (hok.log j hj).entries e' he'
  have hled := hsim.led i st (mem_traceOf.1 hst) hel
  have hled' := hsim.led j st' (mem_traceOf.1 hst') hel'
  rw [hterm, ht] at hled
  rw [hterm'] at hled'
  exact hne (hinv.leader_unique _ _ _ _ _ hled hled')

theorem LogsOk.applied_term_ne {c : Cluster} {s : State CString Pos} (hok : LogsOk cfg c)
    (hsim : Sim cfg c s) (hinv : Inv cfg.members.toFinset s) {a b : AppliedEntry}
    (ha : a ∈ appliedEntries c) (hb : b ∈ appliedEntries c) (hne : a.node ≠ b.node) :
    a.entry.term ≠ b.entry.term := by
  obtain ⟨hi, hlog⟩ := hok.getElem?_of_applied ha
  obtain ⟨hj, hlog'⟩ := hok.getElem?_of_applied hb
  exact hok.term_ne hsim hinv hi hj hne (List.mem_of_getElem? hlog) (List.mem_of_getElem? hlog')

theorem LogsOk.applied_entry_eq {c : Cluster} (hok : LogsOk cfg c) {a b : AppliedEntry}
    (ha : a ∈ appliedEntries c) (hb : b ∈ appliedEntries c) (hnode : a.node = b.node)
    (hidx : a.index = b.index) : a.entry = b.entry := by
  have hlog := (hok.getElem?_of_applied ha).2
  have hlog' := (hok.getElem?_of_applied hb).2
  rw [hnode, hidx, hlog'] at hlog
  exact (Option.some.inj hlog).symm

/-- **State machine safety** fails in every run in which two nodes apply the same index: the
entries they apply there have different terms. So a run is safe exactly if no index is applied by
two different nodes. -/
theorem state_machine_safety {as : List Action} {c : Cluster}
    (hr : run (step cfg) (initCluster cfg now rand) as = some c) :
    (∀ a ∈ appliedEntries c, ∀ b ∈ appliedEntries c, a.node ≠ b.node → a.index = b.index →
      a.entry.term ≠ b.entry.term) ∧
    (StateMachineSafe c ↔
      ∀ a ∈ appliedEntries c, ∀ b ∈ appliedEntries c, a.index = b.index → a.node = b.node) := by
  obtain ⟨hok, s, hinv, hsim⟩ := LogsOk.run hr
  refine ⟨fun a ha b hb hne _ => hok.applied_term_ne hsim hinv ha hb hne, fun hsafe => ?_,
    fun hone => ?_⟩
  · intro a ha b hb hidx
    by_contra hne
    exact hok.applied_term_ne hsim hinv ha hb hne (hsafe a ha b hb hidx).1
  · intro a ha b hb hidx
    rw [hok.applied_entry_eq ha hb (hone a ha b hb hidx) hidx]
    exact ⟨rfl, rfl⟩

end

/-- `b` takes over from `a` before `a` could replicate its no-op, commits its own
no-op on the strength of the log of `a`, and `a` then commits and applies its own. -/
def divergingRun : List Action :=
  firstElection ++
  [.tick idB 300 300 0,
   .deliver (.request idB idC (.requestVote ⟨2, idB, 0, 0⟩)) 300,
   .deliver (.request idB idC (.requestVote ⟨2, idB, 0, 0⟩)) 300,
   .deliver (.voteResp idC idB ⟨2, 1⟩) 0,
   .tick idB 400 400 0,
   .deliver (.request idB idA (.appendEntries ⟨2, idB, 0, 0, 0, 0⟩)) 400,
   .deliver (.request idB idA (.appendEntries ⟨2, idB, 0, 0, 0, 0⟩)) 400,
   .deliver (.appendResp idA idB ⟨2, 1, 1⟩) 0,
   .tick idB 420 420 0,
   .tick idB 500 500 0,
   .deliver (.request idB idA (.appendEntries ⟨2, idB, 1, 2, 1, 0⟩)) 500,
   .deliver (.appendResp idA idB ⟨2, 0, 0⟩) 0,
   .tick idB 600 600 0,
   .deliver (.request idB idA (.appendEntries ⟨2, idB, 0, 0, 1, 0⟩)) 600,
   .tick idA 610 610 0]

theorem divergingRun_isSome : (run (step threeNodes) threeStarted divergingRun).isSome := by
  decide +kernel

/-- The no-op of term 1 that `a` applies as index 1. -/
def appliedByA : AppliedEntry := ⟨idA, 1, ⟨1, 1, [0], 0⟩⟩

def appliedByB : AppliedEntry := ⟨idB, 1, ⟨2, 1, [0], 0⟩⟩

/-- In the diverging run two nodes apply index 1, and the theorem gives their terms apart. -/
theorem state_machine_safety_diverging :
    ∃ c, run (step threeNodes) threeStarted divergingRun = some c ∧
      appliedByA ∈ appliedEntries c ∧ appliedByB ∈ appliedEntries c ∧
      appliedByA.entry.term ≠ appliedByB.entry.term := by
  have hr := (Option.some_get divergingRun_isSome).symm
  have ha : appliedByA ∈ appliedEntries
      ((run (step threeNodes) threeStarted divergingRun).get divergingRun_isSome) := by
    decide +kernel
  have hb : appliedByB ∈ appliedEntries
      ((run (step threeNodes) threeStarted divergingRun).get divergingRun_isSome) := by
    decide +kernel
  exact ⟨_, hr, ha, hb,
    (state_machine_safety hr).1 appliedByA ha appliedByB hb (by decide) rfl⟩

/-- Index 1 is the no-op of term 2 at `b` and the no-op of term 1 at `a`. -/
theorem two_nodes_apply_different_entries :
    ∃ c, run (step threeNodes) threeStarted divergingRun = some c ∧ ¬ StateMachineSafe c :=
  ⟨_, (Option.some_get divergingRun_isSome).symm, by decide +kernel⟩

end DRoole
