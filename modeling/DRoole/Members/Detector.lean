import DRoole.Members.Unique

/-!
# The failure detector

`on_gossip_receive` and `cluster_reaper_tick` of `src/main.c`. The reaper compares
`last_updated_ts` with the monotonic clock in milliseconds. A gossip packet stamps
that clock; a JOIN stamps `time(NULL)`, the seconds of the wall clock. The detector
is right about every member whose stamp is the time of its latest contact.
-/

namespace DRoole

open Lib

/-! ## Gossip and the reaper -/

/-- The node a datagram speaks for, if it is a gossip packet; `udp_recv` cuts it to the buffer. -/
def gossipFrom (datagram : Bytes) : Option CString :=
  let buf := datagram.take 2048
  if buf.length < 49 then none
  else
    let pkt := serializerUnpackGossip buf
    if pkt.magic ≠ gossipMagic then none else some pkt.nodeId.text

def onGossipReceive (cm : ClusterManager) (datagram : Bytes) (now : UInt64) : ClusterManager :=
  match gossipFrom datagram with
  | none => cm
  | some nodeId => (clusterUpdateMemberStatus cm nodeId .alive now).1

/-- One turn of the loop of `cluster_reaper_tick`. -/
def reapMember (self : CString) (now : UInt64) (m : NodeInfo) : NodeInfo :=
  if m.nodeId = self then m
  else
    let diff := if now > m.lastUpdatedTs then now - m.lastUpdatedTs else 0
    if diff > 3000 then
      if m.status ≠ NodeStatus.dead.code then { m with status := NodeStatus.dead.code } else m
    else if diff > 1500 then
      if m.status = NodeStatus.alive.code then { m with status := NodeStatus.suspect.code } else m
    else m

def clusterReaperTick (cm : ClusterManager) (now : UInt64) : ClusterManager :=
  { cm with
    members := cm.members.map (reapMember cm.self.nodeId now)
    fits := by rw [List.length_map]; exact cm.fits }

theorem reapMember_frame (self : CString) (now : UInt64) (m : NodeInfo) :
    (reapMember self now m).nodeId = m.nodeId ∧
      (reapMember self now m).lastUpdatedTs = m.lastUpdatedTs := by
  unfold reapMember
  split
  · exact ⟨rfl, rfl⟩
  dsimp only
  generalize (if now > m.lastUpdatedTs then now - m.lastUpdatedTs else 0) = diff
  split
  · split
    · exact ⟨rfl, rfl⟩
    · exact ⟨rfl, rfl⟩
  split
  · split
    · exact ⟨rfl, rfl⟩
    · exact ⟨rfl, rfl⟩
  · exact ⟨rfl, rfl⟩

theorem status_reapMember_of_dead {self : CString} {now : UInt64} {m : NodeInfo}
    (hm : m.status = NodeStatus.dead.code) :
    (reapMember self now m).status = NodeStatus.dead.code := by
  unfold reapMember
  split
  · exact hm
  dsimp only
  generalize (if now > m.lastUpdatedTs then now - m.lastUpdatedTs else 0) = diff
  split
  · split
    · rfl
    · exact hm
  split
  · rw [if_neg (by rw [hm]; decide)]
    exact hm
  · exact hm

theorem toNat_diff {now ts : UInt64} (h : ts ≤ now) :
    (if now > ts then now - ts else 0).toNat = now.toNat - ts.toNat := by
  have hle : ts.toNat ≤ now.toNat := UInt64.le_iff_toNat_le.1 h
  split
  · exact UInt64.toNat_sub_of_le _ _ h
  · rename_i hgt
    rw [gt_iff_lt, UInt64.lt_iff_toNat_lt] at hgt
    show 0 = _
    omega

/-- A member heard of within 1500 ms is left alone. -/
theorem reapMember_recent {self : CString} {now : UInt64} {m : NodeInfo}
    (hts : m.lastUpdatedTs ≤ now) (hnow : now.toNat ≤ m.lastUpdatedTs.toNat + 1500) :
    reapMember self now m = m := by
  have hdiff := toNat_diff hts
  unfold reapMember
  split
  · rfl
  dsimp only
  generalize (if now > m.lastUpdatedTs then now - m.lastUpdatedTs else 0) = diff at hdiff ⊢
  have h3000 : ¬ diff > 3000 := by
    rw [gt_iff_lt, UInt64.lt_iff_toNat_lt, hdiff]
    show ¬ 3000 < _
    omega
  have h1500 : ¬ diff > 1500 := by
    rw [gt_iff_lt, UInt64.lt_iff_toNat_lt, hdiff]
    show ¬ 1500 < _
    omega
  rw [if_neg h3000, if_neg h1500]

/-- A member not heard of for more than 3000 ms is dead. -/
theorem reapMember_silent {self : CString} {now : UInt64} {m : NodeInfo}
    (hself : m.nodeId ≠ self) (hnow : now.toNat > m.lastUpdatedTs.toNat + 3000) :
    (reapMember self now m).status = NodeStatus.dead.code := by
  have hts : m.lastUpdatedTs ≤ now := UInt64.le_iff_toNat_le.2 (by omega)
  have hdiff := toNat_diff hts
  unfold reapMember
  rw [if_neg hself]
  dsimp only
  generalize (if now > m.lastUpdatedTs then now - m.lastUpdatedTs else 0) = diff at hdiff ⊢
  have h3000 : diff > 3000 := by
    rw [gt_iff_lt, UInt64.lt_iff_toNat_lt, hdiff]
    show 3000 < _
    omega
  rw [if_pos h3000]
  split
  · rfl
  · rename_i hdead
    exact not_not.1 hdead

/-! ## Events -/

/-- The latest contact of a node: when it was handled, and for a JOIN what `time(NULL)` was. -/
inductive Contact where
  | gossip (time : UInt64)
  | join (time wall : UInt64)
  deriving DecidableEq

def Contact.time : Contact → UInt64
  | .gossip time => time
  | .join time _ => time

/-- What the contact leaves in `last_updated_ts`. -/
def Contact.stamp : Contact → UInt64
  | .gossip time => time
  | .join _ wall => wall

/-- The contact left its own time: it is a gossip packet, or a JOIN at which `time(NULL)`
happened to be the reading of the monotonic clock. -/
def Contact.StampsTime (c : Contact) : Prop := c.stamp = c.time

instance (c : Contact) : Decidable c.StampsTime := inferInstanceAs (Decidable (_ = _))

/-- A node, the latest contact of every other and the last reading of the monotonic clock. -/
structure Watch where
  cm : ClusterManager
  contact : CString → Option Contact
  clock : UInt64

/-- What the node handles, with the monotonic time at which it does. -/
inductive WatchEvent where
  | join (req : JoinRequestPayload) (env : JoinEnv) (mono : UInt64)
  | gossip (datagram : Bytes) (mono : UInt64)
  | reap (mono : UInt64)

namespace WatchEvent

def mono : WatchEvent → UInt64
  | join _ _ mono => mono
  | gossip _ mono => mono
  | reap mono => mono

/-- The node that is heard of, under the id its entry has. -/
def contacts : WatchEvent → Option CString
  | join req _ _ => some (req.idText.strncpy 36)
  | gossip datagram _ => gossipFrom datagram
  | reap _ => none

def record : WatchEvent → Contact
  | join _ env mono => .join mono env.wall
  | gossip _ mono => .gossip mono
  | reap mono => .gossip mono

def handle (cm : ClusterManager) : WatchEvent → ClusterManager
  | join req env _ => (clusterHandleJoinReq cm req env).1
  | gossip datagram mono => onGossipReceive cm datagram mono
  | reap mono => clusterReaperTick cm mono

end WatchEvent

/-- Readings of the monotonic clock do not go back. -/
def watchStep (s : Watch) (e : WatchEvent) : Option Watch :=
  if e.mono < s.clock then none
  else some
    { cm := e.handle s.cm
      contact := fun nodeId =>
        if e.contacts = some nodeId then some e.record else s.contact nodeId
      clock := e.mono }

/-- A JOIN whose id fills its field does not start with the id of a member. -/
def JoinsApart (s : Watch) : WatchEvent → Prop
  | .join req _ _ => 0 ∈ req.nodeId.bytes ∨ ∀ m ∈ s.cm.members, m.nodeId ≠ req.idText.strncpy 36
  | .gossip .. => True
  | .reap _ => True

instance (s : Watch) : (e : WatchEvent) → Decidable (JoinsApart s e)
  | .join .. => inferInstanceAs (Decidable (_ ∨ ∀ m ∈ _, _))
  | .gossip .. => inferInstanceAs (Decidable True)
  | .reap _ => inferInstanceAs (Decidable True)

/-! ## What an event does to the entries -/

theorem mem_clusterUpdateMemberStatus {cm : ClusterManager} (hn : cm.ids.Nodup) {nodeId : CString}
    {status : NodeStatus} {now : UInt64} {y : NodeInfo}
    (hy : y ∈ (clusterUpdateMemberStatus cm nodeId status now).1.members) :
    (y ∈ cm.members ∧ y.nodeId ≠ nodeId) ∨ (y.nodeId = nodeId ∧ y.lastUpdatedTs = now) := by
  unfold clusterUpdateMemberStatus at hy
  split at hy
  · rcases mem_modifyFirst hn hy with h | ⟨x, -, hx, rfl⟩
    · exact .inl h
    · exact .inr ⟨hx, rfl⟩
  · rename_i hnone
    refine .inl ⟨hy, fun e => hnone ?_⟩
    exact List.any_eq_true.2 ⟨y, hy, decide_eq_true e⟩

theorem mem_clusterHandleJoinReq {cm : ClusterManager} (hn : cm.ids.Nodup)
    {req : JoinRequestPayload} {env : JoinEnv} {y : NodeInfo}
    (hy : y ∈ (clusterHandleJoinReq cm req env).1.members) :
    (y ∈ cm.members ∧ y.nodeId ≠ req.idText) ∨
      (y.nodeId = req.idText ∧ y.lastUpdatedTs = env.wall) ∨
      (y.nodeId = req.idText.strncpy 36 ∧ y.lastUpdatedTs = env.wall) := by
  have hold : cm.members.any (·.nodeId = req.idText) ≠ true → ∀ y ∈ cm.members,
      y.nodeId ≠ req.idText := by
    intro hnone y hy e
    exact hnone (List.any_eq_true.2 ⟨y, hy, decide_eq_true e⟩)
  unfold clusterHandleJoinReq enlist at hy
  split at hy
  · rename_i h
    split at h
    · cases h
    · rename_i hnone
      exact .inl ⟨hy, hold hnone y hy⟩
  · rename_i cm' h
    split at h
    · cases h
      rcases mem_modifyFirst hn hy with h | ⟨x, -, hx, rfl⟩
      · exact .inl h
      · exact .inr (.inl ⟨hx, rfl⟩)
    · rename_i hnone
      rcases addMember_cases cm env.realloc (newMember req env.wall) with
        ⟨e, -⟩ | ⟨_, e, hmem, -⟩
      · rw [e] at h
        cases h
      · cases e.symm.trans h
        rw [hmem, List.mem_append, List.mem_singleton] at hy
        rcases hy with hy | rfl
        · exact .inl ⟨hy, hold hnone y hy⟩
        · exact .inr (.inr ⟨rfl, rfl⟩)

theorem ids_clusterReaperTick (cm : ClusterManager) (now : UInt64) :
    (clusterReaperTick cm now).ids = cm.ids := by
  rw [ClusterManager.ids, clusterReaperTick, List.map_map]
  exact List.map_congr_left fun m _ => (reapMember_frame _ _ m).1

theorem ids_onGossipReceive (cm : ClusterManager) (datagram : Bytes) (now : UInt64) :
    (onGossipReceive cm datagram now).ids = cm.ids := by
  unfold onGossipReceive
  split
  · rfl
  · exact ids_clusterUpdateMemberStatus ..

/-! ## Stamps -/

/-- Entries carry the stamp of the latest contact of their node. -/
structure Watched (s : Watch) : Prop where
  distinct : s.cm.ids.Nodup
  short : ∀ nodeId ∈ s.cm.ids, nodeId.bytes.length ≤ 36
  stamped : ∀ m ∈ s.cm.members, ∀ c ∈ s.contact m.nodeId, m.lastUpdatedTs = c.stamp
  past : ∀ nodeId, ∀ c ∈ s.contact nodeId, c.time ≤ s.clock

theorem Watched.handle_ids {s : Watch} (hs : Watched s) {e : WatchEvent} (he : JoinsApart s e) :
    (e.handle s.cm).ids.Nodup ∧ ∀ nodeId ∈ (e.handle s.cm).ids, nodeId.bytes.length ≤ 36 := by
  cases e with
  | join req env mono =>
    have hnew : NewIds s.cm (.joinReq req env) := he
    refine ⟨ids_nodup_memberCall hnew hs.distinct, fun nodeId hid => ?_⟩
    rcases ids_clusterHandleJoinReq s.cm req env with e | ⟨-, e⟩
    · exact hs.short nodeId (e ▸ hid)
    · change nodeId ∈ (clusterHandleJoinReq s.cm req env).1.ids at hid
      rw [e, List.mem_append, List.mem_singleton] at hid
      rcases hid with hid | rfl
      · exact hs.short nodeId hid
      · exact req.idText.length_strncpy_le 36
  | gossip datagram mono =>
    show (onGossipReceive s.cm datagram mono).ids.Nodup ∧
      ∀ nodeId ∈ (onGossipReceive s.cm datagram mono).ids, _
    rw [ids_onGossipReceive]
    exact ⟨hs.distinct, hs.short⟩
  | reap mono =>
    show (clusterReaperTick s.cm mono).ids.Nodup ∧ ∀ nodeId ∈ (clusterReaperTick s.cm mono).ids, _
    rw [ids_clusterReaperTick]
    exact ⟨hs.distinct, hs.short⟩

theorem Watched.handle_members {s : Watch} (hs : Watched s) {e : WatchEvent}
    (he : JoinsApart s e) {y : NodeInfo} (hy : y ∈ (e.handle s.cm).members) :
    (e.contacts = some y.nodeId ∧ y.lastUpdatedTs = e.record.stamp) ∨
      (e.contacts ≠ some y.nodeId ∧
        ∃ x ∈ s.cm.members, x.nodeId = y.nodeId ∧ x.lastUpdatedTs = y.lastUpdatedTs) := by
  cases e with
  | join req env mono =>
    rcases mem_clusterHandleJoinReq hs.distinct hy with ⟨hold, hne⟩ | ⟨hid, hts⟩ | ⟨hid, hts⟩
    · refine .inr ⟨fun h => ?_, y, hold, rfl, rfl⟩
      have hcut := Option.some.inj h
      rcases he with hnul | hnew
      · rw [CString.strncpy_of_le (JoinRequestPayload.length_idText_le hnul)] at hcut
        exact hne hcut.symm
      · exact hnew y hold hcut.symm
    · have hlen := (hs.handle_ids he).2 y.nodeId (List.mem_map_of_mem hy)
      refine .inl ⟨congrArg some ?_, hts⟩
      rw [← hid, CString.strncpy_of_le hlen]
    · exact .inl ⟨congrArg some hid.symm, hts⟩
  | gossip datagram mono =>
    change y ∈ (onGossipReceive s.cm datagram mono).members at hy
    unfold onGossipReceive at hy
    show (gossipFrom datagram = _ ∧ _) ∨ (gossipFrom datagram ≠ _ ∧ _)
    split at hy
    · rename_i hnone
      rw [hnone]
      exact .inr ⟨nofun, y, hy, rfl, rfl⟩
    · rename_i nodeId hsome
      rw [hsome]
      rcases mem_clusterUpdateMemberStatus hs.distinct hy with ⟨hold, hne⟩ | ⟨hid, hts⟩
      · exact .inr ⟨fun h => hne (Option.some.inj h).symm, y, hold, rfl, rfl⟩
      · exact .inl ⟨congrArg some hid.symm, hts⟩
  | reap mono =>
    obtain ⟨x, hx, rfl⟩ := List.mem_map.1 hy
    obtain ⟨hid, hts⟩ := reapMember_frame s.cm.self.nodeId mono x
    exact .inr ⟨nofun, x, hx, hid.symm, hts.symm⟩

/-- **Step lemma.** -/
theorem Watched.step {s s' : Watch} (hs : Watched s) {e : WatchEvent} (he : JoinsApart s e)
    (hstep : watchStep s e = some s') : Watched s' := by
  unfold watchStep at hstep
  split at hstep
  · cases hstep
  rename_i hclock
  cases hstep
  obtain ⟨hdistinct, hshort⟩ := hs.handle_ids he
  refine ⟨hdistinct, hshort, fun y hy c hc => ?_, fun nodeId c hc => ?_⟩
  · dsimp only at hc
    rcases hs.handle_members he hy with ⟨hid, hts⟩ | ⟨hid, x, hx, hxid, hxts⟩
    · rw [if_pos hid] at hc
      cases hc
      exact hts
    · rw [if_neg hid, ← hxid] at hc
      rw [← hxts]
      exact hs.stamped x hx c hc
  · dsimp only at hc ⊢
    split at hc
    · cases hc
      show e.record.time ≤ e.mono
      cases e <;> exact UInt64.le_refl _
    · exact UInt64.le_trans (hs.past nodeId c hc) (UInt64.not_lt.1 hclock)

/-! ## Dead members -/

theorem dead_watchStep {s s' : Watch} {e : WatchEvent} (hstep : watchStep s e = some s')
    {i : Nat} {m : NodeInfo} (hi : s.cm.members[i]? = some m)
    (hlen : m.nodeId.bytes.length ≤ 36) (hdead : m.status = NodeStatus.dead.code)
    (hc : e.contacts ≠ some m.nodeId) :
    ∃ m', s'.cm.members[i]? = some m' ∧ m'.nodeId = m.nodeId ∧
      m'.status = NodeStatus.dead.code := by
  unfold watchStep at hstep
  split at hstep
  · cases hstep
  cases hstep
  cases e with
  | join req env mono =>
    have hne : m.nodeId ≠ req.idText := by
      intro hid
      refine hc (congrArg some ?_)
      rw [← hid, CString.strncpy_of_le hlen]
    refine ⟨m, ?_, rfl, hdead⟩
    show (clusterHandleJoinReq s.cm req env).1.members[i]? = _
    unfold clusterHandleJoinReq enlist
    split
    · exact hi
    · rename_i cm' h
      split at h
      · cases h
        exact getElem?_modifyFirst hi (decide_eq_false hne)
      · rcases addMember_cases s.cm env.realloc (newMember req env.wall) with
          ⟨e, -⟩ | ⟨_, e, hmem, -⟩
        · rw [e] at h
          cases h
        · cases e.symm.trans h
          show cm'.members[i]? = _
          rw [hmem, List.getElem?_append_left (List.getElem?_eq_some_iff.1 hi).1]
          exact hi
  | gossip datagram mono =>
    refine ⟨m, ?_, rfl, hdead⟩
    show (onGossipReceive s.cm datagram mono).members[i]? = _
    change gossipFrom datagram ≠ _ at hc
    unfold onGossipReceive clusterUpdateMemberStatus
    split
    · exact hi
    · rename_i nodeId hsome
      split
      · refine getElem?_modifyFirst hi (decide_eq_false fun hid => hc ?_)
        rw [hsome, hid]
      · exact hi
  | reap mono =>
    refine ⟨reapMember s.cm.self.nodeId mono m, ?_, (reapMember_frame ..).1,
      status_reapMember_of_dead hdead⟩
    show (s.cm.members.map _)[i]? = _
    rw [List.getElem?_map, hi]
    rfl

theorem dead_run {bs : List WatchEvent} {s s' : Watch} (hrun : run watchStep s bs = some s')
    {i : Nat} {m : NodeInfo} (hi : s.cm.members[i]? = some m)
    (hlen : m.nodeId.bytes.length ≤ 36) (hdead : m.status = NodeStatus.dead.code)
    (hc : ∀ e ∈ bs, e.contacts ≠ some m.nodeId) :
    ∃ m', s'.cm.members[i]? = some m' ∧ m'.nodeId = m.nodeId ∧
      m'.status = NodeStatus.dead.code := by
  induction bs generalizing s m with
  | nil =>
    cases hrun
    exact ⟨m, hi, rfl, hdead⟩
  | cons e bs ih =>
    obtain ⟨t, hstep, hrun⟩ := run_cons.1 hrun
    obtain ⟨m₁, hi₁, hid₁, hdead₁⟩ :=
      dead_watchStep hstep hi hlen hdead (hc e List.mem_cons_self)
    rw [← hid₁] at hlen hc ⊢
    exact ih hrun hi₁ hlen hdead₁ fun e he => hc e (List.mem_cons_of_mem _ he)

/-! ## The verdicts -/

/-- **The failure detector is accurate and complete** about every member whose latest contact
stamped its own time, in every run from a table with unique ids. -/
theorem failure_detector {cm₀ : ClusterManager} {clock₀ : UInt64} (hn : cm₀.ids.Nodup)
    (hshort : ∀ m ∈ cm₀.members, m.nodeId.bytes.length ≤ 36) {as : List WatchEvent} {s s₁ : Watch}
    {now : UInt64} (hok : Along watchStep JoinsApart ⟨cm₀, fun _ => none, clock₀⟩ as)
    (hrun : run watchStep ⟨cm₀, fun _ => none, clock₀⟩ as = some s)
    (htick : watchStep s (.reap now) = some s₁)
    {i : Nat} {m : NodeInfo} (hm : s.cm.members[i]? = some m)
    (hself : m.nodeId ≠ s.cm.self.nodeId) {c : Contact} (hc : s.contact m.nodeId = some c)
    (hstamp : c.StampsTime) :
    (now.toNat ≤ c.time.toNat + 1500 → s₁.cm.members[i]? = some m) ∧
    (now.toNat > c.time.toNat + 3000 → ∀ bs s', run watchStep s₁ bs = some s' →
      (∀ e ∈ bs, e.contacts ≠ some m.nodeId) →
      ∃ m', s'.cm.members[i]? = some m' ∧ m'.nodeId = m.nodeId ∧
        m'.status = NodeStatus.dead.code) := by
  have hstart : Watched ⟨cm₀, fun _ => none, clock₀⟩ := by
    refine ⟨hn, fun nodeId hid => ?_, fun _ _ _ => nofun, fun _ _ => nofun⟩
    obtain ⟨m, hm, rfl⟩ := List.mem_map.1 hid
    exact hshort m hm
  have hs : Watched s := run_induct (fun _ _ _ hs he hstep => hs.step he hstep) hstart hok hrun
  have hmem := List.mem_of_getElem? hm
  have hts : m.lastUpdatedTs = c.time := (hs.stamped m hmem c hc).trans hstamp
  have hentry : s₁.cm.members[i]? = some (reapMember s.cm.self.nodeId now m) := by
    unfold watchStep at htick
    split at htick
    · cases htick
    · cases htick
      show (s.cm.members.map _)[i]? = _
      rw [List.getElem?_map, hm]
      rfl
  have hclock : c.time ≤ now := by
    unfold watchStep at htick
    split at htick
    · cases htick
    · rename_i hle
      exact UInt64.le_trans (hs.past m.nodeId c hc) (UInt64.not_lt.1 hle)
  refine ⟨fun hnow => ?_, fun hnow bs s' hbs hquiet => ?_⟩
  · rw [hentry, reapMember_recent (hts ▸ hclock) (hts ▸ hnow)]
  · have hid := (reapMember_frame s.cm.self.nodeId now m).1
    have hdead := reapMember_silent hself (hts ▸ hnow)
    have hlen := hs.short m.nodeId (List.mem_map_of_mem hmem)
    rw [← hid] at hlen hquiet ⊢
    exact dead_run hbs hentry hlen hdead hquiet

/-- Node `b` joins at monotonic time `mono`, in the second 1700000000 of the wall clock. -/
def joinB (mono : UInt64) : WatchEvent :=
  .join (joinRequest (clusterInit .workerNode nodeB .empty 7002 0))
    ⟨1700000000, true, true, fun _ => (.zero, .zero)⟩ mono

def gossipB (mono : UInt64) : WatchEvent :=
  .gossip (serializerPackGossip ⟨gossipMagic, 1, 0, .ofCString nodeB⟩) mono

def watching : Watch := ⟨started, fun _ => none, 0⟩

def watchAfter (as : List WatchEvent) : Watch := (run watchStep watching as).getD watching

/-- Heard of at 1000, `b` is left alone at 2500 and dead from 4001 on. -/
theorem failure_detector_gossip :
    (watchAfter [joinB 10, gossipB 1000, .reap 2500]).cm.members.map (·.status) =
      [NodeStatus.alive.code] ∧
    ∃ m, (watchAfter [joinB 10, gossipB 1000, .reap 4001, .reap 4501]).cm.members[0]? = some m ∧
      m.nodeId = nodeB ∧ m.status = NodeStatus.dead.code := by
  have hn : started.ids.Nodup := by decide
  have hshort : ∀ m ∈ started.members, m.nodeId.bytes.length ≤ 36 := by decide
  have hok : Along watchStep JoinsApart watching [joinB 10, gossipB 1000] := by decide +kernel
  have hrun : run watchStep watching [joinB 10, gossipB 1000] =
      some (watchAfter [joinB 10, gossipB 1000]) := rfl
  have htick : watchStep (watchAfter [joinB 10, gossipB 1000]) (.reap 4001) =
      some (watchAfter [joinB 10, gossipB 1000, .reap 4001]) := rfl
  have hm : (watchAfter [joinB 10, gossipB 1000]).cm.members[0]? =
      some ⟨nodeB, .empty, 7002, 7002, 2, 0, 0, 0, 1000⟩ := by decide +kernel
  have hself : nodeB ≠ (watchAfter [joinB 10, gossipB 1000]).cm.self.nodeId := by decide +kernel
  have hc : (watchAfter [joinB 10, gossipB 1000]).contact nodeB = some (.gossip 1000) := by
    decide +kernel
  have hdetect := failure_detector hn hshort hok hrun htick hm hself hc rfl
  exact ⟨by decide +kernel, hdetect.2 (by decide) [.reap 4501] _ rfl (by decide)⟩

/-- A JOIN handled 1000 ms ago on a machine that has been up for 2000000 s finds `b` dead; one
handled 10000 ms ago on a machine that has just booted finds it alive. -/
theorem reaper_misjudges_join :
    ((watchAfter [joinB 2000000000]).contact nodeB = some (.join 2000000000 1700000000) ∧
      (watchAfter [joinB 2000000000]).cm.members.map (·.status) = [NodeStatus.alive.code] ∧
      (watchAfter [joinB 2000000000, .reap 2000001000]).cm.members.map (·.status) =
        [NodeStatus.dead.code]) ∧
    ((watchAfter [joinB 10000]).contact nodeB = some (.join 10000 1700000000) ∧
      (watchAfter [joinB 10000, .reap 20000]).cm.members.map (·.status) =
        [NodeStatus.alive.code]) := by
  decide +kernel

end DRoole
