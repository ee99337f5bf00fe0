import DRoole.Lib.Runs
import DRoole.Members.Import

/-!
# Member ids

The three writers of the table look for duplicates in three ways.
`cluster_update_member_status` adds nothing. `cluster_handle_join_req` compares the
whole id of the request and stores its first 36 bytes. `cluster_join` looks for the
seed and for nothing else, so an entry of the response is added even if the table
has it. Ids stay unique as long as no call reaches one of these gaps.
-/

namespace DRoole

open Lib

/-! ## Calls -/

/-- A response whose entries are all announced and have terminated, distinct ids. -/
structure WellFormedReply extends SeedReply where
  count : nodes.length < 2 ^ 32
  terminated : ∀ n ∈ nodes, 0 ∈ n.nodeId.bytes
  distinct : (nodes.map (·.nodeId.text)).Nodup

inductive MemberCall where
  | join (seedIp : CString) (seedPort : UInt16) (r : WellFormedReply) (env : SeedEnv)
  | joinReq (req : JoinRequestPayload) (env : JoinEnv)
  | updateStatus (nodeId : CString) (status : NodeStatus) (now : UInt64)

def memberCall (cm : ClusterManager) : MemberCall → ClusterManager
  | .join seedIp seedPort r env => (clusterJoin cm seedIp seedPort { env with reply := r.bytes }).1
  | .joinReq req env => (clusterHandleJoinReq cm req env).1
  | .updateStatus nodeId status now => (clusterUpdateMemberStatus cm nodeId status now).1

def memberStep (cm : ClusterManager) (c : MemberCall) : Option ClusterManager :=
  some (memberCall cm c)

/-- The call does not list a member again: a response lists no member, and a request
whose id fills its field does not start with the id of one. -/
def NewIds (cm : ClusterManager) : MemberCall → Prop
  | .join _ _ r _ => ∀ n ∈ r.nodes, n.nodeId.text ≠ cm.self.nodeId →
      ∀ m ∈ cm.members, m.nodeId ≠ n.nodeId.text
  | .joinReq req _ => 0 ∈ req.nodeId.bytes ∨ ∀ m ∈ cm.members, m.nodeId ≠ req.idText.strncpy 36
  | .updateStatus .. => True

instance (cm : ClusterManager) : (c : MemberCall) → Decidable (NewIds cm c)
  | .join .. => inferInstanceAs (Decidable (∀ n ∈ _, _ → ∀ m ∈ _, _))
  | .joinReq .. => inferInstanceAs (Decidable (_ ∨ ∀ m ∈ _, _))
  | .updateStatus .. => inferInstanceAs (Decidable True)

/-! ## What a call does to the ids -/

def ClusterManager.ids (cm : ClusterManager) : List CString := cm.members.map (·.nodeId)

theorem ids_updateMember {cm : ClusterManager} {nodeId : CString} {f : NodeInfo → NodeInfo}
    (hf : ∀ m, (f m).nodeId = m.nodeId) : (updateMember cm nodeId f).ids = cm.ids :=
  map_modifyFirst hf ..

theorem ids_clusterUpdateMemberStatus (cm : ClusterManager) (nodeId : CString)
    (status : NodeStatus) (now : UInt64) :
    (clusterUpdateMemberStatus cm nodeId status now).1.ids = cm.ids := by
  unfold clusterUpdateMemberStatus
  split
  · exact ids_updateMember fun _ => rfl
  · rfl

/-- A request adds at most the first 36 bytes of its id, and only if the whole id is new. -/
theorem ids_clusterHandleJoinReq (cm : ClusterManager) (req : JoinRequestPayload) (env : JoinEnv) :
    (clusterHandleJoinReq cm req env).1.ids = cm.ids ∨
      (req.idText ∉ cm.ids ∧
        (clusterHandleJoinReq cm req env).1.ids = cm.ids ++ [req.idText.strncpy 36]) := by
  unfold clusterHandleJoinReq enlist
  split
  · rename_i h
    exact .inl rfl
  rename_i cm' h
  split at h
  · rename_i hknown
    cases h
    exact .inl (ids_updateMember fun _ => rfl)
  · rename_i hnew
    rcases addMember_cases cm env.realloc (newMember req env.wall) with ⟨e, -⟩ | ⟨_, e, hmem, -⟩
    · rw [e] at h
      cases h
    · cases e.symm.trans h
      refine .inr ⟨by simpa [ClusterManager.ids] using hnew, ?_⟩
      show cm'.ids = _
      rw [ClusterManager.ids, hmem, List.map_append]
      rfl

/-- A well-formed response adds ids of its entries in order, and then perhaps the seed's. -/
theorem ids_clusterJoin (r : WellFormedReply) {env : SeedEnv} (hreply : env.reply = r.bytes)
    (cm : ClusterManager) (seedIp : CString) (seedPort : UInt16) :
    ∃ added, added.Sublist ((r.nodes.map (·.nodeId.text)).filter (· ≠ cm.self.nodeId)) ∧
      ((clusterJoin cm seedIp seedPort env).1.ids = cm.ids ++ added ∨
        (r.seedId ∉ cm.ids ++ added ∧
          (clusterJoin cm seedIp seedPort env).1.ids = cm.ids ++ added ++ [r.seedId])) := by
  have hlen : r.nodes.length < 2 ^ 57 := r.count.trans (by decide)
  rcases clusterJoin_reply hlen hreply cm seedIp seedPort with ⟨e, -⟩ | e
  · exact ⟨[], List.nil_sublist _, .inl (by rw [e, List.append_nil])⟩
  rw [SeedReply.listed_eq r.count] at e
  obtain ⟨added, hadd, hpre, -, -⟩ := importMembers_members env cm r.nodes
  have hids : (importMembers env cm r.nodes).ids = cm.ids ++ added.map (·.nodeId) := by
    rw [ClusterManager.ids, hadd, List.map_append]
    rfl
  have hself : (importable cm.self.nodeId r.nodes).map (·.nodeId.text) =
      (r.nodes.map (·.nodeId.text)).filter (· ≠ cm.self.nodeId) := by
    rw [List.filter_map, importable]
    congr 1
    refine List.filter_congr fun n hn => ?_
    rw [NodeInfoImage.idText_eq (r.terminated n hn)]
    rfl
  refine ⟨added.map (·.nodeId), ?_, ?_⟩
  · have := (hpre.map Prod.fst).sublist
    rw [List.map_map, List.map_map] at this
    rw [← hself]
    exact this
  · rw [e, ← hids, ClusterManager.ids, ClusterManager.activate_members]
    rcases ensureSeed_members env r.seedId seedIp seedPort (importMembers env cm r.nodes)
      with ⟨hsame, -⟩ | ⟨hseed, hnew⟩
    · exact .inl (by rw [hsame]; rfl)
    · refine .inr ⟨?_, ?_⟩
      · rintro hmem
        obtain ⟨m, hm, e⟩ := List.mem_map.1 hmem
        exact hnew m hm e
      · rw [hseed, List.map_append]
        show _ ++ [r.seedId.strncpy 36] = _
        rw [SeedReply.seedId, CString.strncpy_strncpy]
        rfl

/-! ## Runs -/

/-- **Step lemma.** -/
theorem ids_nodup_memberCall {cm : ClusterManager} {c : MemberCall} (hnew : NewIds cm c)
    (hn : cm.ids.Nodup) : (memberCall cm c).ids.Nodup := by
  cases c with
  | join seedIp seedPort r env =>
    have hreply : ({ env with reply := r.bytes } : SeedEnv).reply = r.bytes := rfl
    obtain ⟨added, hsub, hjoin⟩ := ids_clusterJoin r hreply cm seedIp seedPort
    have hadd : (cm.ids ++ added).Nodup := by
      refine List.nodup_append.2 ⟨hn, (r.distinct.filter _).sublist hsub, ?_⟩
      rintro x hx _ hy rfl
      obtain ⟨m, hm, hmx⟩ := List.mem_map.1 hx
      obtain ⟨hxr, hself⟩ := List.mem_filter.1 (hsub.subset hy)
      obtain ⟨n, hnr, hnx⟩ := List.mem_map.1 hxr
      refine hnew n hnr ?_ m hm (hmx.trans hnx.symm)
      rw [hnx]
      exact of_decide_eq_true hself
    rcases hjoin with e | ⟨hseed, e⟩
    · exact e ▸ hadd
    · exact e ▸ List.concat_eq_append ▸ List.Nodup.concat hseed hadd
  | joinReq req env =>
    rcases ids_clusterHandleJoinReq cm req env with e | ⟨hreq, e⟩
    · exact e ▸ hn
    · refine e ▸ List.concat_eq_append ▸ List.Nodup.concat ?_ hn
      rcases hnew with hnul | hnew
      · rwa [CString.strncpy_of_le (JoinRequestPayload.length_idText_le hnul)]
      · intro hmem
        obtain ⟨m, hm, e⟩ := List.mem_map.1 hmem
        exact hnew m hm e
  | updateStatus nodeId status now =>
    show (clusterUpdateMemberStatus cm nodeId status now).1.ids.Nodup
    rw [ids_clusterUpdateMemberStatus]
    exact hn

theorem find_of_nodup {cm : ClusterManager} (hn : cm.ids.Nodup) {m : NodeInfo}
    (hm : m ∈ cm.members) : cm.members.find? (·.nodeId = m.nodeId) = some m := by
  have hsome : (cm.members.find? (·.nodeId = m.nodeId)).isSome := by
    rw [List.find?_isSome]
    exact ⟨m, hm, by simp⟩
  obtain ⟨n, hfind⟩ := Option.isSome_iff_exists.1 hsome
  have hid : n.nodeId = m.nodeId := by simpa using List.find?_some hfind
  rw [hfind, List.inj_on_of_nodup_map hn (List.mem_of_find?_eq_some hfind) hm hid]

/-- **Member ids are unique** in every state reached by calls that list no member again, and
so a search by id finds the only entry of the node. -/
theorem member_ids_unique (role : NodeRole) (nodeId bindIp : CString) (port : UInt16)
    (now : UInt64) (calls : List MemberCall)
    (hnew : Along memberStep NewIds (clusterInit role nodeId bindIp port now) calls)
    {cm : ClusterManager} (hrun : run memberStep (clusterInit role nodeId bindIp port now) calls =
      some cm) :
    (cm.members.map (·.nodeId)).Nodup ∧
      ∀ m ∈ cm.members, cm.members.find? (·.nodeId = m.nodeId) = some m := by
  have hn : cm.ids.Nodup := by
    refine run_induct (P := fun cm => cm.ids.Nodup) ?_ List.nodup_nil hnew hrun
    rintro cm c _ hn hc ⟨⟩
    exact ids_nodup_memberCall hc hn
  exact ⟨hn, fun m hm => find_of_nodup hn hm⟩

def nodeB : CString := .ofField [98]

def seedC : CString := .ofField [99]

def listsB : WellFormedReply where
  version := 1
  originId := .zero
  requestId := .zero
  status := 0
  responderId := .ofCString seedC
  nodes := [⟨.ofCString nodeB, .zero, .zero, 7002, 7002, 0, 0, 0, 0, .zero, 0⟩]
  count := by decide
  terminated := by decide
  distinct := by decide

def joinC : MemberCall :=
  .join seedC 7003 listsB ⟨true, true, [], true, fun _ => true, 5, fun _ => (0, 0)⟩

/-- A request of a node whose id fills its field. -/
def longRequest : MemberCall :=
  .joinReq ⟨⟨List.replicate 37 97, rfl⟩, .zero, 0, 0, 0⟩ ⟨9, true, true, fun _ => (.zero, .zero)⟩

def started : ClusterManager := clusterInit .workerNode (.ofField [97]) .empty 7001 0

theorem member_ids_unique_once :
    ∃ cm, run memberStep started [joinC, longRequest, .updateStatus nodeB .suspect 7] = some cm ∧
      cm.ids.length = 3 ∧ cm.ids.Nodup :=
  have hnew : Along memberStep NewIds started
      [joinC, longRequest, .updateStatus nodeB .suspect 7] := by
    decide +kernel
  ⟨_, rfl, by decide +kernel, (member_ids_unique .workerNode ⟨[97], by decide⟩ .empty 7001 0 _ hnew
    rfl).1⟩

/-- A node that joins twice lists `b` twice, and a request with a long id is listed as often as
it is handled. -/
theorem member_ids_repeated :
    (∃ cm, run memberStep started [joinC, joinC] = some cm ∧
      cm.ids = [nodeB, seedC, nodeB] ∧ ¬ (cm.members.map (·.nodeId)).Nodup) ∧
    ∃ cm, run memberStep started [longRequest, longRequest] = some cm ∧
      ¬ (cm.members.map (·.nodeId)).Nodup :=
  ⟨⟨_, rfl, by decide +kernel, by decide +kernel⟩, _, rfl, by decide +kernel⟩

end DRoole
