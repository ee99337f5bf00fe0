import DRoole.Lib.Runs
import DRoole.Raft.Start

/-!
# A cluster of fixed membership

The nodes of a `Config` exchange the requests that `become_candidate` and
`leader_tick` hand to `send_rpc` and the responses of the handlers. A packet
once sent stays in `net`, so that it can be delivered late, twice or never.
One `Action` is one public call at one node; a crash falls between calls and
restarts the node from what it persisted last. `hist` is the trace of every
node and nothing reads it.
-/

namespace DRoole

open Lib

/-- A fixed membership: every node is configured with exactly the others. -/
structure Config where
  members : List CString
  peersOf : CString → List PeerAddr
  two_le : 2 ≤ members.length
  nodup : members.Nodup
  nonempty : ∀ i ∈ members, i.bytes ≠ []
  length_le : ∀ i ∈ members, i.bytes.length ≤ 36
  peers_perm : ∀ i ∈ members, ((peersOf i).map (·.id)).Perm (members.erase i)

inductive Packet where
  | request (src dst : CString) (req : Request)
  | voteResp (src dst : CString) (resp : RaftRequestVoteResp)
  | appendResp (src dst : CString) (resp : RaftAppendEntriesResp)
  deriving DecidableEq, Repr

structure Cluster where
  nodes : CString → RaftNode
  disk : CString → Durable
  net : List Packet
  hist : List (CString × Stamp)

/-- The requests of a trace as packets from `i`. -/
def sends (i : CString) (tr : List Stamp) : List Packet :=
  tr.filterMap fun s =>
    match s.call with
    | .sendRpc p req => some (.request i p req)
    | _ => none

/-- Every node after its first start, with nothing on disk. -/
def initCluster (cfg : Config) (now rand : CString → UInt64) : Cluster where
  nodes i := boot i (cfg.peersOf i) Durable.empty (now i) (rand i)
  disk _ := Durable.empty
  net := []
  hist := []

def Cluster.update (c : Cluster) (i : CString) (h : Host) (replies : List Packet) : Cluster where
  nodes := Function.update c.nodes i h.node
  disk := Function.update c.disk i (lastRecord (c.disk i) h.trace)
  net := c.net ++ sends i h.trace ++ replies
  hist := c.hist ++ h.trace.map (i, ·)

inductive Action where
  | tick (i : CString) (now electionNow rand : UInt64)
  | submit (i : CString) (data : Bytes)
  | deliver (p : Packet) (now : UInt64)
  | crash (i : CString) (now rand : UInt64)

/-- A tick whose sends bring no reply back: every reply is a packet of its own, while
`raft_send_rpc_callback` handles the reply within the call. -/
def tickEnv (now electionNow rand : UInt64) : TickEnv :=
  { now := now, electionNow := electionNow, rand := rand, voteReplies := [], appendReplies := [] }

def deliver (c : Cluster) (now : UInt64) : Packet → Cluster
  | .request src dst (.requestVote req) =>
    let r := raftHandleRequestVote (c.nodes dst).host now req
    c.update dst r.1 [.voteResp dst src r.2]
  | .request src dst (.appendEntries req) =>
    -- the senders attach no entries: `entry_count` is 0
    let r := raftHandleAppendEntries (c.nodes dst).host now req []
    c.update dst r.1 [.appendResp dst src r.2]
  | .voteResp src dst resp =>
    c.update dst (raftHandleRequestVoteResponse (c.nodes dst).host Alloc.ok src resp) []
  | .appendResp src dst resp =>
    c.update dst (raftHandleAppendEntriesResponse (c.nodes dst).host src resp) []

/-- One step of the cluster. A tick that would take a term past `2^64 - 1` is
not enabled: terms stay below `2^64`. -/
def step (cfg : Config) (c : Cluster) : Action → Option Cluster
  | .tick i now electionNow rand =>
    if i ∈ cfg.members ∧ ¬ termOverflows (c.nodes i) now then
      some (c.update i (raftTick (c.nodes i).host (tickEnv now electionNow rand)) [])
    else none
  | .submit i data =>
    if i ∈ cfg.members then
      some (c.update i (raftSubmit (c.nodes i).host Alloc.ok data).1 [])
    else none
  | .deliver p now => if p ∈ c.net then some (deliver c now p) else none
  | .crash i now rand =>
    if i ∈ cfg.members then
      some { c with nodes := Function.update c.nodes i (boot i (cfg.peersOf i) (c.disk i) now rand) }
    else none

/-! ## Names for concrete runs -/

def threeNodes : Config where
  members := [idA, idB, idC]
  peersOf i := ([idA, idB, idC].erase i).map fun j => ⟨j, CString.empty, 0⟩
  two_le := by decide
  nodup := by decide
  nonempty := by decide
  length_le := by decide
  peers_perm := by decide

/-- `a` is elected in term 1 by itself and `b`. The first copy of its request only
brings `b` to term 1; the vote that counts answers the second. -/
def firstElection : List Action :=
  [.tick idA 150 150 0,
   .deliver (.request idA idB (.requestVote ⟨1, idA, 0, 0⟩)) 150,
   .deliver (.request idA idB (.requestVote ⟨1, idA, 0, 0⟩)) 150,
   .deliver (.voteResp idB idA ⟨1, 1⟩) 0]

def threeStarted : Cluster := initCluster threeNodes (fun _ => 0) fun _ => 0

theorem firstElection_isSome : (run (step threeNodes) threeStarted firstElection).isSome := by
  decide +kernel

def firstElected : Cluster := (run (step threeNodes) threeStarted firstElection).get
  firstElection_isSome

theorem run_firstElection : run (step threeNodes) threeStarted firstElection = some firstElected :=
  (Option.some_get firstElection_isSome).symm

end DRoole
