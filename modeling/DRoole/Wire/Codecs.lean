import DRoole.Lib.Layout
import DRoole.Raft.Node

/-!
# The wire formats

The packed structs of `include/protocol/protocol_defs.h` and
`include/cluster/raft.h`, and the functions that take them to network order and
back: `src/protocol/serializer.c` and the helpers of
`src/cluster/raft_rpc_integration.c`. The host is little-endian, as the fallback
macros of `serializer.c` assume. `T.raw` is the struct `T` as it lies in memory.

Here an id is the `char[37]` array itself, with whatever follows its NUL;
`RaftRequestVoteReq.packed` and `RaftAppendEntriesReq.packed` take the requests
of the core, whose ids are texts, to their structs.
-/

namespace DRoole

open Lib

/-! ## Byte order -/

abbrev htons : UInt16 → UInt16 := Word.bswap
abbrev ntohs : UInt16 → UInt16 := Word.bswap
abbrev htonl : UInt32 → UInt32 := Word.bswap
abbrev ntohl : UInt32 → UInt32 := Word.bswap
abbrev htobe64 : UInt64 → UInt64 := Word.bswap
abbrev be64toh : UInt64 → UInt64 := Word.bswap

def rpcMagic : UInt32 := 0xCAFEBABE
def gossipMagic : UInt32 := 0xDEADC0DE

/-! ## The structs -/

structure RpcHeader where
  magic : UInt32
  version : UInt16
  commandType : UInt16
  payloadLen : UInt64
  originId : Chars 37
  requestId : Chars 37
  deriving DecidableEq, Repr

def RpcHeader.equiv :
    UInt32 × UInt16 × UInt16 × UInt64 × Chars 37 × Chars 37 ≃ RpcHeader where
  toFun := fun (magic, version, commandType, payloadLen, originId, requestId) =>
    ⟨magic, version, commandType, payloadLen, originId, requestId⟩
  invFun h := (h.magic, h.version, h.commandType, h.payloadLen, h.originId, h.requestId)

def RpcHeader.raw : Codec RpcHeader :=
  (Codec.word.pair <| Codec.word.pair <| Codec.word.pair <| Codec.word.pair <|
    (Codec.chars 37).pair (Codec.chars 37)).iso RpcHeader.equiv

theorem RpcHeader.raw_put (h : RpcHeader) :
    RpcHeader.raw.put h = Word.le h.magic ++ (Word.le h.version ++ (Word.le h.commandType ++
      (Word.le h.payloadLen ++ (h.originId.bytes ++ h.requestId.bytes)))) := by
  rw [RpcHeader.raw, Codec.iso_put, Codec.pair_put, Codec.pair_put, Codec.pair_put, Codec.pair_put,
    Codec.pair_put]
  rfl

structure GossipPacket where
  magic : UInt32
  type : UInt32
  sequence : UInt32
  nodeId : Chars 37
  deriving DecidableEq, Repr

def GossipPacket.equiv : UInt32 × UInt32 × UInt32 × Chars 37 ≃ GossipPacket where
  toFun := fun (magic, type, sequence, nodeId) => ⟨magic, type, sequence, nodeId⟩
  invFun p := (p.magic, p.type, p.sequence, p.nodeId)

def GossipPacket.raw : Codec GossipPacket :=
  (Codec.word.pair <| Codec.word.pair <| Codec.word.pair (Codec.chars 37)).iso GossipPacket.equiv

theorem GossipPacket.raw_put (p : GossipPacket) :
    GossipPacket.raw.put p =
      Word.le p.magic ++ (Word.le p.type ++ (Word.le p.sequence ++ p.nodeId.bytes)) := by
  rw [GossipPacket.raw, Codec.iso_put, Codec.pair_put, Codec.pair_put, Codec.pair_put]
  rfl

/-- The struct `RaftRequestVoteReq`. -/
structure PackedRequestVoteReq where
  term : UInt64
  candidateId : Chars 37
  lastLogIndex : UInt64
  lastLogTerm : UInt64
  deriving DecidableEq, Repr

def PackedRequestVoteReq.equiv : UInt64 × Chars 37 × UInt64 × UInt64 ≃ PackedRequestVoteReq where
  toFun := fun (term, candidateId, lastLogIndex, lastLogTerm) =>
    ⟨term, candidateId, lastLogIndex, lastLogTerm⟩
  invFun r := (r.term, r.candidateId, r.lastLogIndex, r.lastLogTerm)

def PackedRequestVoteReq.raw : Codec PackedRequestVoteReq :=
  (Codec.word.pair <| (Codec.chars 37).pair <| Codec.word.pair Codec.word).iso
    PackedRequestVoteReq.equiv

theorem PackedRequestVoteReq.raw_put (r : PackedRequestVoteReq) :
    PackedRequestVoteReq.raw.put r =
      Word.le r.term ++ (r.candidateId.bytes ++ (Word.le r.lastLogIndex ++ Word.le r.lastLogTerm)) := by
  rw [PackedRequestVoteReq.raw, Codec.iso_put, Codec.pair_put, Codec.pair_put, Codec.pair_put]
  rfl

def RaftRequestVoteResp.equiv : UInt64 × UInt8 ≃ RaftRequestVoteResp where
  toFun := fun (term, voteGranted) => ⟨term, voteGranted⟩
  invFun r := (r.term, r.voteGranted)

def RaftRequestVoteResp.raw : Codec RaftRequestVoteResp :=
  (Codec.word.pair Codec.word).iso RaftRequestVoteResp.equiv

theorem RaftRequestVoteResp.raw_put (r : RaftRequestVoteResp) :
    RaftRequestVoteResp.raw.put r = Word.le r.term ++ [r.voteGranted] := by
  rw [RaftRequestVoteResp.raw, Codec.iso_put, Codec.pair_put, Codec.word_put, Codec.word_put,
    Word.le_uint8]
  rfl

/-- The struct `RaftAppendEntriesReq`. -/
structure PackedAppendEntriesReq where
  term : UInt64
  leaderId : Chars 37
  prevLogIndex : UInt64
  prevLogTerm : UInt64
  leaderCommit : UInt64
  entryCount : UInt32
  deriving DecidableEq, Repr

def PackedAppendEntriesReq.equiv :
    UInt64 × Chars 37 × UInt64 × UInt64 × UInt64 × UInt32 ≃ PackedAppendEntriesReq where
  toFun := fun (term, leaderId, prevLogIndex, prevLogTerm, leaderCommit, entryCount) =>
    ⟨term, leaderId, prevLogIndex, prevLogTerm, leaderCommit, entryCount⟩
  invFun r := (r.term, r.leaderId, r.prevLogIndex, r.prevLogTerm, r.leaderCommit, r.entryCount)

def PackedAppendEntriesReq.raw : Codec PackedAppendEntriesReq :=
  (Codec.word.pair <| (Codec.chars 37).pair <| Codec.word.pair <| Codec.word.pair <|
    Codec.word.pair Codec.word).iso PackedAppendEntriesReq.equiv

theorem PackedAppendEntriesReq.raw_put (r : PackedAppendEntriesReq) :
    PackedAppendEntriesReq.raw.put r = Word.le r.term ++ (r.leaderId.bytes ++
      (Word.le r.prevLogIndex ++ (Word.le r.prevLogTerm ++ (Word.le r.leaderCommit ++
        Word.le r.entryCount)))) := by
  rw [PackedAppendEntriesReq.raw, Codec.iso_put, Codec.pair_put, Codec.pair_put, Codec.pair_put,
    Codec.pair_put, Codec.pair_put]
  rfl

def RaftAppendEntriesResp.equiv : UInt64 × UInt8 × UInt64 ≃ RaftAppendEntriesResp where
  toFun := fun (term, success, matchIndex) => ⟨term, success, matchIndex⟩
  invFun r := (r.term, r.success, r.matchIndex)

def RaftAppendEntriesResp.raw : Codec RaftAppendEntriesResp :=
  (Codec.word.pair <| Codec.word.pair Codec.word).iso RaftAppendEntriesResp.equiv

theorem RaftAppendEntriesResp.raw_put (r : RaftAppendEntriesResp) :
    RaftAppendEntriesResp.raw.put r = Word.le r.term ++ ([r.success] ++ Word.le r.matchIndex) := by
  rw [RaftAppendEntriesResp.raw, Codec.iso_put, Codec.pair_put, Codec.pair_put, Codec.word_put,
    Codec.word_put, Codec.word_put, Word.le_uint8]
  rfl

/-! ## serializer.c -/

/-- Writes the fields one after the other, by running offsets. -/
def serializerPackRpc (src : RpcHeader) : Bytes :=
  Word.le (htonl src.magic) ++ Word.le (htons src.version) ++ Word.le (htons src.commandType) ++
    Word.le (htobe64 src.payloadLen) ++ src.originId.bytes ++ src.requestId.bytes

def RpcHeader.swap (h : RpcHeader) : RpcHeader :=
  { magic := ntohl h.magic
    version := ntohs h.version
    commandType := ntohs h.commandType
    payloadLen := be64toh h.payloadLen
    originId := h.originId
    requestId := h.requestId }

def serializerUnpackRpc (src : Bytes) : RpcHeader := (RpcHeader.raw.read src).swap

def GossipPacket.swap (p : GossipPacket) : GossipPacket :=
  { magic := htonl p.magic, type := htonl p.type, sequence := htonl p.sequence, nodeId := p.nodeId }

def serializerPackGossip (src : GossipPacket) : Bytes := GossipPacket.raw.put src.swap

def serializerUnpackGossip (src : Bytes) : GossipPacket := (GossipPacket.raw.read src).swap

/-! ## raft_rpc_integration.c -/

def PackedRequestVoteReq.swap (r : PackedRequestVoteReq) : PackedRequestVoteReq :=
  { term := htobe64 r.term
    candidateId := r.candidateId
    lastLogIndex := htobe64 r.lastLogIndex
    lastLogTerm := htobe64 r.lastLogTerm }

def packRequestVoteReq (src : PackedRequestVoteReq) : Bytes := PackedRequestVoteReq.raw.put src.swap

def unpackRequestVoteReq (src : Bytes) : PackedRequestVoteReq :=
  (PackedRequestVoteReq.raw.read src).swap

def RaftRequestVoteResp.swap (r : RaftRequestVoteResp) : RaftRequestVoteResp :=
  { term := htobe64 r.term, voteGranted := r.voteGranted }

def packRequestVoteResp (src : RaftRequestVoteResp) : Bytes := RaftRequestVoteResp.raw.put src.swap

def unpackRequestVoteResp (src : Bytes) : RaftRequestVoteResp :=
  (RaftRequestVoteResp.raw.read src).swap

def PackedAppendEntriesReq.swap (r : PackedAppendEntriesReq) : PackedAppendEntriesReq :=
  { term := htobe64 r.term
    leaderId := r.leaderId
    prevLogIndex := htobe64 r.prevLogIndex
    prevLogTerm := htobe64 r.prevLogTerm
    leaderCommit := htobe64 r.leaderCommit
    entryCount := htonl r.entryCount }

def packAppendEntriesReq (src : PackedAppendEntriesReq) : Bytes :=
  PackedAppendEntriesReq.raw.put src.swap

def unpackAppendEntriesReq (src : Bytes) : PackedAppendEntriesReq :=
  (PackedAppendEntriesReq.raw.read src).swap

def RaftAppendEntriesResp.swap (r : RaftAppendEntriesResp) : RaftAppendEntriesResp :=
  { term := htobe64 r.term, success := r.success, matchIndex := htobe64 r.matchIndex }

def packAppendEntriesResp (src : RaftAppendEntriesResp) : Bytes :=
  RaftAppendEntriesResp.raw.put src.swap

def unpackAppendEntriesResp (src : Bytes) : RaftAppendEntriesResp :=
  (RaftAppendEntriesResp.raw.read src).swap

/-! ## The formats are bijections -/

/-- `pack` and `unpack` are inverse to each other on `size` bytes, and `pack`
leaves the given fields at their offsets. -/
structure Bijection {α : Type} (size : Nat) (pack : α → Bytes) (unpack : Bytes → α)
    (fields : α → List (Nat × Bytes)) : Prop where
  length_pack : ∀ v, (pack v).length = size
  unpack_pack : ∀ v, unpack (pack v) = v
  pack_unpack : ∀ b, b.length = size → pack (unpack b) = b
  laid : ∀ v, Laid (fields v) (pack v)

/-- A struct whose words are swapped on the way out and on the way in, laid out
field after field. -/
theorem bijection_of_swap {α : Type} (c : Codec α) {swap : α → α} (hswap : ∀ v, swap (swap v) = v)
    (fs : α → List Bytes) {fields : α → List (Nat × Bytes)}
    (hput : ∀ v, c.put (swap v) = (fs v).flatten) (hoff : ∀ v, offsets 0 (fs v) = fields v) :
    Bijection c.width (fun v => c.put (swap v)) (fun b => swap (c.read b)) fields where
  length_pack v := c.length_put _
  unpack_pack v := by
    have := c.read_put (swap v) []
    rw [List.append_nil] at this
    rw [this, hswap]
  pack_unpack b hb := by rw [hswap, c.put_read hb]
  laid v := by
    rw [hput, ← hoff]
    exact laid_flatten (fs v)

theorem serializerPackRpc_eq (h : RpcHeader) : serializerPackRpc h = RpcHeader.raw.put h.swap := by
  simp only [serializerPackRpc, RpcHeader.raw_put, RpcHeader.swap, List.append_assoc]

theorem RpcHeader.swap_swap (h : RpcHeader) : h.swap.swap = h := by
  cases h
  simp only [RpcHeader.swap, Word.bswap_bswap]

theorem serializerRpc_bijection :
    Bijection 90 serializerPackRpc serializerUnpackRpc fun h =>
      [(0, Word.be h.magic), (4, Word.be h.version), (6, Word.be h.commandType),
        (8, Word.be h.payloadLen), (16, h.originId.bytes), (53, h.requestId.bytes)] := by
  rw [funext serializerPackRpc_eq]
  refine bijection_of_swap RpcHeader.raw RpcHeader.swap_swap (fun h =>
    [Word.be h.magic, Word.be h.version, Word.be h.commandType, Word.be h.payloadLen,
      h.originId.bytes, h.requestId.bytes])
    (fun h => ?_) fun h => by simp [offsets]
  simp [RpcHeader.raw_put, RpcHeader.swap]

theorem length_serializerPackRpc (h : RpcHeader) : (serializerPackRpc h).length = 90 :=
  serializerRpc_bijection.length_pack h

/-- A header read as if it were in network order. -/
theorem serializerUnpackRpc_raw (h : RpcHeader) :
    serializerUnpackRpc (RpcHeader.raw.put h) = h.swap := by
  have := RpcHeader.raw.read_put h []
  rw [List.append_nil] at this
  rw [serializerUnpackRpc, this]

/-- A header in network order read as it lies in memory. -/
theorem raw_get_serializerPackRpc (h : RpcHeader) :
    RpcHeader.raw.get (serializerPackRpc h) = h.swap := by
  rw [serializerPackRpc_eq, RpcHeader.raw.get_put]

-- from here on a header's bytes are known through these lemmas only
attribute [irreducible] serializerPackRpc serializerUnpackRpc

theorem GossipPacket.swap_swap (p : GossipPacket) : p.swap.swap = p := by
  cases p
  simp only [GossipPacket.swap, Word.bswap_bswap]

theorem serializerGossip_bijection :
    Bijection 49 serializerPackGossip serializerUnpackGossip fun p =>
      [(0, Word.be p.magic), (4, Word.be p.type), (8, Word.be p.sequence), (12, p.nodeId.bytes)] := by
  refine bijection_of_swap GossipPacket.raw GossipPacket.swap_swap (fun p =>
    [Word.be p.magic, Word.be p.type, Word.be p.sequence, p.nodeId.bytes])
    (fun p => ?_) fun p => by simp [offsets]
  simp [GossipPacket.raw_put, GossipPacket.swap]

theorem PackedRequestVoteReq.swap_swap (r : PackedRequestVoteReq) : r.swap.swap = r := by
  cases r
  simp only [PackedRequestVoteReq.swap, Word.bswap_bswap]

theorem requestVoteReq_bijection :
    Bijection 61 packRequestVoteReq unpackRequestVoteReq fun r =>
      [(0, Word.be r.term), (8, r.candidateId.bytes), (45, Word.be r.lastLogIndex),
        (53, Word.be r.lastLogTerm)] := by
  refine bijection_of_swap PackedRequestVoteReq.raw PackedRequestVoteReq.swap_swap (fun r =>
    [Word.be r.term, r.candidateId.bytes, Word.be r.lastLogIndex, Word.be r.lastLogTerm])
    (fun r => ?_) fun r => by simp [offsets]
  simp [PackedRequestVoteReq.raw_put, PackedRequestVoteReq.swap]

theorem RaftRequestVoteResp.swap_swap (r : RaftRequestVoteResp) : r.swap.swap = r := by
  cases r
  simp only [RaftRequestVoteResp.swap, Word.bswap_bswap]

theorem requestVoteResp_bijection :
    Bijection 9 packRequestVoteResp unpackRequestVoteResp fun r =>
      [(0, Word.be r.term), (8, [r.voteGranted])] := by
  refine bijection_of_swap RaftRequestVoteResp.raw RaftRequestVoteResp.swap_swap (fun r =>
    [Word.be r.term, [r.voteGranted]])
    (fun r => ?_) fun r => by simp [offsets]
  simp [RaftRequestVoteResp.raw_put, RaftRequestVoteResp.swap]

theorem PackedAppendEntriesReq.swap_swap (r : PackedAppendEntriesReq) : r.swap.swap = r := by
  cases r
  simp only [PackedAppendEntriesReq.swap, Word.bswap_bswap]

theorem appendEntriesReq_bijection :
    Bijection 73 packAppendEntriesReq unpackAppendEntriesReq fun r =>
      [(0, Word.be r.term), (8, r.leaderId.bytes), (45, Word.be r.prevLogIndex),
        (53, Word.be r.prevLogTerm), (61, Word.be r.leaderCommit), (69, Word.be r.entryCount)] := by
  refine bijection_of_swap PackedAppendEntriesReq.raw PackedAppendEntriesReq.swap_swap (fun r =>
    [Word.be r.term, r.leaderId.bytes, Word.be r.prevLogIndex, Word.be r.prevLogTerm,
      Word.be r.leaderCommit, Word.be r.entryCount])
    (fun r => ?_) fun r => by simp [offsets]
  simp [PackedAppendEntriesReq.raw_put, PackedAppendEntriesReq.swap]

theorem RaftAppendEntriesResp.swap_swap (r : RaftAppendEntriesResp) : r.swap.swap = r := by
  cases r
  simp only [RaftAppendEntriesResp.swap, Word.bswap_bswap]

theorem appendEntriesResp_bijection :
    Bijection 17 packAppendEntriesResp unpackAppendEntriesResp fun r =>
      [(0, Word.be r.term), (8, [r.success]), (9, Word.be r.matchIndex)] := by
  refine bijection_of_swap RaftAppendEntriesResp.raw RaftAppendEntriesResp.swap_swap (fun r =>
    [Word.be r.term, [r.success], Word.be r.matchIndex])
    (fun r => ?_) fun r => by simp [offsets]
  simp [RaftAppendEntriesResp.raw_put, RaftAppendEntriesResp.swap]

/-- **The six wire formats** are bijections, every word big-endian at its offset. -/
theorem wire_codecs_bijective :
    Bijection 90 serializerPackRpc serializerUnpackRpc (fun h =>
      [(0, Word.be h.magic), (4, Word.be h.version), (6, Word.be h.commandType),
        (8, Word.be h.payloadLen), (16, h.originId.bytes), (53, h.requestId.bytes)]) ∧
    Bijection 49 serializerPackGossip serializerUnpackGossip (fun p =>
      [(0, Word.be p.magic), (4, Word.be p.type), (8, Word.be p.sequence),
        (12, p.nodeId.bytes)]) ∧
    Bijection 61 packRequestVoteReq unpackRequestVoteReq (fun r =>
      [(0, Word.be r.term), (8, r.candidateId.bytes), (45, Word.be r.lastLogIndex),
        (53, Word.be r.lastLogTerm)]) ∧
    Bijection 9 packRequestVoteResp unpackRequestVoteResp (fun r =>
      [(0, Word.be r.term), (8, [r.voteGranted])]) ∧
    Bijection 73 packAppendEntriesReq unpackAppendEntriesReq (fun r =>
      [(0, Word.be r.term), (8, r.leaderId.bytes), (45, Word.be r.prevLogIndex),
        (53, Word.be r.prevLogTerm), (61, Word.be r.leaderCommit), (69, Word.be r.entryCount)]) ∧
    Bijection 17 packAppendEntriesResp unpackAppendEntriesResp (fun r =>
      [(0, Word.be r.term), (8, [r.success]), (9, Word.be r.matchIndex)]) :=
  ⟨serializerRpc_bijection, serializerGossip_bijection, requestVoteReq_bijection,
    requestVoteResp_bijection, appendEntriesReq_bijection, appendEntriesResp_bijection⟩

end DRoole
