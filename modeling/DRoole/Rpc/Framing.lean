import DRoole.Rpc.Stream

/-!
# The blocking client

`rpc_send_message` and `rpc_recv_message` of `src/protocol/rpc_handler.c` move the
header struct between memory and connection as it lies in memory, while the session
at the other end takes it to be in network order. On a little-endian host no header
with the right magic number gets through, in either direction.
-/

namespace DRoole

open Lib

/-! ## The client -/

/-- What `rpc_send_message` puts on a connection that takes it. -/
def rpcSendMessage (header : RpcHeader) (payload : Option Bytes) : Bytes :=
  RpcHeader.raw.put header ++
    match payload with
    | some bs => if header.payloadLen > 0 then bs.take header.payloadLen.toNat else []
    | none => []

/-- What `rpc_recv_message` returns and leaves in `header` and `payload_out`. -/
structure RecvResult where
  code : Int
  header : Option RpcHeader
  payload : Option Bytes
  deriving DecidableEq, Repr

/-- `rpc_recv_message` on a connection that delivers `stream`. -/
def rpcRecvMessage (stream : Bytes) (malloc : Bool) : RecvResult :=
  match readN 90 stream with
  | none => ⟨-1, none, none⟩
  | some (bs, rest) =>
    let header := RpcHeader.raw.get bs
    if header.magic ≠ rpcMagic then ⟨-2, some header, none⟩
    else if header.payloadLen > maxPayloadSize then ⟨-2, some header, none⟩
    else if header.payloadLen > 0 then
      if !malloc then ⟨-1, some header, none⟩
      else match readN header.payloadLen.toNat rest with
        | none => ⟨-1, some header, none⟩
        | some (payload, _) => ⟨0, some header, some payload⟩
    else ⟨0, some header, none⟩

/-! ## A header in the wrong order -/

/-- The magic number reads differently from either end. -/
theorem bswap_rpcMagic_ne : Word.bswap rpcMagic ≠ rpcMagic := by decide

theorem RpcHeader.swap_magic_ne {h : RpcHeader} (hmagic : h.magic = rpcMagic) :
    h.swap.magic ≠ rpcMagic := by
  show Word.bswap h.magic ≠ rpcMagic
  rw [hmagic]
  exact bswap_rpcMagic_ne

theorem rpcRecvMessage_packed {h : RpcHeader} (hmagic : h.magic = rpcMagic) (body : Bytes)
    (malloc : Bool) : (rpcRecvMessage (serializerPackRpc h ++ body) malloc).code = -2 := by
  rw [rpcRecvMessage, readN_append (length_serializerPackRpc h)]
  dsimp only
  rw [raw_get_serializerPackRpc, if_pos (RpcHeader.swap_magic_ne hmagic)]

/-- A session that reads a header in the wrong order, until it is destroyed. -/
structure Refusing (input : Bytes) (c : Conn) : Prop where
  processed : c.processed = []
  reading : c.alive = true → c.session.state = .readingHeader ∧
    c.session.headerBuf ++ c.sock.input = input ∧ c.session.headerBuf.length < 90

theorem handleReadingHeader_refuse {h : RpcHeader} {body : Bytes} (hmagic : h.magic = rpcMagic)
    {c : Conn} (hproc : c.processed = []) (hs : c.session.state = .readingHeader)
    (hin : c.session.headerBuf ++ c.sock.input = RpcHeader.raw.put h ++ body)
    (hlt : c.session.headerBuf.length < 90) (ev : Event) :
    let r := handleReadingHeader ev c
    r.1.processed = [] ∧ (r.2 = -1 ∨ r.2 = 0 ∧ r.1.session.state = .readingHeader ∧
      r.1.session.headerBuf ++ r.1.sock.input = RpcHeader.raw.put h ++ body ∧
      r.1.session.headerBuf.length < 90) := by
  unfold handleReadingHeader
  split
  · exact ⟨hproc, .inl rfl⟩
  rename_i bs sock hsome
  obtain ⟨happ, -, hle⟩ := readIntoBuffer_some hsome
  have hin' : c.session.headerBuf ++ bs ++ sock.input = RpcHeader.raw.put h ++ body := by
    rw [List.append_assoc, ← happ, hin]
  dsimp only
  split
  · exact ⟨hproc, .inr ⟨rfl, hs, hin, hlt⟩⟩
  split
  · rename_i hfull
    have hbuf : c.session.headerBuf ++ bs = RpcHeader.raw.put h := by
      refine eq_of_prefix_append body ⟨sock.input, hin'⟩ ?_
      rw [RpcHeader.raw.length_put]
      exact hfull
    rw [headerComplete]
    have hunpack : serializerUnpackRpc (c.session.headerBuf ++ bs) = h.swap := by
      rw [hbuf, serializerUnpackRpc_raw]
    rw [if_pos]
    · exact ⟨hproc, .inl rfl⟩
    · show (serializerUnpackRpc (c.session.headerBuf ++ bs)).magic ≠ rpcMagic
      rw [hunpack]
      exact RpcHeader.swap_magic_ne hmagic
  · rename_i hpart
    have hpart : ¬ (c.session.headerBuf ++ bs).length = 90 := hpart
    refine ⟨hproc, .inr ⟨rfl, hs, hin', ?_⟩⟩
    show (c.session.headerBuf ++ bs).length < 90
    rw [List.length_append] at hpart ⊢
    omega

theorem Refusing.event {h : RpcHeader} {body : Bytes} (hmagic : h.magic = rpcMagic) {c : Conn}
    (hc : Refusing (RpcHeader.raw.put h ++ body) c) (ev : Event) :
    Refusing (RpcHeader.raw.put h ++ body) (rpcOnClientEvent ev c) := by
  unfold rpcOnClientEvent
  split
  · exact hc
  rename_i halive
  have halive : c.alive = true := by simpa using halive
  obtain ⟨hs, hin, hlt⟩ := hc.reading halive
  split
  · exact ⟨hc.processed, fun hf => by cases hf⟩
  cases hread : ev.read with
  | false =>
    have hturn : turn ev c = ((c, 0), false) := by
      simp only [turn, hs, hread, Bool.false_eq_true, if_false]
    rw [turns_of_stop (by rw [hturn]), hturn, closeOnError_zero rfl]
    exact hc
  | true =>
    have hturn : turn ev c = (handleReadingHeader ev c,
        decide ((handleReadingHeader ev c).1.session.state = .processing)) := by
      simp only [turn, hs, hread, if_true]
    obtain ⟨hproc, hm | ⟨hz, hrest⟩⟩ := handleReadingHeader_refuse hmagic hc.processed hs hin hlt ev
    · have hone : turns 3 ev c = handleReadingHeader ev c := by
        rw [turns, hturn]
        exact if_neg fun hk => by rw [hm] at hk; exact absurd hk.2 (by decide)
      rw [hone, closeOnError_minus hm]
      exact ⟨hproc, fun hf => by cases hf⟩
    · rw [turns_of_stop (by rw [hturn]; simp [hrest.1]), hturn, closeOnError_zero hz]
      exact ⟨hproc, fun _ => hrest⟩

theorem processed_rpcSendMessage {h : RpcHeader} (hmagic : h.magic = rpcMagic)
    (payload : Option Bytes) (cm : ClusterManager) (evs : List Event) :
    ((sessionCreate (rpcSendMessage h payload) cm).events evs).processed = [] := by
  have hstart : Refusing (rpcSendMessage h payload) (sessionCreate (rpcSendMessage h payload) cm) :=
    ⟨rfl, fun _ => ⟨rfl, rfl, Nat.zero_lt_succ 89⟩⟩
  suffices hrun : ∀ c, Refusing (rpcSendMessage h payload) c →
      Refusing (rpcSendMessage h payload) (c.events evs) from (hrun _ hstart).processed
  induction evs with
  | nil => exact fun _ => id
  | cons ev evs ih => exact fun c hc => ih _ (hc.event hmagic ev)

/-! ## Client and server -/

/-- Some events make the session take `stream` as the request `header`, `payload`. -/
def ServerReads (stream : Bytes) (header : RpcHeader) (payload : Bytes) : Prop :=
  ∃ cm evs p, p ∈ ((sessionCreate stream cm).events evs).processed ∧ p.header = header ∧
    p.payload = payload

/-- `rpc_recv_message` takes `stream` as the message `header`, `payload`. -/
def ClientReads (stream : Bytes) (header : RpcHeader) (payload : Bytes) : Prop :=
  ∃ malloc, let r := rpcRecvMessage stream malloc
    r.code = 0 ∧ r.header = some header ∧ r.payload.getD [] = payload

/-- **Client and server never agree**: whatever the header, as long as its magic number is
right, and whatever the payload. -/
theorem rpc_framing_disagrees (header : RpcHeader) (payload : Bytes)
    (hmagic : header.magic = rpcMagic) :
    ¬ ServerReads (rpcSendMessage header (some payload)) header payload ∧
    ¬ ClientReads (serializerPackRpc header ++ payload) header payload := by
  constructor
  · rintro ⟨cm, evs, p, hp, -⟩
    rw [processed_rpcSendMessage hmagic] at hp
    exact absurd hp List.not_mem_nil
  · rintro ⟨malloc, hcode, -⟩
    rw [rpcRecvMessage_packed hmagic] at hcode
    exact absurd hcode (by decide)

theorem rpc_framing_disagrees_join :
    ¬ ServerReads (rpcSendMessage (joinRequestHeader asking)
      (some (JoinRequestPayload.raw.put (joinRequest asking)))) (joinRequestHeader asking)
      (JoinRequestPayload.raw.put (joinRequest asking)) ∧
    ¬ ClientReads (serializerPackRpc (joinRequestHeader asking) ++
      JoinRequestPayload.raw.put (joinRequest asking)) (joinRequestHeader asking)
      (JoinRequestPayload.raw.put (joinRequest asking)) :=
  rpc_framing_disagrees _ _ rfl

/-- A request with an empty payload: the session is destroyed with the last byte of the
header, and the client returns -2 for the same header in network order. -/
theorem rpc_framing_rejects_leave :
    let header : RpcHeader := ⟨rpcMagic, 1, rpcCmdLeave, 0, .zero, .zero⟩
    let c := (sessionCreate (rpcSendMessage header none) asking).events [pieceEvent true false 89]
    c.sock.input = [] ∧ c.alive = false ∧ c.processed.length = 0 ∧
    (rpcRecvMessage (serializerPackRpc header) true).code = -2 := by
  decide +kernel

end DRoole
