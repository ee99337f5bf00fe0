import DRoole.Rpc.Session

/-!
# A session and the stream it reads

However the bytes of a request arrive, the session that reads them takes the same
steps: it has the header once it has 90 bytes, runs `handle_processing` once it has
the whole request and not before, and never reads further. What it answers does not
depend on how the bytes leave.
-/

namespace DRoole

open Lib

/-! ## The loop of the callback -/

theorem turns_of_stop {ev : Event} {c : Conn} (h : (turn ev c).2 = false) (n : Nat) :
    turns (n + 1) ev c = (turn ev c).1 := by
  simp [turns, h]

theorem turn_keep {ev : Event} {c : Conn} (h : (turn ev c).2 = true) :
    (turn ev c).1.1.session.state = .processing ∧ c.session.state ≠ .processing ∨
      (turn ev c).1.1.session.state = .sendingResponse := by
  unfold turn at h ⊢
  split at h <;> rename_i hs <;> simp only [hs] at h ⊢
  · split at h
    · rename_i hr
      rw [if_pos hr]
      exact .inl ⟨by simpa using h, by decide⟩
    · cases h
  · split at h
    · rename_i hr
      rw [if_pos hr]
      exact .inl ⟨by simpa using h, by decide⟩
    · cases h
  · exact .inr (by simpa using h)
  · split at h
    · cases h
    · cases h
  · cases h

theorem turns_of_sending {ev : Event} {c : Conn} (hs : c.session.state = .sendingResponse)
    (n : Nat) : turns (n + 1) ev c = (turn ev c).1 := by
  refine turns_of_stop ?_ n
  unfold turn
  simp only [hs]
  split
  · rfl
  · rfl

theorem turns_of_processing {ev : Event} {c : Conn} (hs : c.session.state = .processing) (n : Nat) :
    turns (n + 2) ev c = turns 2 ev c := by
  unfold turns
  cases hk : (turn ev c).2 with
  | false => simp [hk]
  | true =>
    rcases turn_keep hk with ⟨-, hne⟩ | hsend
    · exact absurd hs hne
    · simp only [hk]
      rw [turns_of_sending hsend n, turns_of_sending hsend 0]

/-- **Three turns** are enough: the loop of `rpc_on_client_event` never makes a fourth. -/
theorem turns_three (ev : Event) (c : Conn) (n : Nat) : turns (n + 3) ev c = turns 3 ev c := by
  show turns (n + 2 + 1) ev c = turns (2 + 1) ev c
  unfold turns
  cases hk : (turn ev c).2 with
  | false => simp [hk]
  | true =>
    simp only [hk]
    rcases turn_keep hk with ⟨hp, -⟩ | hsend
    · rw [turns_of_processing hp n]
    · rw [turns_of_sending hsend (n + 1), turns_of_sending hsend 1]

/-! ## The socket -/

/-- The call fails on nothing: the only outcomes left are data and would-block. -/
def Event.Clean (ev : Event) : Prop :=
  ev.error = false ∧ ev.recv ≠ .closed ∧ ev.send ≠ .error ∧ ev.malloc = true

def Event.delivers (ev : Event) : Bool :=
  ev.read && match ev.recv with
    | .data _ => true
    | _ => false

def Event.takes (ev : Event) : Bool :=
  ev.write && match ev.send with
    | .data _ => true
    | _ => false

/-- The allocations of a JOIN and `loop_mod_fd` succeed. -/
def Event.AllocOk (ev : Event) : Prop :=
  ev.join.realloc = true ∧ ev.join.malloc = true ∧ ev.mallocResponse = true ∧ ev.loopMod = true

/-- What `read_into_buffer` reads comes off the front of the stream, and is no
more than was asked for. -/
theorem readIntoBuffer_some {sock sock' : Socket} {recv : Recv} {remaining : Nat} {bs : Bytes}
    (h : readIntoBuffer sock recv remaining = some (bs, sock')) :
    sock.input = bs ++ sock'.input ∧ sock'.output = sock.output ∧ bs.length ≤ remaining := by
  unfold readIntoBuffer at h
  split at h
  · cases h
    exact ⟨rfl, rfl, Nat.zero_le _⟩
  split at h
  · cases h
    exact ⟨rfl, rfl, Nat.zero_le _⟩
  · cases h
  · cases h
    refine ⟨(List.take_append_drop ..).symm, rfl, ?_⟩
    rw [List.length_take]
    omega

theorem readIntoBuffer_none {sock : Socket} {recv : Recv} {remaining : Nat}
    (h : readIntoBuffer sock recv remaining = none) : recv = .closed := by
  unfold readIntoBuffer at h
  split at h
  · cases h
  split at h
  · cases h
  · rfl
  · cases h

theorem readIntoBuffer_delivers {sock sock' : Socket} {ev : Event} {remaining : Nat} {bs : Bytes}
    (h : readIntoBuffer sock ev.recv remaining = some (bs, sock')) (hr : 0 < remaining)
    (hd : ev.delivers = true) (hin : sock.input ≠ []) : bs ≠ [] := by
  obtain ⟨-, hrecv⟩ := Bool.and_eq_true_iff.1 hd
  split at hrecv
  · rename_i n hn
    unfold readIntoBuffer at h
    rw [hn, if_neg (by omega)] at h
    cases h
    intro hnil
    rcases List.take_eq_nil_iff.1 hnil with h0 | h0
    · omega
    · exact hin h0
  · cases hrecv

/-! ## The phases of a session -/

section

variable (h : RpcHeader) (payload : Bytes)

/-- Nothing has been processed or sent. -/
structure Unanswered (c : Conn) : Prop where
  processed : c.processed = []
  output : c.sock.output = []
  sent : c.session.responseBytesSent = 0

/-- The session answers with `resp`: what it has sent is the start of it, and all
of it once it is done. -/
def Answering (c : Conn) (resp : Bytes) : Prop :=
  c.session.responseBuf = resp ∧ c.sock.output = resp.take c.session.responseBytesSent ∧
    (c.session.state = .sendingResponse ∧ c.session.responseBytesSent < resp.length ∨
      c.session.state = .done ∧ c.session.responseBytesSent = resp.length)

/-- A JOIN request of the right size, processed at `p` with its allocations, is answered
with what `cluster_handle_join_req` returns. -/
def Answer (c : Conn) (p : Processing) : Prop :=
  p.event.AllocOk → h.commandType = rpcCmdJoinReq → payload.length = 89 →
    ∃ body, (clusterHandleJoinReq p.event.cluster (JoinRequestPayload.raw.read payload)
      p.event.join).2 = some body ∧ Answering c (joinResponse h body)

/-- The request has been processed, once and as a whole. -/
structure Settled (c : Conn) (got : Bytes) : Prop where
  got_eq : got = serializerPackRpc h ++ payload
  processed : ∃ p, c.processed = [p] ∧ p.header = h ∧ p.payload = payload ∧
    p.unread = c.sock.input ∧ Answer h payload c p

/-- A JOIN request of the right size, processed with its allocations, is answered in full. -/
def Finished (c : Conn) : Prop :=
  ∀ p ∈ c.processed, p.event.AllocOk → h.commandType = rpcCmdJoinReq → payload.length = 89 →
    c.session.state = .done

/-- A session between two events, with the bytes it has read. -/
inductive Phase (c : Conn) (got : Bytes) : Prop
  | header (hs : c.session.state = .readingHeader) (hbuf : c.session.headerBuf = got)
      (hlt : got.length < 90) (hpay : c.session.payloadBuf = []) (htot : c.session.payloadTotal = 0)
      (hun : Unanswered c)
  | payload (hs : c.session.state = .readingPayload) (hhdr : c.session.header = h)
      (htot : c.session.payloadTotal = payload.length)
      (hgot : got = serializerPackRpc h ++ c.session.payloadBuf)
      (hlt : c.session.payloadBuf.length < payload.length) (hun : Unanswered c)
  | settled (hs : c.session.state = .sendingResponse ∨ c.session.state = .done)
      (hset : Settled h payload c got)

/-- A session about to process its request. -/
structure Ready (c : Conn) (got : Bytes) : Prop where
  state : c.session.state = .processing
  header : c.session.header = h
  payloadBuf : c.session.payloadBuf = payload
  total : c.session.payloadTotal = payload.length
  got_eq : got = serializerPackRpc h ++ payload
  unanswered : Unanswered c

/-- A session destroyed before it had its request. -/
structure Lost (c : Conn) (got : Bytes) : Prop where
  short : got.length < 90 + payload.length
  processed : c.processed = []
  output : c.sock.output = []

/-- What a read handler returns, from `got` at `c`. -/
def ReadResult (ev : Event) (c : Conn) (got : Bytes) (r : Conn × Int) : Prop :=
  r.1.alive = c.alive ∧ ∃ got', got' ++ r.1.sock.input = got ++ c.sock.input ∧
    got.length ≤ got'.length ∧
    (ev.delivers = true → c.sock.input ≠ [] → got.length < got'.length) ∧
    ((r.2 = 0 ∧ (Phase h payload r.1 got' ∨ Ready h payload r.1 got')) ∨
      (r.2 = -1 ∧ ¬ ev.Clean ∧ Lost payload r.1 got'))

end

section

variable {h : RpcHeader} {payload rest : Bytes} {ev : Event} {c : Conn} {got : Bytes}

theorem toNat_maxPayloadSize : maxPayloadSize.toNat = 10485760 := by decide

theorem headerComplete_result (ev : Event) (hmagic : h.magic = rpcMagic)
    (hlen : h.payloadLen.toNat = payload.length) (hmax : payload.length ≤ 10485760)
    (hbuf : c.session.headerBuf = serializerPackRpc h) (hpay : c.session.payloadBuf = [])
    (htot : c.session.payloadTotal = 0) (hun : Unanswered c) :
    ((headerComplete ev c).2 = 0 ∧ (Phase h payload (headerComplete ev c).1 (serializerPackRpc h) ∨
        Ready h payload (headerComplete ev c).1 (serializerPackRpc h)) ∨
      ((headerComplete ev c).2 = -1 ∧ ¬ ev.Clean ∧
        Lost payload (headerComplete ev c).1 (serializerPackRpc h))) ∧
    (headerComplete ev c).1.sock = c.sock ∧ (headerComplete ev c).1.alive = c.alive := by
  have hle : ¬ h.payloadLen > maxPayloadSize := by
    rw [gt_iff_lt, UInt64.lt_iff_toNat_lt, hlen, toNat_maxPayloadSize]
    omega
  rw [headerComplete, hbuf, serializerRpc_bijection.unpack_pack, if_neg (not_not.2 hmagic),
    if_neg hle]
  split
  · rename_i hpos
    have hpos : 0 < payload.length := by
      rw [← hlen]
      exact UInt64.lt_iff_toNat_lt.1 hpos
    split
    · rename_i hm
      refine ⟨.inr ⟨rfl, fun hc => by simp [hc.2.2.2] at hm, ?_, hun.processed, hun.output⟩, rfl, rfl⟩
      rw [length_serializerPackRpc]
      omega
    · refine ⟨.inl ⟨rfl, .inl (.payload rfl rfl hlen ?_ ?_ ⟨hun.processed, hun.output, hun.sent⟩)⟩, rfl, rfl⟩
      · show _ = _ ++ c.session.payloadBuf
        rw [hpay, List.append_nil]
      · show c.session.payloadBuf.length < _
        rw [hpay]
        exact hpos
  · rename_i hpos
    have hnil : payload = [] := by
      rw [← List.length_eq_zero_iff, ← hlen]
      rw [gt_iff_lt, UInt64.lt_iff_toNat_lt] at hpos
      have hzero : (0 : UInt64).toNat = 0 := rfl
      omega
    refine ⟨.inl ⟨rfl, .inr ⟨rfl, rfl, hpay.trans hnil.symm, ?_, ?_,
      ⟨hun.processed, hun.output, hun.sent⟩⟩⟩, rfl, rfl⟩
    · show c.session.payloadTotal = _
      rw [htot, hnil]
      rfl
    · rw [hnil, List.append_nil]

theorem readResult_closed (h : RpcHeader) (hclosed : ev.recv = .closed)
    (hlt : got.length < 90 + payload.length) (hun : Unanswered c) :
    ReadResult h payload ev c got (c, -1) := by
  refine ⟨rfl, got, rfl, le_rfl, fun hd => ?_, .inr ⟨rfl, fun hc => hc.2.1 hclosed, ?_⟩⟩
  · simp [Event.delivers, hclosed] at hd
  · exact ⟨hlt, hun.processed, hun.output⟩

theorem handleReadingHeader_result (hmagic : h.magic = rpcMagic)
    (hlen : h.payloadLen.toNat = payload.length) (hmax : payload.length ≤ 10485760)
    (hin : got ++ c.sock.input <+: serializerPackRpc h ++ payload ++ rest)
    (hs : c.session.state = .readingHeader) (hbuf : c.session.headerBuf = got)
    (hlt : got.length < 90) (hpay : c.session.payloadBuf = [])
    (htot : c.session.payloadTotal = 0) (hun : Unanswered c) :
    ReadResult h payload ev c got (handleReadingHeader ev c) := by
  unfold handleReadingHeader
  split
  · rename_i hnone
    exact readResult_closed h (readIntoBuffer_none hnone) (by omega) hun
  rename_i bs sock hsome
  obtain ⟨happ, hout, hle⟩ := readIntoBuffer_some hsome
  have hdata := readIntoBuffer_delivers hsome (by rw [hbuf]; omega)
  split
  · rename_i hnil
    exact ⟨rfl, got, rfl, le_rfl, fun hd hne => absurd hnil (hdata hd hne),
      .inl ⟨rfl, .inl (.header hs hbuf hlt hpay htot hun)⟩⟩
  rename_i hne
  have hgrow : got.length < (got ++ bs).length := by
    rw [List.length_append]
    exact Nat.lt_add_of_pos_right (List.length_pos_iff.2 hne)
  have happ' : got ++ bs ++ sock.input = got ++ c.sock.input := by rw [List.append_assoc, happ]
  have hun' : Unanswered ({ c with sock := sock }.modify fun s =>
      { s with headerBuf := s.headerBuf ++ bs }) :=
    ⟨hun.processed, hout.trans hun.output, hun.sent⟩
  dsimp only
  split
  · rename_i hfull
    have hpack : got ++ bs = serializerPackRpc h := by
      rw [List.append_assoc] at hin
      refine eq_of_prefix_append _ (List.IsPrefix.trans ⟨sock.input, happ'⟩ hin) ?_
      rw [length_serializerPackRpc, ← hbuf]
      exact hfull
    obtain ⟨hres, hsock, halive⟩ := headerComplete_result ev (c := { c with sock := sock }.modify
      fun s => { s with headerBuf := s.headerBuf ++ bs }) hmagic hlen hmax
      (by rw [← hpack, ← hbuf]; rfl) hpay htot hun'
    refine ⟨halive, serializerPackRpc h, ?_, hpack ▸ hgrow.le, fun _ _ => hpack ▸ hgrow, hres⟩
    rw [hsock, ← hpack]
    exact happ'
  · rename_i hpart
    refine ⟨rfl, got ++ bs, happ', hgrow.le, fun _ _ => hgrow, .inl ⟨rfl, .inl (.header hs ?_ ?_ hpay htot hun')⟩⟩
    · show c.session.headerBuf ++ bs = _
      rw [hbuf]
    · have hpart : ¬ (c.session.headerBuf ++ bs).length = 90 := hpart
      rw [hbuf] at hpart hle
      rw [List.length_append] at hpart ⊢
      omega

theorem handleReadingPayload_result
    (hin : got ++ c.sock.input <+: serializerPackRpc h ++ payload ++ rest)
    (hs : c.session.state = .readingPayload) (hhdr : c.session.header = h)
    (htot : c.session.payloadTotal = payload.length)
    (hgot : got = serializerPackRpc h ++ c.session.payloadBuf)
    (hlt : c.session.payloadBuf.length < payload.length) (hun : Unanswered c) :
    ReadResult h payload ev c got (handleReadingPayload ev c) := by
  have hgotlen : got.length = 90 + c.session.payloadBuf.length := by
    rw [hgot, List.length_append, length_serializerPackRpc]
  unfold handleReadingPayload
  split
  · rename_i hnone
    exact readResult_closed h (readIntoBuffer_none hnone) (by omega) hun
  rename_i bs sock hsome
  obtain ⟨happ, hout, hle⟩ := readIntoBuffer_some hsome
  have hdata := readIntoBuffer_delivers hsome (by omega)
  split
  · rename_i hnil
    exact ⟨rfl, got, rfl, le_rfl, fun hd hne => absurd hnil (hdata hd hne),
      .inl ⟨rfl, .inl (.payload hs hhdr htot hgot hlt hun)⟩⟩
  rename_i hne
  have hgrow : got.length < (got ++ bs).length := by
    rw [List.length_append]
    exact Nat.lt_add_of_pos_right (List.length_pos_iff.2 hne)
  have happ' : got ++ bs ++ sock.input = got ++ c.sock.input := by rw [List.append_assoc, happ]
  have hgot' : got ++ bs = serializerPackRpc h ++ (c.session.payloadBuf ++ bs) := by
    rw [hgot, List.append_assoc]
  have hun' : ∀ st, Unanswered ({ c with sock := sock }.modify fun s =>
      { s with payloadBuf := s.payloadBuf ++ bs, state := st }) :=
    fun _ => ⟨hun.processed, hout.trans hun.output, hun.sent⟩
  dsimp only
  split
  · rename_i hfull
    have hfull : (c.session.payloadBuf ++ bs).length = c.session.payloadTotal := hfull
    have hpay : c.session.payloadBuf ++ bs = payload := by
      have hpre := List.IsPrefix.trans ⟨sock.input, happ'⟩ hin
      rw [hgot', List.append_assoc, List.prefix_append_right_inj] at hpre
      exact eq_of_prefix_append _ hpre (hfull.trans htot)
    exact ⟨rfl, got ++ bs, happ', hgrow.le, fun _ _ => hgrow,
      .inl ⟨rfl, .inr ⟨rfl, hhdr, hpay, htot, by rw [hgot', hpay], hun' _⟩⟩⟩
  · rename_i hpart
    have hpart : ¬ (c.session.payloadBuf ++ bs).length = c.session.payloadTotal := hpart
    refine ⟨rfl, got ++ bs, happ', hgrow.le, fun _ _ => hgrow,
      .inl ⟨rfl, .inl (.payload hs hhdr htot hgot' ?_ (hun' _))⟩⟩
    show (c.session.payloadBuf ++ bs).length < _
    rw [List.length_append] at hpart ⊢
    omega

/-! ## Processing and answering -/

/-- What the handlers after the request do: they read nothing more. -/
structure Handled (c : Conn) (r : Conn × Int) : Prop where
  alive : r.1.alive = c.alive
  input : r.1.sock.input = c.sock.input
  processed : r.1.processed = c.processed
  code : r.2 = -1 ∨ r.2 = 0 ∧
    (r.1.session.state = .sendingResponse ∨ r.1.session.state = .done)

theorem processJoin_handled (ev : Event) (c : Conn) : Handled c (processJoin ev c) := by
  unfold processJoin
  dsimp only
  split
  · exact ⟨rfl, rfl, rfl, .inl rfl⟩
  split
  · exact ⟨rfl, rfl, rfl, .inl rfl⟩
  split
  · exact ⟨rfl, rfl, rfl, .inl rfl⟩
  split
  · exact ⟨rfl, rfl, rfl, .inl rfl⟩
  · exact ⟨rfl, rfl, rfl, .inr ⟨rfl, .inl rfl⟩⟩

theorem handleProcessing_handled (ev : Event) (c : Conn) :
    Handled { c with processed := c.processed ++
      [⟨c.session.header, c.session.payloadBuf, ev, c.sock.input⟩] } (handleProcessing ev c) := by
  unfold handleProcessing
  dsimp only
  split
  · exact processJoin_handled ev _
  split
  · exact ⟨rfl, rfl, rfl, .inr ⟨rfl, .inr rfl⟩⟩
  split
  · split
    · exact ⟨rfl, rfl, rfl, .inl rfl⟩
    · exact ⟨rfl, rfl, rfl, .inr ⟨rfl, .inr rfl⟩⟩
  · exact ⟨rfl, rfl, rfl, .inl rfl⟩

theorem handleProcessing_join (hr : Ready h payload c got) (hok : ev.AllocOk)
    (hcmd : h.commandType = rpcCmdJoinReq) (h89 : payload.length = 89) :
    (handleProcessing ev c).2 = 0 ∧
    ∃ body, (clusterHandleJoinReq ev.cluster (JoinRequestPayload.raw.read payload) ev.join).2 =
      some body ∧ Answering (handleProcessing ev c).1 (joinResponse h body) := by
  obtain ⟨hrealloc, hmalloc, hresp, hmod⟩ := hok
  obtain ⟨cm, -, hjoin⟩ := clusterHandleJoinReq_some ev.cluster
    (JoinRequestPayload.raw.read payload) hrealloc hmalloc
  generalize buildResponse cm ev.join.padding = body at hjoin
  have hproc : handleProcessing ev c = ({ c with
      processed := c.processed ++ [⟨c.session.header, c.session.payloadBuf, ev, c.sock.input⟩]
      cluster := cm
      session := { c.session with
        responseBuf := joinResponse h body
        state := .sendingResponse } }, 0) := by
    rw [handleProcessing, if_pos (by rw [← hcmd, ← hr.header]), processJoin]
    rw [if_neg (not_not.2 (hr.total.trans h89))]
    dsimp only
    rw [hr.payloadBuf, hjoin]
    dsimp only
    rw [hresp, hmod, if_neg (by decide), if_neg (by decide)]
    simp only [Conn.modify, hr.header, hr.payloadBuf]
  rw [hproc]
  refine ⟨rfl, body, by rw [hjoin], rfl, ?_, .inl ⟨rfl, ?_⟩⟩
  · show c.sock.output = List.take c.session.responseBytesSent _
    rw [hr.unanswered.output, hr.unanswered.sent]
    rfl
  · show c.session.responseBytesSent < _
    rw [hr.unanswered.sent, joinResponse, List.length_append, length_serializerPackRpc]
    omega

theorem writeFromBuffer_input {sock sock' : Socket} {send : Send} {left : Bytes} {n : Nat}
    (hw : writeFromBuffer sock send left = some (n, sock')) : sock'.input = sock.input := by
  unfold writeFromBuffer at hw
  split at hw
  · cases hw; rfl
  split at hw
  · cases hw; rfl
  · cases hw
  · cases hw; rfl

theorem handleSendingResponse_handled {ev : Event} {c : Conn}
    (hs : c.session.state = .sendingResponse) : Handled c (handleSendingResponse ev c) := by
  unfold handleSendingResponse
  split
  · exact ⟨rfl, rfl, rfl, .inl rfl⟩
  rename_i hw
  dsimp only
  split
  · exact ⟨rfl, rfl, rfl, .inr ⟨rfl, .inl hs⟩⟩
  split
  · exact ⟨rfl, writeFromBuffer_input hw, rfl, .inr ⟨rfl, .inr rfl⟩⟩
  · exact ⟨rfl, writeFromBuffer_input hw, rfl, .inr ⟨rfl, .inl hs⟩⟩

theorem turn_handled (ev : Event) (hs : c.session.state = .sendingResponse ∨ c.session.state = .done) :
    Handled c (turn ev c).1 ∧ (turn ev c).2 = false := by
  unfold turn
  rcases hs with hs | hs <;> simp only [hs]
  · split
    · exact ⟨handleSendingResponse_handled hs, rfl⟩
    · exact ⟨⟨rfl, rfl, rfl, .inr ⟨rfl, .inl hs⟩⟩, rfl⟩
  · exact ⟨⟨rfl, rfl, rfl, .inl rfl⟩, trivial⟩

theorem handleSendingResponse_answering (ev : Event) {resp : Bytes} (hs : c.session.state = .sendingResponse)
    (ha : Answering c resp) :
    Answering (handleSendingResponse ev c).1 resp ∧
    ((handleSendingResponse ev c).2 = -1 → ev.send = .error) ∧
    c.session.responseBytesSent ≤ (handleSendingResponse ev c).1.session.responseBytesSent ∧
    (∀ n, ev.send = .data n → c.session.responseBytesSent <
      (handleSendingResponse ev c).1.session.responseBytesSent) := by
  obtain ⟨hbuf, hout, hstate⟩ := ha
  have hlt : c.session.responseBytesSent < resp.length := by
    rcases hstate with ⟨-, hlt⟩ | ⟨hd, -⟩
    · exact hlt
    · rw [hs] at hd
      cases hd
  have hz : (0 : Int) ≠ -1 := by decide
  have hleft : resp.drop c.session.responseBytesSent ≠ [] := by
    rw [Ne, List.drop_eq_nil_iff]
    omega
  unfold handleSendingResponse writeFromBuffer
  rw [hbuf, if_neg hleft]
  cases hsend : ev.send with
  | wouldBlock => exact ⟨⟨hbuf, hout, hstate⟩, fun hc => absurd hc hz, le_rfl, by rintro _ ⟨⟩⟩
  | error => exact ⟨⟨hbuf, hout, hstate⟩, fun _ => rfl, le_rfl, by rintro _ ⟨⟩⟩
  | data n =>
    dsimp only
    generalize hk : (resp.drop c.session.responseBytesSent).take (n + 1) = part
    have hpos : 0 < part.length := by
      rw [← hk, List.length_take, List.length_drop]
      omega
    have hle : part.length ≤ resp.length - c.session.responseBytesSent := by
      rw [← hk, List.length_take, List.length_drop]
      omega
    have hout' : c.sock.output ++ part = resp.take (c.session.responseBytesSent + part.length) := by
      have hpart : (resp.drop c.session.responseBytesSent).take part.length = part := by
        rw [← hk]
        exact (List.prefix_iff_eq_take.1 (List.take_prefix ..)).symm
      rw [List.take_add, hpart, hout]
    rw [if_neg (by omega)]
    split
    · rename_i hdone
      have hdone : c.session.responseBytesSent + part.length = c.session.responseBuf.length := hdone
      exact ⟨⟨hbuf, hout', .inr ⟨rfl, hbuf ▸ hdone⟩⟩, fun hc => absurd hc hz,
        Nat.le_add_right .., fun _ _ => Nat.lt_add_of_pos_right hpos⟩
    · rename_i hmore
      have hmore : ¬ c.session.responseBytesSent + part.length = c.session.responseBuf.length := hmore
      rw [hbuf] at hmore
      refine ⟨⟨hbuf, hout', .inl ⟨hs, ?_⟩⟩, fun hc => absurd hc hz,
        Nat.le_add_right .., fun _ _ => Nat.lt_add_of_pos_right hpos⟩
      show c.session.responseBytesSent + part.length < _
      omega

theorem turn_answering (ev : Event) {resp : Bytes} (ha : Answering c resp) :
    Answering (turn ev c).1.1 resp ∧
    ((turn ev c).1.2 = -1 → ev.Clean → (turn ev c).1.1.session.state = .done) ∧
    c.session.responseBytesSent ≤ (turn ev c).1.1.session.responseBytesSent ∧
    (ev.takes = true → c.session.responseBytesSent < resp.length →
      c.session.responseBytesSent < (turn ev c).1.1.session.responseBytesSent) := by
  have hz : (0 : Int) ≠ -1 := by decide
  have ha' := ha
  obtain ⟨-, -, ⟨hs, -⟩ | ⟨hs, hall⟩⟩ := ha
  · cases hw : ev.write with
    | true =>
      have hturn : turn ev c = (handleSendingResponse ev c, false) := by
        simp only [turn, hs, hw, if_true]
      obtain ⟨hans, herr, hmono, hgrow⟩ := handleSendingResponse_answering ev hs ha'
      rw [hturn]
      refine ⟨hans, fun hm hc => absurd (herr hm) hc.2.2.1, hmono, fun ht _ => ?_⟩
      obtain ⟨-, hsend⟩ := Bool.and_eq_true_iff.1 ht
      split at hsend
      · rename_i n hn
        exact hgrow n hn
      · cases hsend
    | false =>
      have hturn : turn ev c = ((c, 0), false) := by
        simp only [turn, hs, hw, Bool.false_eq_true, if_false]
      rw [hturn]
      exact ⟨ha', fun hm => absurd hm hz, le_rfl, fun ht => by simp [Event.takes, hw] at ht⟩
  · have hturn : turn ev c = ((c, -1), false) := by simp only [turn, hs]
    rw [hturn]
    exact ⟨ha', fun _ _ => hs, le_rfl, fun _ hlt => absurd hlt (by omega)⟩

theorem Settled.of_turn (ev : Event) (hs : c.session.state = .sendingResponse ∨ c.session.state = .done)
    (hset : Settled h payload c got) : Settled h payload (turn ev c).1.1 got := by
  obtain ⟨p, hp, hhdr, hpay, hun, hans⟩ := hset.processed
  obtain ⟨hh, -⟩ := turn_handled ev hs
  refine ⟨hset.got_eq, p, hh.processed.trans hp, hhdr, hpay, hun.trans hh.input.symm, ?_⟩
  intro hok hcmd h89
  obtain ⟨body, hbody, ha⟩ := hans hok hcmd h89
  exact ⟨body, hbody, (turn_answering ev ha).1⟩

theorem Settled.finished_of_turn (hs : c.session.state = .sendingResponse ∨ c.session.state = .done)
    (hset : Settled h payload c got) (hm : (turn ev c).1.2 = -1) (hc : ev.Clean) :
    Finished h payload (turn ev c).1.1 := by
  obtain ⟨p, hp, -, -, -, hans⟩ := hset.processed
  intro q hq hok hcmd h89
  rw [(turn_handled ev hs).1.processed, hp] at hq
  cases List.mem_singleton.1 hq
  obtain ⟨body, -, ha⟩ := hans hok hcmd h89
  exact (turn_answering ev ha).2.1 hm hc

theorem turns_ready (ev : Event) (hr : Ready h payload c got) :
    Settled h payload (turns 2 ev c).1 got ∧ (turns 2 ev c).1.alive = c.alive ∧
      (turns 2 ev c).1.sock.input = c.sock.input ∧
      ((turns 2 ev c).2 = -1 ∧ (ev.Clean → Finished h payload (turns 2 ev c).1) ∨
        (turns 2 ev c).2 = 0 ∧
        ((turns 2 ev c).1.session.state = .sendingResponse ∨
          (turns 2 ev c).1.session.state = .done)) := by
  have hh := handleProcessing_handled ev c
  have hturn : (turn ev c).1 = handleProcessing ev c := by
    unfold turn
    simp only [hr.state]
  have hset : Settled h payload (handleProcessing ev c).1 got := by
    refine ⟨hr.got_eq, ⟨c.session.header, c.session.payloadBuf, ev, c.sock.input⟩, ?_, hr.header,
      hr.payloadBuf, hh.input.symm, fun hok hcmd h89 => (handleProcessing_join hr hok hcmd h89).2⟩
    rw [hh.processed, hr.unanswered.processed]
    rfl
  rw [turns]
  dsimp only
  rw [hturn]
  split
  · rename_i hk
    have hsend : (handleProcessing ev c).1.session.state = .sendingResponse := by
      rcases turn_keep hk.1 with ⟨-, hne⟩ | hsend
      · exact absurd hr.state hne
      · rwa [hturn] at hsend
    have hh' := turn_handled ev (.inl hsend)
    rw [turns_of_sending hsend 0]
    exact ⟨hset.of_turn ev (.inl hsend), hh'.1.alive.trans hh.alive, hh'.1.input.trans hh.input,
      hh'.1.code.imp_left fun hm => ⟨hm, hset.finished_of_turn (.inl hsend) hm⟩⟩
  · refine ⟨hset, hh.alive, hh.input, hh.code.imp_left fun hm => ⟨hm, fun _ q hq hok hcmd h89 => ?_⟩⟩
    rw [hh.processed, hr.unanswered.processed] at hq
    cases List.mem_singleton.1 hq
    rw [(handleProcessing_join hr hok hcmd h89).1] at hm
    cases hm

/-! ## One event -/

/-- What an event on a live session leaves, from `got` at `c`. -/
def EventResult (h : RpcHeader) (payload : Bytes) (ev : Event) (c : Conn) (got : Bytes)
    (c' : Conn) : Prop :=
  ∃ got', got' ++ c'.sock.input = got ++ c.sock.input ∧ got.length ≤ got'.length ∧
    (ev.Clean → ev.delivers = true → c.sock.input ≠ [] → got.length < 90 + payload.length →
      got.length < got'.length) ∧
    ((c'.alive = true ∧ Phase h payload c' got') ∨
      (c'.alive = false ∧ ((¬ ev.Clean ∧ Lost payload c' got') ∨
        (Settled h payload c' got' ∧ (ev.Clean → Finished h payload c')))))

theorem closeOnError_zero {r : Conn × Int} (hr : r.2 = 0) : closeOnError r = r.1 :=
  if_neg (by rw [hr]; decide)

theorem closeOnError_minus {r : Conn × Int} (hr : r.2 = -1) :
    closeOnError r = { r.1 with alive := false } := if_pos (by rw [hr]; decide)

theorem eventResult_of_read {r : Conn × Int} (halive : c.alive = true)
    (hturn : turn ev c = (r, decide (r.1.session.state = .processing)))
    (hres : ReadResult h payload ev c got r) :
    EventResult h payload ev c got (closeOnError (turns 3 ev c)) := by
  obtain ⟨hal, got', happ, hmono, hprog, ⟨hzero, hph | hready⟩ | ⟨hminus, hdirty, hlost⟩⟩ := hres
  · have hkeep : (turn ev c).2 = false := by
      rw [hturn]
      cases hph with
      | header hs => simp [hs]
      | payload hs => simp [hs]
      | settled hs => rcases hs with hs | hs <;> simp [hs]
    rw [turns_of_stop hkeep, hturn, closeOnError_zero hzero]
    exact ⟨got', happ, hmono, fun _ hd hne _ => hprog hd hne, .inl ⟨hal.trans halive, hph⟩⟩
  · have htwo : turns 3 ev c = turns 2 ev r.1 := by
      rw [turns, hturn]
      exact if_pos ⟨by simp [hready.state], hzero⟩
    obtain ⟨hset, hal', hin, hcode⟩ := turns_ready ev hready
    rw [htwo]
    have happ' : got' ++ (turns 2 ev r.1).1.sock.input = got ++ c.sock.input := by rw [hin, happ]
    rcases hcode with ⟨hcode, hfin⟩ | ⟨hcode, hs⟩
    · rw [closeOnError_minus hcode]
      exact ⟨got', happ', hmono, fun _ hd hne _ => hprog hd hne,
        .inr ⟨rfl, .inr ⟨⟨hset.got_eq, hset.processed⟩, hfin⟩⟩⟩
    · rw [closeOnError_zero hcode]
      exact ⟨got', happ', hmono, fun _ hd hne _ => hprog hd hne,
        .inl ⟨hal'.trans (hal.trans halive), .settled hs hset⟩⟩
  · have hone : turns 3 ev c = r := by
      rw [turns, hturn]
      exact if_neg fun hk => by rw [hminus] at hk; exact absurd hk.2 (by decide)
    rw [hone, closeOnError_minus hminus]
    exact ⟨got', happ, hmono, fun hc => absurd hc hdirty,
      .inr ⟨rfl, .inl ⟨hdirty, hlost.short, hlost.processed, hlost.output⟩⟩⟩

theorem eventResult_idle (halive : c.alive = true) (hph : Phase h payload c got)
    (hread : ev.read = false) (hturn : turn ev c = ((c, 0), false)) :
    EventResult h payload ev c got (closeOnError (turns 3 ev c)) := by
  have hkeep : (turn ev c).2 = false := by rw [hturn]
  rw [turns_of_stop hkeep, hturn, closeOnError_zero rfl]
  exact ⟨got, rfl, le_rfl, fun _ hd => by simp [Event.delivers, hread] at hd, .inl ⟨halive, hph⟩⟩

theorem Phase.lost_or_settled (hph : Phase h payload c got) :
    Lost payload c got ∨ Settled h payload c got := by
  cases hph with
  | header _ _ hlt _ _ hun => exact .inl ⟨by omega, hun.processed, hun.output⟩
  | payload _ _ _ hgot hlt hun =>
    refine .inl ⟨?_, hun.processed, hun.output⟩
    rw [hgot, List.length_append, length_serializerPackRpc]
    omega
  | settled _ hset => exact .inr hset

theorem turns_result (hmagic : h.magic = rpcMagic) (hlen : h.payloadLen.toNat = payload.length)
    (hmax : payload.length ≤ 10485760)
    (hin : got ++ c.sock.input <+: serializerPackRpc h ++ payload ++ rest)
    (halive : c.alive = true) (hph : Phase h payload c got) :
    EventResult h payload ev c got (closeOnError (turns 3 ev c)) := by
  have hph' := hph
  cases hph with
  | header hs hbuf hlt hpay htot hun =>
    cases hread : ev.read with
    | true =>
      refine eventResult_of_read halive ?_
        (handleReadingHeader_result hmagic hlen hmax hin hs hbuf hlt hpay htot hun)
      simp only [turn, hs, hread, if_true]
    | false =>
      refine eventResult_idle halive hph' hread ?_
      simp only [turn, hs, hread, Bool.false_eq_true, if_false]
  | payload hs hhdr htot hgot hlt hun =>
    cases hread : ev.read with
    | true =>
      refine eventResult_of_read halive ?_
        (handleReadingPayload_result hin hs hhdr htot hgot hlt hun)
      simp only [turn, hs, hread, if_true]
    | false =>
      refine eventResult_idle halive hph' hread ?_
      simp only [turn, hs, hread, Bool.false_eq_true, if_false]
  | settled hs hset =>
    obtain ⟨hh, hkeep⟩ := turn_handled ev hs
    have hfull : got.length = 90 + payload.length := by
      rw [hset.got_eq, List.length_append, length_serializerPackRpc]
    have hset' := hset.of_turn ev hs
    rw [turns_of_stop hkeep]
    rcases hh.code with hcode | ⟨hcode, hs'⟩
    · rw [closeOnError_minus hcode]
      exact ⟨got, by rw [← hh.input], le_rfl, fun _ _ _ hlt => absurd hlt (by omega),
        .inr ⟨rfl, .inr ⟨⟨hset'.got_eq, hset'.processed⟩, hset.finished_of_turn hs hcode⟩⟩⟩
    · rw [closeOnError_zero hcode]
      exact ⟨got, by rw [hh.input], le_rfl, fun _ _ _ hlt => absurd hlt (by omega),
        .inl ⟨hh.alive.trans halive, .settled hs' hset'⟩⟩

/-- **One event** on a live session that reads `h` and `payload`. -/
theorem rpcOnClientEvent_result (ev : Event) (hmagic : h.magic = rpcMagic)
    (hlen : h.payloadLen.toNat = payload.length) (hmax : payload.length ≤ 10485760)
    (hin : got ++ c.sock.input <+: serializerPackRpc h ++ payload ++ rest)
    (halive : c.alive = true) (hph : Phase h payload c got) :
    EventResult h payload ev c got (rpcOnClientEvent ev c) := by
  unfold rpcOnClientEvent
  rw [if_neg (by simp [halive])]
  split
  · rename_i herr
    have hdirty : ¬ ev.Clean := fun hc => by rw [hc.1] at herr; cases herr
    refine ⟨got, rfl, le_rfl, fun hc => absurd hc hdirty, .inr ⟨rfl, ?_⟩⟩
    exact hph.lost_or_settled.imp (fun hl => ⟨hdirty, hl.short, hl.processed, hl.output⟩)
      fun hset => ⟨⟨hset.got_eq, hset.processed⟩, fun hc => absurd hc hdirty⟩
  · exact turns_result hmagic hlen hmax hin halive hph

/-! ## Every event sequence -/

/-- Where a connection that receives `input` stands; if every event so far is
clean, it has not lost its request or its response. -/
def Standing (h : RpcHeader) (payload input : Bytes) (clean : Prop) (c : Conn) (got : Bytes) :
    Prop :=
  got ++ c.sock.input = input ∧
    ((c.alive = true ∧ Phase h payload c got) ∨
      (c.alive = false ∧ ((¬ clean ∧ Lost payload c got) ∨
        (Settled h payload c got ∧ (clean → Finished h payload c)))))

variable {input : Bytes} {clean : Prop}

theorem Standing.mono {clean' : Prop} (hst : Standing h payload input clean c got)
    (himp : clean' → clean) : Standing h payload input clean' c got :=
  ⟨hst.1, hst.2.imp_right fun ⟨ha, hl⟩ => ⟨ha, hl.imp (fun ⟨hn, hl⟩ => ⟨mt himp hn, hl⟩)
    fun ⟨hset, hfin⟩ => ⟨hset, fun hc => hfin (himp hc)⟩⟩⟩

theorem Standing.event (hmagic : h.magic = rpcMagic) (hlen : h.payloadLen.toNat = payload.length)
    (hmax : payload.length ≤ 10485760) (hin : input <+: serializerPackRpc h ++ payload ++ rest)
    (hst : Standing h payload input clean c got) (ev : Event) :
    ∃ got', Standing h payload input (clean ∧ ev.Clean) (rpcOnClientEvent ev c) got' ∧
      got.length ≤ got'.length ∧
      (clean → ev.Clean → ev.delivers = true → 90 + payload.length ≤ input.length →
        got.length < 90 + payload.length → got.length < got'.length) := by
  obtain ⟨happ, ⟨ha, hph⟩ | ⟨ha, hend⟩⟩ := hst
  · obtain ⟨got', happ', hmono, hprog, hend⟩ := rpcOnClientEvent_result ev hmagic hlen hmax
      (happ ▸ hin) ha hph
    refine ⟨got', ⟨happ'.trans happ, hend.imp_right fun ⟨ha, hl⟩ => ⟨ha, hl.imp
      (fun ⟨hn, hl⟩ => ⟨fun hc => hn hc.2, hl⟩) fun ⟨hset, hfin⟩ => ⟨hset, fun hc => hfin hc.2⟩⟩⟩,
      hmono, fun _ hc hd hfull hlt => hprog hc hd ?_ hlt⟩
    intro hnil
    rw [hnil, List.append_nil] at happ
    rw [happ] at hlt
    omega
  · have hsame : rpcOnClientEvent ev c = c := by
      unfold rpcOnClientEvent
      rw [if_pos (by simp [ha])]
    rw [hsame]
    refine ⟨got, Standing.mono ⟨happ, .inr ⟨ha, hend⟩⟩ And.left, le_rfl, fun hc _ _ _ hlt => ?_⟩
    rcases hend with ⟨hn, -⟩ | ⟨hset, -⟩
    · exact absurd hc hn
    · rw [hset.got_eq, List.length_append, length_serializerPackRpc] at hlt
      omega

/-- **Every sequence of events.** -/
theorem Standing.events (hmagic : h.magic = rpcMagic) (hlen : h.payloadLen.toNat = payload.length)
    (hmax : payload.length ≤ 10485760) (hin : input <+: serializerPackRpc h ++ payload ++ rest)
    (evs : List Event) (hst : Standing h payload input clean c got) :
    ∃ got', Standing h payload input (clean ∧ ∀ e ∈ evs, e.Clean) (c.events evs) got' ∧
      got.length ≤ got'.length ∧
      (clean → (∀ e ∈ evs, e.Clean) → 90 + payload.length ≤ input.length →
        min (90 + payload.length) (got.length + evs.countP Event.delivers) ≤ got'.length) := by
  induction evs generalizing c got clean with
  | nil => exact ⟨got, hst.mono And.left, le_rfl, fun _ _ _ => by simp⟩
  | cons ev evs ih =>
    obtain ⟨got₁, hst₁, hmono₁, hprog₁⟩ := hst.event hmagic hlen hmax hin ev
    obtain ⟨got₂, hst₂, hmono₂, hprog₂⟩ := ih hst₁
    refine ⟨got₂, hst₂.mono fun ⟨hc, hall⟩ => ⟨⟨hc, hall ev List.mem_cons_self⟩,
      fun e he => hall e (List.mem_cons_of_mem ev he)⟩, hmono₁.trans hmono₂, ?_⟩
    intro hc hall hfull
    have hev := hall ev List.mem_cons_self
    have hcount := hprog₂ ⟨hc, hev⟩ (fun e he => hall e (List.mem_cons_of_mem ev he)) hfull
    by_cases hlt : got.length < 90 + payload.length
    · by_cases hd : ev.delivers = true
      · have hstep := hprog₁ hc hev hd hfull hlt
        rw [List.countP_cons_of_pos hd]
        omega
      · rw [List.countP_cons_of_neg hd]
        omega
    · omega

theorem standing_sessionCreate (clean : Prop) (cm : ClusterManager) :
    Standing h payload input clean (sessionCreate input cm) [] :=
  ⟨rfl, .inl ⟨rfl, .header rfl rfl (by decide) rfl rfl ⟨rfl, rfl, rfl⟩⟩⟩

/-! ## Sending the response -/

theorem Answering.output_eq {resp : Bytes} (ha : Answering c resp)
    (hall : resp.length ≤ c.session.responseBytesSent) : c.sock.output = resp := by
  rw [ha.2.1, List.take_of_length_le hall]

theorem Answering.event {resp : Bytes} (ha : Answering c resp)
    (hlive : c.alive = true ∨ c.session.state = .done) (hc : ev.Clean) :
    Answering (rpcOnClientEvent ev c) resp ∧
    ((rpcOnClientEvent ev c).alive = true ∨ (rpcOnClientEvent ev c).session.state = .done) ∧
    c.session.responseBytesSent ≤ (rpcOnClientEvent ev c).session.responseBytesSent ∧
    (ev.takes = true → c.session.responseBytesSent < resp.length →
      c.session.responseBytesSent < (rpcOnClientEvent ev c).session.responseBytesSent) := by
  have hs : c.session.state = .sendingResponse ∨ c.session.state = .done := ha.2.2.imp And.left And.left
  unfold rpcOnClientEvent
  by_cases halive : c.alive = true
  · obtain ⟨hh, hkeep⟩ := turn_handled ev hs
    obtain ⟨hans, hdone, hmono, hgrow⟩ := turn_answering ev ha
    rw [if_neg (by simp [halive]), if_neg (by simp [hc.1]), turns_of_stop hkeep]
    rcases hh.code with hm | ⟨hz, -⟩
    · rw [closeOnError_minus hm]
      exact ⟨hans, .inr (hdone hm hc), hmono, hgrow⟩
    · rw [closeOnError_zero hz]
      exact ⟨hans, .inl (hh.alive.trans halive), hmono, hgrow⟩
  · rw [if_pos (by simp [halive])]
    refine ⟨ha, hlive, le_rfl, fun _ hlt => ?_⟩
    obtain ⟨-, -, ⟨hsend, -⟩ | ⟨-, heq⟩⟩ := ha
    · rw [hlive.resolve_left halive] at hsend
      cases hsend
    · omega

/-- **Clean events** send the response on, as far as `send` takes it. -/
theorem Answering.events {resp : Bytes} (ws : List Event) (hclean : ∀ e ∈ ws, e.Clean)
    (ha : Answering c resp) (hlive : c.alive = true ∨ c.session.state = .done) :
    Answering (c.events ws) resp ∧
    min resp.length (c.session.responseBytesSent + ws.countP Event.takes) ≤
      (c.events ws).session.responseBytesSent := by
  induction ws generalizing c with
  | nil => exact ⟨ha, by simp [Conn.events]⟩
  | cons ev ws ih =>
    have hev := hclean ev List.mem_cons_self
    obtain ⟨ha', hlive', hmono, hgrow⟩ := ha.event hlive hev
    obtain ⟨hans, hcount⟩ := ih (fun e he => hclean e (List.mem_cons_of_mem ev he)) ha' hlive'
    refine ⟨hans, ?_⟩
    show _ ≤ ((rpcOnClientEvent ev c).events ws).session.responseBytesSent
    by_cases hlt : c.session.responseBytesSent < resp.length
    · by_cases ht : ev.takes = true
      · have hstep := hgrow ht hlt
        rw [List.countP_cons_of_pos ht]
        omega
      · rw [List.countP_cons_of_neg ht]
        omega
    · omega

/-! ## The session and the stream -/

theorem Standing.answer (hst : Standing h payload input clean c got) {p : Processing}
    (hp : p ∈ c.processed) (hok : p.event.AllocOk) (hcmd : h.commandType = rpcCmdJoinReq)
    (h89 : payload.length = 89) :
    ∃ body, (clusterHandleJoinReq p.event.cluster (JoinRequestPayload.raw.read payload)
      p.event.join).2 = some body ∧ Answering c (joinResponse h body) ∧
      (clean → c.alive = true ∨ c.session.state = .done) := by
  have hanswer : Settled h payload c got → ∃ body, (clusterHandleJoinReq p.event.cluster
      (JoinRequestPayload.raw.read payload) p.event.join).2 = some body ∧
      Answering c (joinResponse h body) := by
    intro hset
    obtain ⟨q, hq, -, -, -, hans⟩ := hset.processed
    rw [hq] at hp
    cases List.mem_singleton.1 hp
    exact hans hok hcmd h89
  have hempty : c.processed ≠ [] := List.ne_nil_of_mem hp
  obtain ⟨-, ⟨ha, hph⟩ | ⟨ha, ⟨-, hlost⟩ | ⟨hset, hfin⟩⟩⟩ := hst
  · cases hph with
    | header _ _ _ _ _ hun => exact absurd hun.processed hempty
    | payload _ _ _ _ _ hun => exact absurd hun.processed hempty
    | settled _ hset =>
      obtain ⟨body, hbody, hans⟩ := hanswer hset
      exact ⟨body, hbody, hans, fun _ => .inl ha⟩
  · exact absurd hlost.processed hempty
  · obtain ⟨body, hbody, hans⟩ := hanswer hset
    exact ⟨body, hbody, hans, fun hc => .inr (hfin hc p hp hok hcmd h89)⟩

theorem Standing.lost_or_settled (hst : Standing h payload input clean c got) :
    Lost payload c got ∨ Settled h payload c got := by
  obtain ⟨-, ⟨-, hph⟩ | ⟨-, ⟨-, hlost⟩ | ⟨hset, -⟩⟩⟩ := hst
  · exact hph.lost_or_settled
  · exact .inl hlost
  · exact .inr hset

end

/-- **The session does not depend on how the bytes arrive.** On a stream that begins with
`h` and `payload`, under every sequence of events, `handle_processing` runs once the last byte
of the request is read, on that request, and never otherwise; nothing is read after it; and
enough reads complete it. The bytes sent for a JOIN request are the start of the response, all
of it in the end, and enough sends complete it. -/
theorem rpc_session_independent_of_arrival (h : RpcHeader) (payload rest input : Bytes)
    (cm : ClusterManager) (evs : List Event) (hmagic : h.magic = rpcMagic)
    (hlen : h.payloadLen.toNat = payload.length) (hmax : payload.length ≤ 10485760)
    (hin : input <+: serializerPackRpc h ++ payload ++ rest) :
    let c := (sessionCreate input cm).events evs
    let total := 90 + payload.length
    let used := input.length - c.sock.input.length
    used ≤ total ∧ (used < total → c.processed = [] ∧ c.sock.output = []) ∧
    (used = total → ∃ p, c.processed = [p] ∧ p.header = h ∧ p.payload = payload ∧
      input = serializerPackRpc h ++ payload ++ p.unread) ∧
    ((∀ e ∈ evs, e.Clean) → total ≤ input.length → total ≤ evs.countP Event.delivers →
      used = total) ∧
    (h.commandType = rpcCmdJoinReq → payload.length = 89 → ∀ p ∈ c.processed, p.event.AllocOk →
      ∃ body, (clusterHandleJoinReq p.event.cluster (JoinRequestPayload.raw.read payload)
          p.event.join).2 = some body ∧
        let response := serializerPackRpc (joinRespHeader h body.length) ++ body
        c.sock.output <+: response ∧ (c.session.state = .done → c.sock.output = response) ∧
        ∀ ws, (∀ e ∈ evs ++ ws, e.Clean) → response.length ≤ ws.countP Event.takes →
          (c.events ws).sock.output = response) := by
  intro c total used
  obtain ⟨got, hst, -, hprog⟩ := (standing_sessionCreate True cm).events hmagic hlen hmax
    hin evs
  have hused : used = got.length := by
    have happ : (got ++ c.sock.input).length = input.length := congrArg List.length hst.1
    rw [List.length_append] at happ
    omega
  have hle : got.length ≤ total := by
    rcases hst.lost_or_settled with hl | hset
    · exact hl.short.le
    · rw [hset.got_eq, List.length_append, length_serializerPackRpc]
  refine ⟨by omega, fun hlt => ?_, fun heq => ?_, fun hclean hfull hcount => ?_, ?_⟩
  · rcases hst.lost_or_settled with hl | hset
    · exact ⟨hl.processed, hl.output⟩
    · rw [hused, hset.got_eq, List.length_append, length_serializerPackRpc] at hlt
      omega
  · rcases hst.lost_or_settled with hl | hset
    · have := hl.short
      omega
    · obtain ⟨p, hp, hhdr, hpay, hun, -⟩ := hset.processed
      exact ⟨p, hp, hhdr, hpay, by rw [← hset.got_eq, hun]; exact hst.1.symm⟩
  · have := hprog trivial hclean hfull
    simp only [List.length_nil] at this
    omega
  · intro hcmd h89 p hp hok
    obtain ⟨body, hbody, hans, hlive⟩ := hst.answer hp hok hcmd h89
    refine ⟨body, hbody, ?_, fun hdone => ?_, fun ws hclean hcount => ?_⟩
    · rw [hans.2.1]
      exact List.take_prefix ..
    · refine hans.output_eq ?_
      rcases hans.2.2 with ⟨hsend, -⟩ | ⟨-, heq⟩
      · rw [hdone] at hsend
        cases hsend
      · exact heq.ge
    · have hclean' := List.forall_mem_append.1 hclean
      obtain ⟨hans', hsent⟩ := hans.events ws hclean'.2 (hlive ⟨trivial, hclean'.1⟩)
      refine hans'.output_eq ?_
      unfold joinResponse at hsent ⊢
      omega

/-- An event on which `recv` gives up to `n + 1` bytes and `send` as many. -/
def pieceEvent (read write : Bool) (n : Nat) : Event :=
  { read := read
    write := write
    error := false
    recv := .data n
    send := .data n
    malloc := true
    cluster := clusterInit .controlNode (.ofField [115]) (.ofField [49]) 7000 0
    join := ⟨0, true, true, fun _ => (.zero, .zero)⟩
    mallocResponse := true
    loopMod := true
    now := 0 }

def asking : ClusterManager := clusterInit .workerNode (.ofField [97]) (.ofField [50]) 7001 0

/-- The request of `asking`, split within the header, at its end, and within the payload. -/
theorem rpc_session_three_pieces :
    ∃ p, ((sessionCreate (serializerPackRpc (joinRequestHeader asking) ++
        JoinRequestPayload.raw.put (joinRequest asking)) asking).events
        [pieceEvent true true 40, pieceEvent false true 5, pieceEvent true false 200,
          pieceEvent true true 80, pieceEvent true true 80]).processed = [p] ∧
      p.header = joinRequestHeader asking ∧
      p.payload = JoinRequestPayload.raw.put (joinRequest asking) ∧
      serializerPackRpc (joinRequestHeader asking) ++
        JoinRequestPayload.raw.put (joinRequest asking) =
      serializerPackRpc (joinRequestHeader asking) ++
        JoinRequestPayload.raw.put (joinRequest asking) ++ p.unread :=
  (rpc_session_independent_of_arrival (joinRequestHeader asking)
    (JoinRequestPayload.raw.put (joinRequest asking)) [] _ asking _ rfl
    (by rw [JoinRequestPayload.raw.length_put]; rfl)
    (by rw [JoinRequestPayload.raw.length_put]; decide)
    (by rw [List.append_nil])).2.2.1 (by decide +kernel)

end DRoole
