import DRoole.Lib.Runs
import DRoole.Members.Leave
import DRoole.Rpc.Stream

/-!
# The server

The reactor of `src/main.c` runs the sessions of all connections, `on_gossip_receive`
and `cluster_reaper_tick` on one thread and on one cluster manager, but a request is
spread over as many callbacks as its bytes need, with callbacks of other sessions in
between.

Nothing of that is visible: whatever arrives on the connections, the table is the one
that the whole requests, the datagrams and the ticks give when each is handled at once,
one after the other, and what a client reads is the start of the answer at the place of
its request in that order.
-/

namespace DRoole

open Lib

/-! ## Requests handled at once -/

/-- The request that the bytes read from a connection make up. -/
def wholeRequest (got : Bytes) : Option (RpcHeader × Bytes) :=
  let header := serializerUnpackRpc (got.take 90)
  if header.magic = rpcMagic ∧ header.payloadLen ≤ maxPayloadSize ∧
      got.length = 90 + header.payloadLen.toNat then
    some (header, got.drop 90)
  else none

/-- What changes the table: a request of a connection with the allocations and the time of
`handle_processing`, a datagram, or a tick. -/
inductive TableChange (ι : Type) where
  | request (i : ι) (header : RpcHeader) (payload : Bytes) (join : JoinEnv) (now : UInt64)
  | gossip (datagram : Bytes) (now : UInt64)
  | reap (now : UInt64)

def serveRequest (cm : ClusterManager) (header : RpcHeader) (payload : Bytes) (join : JoinEnv)
    (now : UInt64) : ClusterManager :=
  if header.commandType = rpcCmdJoinReq then
    if payload.length = 89 then
      (clusterHandleJoinReq cm (JoinRequestPayload.raw.read payload) join).1
    else cm
  else if header.commandType = rpcCmdLeave then receiveLeave cm header now
  else cm

def answerRequest (cm : ClusterManager) (header : RpcHeader) (payload : Bytes) (join : JoinEnv) :
    Bytes :=
  if header.commandType = rpcCmdJoinReq ∧ payload.length = 89 then
    match (clusterHandleJoinReq cm (JoinRequestPayload.raw.read payload) join).2 with
    | some body => joinResponse header body
    | none => []
  else []

namespace TableChange
variable {ι : Type}

def conn : TableChange ι → Option ι
  | .request i .. => some i
  | .gossip .. | .reap _ => none

def apply (cm : ClusterManager) : TableChange ι → ClusterManager
  | .request _ header payload join now => serveRequest cm header payload join now
  | .gossip datagram now => onGossipReceive cm datagram now
  | .reap now => clusterReaperTick cm now

end TableChange

/-! ## The reactor -/

/-- `arrived` is all that a client has sent so far. `history` lists the changes of the table. -/
structure Server (ι : Type) where
  cluster : ClusterManager
  conns : ι → Option Conn
  arrived : ι → Bytes
  history : List (TableChange ι)

/-- What the calls of `rpc_on_accept` return. -/
structure AcceptEnv where
  accept : Int
  nonblocking : Bool
  calloc : Bool
  addFd : Bool

def rpcOnAccept (cm : ClusterManager) (env : AcceptEnv) : Option Conn :=
  if env.accept = -2 then none
  else if env.accept ≠ 0 then none
  else if !env.nonblocking then none
  else if !env.calloc then none
  else if !env.addFd then none
  else some (sessionCreate [] cm)

/-- A client connects or sends, or the reactor runs a callback. -/
inductive ServerTick (ι : Type) where
  | accept (i : ι) (env : AcceptEnv)
  | arrive (i : ι) (bs : Bytes)
  | event (i : ι) (ev : Event)
  | gossip (datagram : Bytes) (now : UInt64)
  | reap (now : UInt64)

section
variable {ι : Type} [DecidableEq ι]

def Server.start (cm : ClusterManager) : Server ι := ⟨cm, fun _ => none, fun _ => [], []⟩

def handledSince (i : ι) (c c' : Conn) : List (TableChange ι) :=
  (c'.processed.drop c.processed.length).map fun p =>
    .request i p.header p.payload p.event.join p.event.now

/-- The sessions share the manager: a callback finds it as the last one has left it. -/
def serverTick (s : Server ι) : ServerTick ι → Option (Server ι)
  | .accept i env =>
    match s.conns i with
    | some _ => none
    | none => some { s with conns := Function.update s.conns i (rpcOnAccept s.cluster env) }
  | .arrive i bs =>
    (s.conns i).map fun c => { s with
      conns := Function.update s.conns i
        (some { c with sock := { c.sock with input := c.sock.input ++ bs } })
      arrived := Function.update s.arrived i (s.arrived i ++ bs) }
  | .event i ev =>
    (s.conns i).map fun c =>
      let c' := rpcOnClientEvent { ev with cluster := s.cluster } { c with cluster := s.cluster }
      { s with
        cluster := c'.cluster
        conns := Function.update s.conns i (some c')
        history := s.history ++ handledSince i c c' }
  | .gossip datagram now =>
    some { s with
      cluster := onGossipReceive s.cluster datagram now
      history := s.history ++ [.gossip datagram now] }
  | .reap now =>
    some { s with
      cluster := clusterReaperTick s.cluster now
      history := s.history ++ [.reap now] }

end

/-! ## Reading a request -/

section
variable {c : Conn} {got : Bytes}

/-- A session that has read part of a request. -/
inductive Receiving (c : Conn) (got : Bytes) : Prop
  | header (hs : c.session.state = .readingHeader) (hbuf : c.session.headerBuf = got)
      (hlt : got.length < 90) (hpay : c.session.payloadBuf = []) (htot : c.session.payloadTotal = 0)
      (hun : Unanswered c)
  | payload (hs : c.session.state = .readingPayload)
      (hgot : got = c.session.headerBuf ++ c.session.payloadBuf)
      (h90 : c.session.headerBuf.length = 90)
      (hhdr : c.session.header = serializerUnpackRpc c.session.headerBuf)
      (hmagic : c.session.header.magic = rpcMagic)
      (hmax : c.session.header.payloadLen ≤ maxPayloadSize)
      (htot : c.session.payloadTotal = c.session.header.payloadLen.toNat)
      (hlt : c.session.payloadBuf.length < c.session.payloadTotal) (hun : Unanswered c)

/-- A session that has the whole of it. -/
structure Complete (c : Conn) (got : Bytes) : Prop where
  state : c.session.state = .processing
  request : wholeRequest got = some (c.session.header, c.session.payloadBuf)
  total : c.session.payloadTotal = c.session.payloadBuf.length
  unanswered : Unanswered c

/-- A session that has not got one and will not. -/
structure Rejected (c : Conn) (got : Bytes) : Prop where
  request : wholeRequest got = none
  processed : c.processed = []
  output : c.sock.output = []

theorem wholeRequest_of_short (h : got.length < 90) : wholeRequest got = none := by
  unfold wholeRequest
  dsimp only
  rw [if_neg (by omega)]

theorem wholeRequest_append {header : Bytes} (h90 : header.length = 90) (rest : Bytes) :
    wholeRequest (header ++ rest) =
      if (serializerUnpackRpc header).magic = rpcMagic ∧
          (serializerUnpackRpc header).payloadLen ≤ maxPayloadSize ∧
          rest.length = (serializerUnpackRpc header).payloadLen.toNat then
        some (serializerUnpackRpc header, rest)
      else none := by
  unfold wholeRequest
  dsimp only
  rw [← h90, List.take_left, List.drop_left, List.length_append]
  simp only [Nat.add_left_cancel_iff]

theorem Receiving.unanswered (h : Receiving c got) : Unanswered c := by
  cases h with
  | header _ _ _ _ _ hun => exact hun
  | payload _ _ _ _ _ _ _ _ hun => exact hun

theorem Receiving.request (h : Receiving c got) : wholeRequest got = none := by
  cases h with
  | header _ _ hlt => exact wholeRequest_of_short hlt
  | payload _ hgot h90 hhdr hmagic hmax htot hlt =>
    rw [hhdr] at hmagic hmax htot
    rw [hgot, wholeRequest_append h90, if_neg fun h => by omega]

theorem Receiving.rejected (h : Receiving c got) : Rejected c got :=
  ⟨h.request, h.unanswered.processed, h.unanswered.output⟩

/-- What a read handler leaves, from `got` at `c`. -/
def ReadsOn (c : Conn) (got : Bytes) (r : Conn × Int) : Prop :=
  r.1.alive = c.alive ∧ r.1.cluster = c.cluster ∧
    ∃ got', got' ++ r.1.sock.input = got ++ c.sock.input ∧
      (r.2 = 0 ∧ (Receiving r.1 got' ∨ Complete r.1 got') ∨ r.2 = -1 ∧ Rejected r.1 got')

theorem readsOn_headerComplete {header : RpcHeader}
    (hheader : serializerUnpackRpc c.session.headerBuf = header) (ev : Event)
    (h90 : c.session.headerBuf.length = 90) (hpay : c.session.payloadBuf = [])
    (htot : c.session.payloadTotal = 0) (hun : Unanswered c) :
    ReadsOn c c.session.headerBuf (headerComplete ev c) := by
  obtain ⟨hproc, hout, hsent⟩ := hun
  have hreq := wholeRequest_append h90 []
  rw [List.append_nil, List.length_nil, hheader] at hreq
  rw [headerComplete, hheader]
  split
  · rename_i hmagic
    refine ⟨rfl, rfl, c.session.headerBuf, rfl, .inr ⟨rfl, ?_, hproc, hout⟩⟩
    rw [hreq, if_neg fun h => hmagic h.1]
  rename_i hmagic
  split
  · rename_i hmax
    refine ⟨rfl, rfl, c.session.headerBuf, rfl, .inr ⟨rfl, ?_, hproc, hout⟩⟩
    rw [hreq, if_neg fun h => UInt64.not_le.2 hmax h.2.1]
  rename_i hmax
  have hmagic' := not_not.1 hmagic
  have hmax' := UInt64.not_lt.1 hmax
  split
  · rename_i hpos
    have hlen : 0 < header.payloadLen.toNat := by
      rwa [gt_iff_lt, UInt64.lt_iff_toNat_lt, UInt64.toNat_zero] at hpos
    split
    · refine ⟨rfl, rfl, c.session.headerBuf, rfl, .inr ⟨rfl, ?_, hproc, hout⟩⟩
      rw [hreq, if_neg fun h => hlen.ne h.2.2]
    · refine ⟨rfl, rfl, c.session.headerBuf, rfl, .inl ⟨rfl, .inl ?_⟩⟩
      refine .payload rfl ?_ h90 hheader.symm hmagic' hmax' rfl ?_ ⟨hproc, hout, hsent⟩
      · show c.session.headerBuf = c.session.headerBuf ++ c.session.payloadBuf
        rw [hpay, List.append_nil]
      · show c.session.payloadBuf.length < _
        rw [hpay]
        exact hlen
  · rename_i hzero
    have hlen : header.payloadLen.toNat = 0 := by
      rw [gt_iff_lt, UInt64.lt_iff_toNat_lt, UInt64.toNat_zero] at hzero
      omega
    refine ⟨rfl, rfl, c.session.headerBuf, rfl, .inl ⟨rfl, .inr ⟨rfl, ?_, ?_, hproc, hout, hsent⟩⟩⟩
    · rw [hreq, if_pos ⟨hmagic', hmax', hlen.symm⟩]
      show _ = some (header, c.session.payloadBuf)
      rw [hpay]
    · show c.session.payloadTotal = c.session.payloadBuf.length
      rw [htot, hpay]
      rfl

theorem readsOn_handleReadingHeader (ev : Event) (hs : c.session.state = .readingHeader)
    (hbuf : c.session.headerBuf = got) (hlt : got.length < 90) (hpay : c.session.payloadBuf = [])
    (htot : c.session.payloadTotal = 0) (hun : Unanswered c) :
    ReadsOn c got (handleReadingHeader ev c) := by
  have hrec : Receiving c got := .header hs hbuf hlt hpay htot hun
  unfold handleReadingHeader
  split
  · exact ⟨rfl, rfl, got, rfl, .inr ⟨rfl, hrec.rejected⟩⟩
  rename_i bs sock hread
  obtain ⟨hin, hout, hle⟩ := readIntoBuffer_some hread
  split
  · exact ⟨rfl, rfl, got, rfl, .inl ⟨rfl, .inl hrec⟩⟩
  have hun' : Unanswered { c with
      sock := sock, session := { c.session with headerBuf := c.session.headerBuf ++ bs } } :=
    ⟨hun.processed, hout.trans hun.output, hun.sent⟩
  have hstream : (c.session.headerBuf ++ bs) ++ sock.input = got ++ c.sock.input := by
    rw [hbuf, hin, List.append_assoc]
  dsimp only
  split
  · rename_i h90
    obtain ⟨halive, hcluster, got', hgot', hcase⟩ := readsOn_headerComplete rfl ev h90 hpay htot hun'
    exact ⟨halive, hcluster, got', hgot'.trans hstream, hcase⟩
  · rename_i hshort
    refine ⟨rfl, rfl, _, hstream, .inl ⟨rfl, .inl (.header hs rfl ?_ hpay htot hun')⟩⟩
    have hne : (c.session.headerBuf ++ bs).length ≠ 90 := hshort
    rw [List.length_append, hbuf] at hne ⊢
    rw [hbuf] at hle
    omega

theorem readsOn_handleReadingPayload (ev : Event) (hs : c.session.state = .readingPayload)
    (hgot : got = c.session.headerBuf ++ c.session.payloadBuf)
    (h90 : c.session.headerBuf.length = 90)
    (hhdr : c.session.header = serializerUnpackRpc c.session.headerBuf)
    (hmagic : c.session.header.magic = rpcMagic)
    (hmax : c.session.header.payloadLen ≤ maxPayloadSize)
    (htot : c.session.payloadTotal = c.session.header.payloadLen.toNat)
    (hlt : c.session.payloadBuf.length < c.session.payloadTotal) (hun : Unanswered c) :
    ReadsOn c got (handleReadingPayload ev c) := by
  have hrec : Receiving c got := .payload hs hgot h90 hhdr hmagic hmax htot hlt hun
  unfold handleReadingPayload
  split
  · exact ⟨rfl, rfl, got, rfl, .inr ⟨rfl, hrec.rejected⟩⟩
  rename_i bs sock hread
  obtain ⟨hin, hout, hle⟩ := readIntoBuffer_some hread
  split
  · exact ⟨rfl, rfl, got, rfl, .inl ⟨rfl, .inl hrec⟩⟩
  have hun' : Unanswered { c with
      sock := sock, session := { c.session with payloadBuf := c.session.payloadBuf ++ bs } } :=
    ⟨hun.processed, hout.trans hun.output, hun.sent⟩
  have hstream : c.session.headerBuf ++ (c.session.payloadBuf ++ bs) ++ sock.input =
      got ++ c.sock.input := by
    rw [hgot, hin, List.append_assoc, List.append_assoc, List.append_assoc]
  dsimp only
  split
  · rename_i hfull
    refine ⟨rfl, rfl, _, hstream, .inl ⟨rfl, .inr ⟨rfl, ?_, hfull.symm, hun'.1, hun'.2, hun'.3⟩⟩⟩
    have hlen : (c.session.payloadBuf ++ bs).length = c.session.payloadTotal := hfull
    rw [wholeRequest_append h90, ← hhdr, if_pos ⟨hmagic, hmax, hlen.trans htot⟩]
    rfl
  · rename_i hshort
    refine ⟨rfl, rfl, _, hstream, .inl ⟨rfl, .inl
      (.payload hs rfl h90 hhdr hmagic hmax htot ?_ hun')⟩⟩
    have hne : (c.session.payloadBuf ++ bs).length ≠ c.session.payloadTotal := hshort
    show (c.session.payloadBuf ++ bs).length < c.session.payloadTotal
    rw [List.length_append] at hne ⊢
    omega

/-! ## Handling it -/

/-- The client has read part of the answer, and a session that lives sends the rest or is done. -/
structure Responding (c : Conn) (resp : Bytes) : Prop where
  output : c.sock.output <+: resp
  pending : c.alive = true → Answering c resp ∨ c.session.state = .done

theorem processJoin_serves {ev : Event} (hcluster : c.cluster = ev.cluster)
    (hcmd : c.session.header.commandType = rpcCmdJoinReq)
    (htot : c.session.payloadTotal = c.session.payloadBuf.length)
    (hout : c.sock.output = []) (hsent : c.session.responseBytesSent = 0) :
    (processJoin ev c).1.cluster =
        serveRequest ev.cluster c.session.header c.session.payloadBuf ev.join ev.now ∧
      (processJoin ev c).1.sock = c.sock ∧
      ((processJoin ev c).2 = 0 → Answering (processJoin ev c).1
        (answerRequest ev.cluster c.session.header c.session.payloadBuf ev.join)) := by
  have hfail : (-1 : Int) ≠ 0 := by decide
  rw [serveRequest, if_pos hcmd, answerRequest, ← htot]
  unfold processJoin
  by_cases h89 : c.session.payloadTotal = 89
  · rw [if_neg (not_not.2 h89), if_pos h89, if_pos ⟨hcmd, h89⟩]
    dsimp only
    rcases clusterHandleJoinReq ev.cluster (JoinRequestPayload.raw.read c.session.payloadBuf)
      ev.join with ⟨cm, _ | body⟩
    · exact ⟨rfl, rfl, fun h => absurd h hfail⟩
    dsimp only
    split
    · exact ⟨rfl, rfl, fun h => absurd h hfail⟩
    split
    · exact ⟨rfl, rfl, fun h => absurd h hfail⟩
    refine ⟨rfl, rfl, fun _ => ⟨rfl, ?_, .inl ⟨rfl, ?_⟩⟩⟩
    · show c.sock.output = List.take c.session.responseBytesSent _
      rw [hout, hsent]
      rfl
    · show c.session.responseBytesSent < _
      rw [hsent, joinResponse, List.length_append, length_serializerPackRpc]
      omega
  · rw [if_pos h89, if_neg h89]
    exact ⟨hcluster, rfl, fun h => absurd h hfail⟩

theorem handleProcessing_serves {ev : Event} (h : Complete c got) (hcluster : c.cluster = ev.cluster) :
    (handleProcessing ev c).1.cluster =
        serveRequest ev.cluster c.session.header c.session.payloadBuf ev.join ev.now ∧
      (handleProcessing ev c).1.sock = c.sock ∧
      ((handleProcessing ev c).2 = 0 → Answering (handleProcessing ev c).1
          (answerRequest ev.cluster c.session.header c.session.payloadBuf ev.join) ∨
        (handleProcessing ev c).1.session.state = .done) := by
  have hfail : (-1 : Int) ≠ 0 := by decide
  unfold handleProcessing
  dsimp only
  by_cases hjoin : c.session.header.commandType = rpcCmdJoinReq
  · rw [if_pos hjoin]
    obtain ⟨hserve, hsock, hans⟩ := processJoin_serves (c := { c with processed := c.processed ++
      [⟨c.session.header, c.session.payloadBuf, ev, c.sock.input⟩] }) hcluster hjoin h.total
      h.unanswered.output h.unanswered.sent
    exact ⟨hserve, hsock, fun h0 => .inl (hans h0)⟩
  · rw [if_neg hjoin, serveRequest, if_neg hjoin]
    split
    · exact ⟨rfl, rfl, fun _ => .inr rfl⟩
    split
    · split
      · exact ⟨hcluster, rfl, fun h0 => absurd h0 hfail⟩
      · exact ⟨hcluster, rfl, fun _ => .inr rfl⟩
    · exact ⟨hcluster, rfl, fun h0 => absurd h0 hfail⟩

/-! ## One callback -/

theorem cluster_handleSendingResponse (ev : Event) (c : Conn) :
    (handleSendingResponse ev c).1.cluster = c.cluster := by
  unfold handleSendingResponse
  split
  · rfl
  dsimp only
  split
  · rfl
  split
  · rfl
  · rfl

/-- Where a connection stands from which `got` has been read. -/
inductive ConnOk (c : Conn) (got : Bytes) : Prop
  | receiving (halive : c.alive = true) (h : Receiving c got)
  | rejected (halive : c.alive = false) (h : Rejected c got)
  | handled (p : Processing) (hp : c.processed = [p])
      (hreq : wholeRequest got = some (p.header, p.payload))
      (hresp : Responding c (answerRequest p.event.cluster p.header p.payload p.event.join))

/-- What a callback does: it handles nothing, or the one request of the connection. -/
def Serves (ev : Event) (c c' : Conn) : Prop :=
  (c'.processed = c.processed ∧ c'.cluster = c.cluster) ∨
    (c.processed = [] ∧ ∃ p, c'.processed = [p] ∧ p.event = ev ∧
      c'.cluster = serveRequest ev.cluster p.header p.payload ev.join ev.now)

/-- From `got` at `c` the callback `ev` leads to `c'`. -/
def Callback (ev : Event) (c : Conn) (got : Bytes) (c' : Conn) : Prop :=
  Serves ev c c' ∧ ∃ got', got' ++ c'.sock.input = got ++ c.sock.input ∧ ConnOk c' got'

theorem Answering.output_front {resp : Bytes} (h : Answering c resp) : c.sock.output <+: resp := by
  rw [h.2.1]
  exact List.take_prefix _ _

theorem Answering.closeOnError_turn {resp : Bytes} (h : Answering c resp) (ev : Event) :
    let c' := closeOnError (turn ev c).1
    Responding c' resp ∧ c'.processed = c.processed ∧ c'.cluster = c.cluster ∧
      c'.sock.input = c.sock.input := by
  have hs : c.session.state = .sendingResponse ∨ c.session.state = .done :=
    h.2.2.imp And.left And.left
  have hcluster : (turn ev c).1.1.cluster = c.cluster := by
    unfold turn
    rcases hs with hs | hs
    · simp only [hs]
      split
      · exact cluster_handleSendingResponse ev c
      · rfl
    · simp only [hs]
  have hans := (turn_answering ev h).1
  obtain ⟨hh, -⟩ := turn_handled ev hs
  unfold closeOnError
  dsimp only
  split
  · exact ⟨⟨hans.output_front, fun ha => by cases ha⟩, hh.processed, hcluster, hh.input⟩
  · exact ⟨⟨hans.output_front, fun _ => .inl hans⟩, hh.processed, hcluster, hh.input⟩

theorem Complete.callback {ev : Event} (h : Complete c got) (hcluster : c.cluster = ev.cluster) :
    Callback ev c got (closeOnError (turns 2 ev c)) := by
  obtain ⟨hserve, hsock, hans⟩ := handleProcessing_serves h hcluster
  have hh := handleProcessing_handled ev c
  have hproc : (handleProcessing ev c).1.processed =
      [⟨c.session.header, c.session.payloadBuf, ev, c.sock.input⟩] := by
    rw [hh.processed, h.unanswered.processed]
    rfl
  have hturn : turn ev c = (handleProcessing ev c,
      decide ((handleProcessing ev c).1.session.state = .sendingResponse)) := by
    simp only [turn, h.state]
  have hstop : ∀ c', c'.processed = (handleProcessing ev c).1.processed →
      c'.cluster = (handleProcessing ev c).1.cluster → c'.sock.input = c.sock.input →
      Responding c' (answerRequest ev.cluster c.session.header c.session.payloadBuf ev.join) →
      Callback ev c got c' := by
    intro c' hp hc hin hresp
    refine ⟨.inr ⟨h.unanswered.processed, _, hp.trans hproc, rfl, hc.trans hserve⟩, got, by rw [hin],
      .handled _ (hp.trans hproc) h.request hresp⟩
  have hout : (handleProcessing ev c).1.sock.output <+:
      answerRequest ev.cluster c.session.header c.session.payloadBuf ev.join := by
    rw [hsock, h.unanswered.output]
    exact List.nil_prefix
  rcases hh.code with hminus | ⟨hzero, hstate⟩
  · have hr : turns 2 ev c = handleProcessing ev c := by
      rw [turns, hturn]
      dsimp only
      rw [if_neg fun hk => by rw [hminus] at hk; exact absurd hk.2 (by decide)]
    rw [hr, closeOnError_minus hminus]
    exact hstop _ rfl rfl (by rw [hsock]) ⟨hout, fun ha => by cases ha⟩
  rcases hans hzero with hans | hdone
  · rcases hstate with hsend | hdone
    · have hr : turns 2 ev c = (turn ev (handleProcessing ev c).1).1 := by
        rw [turns, hturn]
        dsimp only
        rw [if_pos ⟨decide_eq_true hsend, hzero⟩, turns_of_sending hsend]
      obtain ⟨hresp, hp, hc, hin⟩ := hans.closeOnError_turn ev
      rw [hr]
      exact hstop _ hp hc (hin.trans (by rw [hsock])) hresp
    · have hr : turns 2 ev c = handleProcessing ev c := by
        rw [turns_of_stop (by rw [hturn]; simp [hdone]), hturn]
      rw [hr, closeOnError_zero hzero]
      exact hstop _ rfl rfl (by rw [hsock]) ⟨hout, fun _ => .inr hdone⟩
  · have hr : turns 2 ev c = handleProcessing ev c := by
      rw [turns_of_stop (by rw [hturn]; simp [hdone]), hturn]
    rw [hr, closeOnError_zero hzero]
    exact hstop _ rfl rfl (by rw [hsock]) ⟨hout, fun _ => .inr hdone⟩

theorem ReadsOn.callback {ev : Event} {r : Conn × Int} (h : ReadsOn c got r)
    (hcluster : c.cluster = ev.cluster) (halive : c.alive = true) (hun : c.processed = [])
    (hturn : turn ev c = (r, decide (r.1.session.state = .processing))) :
    Callback ev c got (closeOnError (turns 3 ev c)) := by
  obtain ⟨hal, hcl, got', hgot', ⟨hzero, hrec | hcomplete⟩ | ⟨hminus, hrej⟩⟩ := h
  · have hstate : r.1.session.state ≠ .processing := by
      cases hrec with
      | header hs => rw [hs]; decide
      | payload hs => rw [hs]; decide
    have hr : turns 3 ev c = r := by
      rw [turns_of_stop (by rw [hturn]; simp [hstate]), hturn]
    rw [hr, closeOnError_zero hzero]
    exact ⟨.inl ⟨hrec.unanswered.processed.trans hun.symm, hcl⟩, got', hgot',
      .receiving (hal.trans halive) hrec⟩
  · have hr : turns 3 ev c = turns 2 ev r.1 := by
      rw [turns, hturn]
      dsimp only
      rw [if_pos ⟨decide_eq_true hcomplete.state, hzero⟩]
    obtain ⟨hserves, got'', hgot'', hok⟩ := hcomplete.callback (hcl.trans hcluster)
    rw [hr]
    refine ⟨?_, got'', hgot''.trans hgot', hok⟩
    rcases hserves with ⟨hp, hc⟩ | ⟨-, hserved⟩
    · exact .inl ⟨hp.trans (hcomplete.unanswered.processed.trans hun.symm), hc.trans hcl⟩
    · exact .inr ⟨hun, hserved⟩
  · have hr : turns 3 ev c = r := by
      rw [turns, hturn]
      dsimp only
      rw [if_neg fun hk => by rw [hminus] at hk; exact absurd hk.2 (by decide)]
    rw [hr, closeOnError_minus hminus]
    exact ⟨.inl ⟨hrej.processed.trans hun.symm, hcl⟩, got', hgot', .rejected rfl ⟨hrej.1, hrej.2, hrej.3⟩⟩

theorem Receiving.callback {ev : Event} (h : Receiving c got) (hcluster : c.cluster = ev.cluster)
    (halive : c.alive = true) : Callback ev c got (closeOnError (turns 3 ev c)) := by
  have hidle : turn ev c = ((c, 0), false) → Callback ev c got (closeOnError (turns 3 ev c)) := by
    intro hturn
    have hr : turns 3 ev c = (c, 0) := by rw [turns_of_stop (by rw [hturn]), hturn]
    rw [hr]
    exact ⟨.inl ⟨rfl, rfl⟩, got, rfl, .receiving halive h⟩
  have hproc := h.unanswered.processed
  cases h with
  | header hs hbuf hlt hpay htot hun =>
    cases hread : ev.read with
    | false => exact hidle (by simp only [turn, hs, hread, Bool.false_eq_true, if_false])
    | true =>
      exact (readsOn_handleReadingHeader ev hs hbuf hlt hpay htot hun).callback hcluster halive hproc
        (by simp only [turn, hs, hread, if_true])
  | payload hs hgot h90 hhdr hmagic hmax htot hlt hun =>
    cases hread : ev.read with
    | false => exact hidle (by simp only [turn, hs, hread, Bool.false_eq_true, if_false])
    | true =>
      exact (readsOn_handleReadingPayload ev hs hgot h90 hhdr hmagic hmax htot hlt hun).callback
        hcluster halive hproc (by simp only [turn, hs, hread, if_true])

/-- **One callback** of a session. -/
theorem ConnOk.callback {ev : Event} (h : ConnOk c got) (hcluster : c.cluster = ev.cluster) :
    Callback ev c got (rpcOnClientEvent ev c) := by
  have hkeep : ∀ {c' : Conn}, c'.processed = c.processed → c'.cluster = c.cluster →
      c'.sock = c.sock → ConnOk c' got → Callback ev c got c' :=
    fun hp hc hs hok => ⟨.inl ⟨hp, hc⟩, got, by rw [hs], hok⟩
  unfold rpcOnClientEvent
  cases halive : c.alive with
  | false => exact hkeep rfl rfl rfl h
  | true =>
  rw [if_neg (by decide)]
  split
  · refine hkeep rfl rfl rfl ?_
    cases h with
    | receiving _ h => exact .rejected rfl ⟨h.request, h.unanswered.processed, h.unanswered.output⟩
    | rejected ha h => exact .rejected rfl ⟨h.1, h.2, h.3⟩
    | handled p hp hreq hresp =>
      exact .handled p hp hreq ⟨hresp.output, fun ha => by cases ha⟩
  cases h with
  | receiving _ h => exact h.callback hcluster halive
  | rejected ha _ => rw [halive] at ha; cases ha
  | handled p hp hreq hresp =>
    rcases hresp.pending halive with hans | hdone
    · have hs : c.session.state = .sendingResponse ∨ c.session.state = .done :=
        hans.2.2.imp And.left And.left
      rw [turns_of_stop (turn_handled ev hs).2]
      obtain ⟨hresp', hp', hc', hin⟩ := hans.closeOnError_turn ev
      exact ⟨.inl ⟨hp', hc'⟩, got, by rw [hin], .handled p (hp'.trans hp) hreq hresp'⟩
    · have hturn : turn ev c = ((c, -1), false) := by simp only [turn, hdone]
      rw [turns_of_stop (by rw [hturn]), hturn, closeOnError_minus rfl]
      exact hkeep rfl rfl rfl (.handled p hp hreq ⟨hresp.output, fun ha => by cases ha⟩)

end

theorem ConnOk.frame {c c' : Conn} {got : Bytes} (h : ConnOk c got)
    (hsession : c'.session = c.session) (halive : c'.alive = c.alive)
    (hout : c'.sock.output = c.sock.output) (hproc : c'.processed = c.processed) :
    ConnOk c' got := by
  obtain ⟨session, alive, ⟨input, output⟩, cluster, processed⟩ := c
  obtain ⟨_, _, ⟨input', _⟩, cluster', _⟩ := c'
  dsimp only at hsession halive hout hproc
  subst hsession halive hout hproc
  cases h with
  | receiving ha h =>
    refine .receiving ha ?_
    cases h with
    | header hs hbuf hlt hpay htot hun => exact .header hs hbuf hlt hpay htot ⟨hun.1, hun.2, hun.3⟩
    | payload hs hgot h90 hhdr hmagic hmax htot hlt hun =>
      exact .payload hs hgot h90 hhdr hmagic hmax htot hlt ⟨hun.1, hun.2, hun.3⟩
  | rejected ha h => exact .rejected ha ⟨h.1, h.2, h.3⟩
  | handled p hp hreq hresp => exact .handled p hp hreq ⟨hresp.output, hresp.pending⟩

/-! ## Runs -/

section
variable {ι : Type} {cm : ClusterManager} {history : List (TableChange ι)} {i : ι}

/-- The requests that connection `i` has had handled, at their place in the history. -/
def Listed (cm : ClusterManager) (history : List (TableChange ι)) (i : ι) : List Processing → Prop
  | [] => ∀ e ∈ history, e.conn ≠ some i
  | [p] => ∃ before after,
      history = before ++ .request i p.header p.payload p.event.join p.event.now :: after ∧
      (∀ e ∈ before ++ after, e.conn ≠ some i) ∧
      p.event.cluster = before.foldl TableChange.apply cm
  | _ :: _ :: _ => False

theorem Listed.append {ps : List Processing} (h : Listed cm history i ps)
    {more : List (TableChange ι)} (hmore : ∀ e ∈ more, e.conn ≠ some i) :
    Listed cm (history ++ more) i ps := by
  match ps, h with
  | [], h =>
    intro e he
    exact (List.mem_append.1 he).elim (h e) (hmore e)
  | [p], ⟨before, after, hist, hothers, hcluster⟩ =>
    refine ⟨before, after ++ more, by rw [hist, List.append_assoc, List.cons_append], ?_, hcluster⟩
    intro e he
    rw [← List.append_assoc] at he
    exact (List.mem_append.1 he).elim (hothers e) (hmore e)
  | _ :: _ :: _, h => exact h.elim

theorem Listed.handle (h : Listed cm history i []) {p : Processing}
    (hcluster : p.event.cluster = history.foldl TableChange.apply cm) :
    Listed cm (history ++ [.request i p.header p.payload p.event.join p.event.now]) i [p] := by
  refine ⟨history, [], rfl, ?_, hcluster⟩
  rwa [List.append_nil]

/-- Connection `i`, on which `arrived` has arrived, with the history. -/
def ConnAt (cm : ClusterManager) (history : List (TableChange ι)) (i : ι) (arrived : Bytes) :
    Option Conn → Prop
  | none => arrived = [] ∧ Listed cm history i []
  | some c => ∃ got, arrived = got ++ c.sock.input ∧ ConnOk c got ∧ Listed cm history i c.processed

theorem ConnAt.append {arrived : Bytes} {conn : Option Conn} (h : ConnAt cm history i arrived conn)
    {more : List (TableChange ι)} (hmore : ∀ e ∈ more, e.conn ≠ some i) :
    ConnAt cm (history ++ more) i arrived conn := by
  cases conn with
  | none => exact ⟨h.1, h.2.append hmore⟩
  | some c =>
    obtain ⟨got, harr, hok, hlist⟩ := h
    exact ⟨got, harr, hok, hlist.append hmore⟩

structure ServerOk (cm : ClusterManager) (s : Server ι) : Prop where
  cluster : s.cluster = s.history.foldl TableChange.apply cm
  conns : ∀ i, ConnAt cm s.history i (s.arrived i) (s.conns i)

theorem serverOk_start (cm : ClusterManager) : ServerOk cm (Server.start (ι := ι) cm) where
  cluster := rfl
  conns _ := ⟨rfl, fun _ he => absurd he List.not_mem_nil⟩

/-- **Step lemma**: a step changes one connection and adds only its requests to the history. -/
theorem ServerOk.update {s s' : Server ι} (h : ServerOk cm s) (more : List (TableChange ι))
    (hhist : s'.history = s.history ++ more)
    (hcluster : s'.cluster = more.foldl TableChange.apply s.cluster)
    (hothers : ∀ j, j ≠ i → s'.conns j = s.conns j ∧ s'.arrived j = s.arrived j ∧
      ∀ e ∈ more, e.conn ≠ some j)
    (hi : ConnAt cm s'.history i (s'.arrived i) (s'.conns i)) : ServerOk cm s' where
  cluster := by rw [hcluster, h.cluster, hhist, List.foldl_append]
  conns j := by
    by_cases hji : j = i
    · rw [hji]
      exact hi
    · obtain ⟨hconn, harr, hmore⟩ := hothers j hji
      rw [hconn, harr, hhist]
      exact (h.conns j).append hmore

theorem ServerOk.change {s : Server ι} (h : ServerOk cm s) {e : TableChange ι} (he : e.conn = none) :
    ServerOk cm { s with cluster := e.apply s.cluster, history := s.history ++ [e] } where
  cluster := by
    show e.apply s.cluster = _
    rw [h.cluster, List.foldl_append]
    rfl
  conns i := by
    refine (h.conns i).append fun e' he' => ?_
    rw [List.mem_singleton.1 he', he]
    exact (Option.some_ne_none i).symm

variable [DecidableEq ι]

theorem ServerOk.accept {s : Server ι} (h : ServerOk cm s) (hi : s.conns i = none)
    (env : AcceptEnv) :
    ServerOk cm { s with conns := Function.update s.conns i (rpcOnAccept s.cluster env) } := by
  refine h.update (i := i) [] (List.append_nil _).symm rfl
    (fun j hji => ⟨Function.update_of_ne hji _ _, rfl, fun _ he => absurd he List.not_mem_nil⟩) ?_
  have hnone := h.conns i
  rw [hi] at hnone
  dsimp only
  rw [Function.update_self]
  unfold rpcOnAccept
  repeat' split
  · exact hnone
  · exact hnone
  · exact hnone
  · exact hnone
  · exact hnone
  · exact ⟨[], hnone.1, .receiving rfl (.header rfl rfl (by decide) rfl rfl ⟨rfl, rfl, rfl⟩), hnone.2⟩

theorem ServerOk.arrive {s : Server ι} (h : ServerOk cm s) {c : Conn} (hi : s.conns i = some c)
    (bs : Bytes) :
    ServerOk cm { s with
      conns := Function.update s.conns i
        (some { c with sock := { c.sock with input := c.sock.input ++ bs } })
      arrived := Function.update s.arrived i (s.arrived i ++ bs) } := by
  refine h.update (i := i) [] (List.append_nil _).symm rfl
    (fun j hji => ⟨Function.update_of_ne hji _ _, Function.update_of_ne hji _ _,
      fun _ he => absurd he List.not_mem_nil⟩) ?_
  have hsome := h.conns i
  rw [hi] at hsome
  obtain ⟨got, harr, hok, hlist⟩ := hsome
  dsimp only
  rw [Function.update_self, Function.update_self]
  exact ⟨got, by rw [harr, List.append_assoc], hok.frame rfl rfl rfl rfl, hlist⟩

theorem ServerOk.event {s : Server ι} (h : ServerOk cm s) {c : Conn} (hi : s.conns i = some c)
    {ev : Event} (hcluster : ev.cluster = s.cluster) :
    ServerOk cm { s with
      cluster := (rpcOnClientEvent ev { c with cluster := s.cluster }).cluster
      conns := Function.update s.conns i (some (rpcOnClientEvent ev { c with cluster := s.cluster }))
      history := s.history ++
        handledSince i c (rpcOnClientEvent ev { c with cluster := s.cluster }) } := by
  have hsome := h.conns i
  rw [hi] at hsome
  obtain ⟨got, harr, hok, hlist⟩ := hsome
  have hok' : ConnOk { c with cluster := s.cluster } got := hok.frame rfl rfl rfl rfl
  obtain ⟨hserves, got', hgot', hnew⟩ := hok'.callback hcluster.symm
  generalize rpcOnClientEvent ev { c with cluster := s.cluster } = c' at hserves hgot' hnew ⊢
  have hmore : handledSince i c c' = [] ∧ c'.cluster = s.cluster ∧ c'.processed = c.processed ∨
      c.processed = [] ∧ ∃ p, c'.processed = [p] ∧ p.event = ev ∧
        handledSince i c c' = [.request i p.header p.payload p.event.join p.event.now] ∧
        c'.cluster = serveRequest s.cluster p.header p.payload p.event.join p.event.now := by
    rcases hserves with ⟨hp, hc⟩ | ⟨hp, p, hp', hev, hc⟩
    · refine .inl ⟨?_, hc, hp⟩
      rw [handledSince, hp, List.drop_length]
      rfl
    · have hp : c.processed = [] := hp
      refine .inr ⟨hp, p, hp', hev, ?_, ?_⟩
      · rw [handledSince, hp, hp']
        rfl
      · rw [hc, hev, hcluster]
  refine h.update (i := i) (handledSince i c c') rfl ?_
    (fun j hji => ⟨Function.update_of_ne hji _ _, rfl, fun e he => ?_⟩) ?_
  · rcases hmore with ⟨hnone, hc, -⟩ | ⟨-, p, -, -, hone, hc⟩
    · rw [hnone]
      exact hc
    · rw [hone]
      exact hc
  · obtain ⟨p, -, rfl⟩ := List.mem_map.1 he
    exact fun e => hji (Option.some.inj e).symm
  · dsimp only
    rw [Function.update_self]
    refine ⟨got', by rw [harr, hgot'], hnew, ?_⟩
    rcases hmore with ⟨hnone, -, hp⟩ | ⟨hp, p, hp', hev, hone, -⟩
    · rw [hnone, hp, List.append_nil]
      exact hlist
    · rw [hp] at hlist
      rw [hone, hp']
      exact hlist.handle (by rw [hev, hcluster, h.cluster])

theorem serverTick_accept {s s' : Server ι} {env : AcceptEnv}
    (h : serverTick s (.accept i env) = some s') : s.conns i = none ∧
      s' = { s with conns := Function.update s.conns i (rpcOnAccept s.cluster env) } := by
  cases hi : s.conns i with
  | some c =>
    rw [serverTick, hi] at h
    cases h
  | none =>
    rw [serverTick, hi] at h
    cases h
    exact ⟨rfl, rfl⟩

theorem ServerOk.step {s s' : Server ι} {l : ServerTick ι} (h : ServerOk cm s)
    (hstep : serverTick s l = some s') : ServerOk cm s' := by
  cases l with
  | accept i env =>
    obtain ⟨hi, rfl⟩ := serverTick_accept hstep
    exact h.accept hi env
  | arrive i bs =>
    obtain ⟨c, hi, rfl⟩ := Option.map_eq_some_iff.1 hstep
    exact h.arrive hi bs
  | event i ev =>
    obtain ⟨c, hi, rfl⟩ := Option.map_eq_some_iff.1 hstep
    exact h.event hi rfl
  | gossip datagram now =>
    cases hstep
    exact h.change (e := .gossip datagram now) rfl
  | reap now =>
    cases hstep
    exact h.change (e := .reap now) rfl

theorem history_prefix_serverTick {s s' : Server ι} {l : ServerTick ι}
    (hstep : serverTick s l = some s') : s.history <+: s'.history := by
  cases l with
  | accept i env =>
    obtain ⟨-, rfl⟩ := serverTick_accept hstep
    exact List.prefix_rfl
  | arrive i bs =>
    obtain ⟨c, -, rfl⟩ := Option.map_eq_some_iff.1 hstep
    exact List.prefix_rfl
  | event i ev =>
    obtain ⟨c, -, rfl⟩ := Option.map_eq_some_iff.1 hstep
    exact List.prefix_append _ _
  | gossip datagram now =>
    cases hstep
    exact List.prefix_append _ _
  | reap now =>
    cases hstep
    exact List.prefix_append _ _

/-- Connection `i` in the order of the history: it has had nothing handled, or one request, and
its client has read part of the answer that the request has at its place. -/
inductive Linearized (cm : ClusterManager) (history : List (TableChange ι)) (i : ι) (got : Bytes)
    (output : Bytes) : Prop
  | unhandled (hreq : wholeRequest got = none) (hlisted : ∀ e ∈ history, e.conn ≠ some i)
      (hout : output = [])
  | handled {header : RpcHeader} {payload : Bytes} {join : JoinEnv} {now : UInt64}
      {before after : List (TableChange ι)} (hreq : wholeRequest got = some (header, payload))
      (hlisted : history = before ++ .request i header payload join now :: after)
      (honce : ∀ e ∈ before ++ after, e.conn ≠ some i)
      (hout : output <+: answerRequest (before.foldl TableChange.apply cm) header payload join)

omit [DecidableEq ι] in
theorem ConnOk.linearized {c : Conn} {got : Bytes} (h : ConnOk c got)
    (hlist : Listed cm history i c.processed) : Linearized cm history i got c.sock.output := by
  cases h with
  | receiving _ h =>
    rw [h.unanswered.processed] at hlist
    exact .unhandled h.request hlist h.unanswered.output
  | rejected _ h =>
    rw [h.processed] at hlist
    exact .unhandled h.request hlist h.output
  | handled p hp hreq hresp =>
    rw [hp] at hlist
    obtain ⟨before, after, hhist, honce, hcluster⟩ := hlist
    exact .handled hreq hhist honce (hcluster ▸ hresp.output)

/-- **The server is linearizable.** However the bytes of any number of connections arrive and
their callbacks interleave with each other, with datagrams and with ticks, and whatever fails:
the table is the one that the changes of the history give one after the other; what has been
read from a connection makes up a request exactly if the history has one of it, that request
and no other; and what has been sent on it is the start of the answer to that request at its
place in the history. Later steps only add to the history. -/
theorem rpc_server_linearizable {ls : List (ServerTick ι)} {s : Server ι}
    (hrun : run serverTick (Server.start cm) ls = some s) :
    s.cluster = s.history.foldl TableChange.apply cm ∧
    (∀ i c, s.conns i = some c → ∃ got, s.arrived i = got ++ c.sock.input ∧
      Linearized cm s.history i got c.sock.output) ∧
    (∀ e ∈ s.history, ∀ i, e.conn = some i → (s.conns i).isSome) ∧
    ∀ ls' s', run serverTick s ls' = some s' → s.history <+: s'.history := by
  have hok : ServerOk cm s :=
    run_induct (fun _ _ _ h _ hstep => h.step hstep) (serverOk_start cm) along_true hrun
  refine ⟨hok.cluster, fun i c hi => ?_, fun e he i hei => ?_, fun ls' s' hrun' => ?_⟩
  · have hat := hok.conns i
    rw [hi] at hat
    obtain ⟨got, harr, hc, hlist⟩ := hat
    exact ⟨got, harr, hc.linearized hlist⟩
  · have hat := hok.conns i
    cases hi : s.conns i with
    | none =>
      rw [hi] at hat
      exact absurd hei (hat.2 e he)
    | some c => rfl
  · exact run_induct (P := fun t => s.history <+: t.history)
      (fun _ _ _ h _ hstep => h.trans (history_prefix_serverTick hstep)) List.prefix_rfl along_true
      hrun'

end

/-- A JOIN in two pieces on one connection, and between them a LEAVE on another and a tick. -/
def twoClients : List (ServerTick Bool) :=
  let request := serializerPackRpc (joinRequestHeader asking) ++
    JoinRequestPayload.raw.put (joinRequest asking)
  [.accept false ⟨0, true, true, true⟩, .arrive false (request.take 100),
    .event false (pieceEvent true false 89), .event false (pieceEvent true false 20),
    .accept true ⟨0, true, true, true⟩, .arrive true (serializerPackRpc (leaveHeader asking)),
    .event true (pieceEvent true false 200), .reap 7, .arrive false (request.drop 100),
    .event false (pieceEvent true false 100), .event false (pieceEvent false true 50)]

theorem rpc_server_linearizable_two :
    ∃ s, run serverTick (Server.start asking) twoClients = some s ∧
      s.history.map TableChange.conn = [some true, none, some false] ∧
      s.cluster = s.history.foldl TableChange.apply asking := by
  have hhist : (run serverTick (Server.start asking) twoClients).map
      (fun s => s.history.map TableChange.conn) = some [some true, none, some false] := by
    decide +kernel
  obtain ⟨s, hrun, hconns⟩ := Option.map_eq_some_iff.1 hhist
  exact ⟨s, hrun, hconns, (rpc_server_linearizable hrun).1⟩

end DRoole
