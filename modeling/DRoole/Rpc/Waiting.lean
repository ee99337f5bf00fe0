import DRoole.Lib.Runs
import DRoole.Rpc.Stream

/-!
# What a session waits for

A session that is not destroyed should wait for the event its state needs. The
callback destroys a session whose handler fails, but it looks at the state
`DONE` only when the next event comes: a request that is done without an answer
(LEAVE, SYNC_RULES) and an answer whose last byte is sent leave the session there.

The interest in READ events is registered by `rpc_on_accept`; the only other
call is the `loop_mod_fd` at the end of a JOIN request.
-/

namespace DRoole

open Lib

inductive Interest where
  | read
  | write
  deriving DecidableEq, Repr

/-- A session and the events its descriptor is registered for. -/
structure Polled where
  conn : Conn
  interest : Interest

/-- The interest after one turn: `handle_processing` returns 0 on a JOIN request
only if `loop_mod_fd` has set it to WRITE. -/
def turnInterest (ev : Event) (c : Conn) (i : Interest) : Interest :=
  if c.session.state = .processing ∧ c.session.header.commandType = rpcCmdJoinReq ∧
      (handleProcessing ev c).2 = 0 then .write
  else i

/-- The interest after the loop of `rpc_on_client_event`. -/
def turnsInterest : Nat → Event → Conn → Interest → Interest
  | 0, _, _, i => i
  | fuel + 1, ev, c, i =>
    let (r, keep) := turn ev c
    let i := turnInterest ev c i
    if keep ∧ r.2 = 0 then turnsInterest fuel ev r.1 i else i

namespace Polled

def event (w : Polled) (ev : Event) : Polled where
  conn := rpcOnClientEvent ev w.conn
  interest := if !w.conn.alive ∨ ev.error then w.interest else turnsInterest 3 ev w.conn w.interest

end Polled

/-- The state goes with the events it needs. -/
def Rests (i : Interest) (c : Conn) : Prop :=
  (c.session.state = .readingHeader ∨ c.session.state = .readingPayload) ∧ i = .read ∨
    c.session.state = .sendingResponse ∧ i = .write

/-- The session is gone, or waits for something. -/
def Polled.Waits (w : Polled) : Prop := w.conn.alive = false ∨ Rests w.interest w.conn

/-- What is registered for a session that waits. -/
structure Polled.Registered (w : Polled) : Prop where
  reading : w.conn.session.state = .readingHeader ∨ w.conn.session.state = .readingPayload →
    w.interest = .read
  sending : w.conn.session.state = .sendingResponse → w.interest = .write

/-! ## The request a call ends -/

/-- What `handle_processing` works on. -/
structure FullRequest where
  header : RpcHeader
  payloadTotal : Nat
  payload : Bytes

/-- What `recv` adds to a buffer with `remaining` bytes to go. -/
def Event.received (ev : Event) (input : Bytes) (remaining : Nat) : Bytes :=
  match ev.recv with
  | .data n => input.take (min (n + 1) remaining)
  | .wouldBlock | .closed => []

/-- A request without payload whose header is complete with what the call receives. -/
def headerRequest (ev : Event) (c : Conn) : Option FullRequest :=
  let got := ev.received c.sock.input (90 - c.session.headerBuf.length)
  let header := serializerUnpackRpc (c.session.headerBuf ++ got)
  if ev.read ∧ got ≠ [] ∧ (c.session.headerBuf ++ got).length = 90 ∧ header.magic = rpcMagic ∧
      header.payloadLen = 0 then
    some ⟨header, c.session.payloadTotal, c.session.payloadBuf⟩
  else none

/-- A request whose payload is. -/
def payloadRequest (ev : Event) (c : Conn) : Option FullRequest :=
  let got := ev.received c.sock.input (c.session.payloadTotal - c.session.payloadBuf.length)
  if ev.read ∧ got ≠ [] ∧ (c.session.payloadBuf ++ got).length = c.session.payloadTotal then
    some ⟨c.session.header, c.session.payloadTotal, c.session.payloadBuf ++ got⟩
  else none

/-- The request of a session that is about to process it. -/
def Conn.request (c : Conn) : FullRequest :=
  ⟨c.session.header, c.session.payloadTotal, c.session.payloadBuf⟩

/-- The request that the call processes. -/
def requestOf (ev : Event) (c : Conn) : Option FullRequest :=
  match c.session.state with
  | .readingHeader => headerRequest ev c
  | .readingPayload => payloadRequest ev c
  | .processing => some c.request
  | .sendingResponse | .done => none

/-- The answer to a JOIN request, if nothing fails on the way to it. -/
def respondsTo (ev : Event) (r : FullRequest) : Option Bytes :=
  if r.header.commandType = rpcCmdJoinReq ∧ r.payloadTotal = 89 ∧ ev.mallocResponse ∧ ev.loopMod then
    (clusterHandleJoinReq ev.cluster (JoinRequestPayload.raw.read r.payload) ev.join).2.map
      (joinResponse r.header)
  else none

/-- The call sends the last byte of what is left to send. -/
def Event.SendsAll (ev : Event) (left : Bytes) : Prop :=
  ev.write = true ∧ left ≠ [] ∧ ∃ n, ev.send = .data n ∧ left.length ≤ n + 1

/-- A LEAVE, a SYNC_RULES of full length, or a JOIN whose answer goes out at once. -/
def Concludes (ev : Event) (r : FullRequest) (sent : Nat) : Prop :=
  r.header.commandType = rpcCmdLeave ∨
  (r.header.commandType = rpcCmdSyncRules ∧ 68 ≤ r.payloadTotal) ∨
  ∃ resp, respondsTo ev r = some resp ∧ ev.SendsAll (resp.drop sent)

/-- The call completes a request that needs no answer, or sends the last byte of one. -/
def Completes (ev : Event) (c : Conn) : Prop :=
  (∃ r, requestOf ev c = some r ∧ Concludes ev r c.session.responseBytesSent) ∨
  c.session.state = .sendingResponse ∧
    ev.SendsAll (c.session.responseBuf.drop c.session.responseBytesSent)

/-! ## The turns -/

/-- How a loop that leaves the session done exactly if `ends` may end. -/
def Settles (ends : Prop) (i : Interest) (r : Conn × Int) : Prop :=
  r.2 = -1 ∧ ¬ ends ∨ r.2 = 0 ∧ Rests i r.1 ∧ ¬ ends ∨ r.2 = 0 ∧ r.1.session.state = .done ∧ ends

theorem Settles.of_iff {ends ends' : Prop} {i : Interest} {r : Conn × Int} (h : Settles ends i r)
    (hiff : ends' ↔ ends) : Settles ends' i r := by
  rwa [propext hiff]

section
variable (ev : Event) {c : Conn}

theorem settles_sending (hs : c.session.state = .sendingResponse) :
    Settles (ev.SendsAll (c.session.responseBuf.drop c.session.responseBytesSent)) .write
      (turn ev c).1 := by
  have hrests : Rests .write c := .inr ⟨hs, rfl⟩
  unfold turn
  simp only [hs]
  split
  · rename_i hwrite
    unfold handleSendingResponse writeFromBuffer
    by_cases hleft : c.session.responseBuf.drop c.session.responseBytesSent = []
    · rw [if_pos hleft]
      exact .inr (.inl ⟨rfl, hrests, fun h => h.2.1 hleft⟩)
    rw [if_neg hleft]
    cases hsend : ev.send with
    | wouldBlock => exact .inr (.inl ⟨rfl, hrests, fun ⟨_, _, n, hn, _⟩ => by cases hsend.symm.trans hn⟩)
    | error => exact .inl ⟨rfl, fun ⟨_, _, n, hn, _⟩ => by cases hsend.symm.trans hn⟩
    | data n =>
      have hlen : 0 < (c.session.responseBuf.drop c.session.responseBytesSent).length :=
        List.length_pos_iff.2 hleft
      dsimp only
      rw [List.length_take, if_neg (by omega)]
      rw [List.length_drop] at hlen ⊢
      have hends : ev.SendsAll (c.session.responseBuf.drop c.session.responseBytesSent) ↔
          c.session.responseBuf.length - c.session.responseBytesSent ≤ n + 1 := by
        refine ⟨fun ⟨_, _, m, hm, hall⟩ => ?_, fun hall => ⟨hwrite, hleft, n, hsend, ?_⟩⟩
        · cases hsend.symm.trans hm
          rwa [List.length_drop] at hall
        · rwa [List.length_drop]
      split
      · rename_i hall
        have hall : c.session.responseBytesSent +
          min (n + 1) (c.session.responseBuf.length - c.session.responseBytesSent) =
            c.session.responseBuf.length := hall
        exact .inr (.inr ⟨rfl, rfl, hends.2 (by omega)⟩)
      · rename_i hpart
        have hpart : c.session.responseBytesSent +
          min (n + 1) (c.session.responseBuf.length - c.session.responseBytesSent) ≠
            c.session.responseBuf.length := hpart
        exact .inr (.inl ⟨rfl, .inr ⟨hs, rfl⟩, fun h => by have := hends.1 h; omega⟩)
  · rename_i hwrite
    exact .inr (.inl ⟨rfl, hrests, fun h => hwrite h.1⟩)

theorem processJoin_eq (ev : Event) (c : Conn) (hcmd : c.session.header.commandType = rpcCmdJoinReq) :
    (respondsTo ev c.request = none ∧ (processJoin ev c).2 = -1) ∨
      ∃ resp, respondsTo ev c.request = some resp ∧ (processJoin ev c).2 = 0 ∧
        (processJoin ev c).1.session =
          { c.session with responseBuf := resp, state := .sendingResponse } := by
  unfold processJoin respondsTo Conn.request
  dsimp only
  by_cases h89 : c.session.payloadTotal = 89
  · rw [if_neg (not_not.2 h89)]
    cases hjoin : clusterHandleJoinReq ev.cluster
        (JoinRequestPayload.raw.read c.session.payloadBuf) ev.join with
    | mk cm body =>
    cases body with
    | none => exact .inl ⟨by split <;> rfl, rfl⟩
    | some body =>
      cases hresp : ev.mallocResponse with
      | false => exact .inl ⟨if_neg fun h => Bool.false_ne_true h.2.2.1, rfl⟩
      | true =>
        cases hmod : ev.loopMod with
        | false => exact .inl ⟨if_neg fun h => Bool.false_ne_true h.2.2.2, rfl⟩
        | true => exact .inr ⟨_, if_pos ⟨hcmd, h89, rfl, rfl⟩, rfl, rfl⟩
  · rw [if_pos h89]
    exact .inl ⟨if_neg fun h => h89 h.2.1, rfl⟩

theorem turn_of_processing (hs : c.session.state = .processing) :
    turn ev c = (handleProcessing ev c,
      decide ((handleProcessing ev c).1.session.state = .sendingResponse)) := by
  unfold turn
  simp only [hs]

theorem turns_of_last (h : ¬ ((turn ev c).2 = true ∧ (turn ev c).1.2 = 0)) (n : Nat) :
    turns (n + 1) ev c = (turn ev c).1 := by
  rw [turns]
  exact if_neg h

theorem turnsInterest_sending (hs : c.session.state = .sendingResponse) (n : Nat) (i : Interest) :
    turnsInterest n ev c i = i := by
  cases n with
  | zero => rfl
  | succ n =>
    have hstop : (turn ev c).2 = false := by
      unfold turn
      simp only [hs]
      split
      · rfl
      · rfl
    have hkeep : turnInterest ev c i = i := if_neg fun h => by
      rw [hs] at h
      cases h.1
    rw [turnsInterest]
    simp only [hstop, hkeep]
    exact if_neg fun h => Bool.false_ne_true h.1

theorem respondsTo_of_ne {r : FullRequest} (hcmd : r.header.commandType ≠ rpcCmdJoinReq) :
    respondsTo ev r = none := if_neg fun h => hcmd h.1

theorem handleProcessing_of_join (hjoin : c.session.header.commandType = rpcCmdJoinReq) :
    ∃ c' : Conn, c'.session = c.session ∧ handleProcessing ev c = processJoin ev c' := by
  refine ⟨{ c with processed := c.processed ++
    [⟨c.session.header, c.session.payloadBuf, ev, c.sock.input⟩] }, rfl, ?_⟩
  unfold handleProcessing
  exact if_pos hjoin

theorem concludes_join_iff {r : FullRequest} (hjoin : r.header.commandType = rpcCmdJoinReq)
    (sent : Nat) :
    Concludes ev r sent ↔ ∃ resp, respondsTo ev r = some resp ∧ ev.SendsAll (resp.drop sent) := by
  refine ⟨?_, fun h => .inr (.inr h)⟩
  rintro (h | ⟨h, -⟩ | h)
  · exact absurd (hjoin.symm.trans h) (by decide)
  · exact absurd (hjoin.symm.trans h) (by decide)
  · exact h

theorem settles_join (hs : c.session.state = .processing)
    (hjoin : c.session.header.commandType = rpcCmdJoinReq) (i : Interest) (n : Nat) :
    Settles (Concludes ev c.request c.session.responseBytesSent) (turnsInterest (n + 2) ev c i)
      (turns (n + 2) ev c) := by
  have hturn := turn_of_processing ev hs
  obtain ⟨c', hsession, hproc⟩ := handleProcessing_of_join ev hjoin
  have hreq : c'.request = c.request := by
    unfold Conn.request
    rw [hsession]
  have hiff := concludes_join_iff ev (r := c.request) hjoin c.session.responseBytesSent
  unfold Settles
  rw [hiff]
  rcases processJoin_eq ev c' (by rw [hsession]; exact hjoin) with
    ⟨hnone, hcode⟩ | ⟨resp, hresp, hcode, hafter⟩
  · rw [turns_of_last ev (by rw [hturn, hproc, hcode]; exact fun h => absurd h.2 (by decide)), hturn,
      hproc]
    refine .inl ⟨hcode, fun ⟨resp, h, _⟩ => ?_⟩
    rw [← hreq, hnone] at h
    cases h
  · have hsend : (processJoin ev c').1.session.state = .sendingResponse := by rw [hafter]
    have hturns : turns (n + 2) ev c = (turn ev (processJoin ev c').1).1 := by
      rw [turns, hturn, hproc]
      simp only [hsend, hcode, decide_true, and_self, if_true]
      exact turns_of_sending hsend n
    have hint : turnsInterest (n + 2) ev c i = .write := by
      rw [turnsInterest, hturn, hproc]
      simp only [hsend, hcode, decide_true, and_self, if_true]
      rw [turnsInterest_sending ev hsend]
      exact if_pos ⟨hs, hjoin, by rw [hproc]; exact hcode⟩
    have hsettles := settles_sending ev hsend
    rw [hafter, hsession] at hsettles
    rw [hturns, hint, ← hreq, hresp]
    simpa only [Settles, Option.some.injEq, exists_eq_left'] using hsettles

theorem settles_unanswered (hs : c.session.state = .processing)
    (hjoin : c.session.header.commandType ≠ rpcCmdJoinReq) (i : Interest) (n : Nat) :
    Settles (Concludes ev c.request c.session.responseBytesSent) i (turns (n + 1) ev c) := by
  have hturn := turn_of_processing ev hs
  have hno : ∀ resp, respondsTo ev c.request ≠ some resp := fun resp => by
    rw [respondsTo_of_ne ev (r := c.request) hjoin]
    exact nofun
  have hstate : (handleProcessing ev c).1.session.state ≠ .sendingResponse := by
    have hsame : c.session.state ≠ .sendingResponse := by
      rw [hs]
      exact nofun
    unfold handleProcessing
    dsimp only
    rw [if_neg hjoin]
    split
    · exact nofun
    split
    · split
      · exact hsame
      · exact nofun
    · exact hsame
  have hstop : ¬ ((turn ev c).2 = true ∧ (turn ev c).1.2 = 0) := by
    rw [hturn]
    exact fun h => hstate (of_decide_eq_true h.1)
  rw [turns_of_last ev hstop, hturn]
  unfold handleProcessing
  dsimp only
  rw [if_neg hjoin]
  split
  · rename_i hleave
    exact .inr (.inr ⟨rfl, rfl, .inl hleave⟩)
  rename_i hleave
  split
  · rename_i hsync
    split
    · rename_i hshort
      refine .inl ⟨rfl, ?_⟩
      rintro (h | ⟨-, h⟩ | ⟨resp, h, -⟩)
      · exact hleave h
      · exact absurd hshort (Nat.not_lt.2 h)
      · exact hno resp h
    · rename_i hlong
      exact .inr (.inr ⟨rfl, rfl, .inr (.inl ⟨hsync, Nat.not_lt.1 hlong⟩)⟩)
  · rename_i hsync
    refine .inl ⟨rfl, ?_⟩
    rintro (h | ⟨h, -⟩ | ⟨resp, h, -⟩)
    · exact hleave h
    · exact hsync h
    · exact hno resp h

theorem settles_processing (hs : c.session.state = .processing) (i : Interest) (n : Nat) :
    Settles (Concludes ev c.request c.session.responseBytesSent) (turnsInterest (n + 2) ev c i)
      (turns (n + 2) ev c) := by
  by_cases hjoin : c.session.header.commandType = rpcCmdJoinReq
  · exact settles_join ev hs hjoin i n
  · exact settles_unanswered ev hs hjoin _ (n + 1)

/-! ### Reading -/

/-- What the handler of a session that reads its request comes to. -/
def ReadCases (ev : Event) (c : Conn) (r : Conn × Int) : Prop :=
  (r.2 = -1 ∧ requestOf ev c = none) ∨
  (r.2 = 0 ∧ requestOf ev c = none ∧
    (r.1.session.state = .readingHeader ∨ r.1.session.state = .readingPayload)) ∨
  (r.2 = 0 ∧ requestOf ev c = some r.1.request ∧ r.1.session.state = .processing ∧
    r.1.session.responseBytesSent = c.session.responseBytesSent)

theorem readIntoBuffer_eq_received (sock : Socket) (ev : Event) (remaining : Nat) :
    readIntoBuffer sock ev.recv remaining = none ∧ ev.received sock.input remaining = [] ∨
      ∃ sock', readIntoBuffer sock ev.recv remaining =
        some (ev.received sock.input remaining, sock') := by
  unfold readIntoBuffer Event.received
  by_cases hzero : remaining = 0
  · rw [if_pos hzero, hzero]
    right
    cases ev.recv with
    | data n => exact ⟨sock, by simp⟩
    | wouldBlock => exact ⟨sock, rfl⟩
    | closed => exact ⟨sock, rfl⟩
  · rw [if_neg hzero]
    cases ev.recv with
    | data n => exact .inr ⟨_, rfl⟩
    | wouldBlock => exact .inr ⟨_, rfl⟩
    | closed => exact .inl ⟨rfl, rfl⟩

/-- A complete header is refused, leads on to the payload, or is the whole request. -/
theorem headerComplete_cases (ev : Event) (c : Conn) {header : RpcHeader}
    (hheader : serializerUnpackRpc c.session.headerBuf = header) :
    ((headerComplete ev c).2 = -1 ∧ ¬ (header.magic = rpcMagic ∧ header.payloadLen = 0)) ∨
    ((headerComplete ev c).2 = 0 ∧ (headerComplete ev c).1.session.state = .readingPayload ∧
      ¬ (header.magic = rpcMagic ∧ header.payloadLen = 0)) ∨
    ((headerComplete ev c).2 = 0 ∧ (header.magic = rpcMagic ∧ header.payloadLen = 0) ∧
      (headerComplete ev c).1.session = { c.session with header := header, state := .processing }) := by
  simp only [headerComplete, hheader]
  by_cases hmagic : header.magic = rpcMagic
  · rw [if_neg (not_not.2 hmagic)]
    by_cases hlen : header.payloadLen = 0
    · have hlarge : ¬ header.payloadLen > maxPayloadSize := by
        rw [hlen]
        exact UInt64.not_lt.2 UInt64.zero_le
      have hzero : ¬ header.payloadLen > 0 := by
        rw [hlen]
        exact UInt64.lt_irrefl 0
      rw [if_neg hlarge, if_neg hzero]
      exact .inr (.inr ⟨rfl, ⟨hmagic, hlen⟩, rfl⟩)
    · have hno : ¬ (header.magic = rpcMagic ∧ header.payloadLen = 0) := fun h => hlen h.2
      have hpos : header.payloadLen > 0 := UInt64.pos_iff_ne_zero.2 hlen
      rw [if_pos hpos]
      split
      · exact .inl ⟨rfl, hno⟩
      split
      · exact .inl ⟨rfl, hno⟩
      · exact .inr (.inl ⟨rfl, rfl, hno⟩)
  · rw [if_pos hmagic]
    exact .inl ⟨rfl, fun h => hmagic h.1⟩

theorem readCases_header (hs : c.session.state = .readingHeader) (hread : ev.read = true) :
    ReadCases ev c (handleReadingHeader ev c) := by
  have hreq : requestOf ev c = headerRequest ev c := by
    unfold requestOf
    simp only [hs]
  unfold handleReadingHeader
  rcases readIntoBuffer_eq_received c.sock ev (90 - c.session.headerBuf.length) with
    ⟨hnone, hgot⟩ | ⟨sock, hsome⟩
  · rw [hnone]
    exact .inl ⟨rfl, hreq.trans (if_neg fun h => h.2.1 hgot)⟩
  rw [hsome]
  unfold headerRequest at hreq
  generalize ev.received c.sock.input (90 - c.session.headerBuf.length) = got at hreq
  dsimp only at hreq ⊢
  split
  · rename_i hnil
    exact .inr (.inl ⟨rfl, hreq.trans (if_neg fun h => h.2.1 hnil), .inl hs⟩)
  rename_i hnil
  split
  · rename_i hfull
    have hfull : (c.session.headerBuf ++ got).length = 90 := hfull
    rcases headerComplete_cases ev
        ({ c with sock := sock }.modify fun s => { s with headerBuf := s.headerBuf ++ got }) rfl with
      ⟨hcode, hno⟩ | ⟨hcode, hstate, hno⟩ | ⟨hcode, hyes, hsession⟩
    · exact .inl ⟨hcode, hreq.trans (if_neg fun h => hno h.2.2.2)⟩
    · exact .inr (.inl ⟨hcode, hreq.trans (if_neg fun h => hno h.2.2.2), .inr hstate⟩)
    · refine .inr (.inr ⟨hcode, hreq.trans ?_, by rw [hsession], by rw [hsession]; rfl⟩)
      rw [if_pos ⟨hread, hnil, hfull, hyes⟩, Conn.request, hsession]
      rfl
  · rename_i hpart
    have hpart : (c.session.headerBuf ++ got).length ≠ 90 := hpart
    exact .inr (.inl ⟨rfl, hreq.trans (if_neg fun h => hpart h.2.2.1), .inl hs⟩)

theorem readCases_payload (hs : c.session.state = .readingPayload) (hread : ev.read = true) :
    ReadCases ev c (handleReadingPayload ev c) := by
  have hreq : requestOf ev c = payloadRequest ev c := by
    unfold requestOf
    simp only [hs]
  unfold handleReadingPayload
  rcases readIntoBuffer_eq_received c.sock ev
      (c.session.payloadTotal - c.session.payloadBuf.length) with ⟨hnone, hgot⟩ | ⟨sock, hsome⟩
  · rw [hnone]
    exact .inl ⟨rfl, hreq.trans (if_neg fun h => h.2.1 hgot)⟩
  rw [hsome]
  unfold payloadRequest at hreq
  generalize ev.received c.sock.input (c.session.payloadTotal - c.session.payloadBuf.length) = got
    at hreq
  dsimp only at hreq ⊢
  split
  · rename_i hnil
    exact .inr (.inl ⟨rfl, hreq.trans (if_neg fun h => h.2.1 hnil), .inr hs⟩)
  rename_i hnil
  split
  · rename_i hfull
    exact .inr (.inr ⟨rfl, hreq.trans (if_pos ⟨hread, hnil, hfull⟩), rfl, rfl⟩)
  · rename_i hpart
    exact .inr (.inl ⟨rfl, hreq.trans (if_neg fun h => hpart h.2.2), .inr hs⟩)

theorem settles_reading {r : Conn × Int}
    (hs : c.session.state = .readingHeader ∨ c.session.state = .readingPayload)
    (hturn : turn ev c = (r, decide (r.1.session.state = .processing))) (hr : ReadCases ev c r)
    (n : Nat) :
    Settles (Completes ev c) (turnsInterest (n + 3) ev c .read) (turns (n + 3) ev c) := by
  have hsending : c.session.state ≠ .sendingResponse := by
    rcases hs with hs | hs <;> rw [hs] <;> exact nofun
  have hkeep : turnInterest ev c .read = .read := if_neg fun h => by
    rcases hs with hs | hs <;> rw [hs] at h <;> cases h.1
  have hno : requestOf ev c = none → ¬ Completes ev c := by
    rintro hnone (⟨q, hq, -⟩ | ⟨h, -⟩)
    · rw [hnone] at hq
      cases hq
    · exact hsending h
  rcases hr with ⟨hcode, hnone⟩ | ⟨hcode, hnone, hstate⟩ | ⟨hcode, hreq, hstate, hsent⟩
  · rw [turns_of_last ev (by rw [hturn, hcode]; exact fun h => absurd h.2 (by decide)), hturn]
    exact .inl ⟨hcode, hno hnone⟩
  · have hstop : decide (r.1.session.state = .processing) = false := by
      rcases hstate with h | h <;> rw [h] <;> rfl
    rw [turns_of_last ev (by rw [hturn, hstop]; exact fun h => Bool.false_ne_true h.1), hturn,
      turnsInterest, hturn]
    simp only [hstop, hkeep]
    exact .inr (.inl ⟨hcode, .inl ⟨hstate, if_neg fun h => Bool.false_ne_true h.1⟩, hno hnone⟩)
  · have hiff : Completes ev c ↔ Concludes ev r.1.request r.1.session.responseBytesSent := by
      unfold Completes
      rw [hreq, hsent]
      simp only [Option.some.injEq, exists_eq_left', hsending, false_and, or_false]
    rw [turns, turnsInterest, hturn]
    simp only [hstate, hcode, hkeep, decide_true, and_self, if_true]
    exact (settles_processing ev hstate .read n).of_iff hiff

theorem settles_idle (hs : c.session.state = .readingHeader ∨ c.session.state = .readingPayload)
    (hread : ev.read = false) (n : Nat) :
    Settles (Completes ev c) (turnsInterest (n + 3) ev c .read) (turns (n + 3) ev c) := by
  have hturn : turn ev c = ((c, 0), decide (c.session.state = .processing)) := by
    unfold turn
    rcases hs with hs | hs
    all_goals
      simp only [hs, hread, Bool.false_eq_true, if_false]
      rfl
  refine settles_reading ev hs hturn (.inr (.inl ⟨rfl, ?_, hs⟩)) n
  have hno : ¬ ev.read = true := by
    rw [hread]
    exact Bool.false_ne_true
  unfold requestOf
  rcases hs with hs | hs
  all_goals
    simp only [hs]
    exact if_neg fun h => hno h.1

end

/-- **The loop** of `rpc_on_client_event`. -/
theorem settles_turns {w : Polled} (hw : w.Registered) (ev : Event) :
    Settles (Completes ev w.conn) (turnsInterest 3 ev w.conn w.interest) (turns 3 ev w.conn) := by
  cases hs : w.conn.session.state with
  | readingHeader =>
    rw [hw.reading (.inl hs)]
    cases hread : ev.read with
    | true =>
      refine settles_reading ev (.inl hs) ?_ (readCases_header ev hs hread) 0
      unfold turn
      simp only [hs, hread, if_true]
    | false => exact settles_idle ev (.inl hs) hread 0
  | readingPayload =>
    rw [hw.reading (.inr hs)]
    cases hread : ev.read with
    | true =>
      refine settles_reading ev (.inr hs) ?_ (readCases_payload ev hs hread) 0
      unfold turn
      simp only [hs, hread, if_true]
    | false => exact settles_idle ev (.inr hs) hread 0
  | processing =>
    have hiff : Completes ev w.conn ↔
        Concludes ev w.conn.request w.conn.session.responseBytesSent := by
      unfold Completes requestOf
      simp only [hs, Option.some.injEq, exists_eq_left', reduceCtorEq, false_and, or_false]
    exact (settles_processing ev hs w.interest 1).of_iff hiff
  | sendingResponse =>
    have hiff : Completes ev w.conn ↔
        ev.SendsAll (w.conn.session.responseBuf.drop w.conn.session.responseBytesSent) := by
      unfold Completes requestOf
      simp only [hs, reduceCtorEq, false_and, exists_false, false_or, true_and]
    rw [turns_of_sending hs 2, turnsInterest_sending ev hs, hw.sending hs]
    exact (settles_sending ev hs).of_iff hiff
  | done =>
    have hturn : turn ev w.conn = ((w.conn, -1), false) := by
      unfold turn
      simp only [hs]
    rw [turns_of_last ev (by rw [hturn]; exact fun h => Bool.false_ne_true h.1), hturn]
    refine .inl ⟨rfl, ?_⟩
    unfold Completes requestOf
    simp only [hs]
    rintro (⟨r, h, -⟩ | ⟨h, -⟩) <;> cases h

/-! ## The callback -/

theorem headerComplete_alive (ev : Event) (c : Conn) : (headerComplete ev c).1.alive = c.alive := by
  generalize hheader : serializerUnpackRpc c.session.headerBuf = header
  simp only [headerComplete, hheader, apply_ite Prod.fst, apply_ite Conn.alive, Conn.modify, ite_self]

theorem handleReadingHeader_alive (ev : Event) (c : Conn) :
    (handleReadingHeader ev c).1.alive = c.alive := by
  unfold handleReadingHeader
  cases readIntoBuffer c.sock ev.recv (90 - c.session.headerBuf.length) with
  | none => rfl
  | some p =>
    dsimp only
    split
    · rfl
    · split
      · exact headerComplete_alive ev _
      · rfl

theorem handleReadingPayload_alive (ev : Event) (c : Conn) :
    (handleReadingPayload ev c).1.alive = c.alive := by
  unfold handleReadingPayload
  dsimp only
  repeat' split
  all_goals rfl

theorem handleProcessing_alive (ev : Event) (c : Conn) :
    (handleProcessing ev c).1.alive = c.alive := by
  unfold handleProcessing processJoin
  dsimp only
  repeat' split
  all_goals rfl

theorem handleSendingResponse_alive (ev : Event) (c : Conn) :
    (handleSendingResponse ev c).1.alive = c.alive := by
  unfold handleSendingResponse
  dsimp only
  repeat' split
  all_goals rfl

theorem turn_alive (ev : Event) (c : Conn) : (turn ev c).1.1.alive = c.alive := by
  unfold turn
  cases c.session.state with
  | readingHeader =>
    dsimp only
    split
    · exact handleReadingHeader_alive ev c
    · rfl
  | readingPayload =>
    dsimp only
    split
    · exact handleReadingPayload_alive ev c
    · rfl
  | processing => exact handleProcessing_alive ev c
  | sendingResponse =>
    dsimp only
    split
    · exact handleSendingResponse_alive ev c
    · rfl
  | done => rfl

theorem turns_alive (fuel : Nat) (ev : Event) (c : Conn) :
    (turns fuel ev c).1.alive = c.alive := by
  induction fuel generalizing c with
  | zero => rfl
  | succ fuel ih =>
    unfold turns
    dsimp only
    split
    · exact (ih _).trans (turn_alive ev c)
    · exact turn_alive ev c

theorem registered_of_rests {w : Polled} (h : Rests w.interest w.conn) : w.Registered := by
  rcases h with ⟨hs, hi⟩ | ⟨hs, hi⟩
  · refine ⟨fun _ => hi, fun hs' => ?_⟩
    rcases hs with hs | hs <;> cases hs.symm.trans hs'
  · refine ⟨fun hs' => ?_, fun _ => hi⟩
    rcases hs' with hs' | hs' <;> cases hs.symm.trans hs'

/-- The calls after which the session still waits or is gone: it was gone, the
event is an error, or nothing is completed. -/
def KeepsWaiting (w : Polled) (ev : Event) : Prop :=
  w.conn.alive = false ∨ ev.error = true ∨ ¬ Completes ev w.conn

/-- **Every call** of `rpc_on_client_event`. -/
theorem waits_event_iff {w : Polled} (hw : w.Registered) (ev : Event) :
    (w.event ev).Waits ↔ KeepsWaiting w ev := by
  unfold Polled.Waits Polled.event rpcOnClientEvent KeepsWaiting
  cases halive : w.conn.alive with
  | false => simp [halive]
  | true =>
    cases herror : ev.error with
    | true => simp
    | false =>
      simp only [Bool.not_true, Bool.false_eq_true, if_false, or_self, reduceCtorEq, false_or]
      rcases settles_turns hw ev with ⟨hcode, hno⟩ | ⟨hcode, hrests, hno⟩ | ⟨hcode, hdone, hyes⟩
      · rw [closeOnError_minus hcode]
        exact iff_of_true (.inl rfl) hno
      · rw [closeOnError_zero hcode]
        exact iff_of_true (.inr hrests) hno
      · rw [closeOnError_zero hcode]
        refine iff_of_false ?_ (not_not.2 hyes)
        rintro (hgone | ⟨hs | hs, -⟩ | ⟨hs, -⟩)
        · rw [turns_alive, halive] at hgone
          cases hgone
        all_goals
          rw [hdone] at hs
          cases hs

theorem destroyed_of_failed {w : Polled} {ev : Event} (hcode : (turns 3 ev w.conn).2 < 0)
    (halive : w.conn.alive = true) : (w.event ev).conn.alive = false := by
  unfold Polled.event rpcOnClientEvent
  rw [halive]
  cases ev.error with
  | true => rfl
  | false => exact congrArg Conn.alive (if_pos hcode)

/-! ## Whole sessions -/

def accepted (input : Bytes) (cluster : ClusterManager) : Polled := ⟨sessionCreate input cluster, .read⟩

def pollStep (w : Polled) (ev : Event) : Option Polled := some (w.event ev)

theorem waits_accepted (input : Bytes) (cluster : ClusterManager) :
    (accepted input cluster).Waits := .inr (.inl ⟨.inl rfl, rfl⟩)

theorem waits_pollStep {w w' : Polled} {ev : Event} (hw : w.Waits) (hstep : pollStep w ev = some w') :
    w'.Waits ↔ KeepsWaiting w ev := by
  cases hstep
  rcases hw with hgone | hrests
  · refine iff_of_true (.inl ?_) (.inl hgone)
    unfold Polled.event rpcOnClientEvent
    rw [hgone]
    exact hgone
  · exact waits_event_iff (registered_of_rests hrests) ev

/-- **Sessions wait or are gone** exactly as long as no call completes a request
that has no answer or sends the last byte of one: for every call in every state,
and along every run of a session that waits, as an accepted one does. A failing
handler ends in destruction. -/
theorem session_waits_iff (w : Polled) (hw : w.Registered) (ev : Event) :
    ((w.event ev).Waits ↔ KeepsWaiting w ev) ∧
    (w.conn.alive = true → (turns 3 ev w.conn).2 < 0 → (w.event ev).conn.alive = false) ∧
    ∀ evs : List Event, w.Waits →
      ((∀ before w', before <+: evs → run pollStep w before = some w' → w'.Waits) ↔
        Along pollStep KeepsWaiting w evs) :=
  ⟨waits_event_iff hw ev, fun halive hcode => destroyed_of_failed hcode halive,
    fun _ hwaits => forall_run_iff_along_of_total (P := Polled.Waits)
      (fun w ev => ⟨w.event ev, rfl⟩) (fun _ _ _ => waits_pollStep) hwaits⟩

/-- The first 40 bytes of a request leave the session reading. -/
theorem session_waits_for_header :
    let w := accepted (serializerPackRpc (joinRequestHeader asking)) asking
    w.Waits ∧ (w.event (pieceEvent true false 39)).Waits := by
  have hw : (accepted (serializerPackRpc (joinRequestHeader asking)) asking).Registered :=
    ⟨fun _ => rfl, nofun⟩
  refine ⟨waits_accepted .., (session_waits_iff _ hw (pieceEvent true false 39)).1.2 (.inr (.inr ?_))⟩
  rintro (⟨r, hr, -⟩ | ⟨hs, -⟩)
  · have hnone : requestOf (pieceEvent true false 39)
        (accepted (serializerPackRpc (joinRequestHeader asking)) asking).conn = none := by
      refine if_neg fun h => absurd h.2.2.1 ?_
      decide +kernel
    rw [hnone] at hr
    cases hr
  · cases hs

/-- A LEAVE request in one piece: the member is marked dead, and the session stays in
`DONE` with READ events registered. -/
theorem leave_keeps_session :
    let header : RpcHeader := ⟨rpcMagic, 1, rpcCmdLeave, 0, .zero, .zero⟩
    let w := (accepted (serializerPackRpc header) asking).event (pieceEvent true false 89)
    w.conn.alive = true ∧ w.conn.session.state = .done ∧ w.interest = .read ∧ ¬ w.Waits := by
  refine ⟨by decide +kernel, by decide +kernel, by decide +kernel, ?_⟩
  rintro (h | ⟨h | h, -⟩ | ⟨h, -⟩)
  all_goals
    revert h
    decide +kernel

end DRoole
