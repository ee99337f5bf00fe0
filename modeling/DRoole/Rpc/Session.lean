import DRoole.Members.Manager

/-!
# The asynchronous RPC session

The server side of `src/protocol/rpc_handler.c`: a `ClientSession` takes one
request off a non-blocking socket and sends one response, over as many calls of
`rpc_on_client_event` as the socket needs. `header_bytes_read` and
`payload_bytes_read` are the lengths of what the two buffers hold so far.

Each event brings what the call takes from outside: its flags, what `recv` and
`send` do, the outcome of the allocations and of `loop_mod_fd`, and the cluster
manager as the other handlers have left it. Within one call `recv` and `send` are
each made at most once.
-/

namespace DRoole

open Lib

def maxPayloadSize : UInt64 := 10 * 1024 * 1024

inductive SessionState where
  | readingHeader
  | readingPayload
  | processing
  | sendingResponse
  | done
  deriving DecidableEq, Repr

structure ClientSession where
  state : SessionState
  headerBuf : Bytes
  payloadBuf : Bytes
  payloadTotal : Nat
  header : RpcHeader
  responseBuf : Bytes
  responseBytesSent : Nat
  deriving DecidableEq, Repr

/-! ## The socket -/

/-- What is still to be received, and what has been sent. -/
structure Socket where
  input : Bytes
  output : Bytes
  deriving DecidableEq, Repr

/-- What `recv` does: it delivers up to `n + 1` bytes, would block or is
interrupted, or fails or reports the end of the stream. -/
inductive Recv where
  | data (n : Nat)
  | wouldBlock
  | closed
  deriving DecidableEq, Repr

inductive Send where
  | data (n : Nat)
  | wouldBlock
  | error
  deriving DecidableEq, Repr

/-- `read_into_buffer` with `remaining` bytes to go: the bytes read, or `none` for -1. -/
def readIntoBuffer (sock : Socket) (recv : Recv) (remaining : Nat) : Option (Bytes × Socket) :=
  if remaining = 0 then some ([], sock)
  else match recv with
    | .wouldBlock => some ([], sock)
    | .closed => none
    | .data n =>
      let k := min (n + 1) remaining
      some (sock.input.take k, { sock with input := sock.input.drop k })

/-- `write_from_buffer` with `left` still to send: how much is written, or `none` for -1. -/
def writeFromBuffer (sock : Socket) (send : Send) (left : Bytes) : Option (Nat × Socket) :=
  if left = [] then some (0, sock)
  else match send with
    | .wouldBlock => some (0, sock)
    | .error => none
    | .data n =>
      let sent := left.take (n + 1)
      some (sent.length, { sock with output := sock.output ++ sent })

/-! ## Events -/

/-- What one call of `rpc_on_client_event` takes from outside. -/
structure Event where
  read : Bool
  write : Bool
  error : Bool
  recv : Recv
  send : Send
  /-- The allocation of `payload_buf`. -/
  malloc : Bool
  cluster : ClusterManager
  join : JoinEnv
  /-- The allocation of `response_buf`. -/
  mallocResponse : Bool
  loopMod : Bool
  now : UInt64

/-- A run of `handle_processing`: the request it works on, the event it runs in,
and what is still unread. -/
structure Processing where
  header : RpcHeader
  payload : Bytes
  event : Event
  unread : Bytes

/-- A session on its socket, until it is destroyed, with the cluster manager as it
last left it. -/
structure Conn where
  session : ClientSession
  alive : Bool
  sock : Socket
  cluster : ClusterManager
  processed : List Processing

namespace Conn

def modify (c : Conn) (f : ClientSession → ClientSession) : Conn := { c with session := f c.session }

end Conn

/-- `session_create` on a socket that receives `input`. -/
def sessionCreate (input : Bytes) (cluster : ClusterManager) : Conn :=
  { session :=
      { state := .readingHeader
        headerBuf := []
        payloadBuf := []
        payloadTotal := 0
        header := ⟨0, 0, 0, 0, .zero, .zero⟩
        responseBuf := []
        responseBytesSent := 0 }
    alive := true
    sock := ⟨input, []⟩
    cluster := cluster
    processed := [] }

/-! ## The handlers -/

/-- `handle_reading_header` once the header is complete. -/
def headerComplete (ev : Event) (c : Conn) : Conn × Int :=
  let header := serializerUnpackRpc c.session.headerBuf
  let c := c.modify fun s => { s with header := header }
  if header.magic ≠ rpcMagic then (c, -1)
  else if header.payloadLen > maxPayloadSize then (c, -1)
  else if header.payloadLen > 0 then
    if !ev.malloc then (c, -1)
    else
      (c.modify fun s =>
        { s with payloadTotal := header.payloadLen.toNat, state := .readingPayload }, 0)
  else (c.modify fun s => { s with state := .processing }, 0)

def handleReadingHeader (ev : Event) (c : Conn) : Conn × Int :=
  match readIntoBuffer c.sock ev.recv (90 - c.session.headerBuf.length) with
  | none => (c, -1)
  | some (bs, sock) =>
    if bs = [] then (c, 0)
    else
      let c := { c with sock := sock }.modify fun s => { s with headerBuf := s.headerBuf ++ bs }
      if c.session.headerBuf.length = 90 then headerComplete ev c else (c, 0)

def handleReadingPayload (ev : Event) (c : Conn) : Conn × Int :=
  match readIntoBuffer c.sock ev.recv (c.session.payloadTotal - c.session.payloadBuf.length) with
  | none => (c, -1)
  | some (bs, sock) =>
    if bs = [] then (c, 0)
    else
      let c := { c with sock := sock }.modify fun s => { s with payloadBuf := s.payloadBuf ++ bs }
      if c.session.payloadBuf.length = c.session.payloadTotal then
        (c.modify fun s => { s with state := .processing }, 0)
      else (c, 0)

/-- The header of the response to a JOIN request with header `header`. -/
def joinRespHeader (header : RpcHeader) (respLen : Nat) : RpcHeader :=
  { magic := rpcMagic
    version := 1
    commandType := rpcCmdJoinResp
    payloadLen := UInt64.ofNat respLen
    originId := .ofCString (header.originId.text.strncpy 36)
    requestId := .zero }

def joinResponse (header : RpcHeader) (body : Bytes) : Bytes :=
  serializerPackRpc (joinRespHeader header body.length) ++ body

def processJoin (ev : Event) (c : Conn) : Conn × Int :=
  if c.session.payloadTotal ≠ 89 then (c, -1)
  else
    let req := JoinRequestPayload.raw.read c.session.payloadBuf
    match clusterHandleJoinReq ev.cluster req ev.join with
    | (cm, none) => ({ c with cluster := cm }, -1)
    | (cm, some body) =>
      let c := { c with cluster := cm }
      if !ev.mallocResponse then (c, -1)
      else
        let c := c.modify fun s =>
          { s with responseBuf := joinResponse s.header body, state := .sendingResponse }
        if !ev.loopMod then (c, -1) else (c, 0)

/-- The string at `session->header.origin_id`, which runs on into `request_id`. -/
def RpcHeader.originText (h : RpcHeader) : CString :=
  CString.ofField (h.originId.bytes ++ h.requestId.bytes)

def handleProcessing (ev : Event) (c : Conn) : Conn × Int :=
  let c := { c with processed := c.processed ++
    [⟨c.session.header, c.session.payloadBuf, ev, c.sock.input⟩] }
  let cmd := c.session.header.commandType
  if cmd = rpcCmdJoinReq then processJoin ev c
  else if cmd = rpcCmdLeave then
    let cm := (clusterUpdateMemberStatus ev.cluster c.session.header.originText .dead ev.now).1
    ({ c with cluster := cm }.modify fun s => { s with state := .done }, 0)
  else if cmd = rpcCmdSyncRules then
    if c.session.payloadTotal < 68 then (c, -1)
    else (c.modify fun s => { s with state := .done }, 0)
  else (c, -1)

def handleSendingResponse (ev : Event) (c : Conn) : Conn × Int :=
  match writeFromBuffer c.sock ev.send (c.session.responseBuf.drop c.session.responseBytesSent) with
  | none => (c, -1)
  | some (n, sock) =>
    if n = 0 then (c, 0)
    else
      let c := { c with sock := sock }.modify fun s =>
        { s with responseBytesSent := s.responseBytesSent + n }
      if c.session.responseBytesSent = c.session.responseBuf.length then
        (c.modify fun s => { s with state := .done }, 0)
      else (c, 0)

/-! ## The event callback -/

/-- One turn of the loop in `rpc_on_client_event`: the result and `keep_processing`. -/
def turn (ev : Event) (c : Conn) : (Conn × Int) × Bool :=
  match c.session.state with
  | .readingHeader =>
    if ev.read then
      let r := handleReadingHeader ev c
      (r, r.1.session.state = .processing)
    else ((c, 0), false)
  | .readingPayload =>
    if ev.read then
      let r := handleReadingPayload ev c
      (r, r.1.session.state = .processing)
    else ((c, 0), false)
  | .processing =>
    let r := handleProcessing ev c
    (r, r.1.session.state = .sendingResponse)
  | .sendingResponse => if ev.write then (handleSendingResponse ev c, false) else ((c, 0), false)
  | .done => ((c, -1), false)

def turns : Nat → Event → Conn → Conn × Int
  | 0, _, c => (c, 0)
  | fuel + 1, ev, c =>
    let (r, keep) := turn ev c
    if keep ∧ r.2 = 0 then turns fuel ev r.1 else r

/-- The end of the callback: a negative result destroys the session. -/
def closeOnError (r : Conn × Int) : Conn := if r.2 < 0 then { r.1 with alive := false } else r.1

/-- `rpc_on_client_event`. Three turns are enough, see `turns_three`. -/
def rpcOnClientEvent (ev : Event) (c : Conn) : Conn :=
  if !c.alive then c
  else if ev.error then { c with alive := false }
  else closeOnError (turns 3 ev c)

def Conn.events (c : Conn) (evs : List Event) : Conn := evs.foldl (fun c ev => rpcOnClientEvent ev c) c

end DRoole
