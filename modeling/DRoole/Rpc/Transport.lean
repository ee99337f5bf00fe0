import DRoole.Rpc.Framing

/-!
# The loops of the blocking transport

`tcp_send_all` and `tcp_recv_all` of `src/transport/tcp_transport.c` call `send` and
`recv` until all bytes are through. The calls may be short, interrupted or refused;
their results are a list that the loops consume. An interrupted `send` is tried again,
an interrupted `recv` is an error like any other.

What `rpc_send_message` puts on the connection and what `rpc_recv_message` makes of it
is then, whatever the calls return, the message as a whole or a failure.
-/

namespace DRoole

open Lib

/-- What a call of `send` returns. -/
inductive SendCall where
  | sent (n : Nat)
  | interrupted
  | error
  deriving DecidableEq, Repr

/-- What a call of `recv` returns: at most `n + 1` bytes, or -1. -/
inductive RecvCall where
  | bytes (n : Nat)
  | error
  deriving DecidableEq, Repr

/-- `tcp_send_all`: what gets on the connection, the value returned if it does return, and the
calls that are left. -/
def tcpSendAll : List SendCall → Bytes → Bytes × Option Int × List SendCall
  | os, [] => ([], some 0, os)
  | [], _ :: _ => ([], none, [])
  | .error :: os, _ :: _ => ([], some (-1), os)
  | .interrupted :: os, b :: bs => tcpSendAll os (b :: bs)
  | .sent n :: os, b :: bs =>
    let r := tcpSendAll os ((b :: bs).drop n)
    ((b :: bs).take n ++ r.1, r.2)

/-- `tcp_recv_all` on a connection that delivers `stream` and is closed then: the buffer and what
is left, or `none` for -1. There is no result while it waits in `recv`. -/
def tcpRecvAll : List RecvCall → Nat → Bytes → Option (Option (Bytes × Bytes) × List RecvCall)
  | rs, 0, stream => some (some ([], stream), rs)
  | [], _ + 1, _ => none
  | .error :: rs, _ + 1, _ => some (none, rs)
  | .bytes n :: rs, len + 1, stream =>
    let got := stream.take (min (n + 1) (len + 1))
    if got = [] then some (none, rs)
    else (tcpRecvAll rs (len + 1 - got.length) (stream.drop got.length)).map fun r =>
      (r.1.map fun b => (got ++ b.1, b.2), r.2)

def rpcSendMessageTcp (os : List SendCall) (header : RpcHeader) (payload : Option Bytes) :
    Bytes × Option Int :=
  let r := tcpSendAll os (RpcHeader.raw.put header)
  if r.2.1 ≠ some 0 then (r.1, r.2.1)
  else match payload with
    | none => (r.1, some 0)
    | some bs =>
      if header.payloadLen > 0 then
        let r' := tcpSendAll r.2.2 (bs.take header.payloadLen.toNat)
        (r.1 ++ r'.1, r'.2.1)
      else (r.1, some 0)

def rpcRecvMessageTcp (rs : List RecvCall) (stream : Bytes) (malloc : Bool) : Option RecvResult :=
  (tcpRecvAll rs 90 stream).bind fun r =>
    match r.1 with
    | none => some ⟨-1, none, none⟩
    | some (bs, rest) =>
      let header := RpcHeader.raw.get bs
      if header.magic ≠ rpcMagic then some ⟨-2, some header, none⟩
      else if header.payloadLen > maxPayloadSize then some ⟨-2, some header, none⟩
      else if header.payloadLen > 0 then
        if !malloc then some ⟨-1, some header, none⟩
        else (tcpRecvAll r.2 header.payloadLen.toNat rest).map fun r' =>
          match r'.1 with
          | none => ⟨-1, some header, none⟩
          | some (payload, _) => ⟨0, some header, some payload⟩
      else some ⟨0, some header, none⟩

/-! ## The loops -/

/-- What is on the connection is the start of the data, and all of it if the call returns 0. -/
theorem tcpSendAll_spec (os : List SendCall) (data : Bytes) :
    (tcpSendAll os data).1 <+: data ∧
      ((tcpSendAll os data).2.1 = some 0 → (tcpSendAll os data).1 = data) := by
  fun_induction tcpSendAll os data with
  | case1 os => exact ⟨List.prefix_rfl, fun _ => rfl⟩
  | case2 b bs => exact ⟨List.nil_prefix, fun h => by cases h⟩
  | case3 os b bs => exact ⟨List.nil_prefix, fun h => by cases h⟩
  | case4 os b bs ih => exact ih
  | case5 n os b bs r ih =>
    obtain ⟨hpre, hall⟩ := ih
    refine ⟨?_, fun hzero => ?_⟩
    · conv_rhs => rw [← List.take_append_drop n (b :: bs)]
      exact (List.prefix_append_right_inj _).2 hpre
    · show (b :: bs).take n ++ r.1 = b :: bs
      rw [hall hzero, List.take_append_drop]

theorem readN_split {n : Nat} {got bs : Bytes} (hgot : got <+: bs) (hn : got.length ≤ n) :
    (readN (n - got.length) (bs.drop got.length)).map (fun b => (got ++ b.1, b.2)) =
      readN n bs := by
  obtain ⟨rest, rfl⟩ := hgot
  rw [List.drop_left, readN, readN, List.length_append]
  by_cases hle : n ≤ got.length + rest.length
  · rw [if_pos (by omega), if_pos hle, List.take_append, List.drop_append,
      List.take_of_length_le hn, List.drop_of_length_le hn]
    rfl
  · rw [if_neg (by omega), if_neg hle]
    rfl

theorem tcpRecvAll_spec {rs rs' : List RecvCall} {len : Nat} {stream : Bytes}
    {r : Option (Bytes × Bytes)} (h : tcpRecvAll rs len stream = some (r, rs')) :
    rs' <:+ rs ∧ (r = readN len stream ∨ r = none ∧ .error ∈ rs) := by
  induction rs generalizing len stream r with
  | nil =>
    cases len with
    | zero =>
      cases h
      exact ⟨List.suffix_rfl, .inl rfl⟩
    | succ len => cases h
  | cons o rs ih =>
    cases len with
    | zero =>
      cases h
      exact ⟨List.suffix_rfl, .inl rfl⟩
    | succ len =>
      cases o with
      | error =>
        cases h
        exact ⟨List.suffix_cons _ _, .inr ⟨rfl, List.mem_cons_self⟩⟩
      | bytes n =>
        rw [tcpRecvAll] at h
        split at h
        · rename_i hgot
          cases h
          have hempty : stream = [] := (List.take_eq_nil_iff.1 hgot).resolve_left (by omega)
          refine ⟨List.suffix_cons _ _, .inl ?_⟩
          rw [hempty]
          rfl
        · obtain ⟨⟨r', rs''⟩, hrest, heq⟩ := Option.map_eq_some_iff.1 h
          cases heq
          obtain ⟨hsuffix, hr⟩ := ih hrest
          refine ⟨hsuffix.trans (List.suffix_cons _ _), ?_⟩
          rcases hr with rfl | ⟨rfl, herror⟩
          · refine .inl (readN_split (List.take_prefix ..) ?_)
            rw [List.length_take]
            omega
          · exact .inr ⟨rfl, List.mem_cons_of_mem _ herror⟩

/-- Every call that does not fail brings a byte. -/
theorem tcpRecvAll_isSome {rs : List RecvCall} {len : Nat} (stream : Bytes) (hlen : len ≤ rs.length) :
    (tcpRecvAll rs len stream).isSome := by
  induction rs generalizing len stream with
  | nil =>
    obtain rfl : len = 0 := Nat.le_zero.1 hlen
    rfl
  | cons o rs ih =>
    cases len with
    | zero => rfl
    | succ len =>
      cases o with
      | error => rfl
      | bytes n =>
        rw [tcpRecvAll]
        split
        · rfl
        · rename_i hgot
          have hpos := List.length_pos_iff.2 hgot
          rw [Option.isSome_map]
          refine ih _ ?_
          rw [List.length_cons] at hlen
          omega

/-- So the loop makes at most as many calls as there are bytes to read. -/
theorem tcpRecvAll_left {rs rs' : List RecvCall} {len : Nat} {stream : Bytes}
    {r : Option (Bytes × Bytes)} (h : tcpRecvAll rs len stream = some (r, rs')) :
    rs.length ≤ rs'.length + len := by
  induction rs generalizing len stream r with
  | nil => exact Nat.zero_le _
  | cons o rs ih =>
    cases len with
    | zero =>
      cases h
      exact le_rfl
    | succ len =>
      cases o with
      | error =>
        cases h
        rw [List.length_cons]
        omega
      | bytes n =>
        rw [tcpRecvAll] at h
        split at h
        · cases h
          rw [List.length_cons]
          omega
        · rename_i hgot
          obtain ⟨⟨r', rs''⟩, hrest, heq⟩ := Option.map_eq_some_iff.1 h
          cases heq
          have hleft := ih hrest
          have hpos := List.length_pos_iff.2 hgot
          rw [List.length_cons]
          omega

/-! ## Messages -/

theorem rpcSendMessageTcp_spec (os : List SendCall) (header : RpcHeader) (payload : Option Bytes) :
    (rpcSendMessageTcp os header payload).1 <+: rpcSendMessage header payload ∧
      ((rpcSendMessageTcp os header payload).2 = some 0 →
        (rpcSendMessageTcp os header payload).1 = rpcSendMessage header payload) := by
  obtain ⟨hpre, hall⟩ := tcpSendAll_spec os (RpcHeader.raw.put header)
  unfold rpcSendMessageTcp rpcSendMessage
  dsimp only
  split
  · rename_i hfail
    exact ⟨hpre.trans (List.prefix_append ..), fun hzero => absurd hzero hfail⟩
  · rename_i hzero
    have hheader := hall (not_not.1 hzero)
    cases payload with
    | none =>
      dsimp only
      rw [hheader, List.append_nil]
      exact ⟨List.prefix_rfl, fun _ => rfl⟩
    | some bs =>
      dsimp only
      split
      · obtain ⟨hpre', hall'⟩ := tcpSendAll_spec (tcpSendAll os (RpcHeader.raw.put header)).2.2
          (bs.take header.payloadLen.toNat)
        rw [hheader]
        exact ⟨(List.prefix_append_right_inj _).2 hpre', fun hzero' => by rw [hall' hzero']⟩
      · rw [hheader, List.append_nil]
        exact ⟨List.prefix_rfl, fun _ => rfl⟩

theorem rpcRecvMessageTcp_spec {rs : List RecvCall} {stream : Bytes} {malloc : Bool}
    {r : RecvResult} (h : rpcRecvMessageTcp rs stream malloc = some r) :
    r = rpcRecvMessage stream malloc ∨ r.code = -1 ∧ .error ∈ rs := by
  obtain ⟨⟨first, rs'⟩, hfirst, h⟩ := Option.bind_eq_some_iff.1 h
  obtain ⟨hsuffix, rfl | ⟨rfl, herror⟩⟩ := tcpRecvAll_spec hfirst
  · unfold rpcRecvMessage
    dsimp only at h
    cases hread : readN 90 stream with
    | none =>
      rw [hread] at h
      cases h
      exact .inl rfl
    | some b =>
      obtain ⟨bs, rest⟩ := b
      rw [hread] at h
      dsimp only at h ⊢
      split at h
      · rename_i hmagic
        cases h
        rw [if_pos hmagic]
        exact .inl rfl
      rename_i hmagic
      rw [if_neg hmagic]
      split at h
      · rename_i hmax
        cases h
        rw [if_pos hmax]
        exact .inl rfl
      rename_i hmax
      rw [if_neg hmax]
      split at h
      · rename_i hpos
        rw [if_pos hpos]
        split at h
        · rename_i hmalloc
          cases h
          rw [if_pos hmalloc]
          exact .inl rfl
        rename_i hmalloc
        rw [if_neg hmalloc]
        obtain ⟨⟨second, rs''⟩, hsecond, heq⟩ := Option.map_eq_some_iff.1 h
        obtain ⟨-, rfl | ⟨rfl, herror⟩⟩ := tcpRecvAll_spec hsecond
        · refine .inl (heq.symm.trans ?_)
          cases readN (RpcHeader.raw.get bs).payloadLen.toNat rest with
          | none => rfl
          | some b => rfl
        · cases heq
          exact .inr ⟨rfl, hsuffix.subset herror⟩
      · rename_i hpos
        cases h
        rw [if_neg hpos]
        exact .inl rfl
  · cases h
    exact .inr ⟨rfl, herror⟩

theorem rpcRecvMessageTcp_isSome {rs : List RecvCall} {stream : Bytes} (malloc : Bool)
    (hheader : 90 ≤ rs.length)
    (hpayload : ∀ bs rest, readN 90 stream = some (bs, rest) →
      90 + (RpcHeader.raw.get bs).payloadLen.toNat ≤ rs.length) :
    (rpcRecvMessageTcp rs stream malloc).isSome := by
  obtain ⟨⟨first, rs'⟩, hfirst⟩ := Option.isSome_iff_exists.1 (tcpRecvAll_isSome stream hheader)
  have hleft := tcpRecvAll_left hfirst
  rw [rpcRecvMessageTcp, hfirst, Option.bind_some]
  cases first with
  | none => rfl
  | some b =>
    obtain ⟨bs, rest⟩ := b
    have hread : readN 90 stream = some (bs, rest) := by
      rcases (tcpRecvAll_spec hfirst).2 with hread | ⟨hnone, -⟩
      · exact hread.symm
      · cases hnone
    have hcalls := hpayload bs rest hread
    dsimp only
    split
    · rfl
    split
    · rfl
    split
    · split
      · rfl
      · rw [Option.isSome_map]
        exact tcpRecvAll_isSome rest (by omega)
    · rfl

/-- A message as `rpc_recv_message` delivers it; an empty payload leaves a null pointer. -/
def wholeMessage (header : RpcHeader) (payload : Bytes) : RecvResult :=
  ⟨0, some header, if header.payloadLen > 0 then some payload else none⟩

section
variable {header : RpcHeader} {payload : Bytes} (hmagic : header.magic = rpcMagic)
  (hmax : ¬header.payloadLen > maxPayloadSize) (hlen : payload.length = header.payloadLen.toNat)
include hmagic hmax hlen

omit hmagic hmax in
theorem rpcSendMessage_eq : rpcSendMessage header (some payload) =
    RpcHeader.raw.put header ++ payload := by
  unfold rpcSendMessage
  dsimp only
  split
  · rw [List.take_of_length_le hlen.le]
  · rename_i hzero
    have hnil : payload.length = 0 := by
      rw [hlen]
      exact congrArg UInt64.toNat (UInt64.le_zero_iff.1 (UInt64.not_lt.1 hzero))
    rw [List.length_eq_zero_iff.1 hnil]

/-- The start of a message is received as -1; all of it as the message, or as -1 if there is no
block for its payload. -/
theorem rpcRecvMessage_front {w : Bytes} (hw : w <+: rpcSendMessage header (some payload))
    (malloc : Bool) :
    rpcRecvMessage w malloc = wholeMessage header payload ∨
    ((rpcRecvMessage w malloc).code = -1 ∧ (w ≠ rpcSendMessage header (some payload) ∨
      (header.payloadLen > 0 ∧ malloc = false))) := by
  have hput : (RpcHeader.raw.put header).length = 90 := RpcHeader.raw.length_put header
  rw [rpcSendMessage_eq hlen] at hw ⊢
  by_cases hshort : w.length < 90
  · refine .inr ⟨?_, .inl fun e => ?_⟩
    · rw [rpcRecvMessage, readN_eq_none hshort]
    · rw [e, List.length_append, hput] at hshort
      omega
  obtain ⟨rest, rfl⟩ : RpcHeader.raw.put header <+: w :=
    List.prefix_of_prefix_length_le (List.prefix_append ..) hw (by omega)
  have hrest := (List.prefix_append_right_inj _).1 hw
  rw [rpcRecvMessage, readN_append hput]
  dsimp only
  rw [RpcHeader.raw.get_put, if_neg (not_not.2 hmagic), if_neg hmax]
  by_cases hpos : header.payloadLen > 0
  swap
  · rw [if_neg hpos, wholeMessage, if_neg hpos]
    exact .inl rfl
  rw [if_pos hpos, wholeMessage, if_pos hpos]
  cases malloc with
  | false => exact .inr ⟨rfl, .inr ⟨hpos, rfl⟩⟩
  | true =>
    rw [if_neg (by decide)]
    by_cases hall : rest = payload
    · subst hall
      have hread := readN_append hlen []
      rw [List.append_nil] at hread
      rw [hread]
      exact .inl rfl
    · have hlt : rest.length < header.payloadLen.toNat := by
        rw [← hlen]
        exact lt_of_le_of_ne hrest.length_le fun e => hall (hrest.eq_of_length e)
      rw [readN_eq_none hlt]
      exact .inr ⟨rfl, .inl fun e => hall (List.append_cancel_left e)⟩

/-- **Messages arrive whole.** Whatever `send`, `recv` and `malloc` return at the two ends: what
`rpc_recv_message` makes of a message of `rpc_send_message` is that message, or it returns -1, and
then a `recv` has failed, the sender has not returned 0, or there was no block for a payload that
is not empty. If none of this is so, it returns with the message. -/
theorem rpc_message_whole (os : List SendCall) (rs : List RecvCall) (malloc : Bool) :
    let sent := rpcSendMessageTcp os header (some payload)
    (∀ r, rpcRecvMessageTcp rs sent.1 malloc = some r →
      r = wholeMessage header payload ∨
        r.code = -1 ∧ (sent.2 ≠ some 0 ∨ .error ∈ rs ∨ (header.payloadLen > 0 ∧ malloc = false))) ∧
    (sent.2 = some 0 → .error ∉ rs → ¬(header.payloadLen > 0 ∧ malloc = false) →
      90 + payload.length ≤ rs.length →
      rpcRecvMessageTcp rs sent.1 malloc = some (wholeMessage header payload)) := by
  intro sent
  obtain ⟨hfront, hall⟩ := rpcSendMessageTcp_spec os header (some payload)
  have hcases := rpcRecvMessage_front hmagic hmax hlen hfront malloc
  have hpart : ∀ r, rpcRecvMessageTcp rs sent.1 malloc = some r →
      r = wholeMessage header payload ∨ r.code = -1 ∧
        (sent.2 ≠ some 0 ∨ .error ∈ rs ∨ (header.payloadLen > 0 ∧ malloc = false)) := by
    intro r hr
    rcases rpcRecvMessageTcp_spec hr with rfl | ⟨hcode, herror⟩
    · rcases hcases with hwhole | ⟨hcode, hne | hnone⟩
      · exact .inl hwhole
      · exact .inr ⟨hcode, .inl fun hzero => hne (hall hzero)⟩
      · exact .inr ⟨hcode, .inr (.inr hnone)⟩
    · exact .inr ⟨hcode, .inr (.inl herror)⟩
  refine ⟨hpart, fun hzero hclean hblock hcalls => ?_⟩
  have hsome : (rpcRecvMessageTcp rs sent.1 malloc).isSome := by
    refine rpcRecvMessageTcp_isSome malloc (by omega) fun bs rest hread => ?_
    have hput : (RpcHeader.raw.put header).length = 90 := RpcHeader.raw.length_put header
    have hstream : sent.1 = rpcSendMessage header (some payload) := hall hzero
    rw [hstream, rpcSendMessage, readN_append hput] at hread
    cases hread
    rw [RpcHeader.raw.get_put, ← hlen]
    exact hcalls
  obtain ⟨r, hr⟩ := Option.isSome_iff_exists.1 hsome
  rcases hpart r hr with rfl | ⟨-, hfail | herror | hnone⟩
  · exact hr
  · exact absurd hzero hfail
  · exact absurd herror hclean
  · exact absurd hnone hblock

end

/-- A message in three pieces, with an interrupted call between them. -/
theorem rpc_message_whole_pieces :
    let header : RpcHeader := ⟨rpcMagic, 1, 32, 3, .zero, .zero⟩
    let sent := rpcSendMessageTcp [.sent 40, .interrupted, .sent 50, .sent 7] header (some [1, 2, 3])
    sent.2 = some 0 ∧ rpcRecvMessageTcp (List.replicate 93 (.bytes 30)) sent.1 true =
      some ⟨0, some header, some [1, 2, 3]⟩ := by
  intro header sent
  have hzero : sent.2 = some 0 := by decide
  exact ⟨hzero, (rpc_message_whole rfl (by decide) (by decide) _ _ true).2 hzero (by decide)
    (by decide) (by decide)⟩

end DRoole
