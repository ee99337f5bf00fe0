import DRoole.Event.Dispatch
import DRoole.Rpc.Server

/-!
# Sessions in the event loop

`loop_run` follows the pointer to a record, and the callback it finds there follows
the pointer to its session. `rpc_on_accept` allocates a session and registers it for
the fd of the connection; `session_destroy` takes the fd out of the loop, closes it
and frees the session. Both run while other events of the same `epoll_wait` are still
to come.

A callback of the node removes no fd but its own, and the kernel reports an fd once.
So no pointer is followed after its block is freed, neither to a record nor to a
session, and no session is left behind.
-/

namespace DRoole

open Lib Lib.Linked

/-- The callbacks that `main` registers. -/
inductive Service where
  | rpcOnAccept
  | onGossipReceive
  | onHeartbeatTimer
  | clusterReaperTick
  deriving DecidableEq, Repr

inductive NodeHandler where
  | service (s : Service)
  | rpcOnClientEvent
  deriving DecidableEq, Repr

/-- The node inside `loop_run`. The context of a session's callback is its address, that of a
service is left out. A session is kept with its `sockfd`; `opened` are the fds in use. -/
structure NodeMemory (π σ : Type) where
  loop : LoopState π NodeHandler (Option σ)
  sessions : σ → Option (Int32 × Conn)
  opened : Int32 → Bool

/-- What a callback takes from outside. -/
structure CallbackEnv (π σ : Type) where
  /-- The fd that `accept` returns. -/
  accept : Option Int32
  nonblocking : Bool
  /-- What `session_create` allocates, and the manager it is given. -/
  session : Option σ
  cluster : ClusterManager
  /-- The record that `loop_add_fd` allocates, and whether it can. -/
  block : π
  malloc : Bool
  ctlAdd : Bool
  ctlDel : Bool
  /-- What has come in on the connection. -/
  arrived : Bytes
  event : Event

inductive NodeTick (π σ : Type) where
  /-- A registration in `main`. -/
  | register (fd : Int32) (s : Service) (block : π) (malloc ctl : Bool)
  | stop
  | wait (ready : List (Int32 × UInt32))
  | dispatch (env : CallbackEnv π σ)

variable {π σ : Type} [DecidableEq π] [DecidableEq σ]

def sessionDestroy (fuel : Nat) (s : NodeMemory π σ) (p : σ) (fd : Int32)
    (env : CallbackEnv π σ) : Option (NodeMemory π σ) :=
  ((LoopCall.delFd fd env.ctlDel).runMem fuel env.block s.loop.mem).map fun r =>
    { loop := { s.loop with mem := r.1 }
      sessions := Function.update s.sessions p none
      opened := Function.update s.opened fd false }

/-- `rpc_on_accept`. A connection without a session is closed again. -/
def rpcOnAcceptMem (fuel : Nat) (s : NodeMemory π σ) (env : CallbackEnv π σ) :
    Option (NodeMemory π σ) :=
  match env.accept with
  | none => some s
  | some fd =>
    if !env.nonblocking then some s
    else match env.session with
      | none => some s
      | some p =>
        let session := sessionCreate [] env.cluster
        let call : LoopCall NodeHandler (Option σ) :=
          .addFd fd 1 (some .rpcOnClientEvent) (some p) env.malloc env.ctlAdd
        (call.runMem fuel env.block s.loop.mem).bind fun r =>
          let s : NodeMemory π σ :=
            { loop := { s.loop with mem := r.1 }
              sessions := Function.update s.sessions p (some (fd, session))
              opened := Function.update s.opened fd true }
          if r.2 ≠ 0 then sessionDestroy fuel s p fd env else some s

/-- What the calls of `rpc_on_accept` return, without the addresses. -/
def CallbackEnv.acceptEnv (env : CallbackEnv π σ) : AcceptEnv where
  accept := if env.accept.isSome then 0 else -2
  nonblocking := env.nonblocking
  calloc := env.session.isSome
  addFd := env.malloc && env.ctlAdd

def rpcOnClientEventMem (fuel : Nat) (s : NodeMemory π σ) (p : σ) (events : UInt32)
    (env : CallbackEnv π σ) : Option (NodeMemory π σ) :=
  (s.sessions p).bind fun (fd, c) =>
    let ev : Event := { env.event with
      read := events &&& 1 ≠ 0, write := events &&& 2 ≠ 0, error := events &&& 4 ≠ 0 }
    let c' := rpcOnClientEvent ev
      { c with sock := { c.sock with input := c.sock.input ++ env.arrived } }
    let call : LoopCall NodeHandler (Option σ) :=
      .modFd fd 2 (some .rpcOnClientEvent) (some p) ev.loopMod
    -- `handle_processing` makes the call right after it has built `response_buf`
    (if c.session.responseBuf = [] ∧ c'.session.responseBuf ≠ [] then
        (call.runMem fuel env.block s.loop.mem).map Prod.fst
      else some s.loop.mem).bind fun mem =>
      let s : NodeMemory π σ :=
        { s with
          loop := { s.loop with mem := mem }
          sessions := Function.update s.sessions p (some (fd, c')) }
      if c'.alive then some s else sessionDestroy fuel s p fd env

/-- The services other than `rpc_on_accept` register nothing and remove nothing. -/
def runCallback (fuel : Nat) (s : NodeMemory π σ) (call : Invocation NodeHandler (Option σ))
    (env : CallbackEnv π σ) : Option (NodeMemory π σ) :=
  match call.callback with
  | .rpcOnClientEvent => call.context.bind fun p => rpcOnClientEventMem fuel s p call.events env
  | .service .rpcOnAccept => rpcOnAcceptMem fuel s env
  | .service _ => some s

/-- There is no next state if a pointer to a freed block is followed. -/
def nodeTick (fuel : Nat) (s : NodeMemory π σ) : NodeTick π σ → Option (NodeMemory π σ)
  | .register fd service block malloc ctl =>
    (loopTick fuel s.loop (.call (.addFd fd 1 (some (.service service)) none malloc ctl) block)).map
      fun loop => { s with loop := loop, opened := Function.update s.opened fd true }
  | .stop => (loopTick fuel s.loop .stop).map fun loop => { s with loop := loop }
  | .wait ready => (loopTick fuel s.loop (.wait ready)).map fun loop => { s with loop := loop }
  | .dispatch env =>
    (loopTick fuel s.loop .dispatch).bind fun loop =>
      loop.invoked.getLast?.bind fun call => runCallback fuel { s with loop := loop } call env

def nodeStart : NodeMemory π σ := ⟨loopRunStart, fun _ => none, fun _ => false⟩

/-- The step is the next one of `loop_run`. -/
def Enabled (s : NodeMemory π σ) : NodeTick π σ → Prop
  | .register .. | .stop => True
  | .wait _ => s.loop.running = true ∧ s.loop.pending.isEmpty = true
  | .dispatch _ => s.loop.pending ≠ []

/-- New fds and blocks are not in use, an fd is reported once, and epoll refuses no removal. -/
def KernelOk (s : NodeMemory π σ) : NodeTick π σ → Prop
  | .register fd _ block _ _ =>
    (0 ≤ fd ∧ s.opened fd = false) ∧ (s.loop.mem.table.val block).isNone = true
  | .stop => True
  | .wait ready => (ready.map Prod.fst).Nodup
  | .dispatch env => (∀ fd ∈ env.accept, 0 ≤ fd ∧ s.opened fd = false) ∧
      (∀ p ∈ env.session, (s.sessions p).isNone = true) ∧
      (s.loop.mem.table.val env.block).isNone = true ∧ env.ctlDel = true

instance (s : NodeMemory π σ) : (l : NodeTick π σ) → Decidable (KernelOk s l)
  | .register .. => inferInstanceAs (Decidable ((_ ∧ _ = _) ∧ _ = _))
  | .stop => inferInstanceAs (Decidable True)
  | .wait _ => inferInstanceAs (Decidable (List.Nodup _))
  | .dispatch env =>
    have : Decidable (∀ fd ∈ env.accept, 0 ≤ fd ∧ s.opened fd = false) :=
      Option.decidableForallMem env.accept
    inferInstanceAs (Decidable (_ ∧ (∀ p ∈ env.session, _ = _) ∧ _ = _ ∧ _ = _))

/-! ## Registrations -/

section
variable {β γ : Type} {loop : EventLoop β γ}

theorem registered_loopAddFd (loop : EventLoop β γ) (fd : Int32) (events : UInt32) (callback : β)
    (context : γ) (malloc ctl : Bool) :
    let r := loopAddFd loop fd events (some callback) context malloc ctl
    r = (loop, -1) ∨
      r.2 = 0 ∧ registered r.1 = Function.update (registered loop) fd (some (callback, context)) := by
  intro r
  have hstep : LoopStep loop (.addFd fd events (some callback) context malloc ctl) r :=
    loopAddFd_step ..
  have hother : ∀ fd', fd' ≠ fd → registered r.1 fd' = registered loop fd' :=
    fun _ hne => hstep.registered_of_ne hne
  clear_value r
  cases hstep with
  | refused => exact .inl rfl
  | added _ hnew =>
    refine .inr ⟨rfl, funext fun fd' => ?_⟩
    by_cases hfd : fd' = fd
    · subst hfd
      rw [Function.update_self]
      exact registered_push ..
    · rw [Function.update_of_ne hfd]
      exact hother fd' hfd

theorem code_loopAddFd {fd : Int32} (hfd : 0 ≤ fd) (hnew : registered loop fd = none)
    (events : UInt32) (callback : β) (context : γ) (malloc ctl : Bool) :
    (loopAddFd loop fd events (some callback) context malloc ctl).2 =
      if malloc && ctl then 0 else -1 := by
  have hfind : findFileContext loop fd = none := Option.map_eq_none_iff.1 hnew
  cases malloc with
  | false =>
    rw [loopAddFd, if_neg (Int32.not_lt.2 hfd)]
    rfl
  | true =>
    rw [loopAddFd_of_none (Int32.not_lt.2 hfd) hfind]
    cases ctl <;> rfl

theorem registered_loopModFd {fd : Int32} {callback : β} {context : γ}
    (hreg : registered loop fd = some (callback, context)) (events : UInt32) (ctl : Bool) :
    registered (loopModFd loop fd events (some callback) context ctl).1 = registered loop := by
  have hstep : LoopStep loop (.modFd fd events (some callback) context ctl)
      (loopModFd loop fd events (some callback) context ctl) := loopModFd_step ..
  funext fd'
  by_cases hfd : fd' = fd
  · subst hfd
    generalize loopModFd loop fd' events (some callback) context ctl = r at hstep
    cases hstep with
    | refused => rfl
    | changed _ hold ctl => rw [hreg, registered_modify _ _ _ hold]
  · exact hstep.registered_of_ne hfd

theorem registered_loopDelFd (hsound : loop.Sound) {fd : Int32} (hfd : 0 ≤ fd) (ctl : Bool) :
    registered (loopDelFd loop fd ctl).1 = Function.update (registered loop) fd none := by
  have hstep : LoopStep loop (.delFd fd ctl) (loopDelFd loop fd ctl) := loopDelFd_step ..
  funext fd'
  by_cases hne : fd' = fd
  · subst hne
    rw [Function.update_self]
    unfold loopDelFd removeFileContext
    rw [if_neg (Int32.not_lt.2 hfd)]
    dsimp only
    split
    · rename_i hnone
      rw [registered, Option.isNone_iff_eq_none.1 hnone]
      rfl
    · split
      · exact registered_erase _ _ hsound
      · exact registered_erase _ _ hsound
  · rw [Function.update_of_ne hne]
    exact hstep.registered_of_ne hne

end

/-! ## Sessions and records -/

/-- The sessions in memory are those whose addresses are registered. -/
structure Bound (reg : Int32 → Option (NodeHandler × Option σ))
    (sessions : σ → Option (Int32 × Conn)) : Prop where
  session : ∀ fd context, reg fd = some (.rpcOnClientEvent, context) →
    ∃ p c, context = some p ∧ sessions p = some (fd, c)
  record : ∀ p fd c, sessions p = some (fd, c) →
    c.alive = true ∧ reg fd = some (.rpcOnClientEvent, some p)

namespace Bound

variable {reg : Int32 → Option (NodeHandler × Option σ)} {sessions : σ → Option (Int32 × Conn)}

omit [DecidableEq σ] in
theorem ne_of_unregistered (h : Bound reg sessions) {fd fd' : Int32} (hnew : reg fd = none) {p : σ}
    {c : Conn} (hp : sessions p = some (fd', c)) : fd' ≠ fd := by
  rintro rfl
  exact Option.some_ne_none _ ((h.record p fd' c hp).2.symm.trans hnew)

omit [DecidableEq σ] in
theorem addService (h : Bound reg sessions) {fd : Int32} (hnew : reg fd = none) (s : Service) :
    Bound (Function.update reg fd (some (.service s, none))) sessions where
  session fd' context hreg := by
    by_cases hfd : fd' = fd
    · subst hfd
      rw [Function.update_self] at hreg
      cases hreg
    · rw [Function.update_of_ne hfd] at hreg
      exact h.session fd' context hreg
  record p fd' c hp := by
    rw [Function.update_of_ne (h.ne_of_unregistered hnew hp)]
    exact h.record p fd' c hp

theorem addSession (h : Bound reg sessions) {fd : Int32} (hnew : reg fd = none) {p : σ}
    (hfree : sessions p = none) {c : Conn} (halive : c.alive = true) :
    Bound (Function.update reg fd (some (.rpcOnClientEvent, some p)))
      (Function.update sessions p (some (fd, c))) where
  session fd' context hreg := by
    by_cases hfd : fd' = fd
    · subst hfd
      rw [Function.update_self] at hreg
      cases hreg
      exact ⟨p, c, rfl, Function.update_self ..⟩
    · rw [Function.update_of_ne hfd] at hreg
      obtain ⟨q, c', rfl, hq⟩ := h.session fd' context hreg
      have hne : q ≠ p := by
        rintro rfl
        exact Option.some_ne_none _ (hq.symm.trans hfree)
      exact ⟨q, c', rfl, by rw [Function.update_of_ne hne]; exact hq⟩
  record q fd' c' hq := by
    by_cases hqp : q = p
    · subst hqp
      rw [Function.update_self] at hq
      cases hq
      exact ⟨halive, Function.update_self ..⟩
    · rw [Function.update_of_ne hqp] at hq
      rw [Function.update_of_ne (h.ne_of_unregistered hnew hq)]
      exact h.record q fd' c' hq

theorem setSession (h : Bound reg sessions) {p : σ} {fd : Int32} {c c' : Conn}
    (hp : sessions p = some (fd, c)) (halive : c'.alive = true) :
    Bound reg (Function.update sessions p (some (fd, c'))) where
  session fd' context hreg := by
    obtain ⟨q, d, rfl, hq⟩ := h.session fd' context hreg
    by_cases hqp : q = p
    · subst hqp
      cases hp.symm.trans hq
      exact ⟨q, c', rfl, Function.update_self ..⟩
    · exact ⟨q, d, rfl, by rw [Function.update_of_ne hqp]; exact hq⟩
  record q fd' d hq := by
    by_cases hqp : q = p
    · subst hqp
      rw [Function.update_self] at hq
      cases hq
      exact ⟨halive, (h.record q fd c hp).2⟩
    · rw [Function.update_of_ne hqp] at hq
      exact h.record q fd' d hq

theorem dropSession (h : Bound reg sessions) {p : σ} {fd : Int32} {c : Conn}
    (hp : sessions p = some (fd, c)) :
    Bound (Function.update reg fd none) (Function.update sessions p none) where
  session fd' context hreg := by
    by_cases hfd : fd' = fd
    · subst hfd
      rw [Function.update_self] at hreg
      cases hreg
    · rw [Function.update_of_ne hfd] at hreg
      obtain ⟨q, d, rfl, hq⟩ := h.session fd' context hreg
      have hne : q ≠ p := by
        rintro rfl
        cases hp.symm.trans hq
        exact hfd rfl
      exact ⟨q, d, rfl, by rw [Function.update_of_ne hne]; exact hq⟩
  record q fd' d hq := by
    by_cases hqp : q = p
    · subst hqp
      rw [Function.update_self] at hq
      cases hq
    · rw [Function.update_of_ne hqp] at hq
      obtain ⟨halive, hreg⟩ := h.record q fd' d hq
      have hfd : fd' ≠ fd := by
        rintro rfl
        have hboth := hreg.symm.trans (h.record p fd' c hp).2
        cases hboth
        exact hqp rfl
      rw [Function.update_of_ne hfd]
      exact ⟨halive, hreg⟩

end Bound

/-! ## One registration call in memory -/

omit [DecidableEq π] in
theorem Agree.mono {β γ : Type} {fuel m n : Nat} {s : LoopState π β γ} {a : Reactor β γ}
    (h : Agree fuel m s a) (hle : n ≤ m) : Agree fuel n s a := by
  obtain ⟨t, h⟩ := h
  exact ⟨t, { h with room := fun i => by have := h.room i; omega }⟩

theorem Agree.runMem {β γ : Type} {fuel n : Nat} {s : LoopState π β γ} {a : Reactor β γ}
    (h : Agree fuel (n + 1) s a) {c : LoopCall β γ} {block : π}
    (hok : RemovesNoPending s (.call c block)) :
    ∃ mem, c.runMem fuel block s.mem = some (mem, (c.run a.loop).2) ∧
      Agree fuel n { s with mem := mem } { a with loop := (c.run a.loop).1 } := by
  have hrel := h.call hok
  obtain ⟨t, h⟩ := h
  have hroom : ∀ i, (t i).length + 1 < fuel := fun i => by
    have := h.room i
    omega
  obtain ⟨mem, t', hrun, -, -⟩ := h.stored.call hroom (c, block) hok.1
  refine ⟨mem, hrun, ?_⟩
  rw [loopTick, hrun, Reactor.tick] at hrel
  cases hrel with
  | some hnew => exact hnew

/-! ## Steps -/

/-- What holds between the steps of the node, with room for `n` more calls. -/
structure NodeSafe (fuel n : Nat) (s : NodeMemory π σ) (a : Reactor NodeHandler (Option σ)) :
    Prop where
  agree : Agree fuel n s.loop a
  sound : a.loop.Sound
  opened : ∀ fd, registered a.loop fd ≠ none → 0 ≤ fd ∧ s.opened fd = true
  once : (s.loop.pending.map EpollEvent.fd).Nodup
  bound : Bound (registered a.loop) s.sessions

variable {fuel n : Nat} {s : NodeMemory π σ} {a : Reactor NodeHandler (Option σ)}

omit [DecidableEq π] [DecidableEq σ] in
theorem NodeSafe.pending (h : NodeSafe fuel n s a) {e : EpollEvent π} (he : e ∈ s.loop.pending) :
    registered a.loop e.fd ≠ none := by
  obtain ⟨t, hd⟩ := h.agree
  obtain ⟨fc, -, -, hreg⟩ := hd.record he
  rw [hreg]
  exact Option.some_ne_none _

omit [DecidableEq π] [DecidableEq σ] in
theorem NodeSafe.unregistered (h : NodeSafe fuel n s a) {fd : Int32} (hfd : s.opened fd = false) :
    registered a.loop fd = none := by
  by_contra hreg
  exact Bool.false_ne_true (hfd.symm.trans (h.opened fd hreg).2)

omit [DecidableEq σ] in
theorem opened_update {reg : Int32 → Option (NodeHandler × Option σ)} {opened : Int32 → Bool}
    (h : ∀ fd, reg fd ≠ none → 0 ≤ fd ∧ opened fd = true) {fd : Int32} (hfd : 0 ≤ fd)
    (b : NodeHandler × Option σ) :
    ∀ fd', Function.update reg fd (some b) fd' ≠ none →
      0 ≤ fd' ∧ Function.update opened fd true fd' = true := by
  intro fd' hreg
  by_cases hne : fd' = fd
  · subst hne
    exact ⟨hfd, Function.update_self ..⟩
  · rw [Function.update_of_ne hne] at hreg ⊢
    exact h fd' hreg

theorem sessionDestroy_agree (h : Agree fuel (n + 1) s.loop a) {fd : Int32}
    (hlast : fd ∉ s.loop.pending.map EpollEvent.fd) {env : CallbackEnv π σ}
    (hdel : env.ctlDel = true) (p : σ) :
    ∃ mem, sessionDestroy fuel s p fd env = some
        ⟨{ s.loop with mem := mem }, Function.update s.sessions p none,
          Function.update s.opened fd false⟩ ∧
      Agree fuel n { s.loop with mem := mem }
        { a with loop := (loopDelFd a.loop fd env.ctlDel).1 } := by
  have hok : RemovesNoPending s.loop (.call (.delFd fd env.ctlDel) env.block) := by
    refine ⟨trivial, hdel, fun e he ctl heq => ?_⟩
    cases heq
    exact hlast (List.mem_map_of_mem he)
  obtain ⟨mem, hrun, hagree⟩ := h.runMem hok
  refine ⟨mem, ?_, hagree⟩
  rw [sessionDestroy, hrun]
  rfl

theorem NodeSafe.destroy (h : NodeSafe fuel (n + 1) s a) {p : σ} {fd : Int32} {c : Conn}
    (hp : s.sessions p = some (fd, c)) (hlast : fd ∉ s.loop.pending.map EpollEvent.fd)
    {env : CallbackEnv π σ} (hdel : env.ctlDel = true) (c' : Conn) :
    ∃ s', sessionDestroy fuel { s with sessions := Function.update s.sessions p (some (fd, c')) }
      p fd env = some s' ∧ ∃ a', NodeSafe fuel n s' a' := by
  have hreg := (h.bound.record p fd c hp).2
  have hfd := (h.opened fd (by rw [hreg]; exact Option.some_ne_none _)).1
  have hdrop := registered_loopDelFd h.sound hfd env.ctlDel
  obtain ⟨mem, hdestroy, hagree⟩ := sessionDestroy_agree
    (s := { s with sessions := Function.update s.sessions p (some (fd, c')) }) h.agree hlast hdel p
  refine ⟨_, hdestroy, _, hagree, (loopDelFd_step ..).sound h.sound, fun fd' hreg' => ?_, h.once, ?_⟩
  · dsimp only at hreg' ⊢
    rw [hdrop] at hreg'
    by_cases hne : fd' = fd
    · subst hne
      exact absurd (Function.update_self ..) hreg'
    · rw [Function.update_of_ne hne] at hreg' ⊢
      exact h.opened fd' hreg'
  · dsimp only
    rw [hdrop, Function.update_idem]
    exact h.bound.dropSession hp

omit [DecidableEq π] [DecidableEq σ] in
theorem NodeSafe.mono {m : Nat} (h : NodeSafe fuel m s a) (hle : n ≤ m) : NodeSafe fuel n s a :=
  { h with agree := h.agree.mono hle }

theorem NodeSafe.clientEvent (h : NodeSafe fuel (n + 2) s a) {p : σ} {fd : Int32}
    (hreg : registered a.loop fd = some (.rpcOnClientEvent, some p))
    (hlast : fd ∉ s.loop.pending.map EpollEvent.fd) (events : UInt32) {env : CallbackEnv π σ}
    (hdel : env.ctlDel = true) :
    ∃ s', rpcOnClientEventMem fuel s p events env = some s' ∧ ∃ a', NodeSafe fuel n s' a' := by
  obtain ⟨_, c, ⟨⟩, hp⟩ := h.bound.session fd _ hreg
  unfold rpcOnClientEventMem
  rw [hp, Option.bind_some]
  dsimp only
  generalize rpcOnClientEvent _ _ = c'
  have hmod : ∃ mem a', (if c.session.responseBuf = [] ∧ c'.session.responseBuf ≠ [] then
        (LoopCall.runMem fuel (.modFd fd 2 (some .rpcOnClientEvent) (some p) env.event.loopMod)
          env.block s.loop.mem).map Prod.fst
      else some s.loop.mem) = some mem ∧
      NodeSafe fuel (n + 1) { s with loop := { s.loop with mem := mem } } a' := by
    split
    · have hok : RemovesNoPending s.loop (.call (.modFd fd 2 (some .rpcOnClientEvent) (some p)
          env.event.loopMod) env.block) := ⟨trivial, rfl, fun _ _ _ heq => by cases heq⟩
      obtain ⟨mem, hrun, hagree⟩ := h.agree.runMem hok
      have hsame := registered_loopModFd hreg 2 env.event.loopMod
      refine ⟨mem, _, by rw [hrun]; rfl, hagree, (loopModFd_step ..).sound h.sound, ?_, h.once, ?_⟩
      · intro fd' hreg'
        exact h.opened fd' (hsame ▸ hreg')
      · exact hsame ▸ h.bound
    · exact ⟨s.loop.mem, a, rfl, h.mono (Nat.le_succ _)⟩
  obtain ⟨mem, a', hmem, hok⟩ := hmod
  rw [hmem, Option.bind_some]
  cases halive : c'.alive with
  | true =>
    exact ⟨_, rfl, a', hok.agree.mono (Nat.le_succ _), hok.sound, hok.opened, hok.once,
      hok.bound.setSession hp halive⟩
  | false => exact hok.destroy hp hlast hdel c'

/-- `session_destroy` of a session that could not be registered: all is as it was. -/
theorem NodeSafe.undoSession (h : NodeSafe fuel (n + 1) s a) {fd : Int32} (hfd : 0 ≤ fd)
    (hclosed : s.opened fd = false) {p : σ} (hp : s.sessions p = none) {env : CallbackEnv π σ}
    (hdel : env.ctlDel = true) (c : Conn) :
    ∃ s', sessionDestroy fuel ⟨s.loop, Function.update s.sessions p (some (fd, c)),
      Function.update s.opened fd true⟩ p fd env = some s' ∧ ∃ a', NodeSafe fuel n s' a' := by
  have hreg := h.unregistered hclosed
  have hlast : fd ∉ s.loop.pending.map EpollEvent.fd := by
    intro hmem
    obtain ⟨e, he, rfl⟩ := List.mem_map.1 hmem
    exact h.pending he hreg
  have hdrop := registered_loopDelFd h.sound hfd env.ctlDel
  rw [Function.update_eq_self_iff.2 hreg.symm] at hdrop
  obtain ⟨mem, hdestroy, hagree⟩ := sessionDestroy_agree
    (s := ⟨s.loop, Function.update s.sessions p (some (fd, c)), Function.update s.opened fd true⟩)
    h.agree hlast hdel p
  refine ⟨_, hdestroy, _, hagree, (loopDelFd_step ..).sound h.sound, fun fd' hreg' => ?_, h.once, ?_⟩
  · dsimp only at hreg' ⊢
    rw [hdrop] at hreg'
    rw [Function.update_idem, Function.update_eq_self_iff.2 hclosed.symm]
    exact h.opened fd' hreg'
  · dsimp only
    rw [hdrop, Function.update_idem, Function.update_eq_self_iff.2 hp.symm]
    exact h.bound

theorem NodeSafe.acceptClient (h : NodeSafe fuel (n + 2) s a) {env : CallbackEnv π σ}
    (hnew : ∀ fd ∈ env.accept, 0 ≤ fd ∧ s.opened fd = false)
    (hfree : ∀ p ∈ env.session, (s.sessions p).isNone = true)
    (hblock : (s.loop.mem.table.val env.block).isNone = true) (hdel : env.ctlDel = true) :
    ∃ s', rpcOnAcceptMem fuel s env = some s' ∧ ∃ a', NodeSafe fuel n s' a' := by
  have hsame : ∃ s', some s = some s' ∧ ∃ a', NodeSafe fuel n s' a' :=
    ⟨s, rfl, a, h.mono (Nat.le_add_right n 2)⟩
  unfold rpcOnAcceptMem
  cases haccept : env.accept with
  | none => exact hsame
  | some fd =>
    dsimp only
    split
    · exact hsame
    cases hsession : env.session with
    | none => exact hsame
    | some p =>
      dsimp only
      obtain ⟨hfd, hclosed⟩ := hnew fd haccept
      have hp := Option.isNone_iff_eq_none.1 (hfree p hsession)
      have hreg := h.unregistered hclosed
      have hok : RemovesNoPending s.loop (.call (.addFd fd 1 (some .rpcOnClientEvent) (some p)
          env.malloc env.ctlAdd) env.block) := ⟨hblock, rfl, fun _ _ _ heq => by cases heq⟩
      obtain ⟨mem, hrun, hagree⟩ := h.agree.runMem hok
      have hsound := (loopAddFd_step fd 1 (some .rpcOnClientEvent) (some p) env.malloc
        env.ctlAdd).sound h.sound
      have hadd := registered_loopAddFd a.loop fd 1 NodeHandler.rpcOnClientEvent (some p)
        env.malloc env.ctlAdd
      rw [LoopCall.run] at hrun hagree
      rw [hrun, Option.bind_some]
      generalize loopAddFd a.loop fd 1 (some .rpcOnClientEvent) (some p) env.malloc env.ctlAdd = r
        at hagree hsound hadd ⊢
      rcases hadd with rfl | ⟨hzero, hadded⟩
      · rw [if_pos (show (-1 : Int) ≠ 0 by decide)]
        have hkept : NodeSafe fuel (n + 1) { s with loop := { s.loop with mem := mem } } a :=
          { h with agree := hagree }
        exact hkept.undoSession hfd hclosed hp hdel _
      · rw [if_neg (not_not.2 hzero)]
        refine ⟨_, rfl, _, hagree.mono (Nat.le_succ n), hsound, ?_, h.once, ?_⟩
        · dsimp only
          rw [hadded]
          exact opened_update h.opened hfd _
        · dsimp only
          rw [hadded]
          exact h.bound.addSession hreg hp rfl

/-- **`rpc_on_accept` in memory is that of the server**: the block of the session holds the
connection that the server gets, if it gets one, and no other session changes. -/
theorem NodeSafe.sessions_accept (h : NodeSafe fuel (n + 2) s a) {env : CallbackEnv π σ}
    (hnew : ∀ fd ∈ env.accept, 0 ≤ fd ∧ s.opened fd = false) {p : σ} (hsession : env.session = some p)
    (hp : s.sessions p = none) (hblock : (s.loop.mem.table.val env.block).isNone = true)
    {s' : NodeMemory π σ} (haccepted : rpcOnAcceptMem fuel s env = some s') :
    s'.sessions = Function.update s.sessions p
      ((rpcOnAccept env.cluster env.acceptEnv).bind fun c => env.accept.map (·, c)) := by
  have hsame : s.sessions = Function.update s.sessions p none :=
    (Function.update_eq_self_iff.2 hp.symm).symm
  unfold rpcOnAcceptMem at haccepted
  unfold rpcOnAccept CallbackEnv.acceptEnv
  rw [hsession] at haccepted ⊢
  cases haccept : env.accept with
  | none =>
    rw [haccept] at haccepted
    cases haccepted
    exact hsame
  | some fd =>
    rw [haccept] at haccepted
    dsimp only at haccepted ⊢
    cases hblocking : env.nonblocking with
    | false =>
      rw [hblocking] at haccepted
      cases haccepted
      exact hsame
    | true =>
      obtain ⟨hfd, hclosed⟩ := hnew fd haccept
      have hok : RemovesNoPending s.loop (.call (.addFd fd 1 (some .rpcOnClientEvent) (some p)
          env.malloc env.ctlAdd) env.block) := ⟨hblock, rfl, fun _ _ _ heq => by cases heq⟩
      obtain ⟨mem, hrun, -⟩ := h.agree.runMem hok
      have hcode := code_loopAddFd hfd (h.unregistered hclosed) 1 NodeHandler.rpcOnClientEvent
        (some p) env.malloc env.ctlAdd
      rw [LoopCall.run] at hrun
      rw [hblocking, hrun] at haccepted
      simp only [Bool.not_true, Bool.false_eq_true, if_false, Option.bind_some, hcode] at haccepted
      cases hadd : (env.malloc && env.ctlAdd) with
      | false =>
        rw [hadd, if_neg Bool.false_ne_true, if_pos (by decide), sessionDestroy] at haccepted
        obtain ⟨r, -, rfl⟩ := Option.map_eq_some_iff.1 haccepted
        exact Function.update_idem ..
      | true =>
        rw [hadd, if_pos rfl, if_neg (by decide)] at haccepted
        cases haccepted
        rfl

theorem NodeSafe.register (h : NodeSafe fuel (n + 1) s a) {fd : Int32} (hfd : 0 ≤ fd)
    (hclosed : s.opened fd = false) {block : π}
    (hblock : (s.loop.mem.table.val block).isNone = true) (service : Service) (malloc ctl : Bool) :
    ∃ s', nodeTick fuel s (.register fd service block malloc ctl) = some s' ∧
      ∃ a', NodeSafe fuel n s' a' := by
  have hreg := h.unregistered hclosed
  have hok : RemovesNoPending s.loop (.call (.addFd fd 1 (some (.service service)) none malloc ctl)
      block) := ⟨hblock, rfl, fun _ _ _ heq => by cases heq⟩
  obtain ⟨mem, hrun, hagree⟩ := h.agree.runMem hok
  have hsound := (loopAddFd_step fd 1 (some (.service service)) none malloc ctl).sound h.sound
  have hadd := registered_loopAddFd a.loop fd 1 (NodeHandler.service service) none malloc
    ctl
  have htick : nodeTick fuel s (.register fd service block malloc ctl) =
      some ⟨{ s.loop with mem := mem }, s.sessions, Function.update s.opened fd true⟩ := by
    rw [nodeTick, loopTick, hrun]
    rfl
  refine ⟨_, htick, _, hagree, hsound, ?_, h.once, ?_⟩
  · dsimp only [LoopCall.run]
    rcases hadd with hadd | ⟨-, hadd⟩
    · intro fd' hreg'
      rw [hadd] at hreg'
      obtain ⟨hpos, hopen⟩ := h.opened fd' hreg'
      refine ⟨hpos, ?_⟩
      rw [Function.update_apply, hopen, ite_self]
    · rw [hadd]
      exact opened_update h.opened hfd _
  · dsimp only [LoopCall.run]
    rcases hadd with hadd | ⟨-, hadd⟩
    · rw [hadd]
      exact h.bound
    · rw [hadd]
      exact h.bound.addService hreg service

omit [DecidableEq σ] in
theorem NodeSafe.turn (h : NodeSafe fuel (n + 1) s a) {e : EpollEvent π} {rest : List (EpollEvent π)}
    (hpending : s.loop.pending = e :: rest) :
    ∃ callback context loop a', loopTick fuel s.loop .dispatch = some loop ∧
      loop.invoked.getLast? = some ⟨callback, context, e.fd, triggeredEvents e.events⟩ ∧
      loop.mem = s.loop.mem ∧ loop.pending = rest ∧
      registered a'.loop e.fd = some (callback, context) ∧
      NodeSafe fuel n { s with loop := loop } a' := by
  have hrel := h.agree.tick (l := .dispatch) trivial
  have he : e ∈ s.loop.pending := hpending ▸ List.mem_cons_self
  obtain ⟨t, hd⟩ := h.agree
  obtain ⟨fc, hval, hfd, hreg⟩ := hd.record he
  have hapending : a.pending = (e.fd, e.events) :: rest.map fun e => (e.fd, e.events) := by
    rw [hd.pending, hpending]
    rfl
  have honce : (rest.map EpollEvent.fd).Nodup := by
    have := h.once
    rw [hpending, List.map_cons] at this
    exact this.of_cons
  rw [loopTick, Reactor.tick, hpending, hapending] at hrel
  dsimp only at hrel
  rw [hval] at hrel
  rw [loopTick, hpending]
  dsimp only
  rw [hval]
  cases hrel with
  | some hagree =>
    refine ⟨fc.callback, fc.context, _, _, rfl, ?_, rfl, rfl, ?_,
      ⟨hagree, h.sound, h.opened, honce, h.bound⟩⟩
    · rw [List.getLast?_append, hfd]
      rfl
    · exact hreg

/-- **Step lemma**: every step of `loop_run` can be taken. -/
theorem NodeSafe.tick (h : NodeSafe fuel (n + 3) s a) {l : NodeTick π σ} (hok : KernelOk s l)
    (henabled : Enabled s l) : ∃ s', nodeTick fuel s l = some s' ∧ ∃ a', NodeSafe fuel n s' a' := by
  cases l with
  | register fd service block malloc ctl =>
    obtain ⟨⟨hfd, hclosed⟩, hblock⟩ := hok
    exact (h.mono (by omega)).register hfd hclosed hblock service malloc ctl
  | stop =>
    have hrel := (h.agree.mono (by omega : n + 1 ≤ n + 3)).tick (l := .stop) trivial
    rw [loopTick, Reactor.tick] at hrel
    cases hrel with
    | some hagree => exact ⟨_, rfl, _, hagree, h.sound, h.opened, h.once, h.bound⟩
  | wait ready =>
    have hrel := (h.agree.mono (by omega : n + 1 ≤ n + 3)).tick (l := .wait ready) trivial
    obtain ⟨t, hd⟩ := h.agree
    have hidle : s.loop.running = true ∧ s.loop.pending.isEmpty = true := henabled
    have hempty : a.running = true ∧ a.pending.isEmpty = true := by
      rw [hd.running, hd.pending, List.isEmpty_map]
      exact hidle
    have hfds := congrArg (List.map Prod.fst) (epollWait_eq hd.stored.interest ready)
    rw [List.map_map] at hfds
    have honce : ((epollWait s.loop.mem.interest ready).map EpollEvent.fd).Nodup := by
      refine Eq.subst hfds (hok.sublist ?_)
      exact List.filter_sublist.map _
    rw [loopTick, Reactor.tick, if_pos hidle, if_pos hempty] at hrel
    rw [nodeTick, loopTick, if_pos hidle]
    cases hrel with
    | some hagree => exact ⟨_, rfl, _, hagree, h.sound, h.opened, honce, h.bound⟩
  | dispatch env =>
    obtain ⟨hnew, hfree, hblock, hdel⟩ := hok
    obtain ⟨e, rest, hpending⟩ := List.exists_cons_of_ne_nil henabled
    obtain ⟨callback, context, loop, a', hturn, hcall, hmem, hrest, hreg, hnode⟩ :=
      NodeSafe.turn h hpending
    have hlast : e.fd ∉ loop.pending.map EpollEvent.fd := by
      have := h.once
      rw [hpending, List.map_cons] at this
      rw [hrest]
      exact (List.nodup_cons.1 this).1
    rw [nodeTick, hturn, Option.bind_some, hcall, Option.bind_some, runCallback]
    cases callback with
    | rpcOnClientEvent =>
      obtain ⟨p, -, rfl, -⟩ := hnode.bound.session _ _ hreg
      exact hnode.clientEvent hreg hlast _ hdel
    | service service =>
      cases service with
      | rpcOnAccept => exact hnode.acceptClient hnew hfree (hmem ▸ hblock) hdel
      | onGossipReceive => exact ⟨_, rfl, a', hnode.mono (by omega)⟩
      | onHeartbeatTimer => exact ⟨_, rfl, a', hnode.mono (by omega)⟩
      | clusterReaperTick => exact ⟨_, rfl, a', hnode.mono (by omega)⟩

/-! ## Runs -/

theorem enabled_of_nodeTick {l : NodeTick π σ} {s' : NodeMemory π σ}
    (h : nodeTick fuel s l = some s') : Enabled s l := by
  cases l with
  | register => trivial
  | stop => trivial
  | wait ready =>
    obtain ⟨loop, hloop, -⟩ := Option.map_eq_some_iff.1 h
    exact (Option.ite_none_right_eq_some.1 hloop).1
  | dispatch env =>
    obtain ⟨loop, hloop, -⟩ := Option.bind_eq_some_iff.1 h
    intro hnil
    rw [loopTick, hnil] at hloop
    cases hloop

omit [DecidableEq π] [DecidableEq σ] in
theorem nodeSafe_start (hfuel : n < fuel) :
    NodeSafe fuel n (nodeStart : NodeMemory π σ) Reactor.start where
  agree := agree_start hfuel
  sound := Buckets.sound_empty
  opened fd hreg := absurd rfl hreg
  once := List.nodup_nil
  bound := by
    refine ⟨fun fd context hreg => ?_, fun p fd c hp => ?_⟩
    · cases hreg
    · cases hp

/-- **The node is memory safe.** However connections come and go and whatever fails, every step of
`loop_run` can be taken: no freed record and no freed session is read. The blocks in memory are
the records of the table, and the sessions in memory are those that it refers to. -/
theorem node_memory_safe {ticks : List (NodeTick π σ)} (hfuel : 3 * ticks.length + 3 < fuel)
    (hok : Along (nodeTick fuel) KernelOk nodeStart ticks)
    (hs : run (nodeTick fuel) nodeStart ticks = some s) :
    (∀ l, KernelOk s l → Enabled s l → (nodeTick fuel s l).isSome) ∧
    ∃ t loop, Stored s.loop.mem t loop ∧ Bound (registered loop) s.sessions := by
  have hend : ∃ a, NodeSafe fuel (3 * 0 + 3) s a := by
    refine run_countdown (P := fun n s => ∃ a, NodeSafe fuel (3 * n + 3) s a) ?_
      ⟨_, nodeSafe_start hfuel⟩ hok hs
    rintro n s l s' ⟨a, h⟩ hl hstep
    obtain ⟨s'', hs'', hnode⟩ := h.tick hl (enabled_of_nodeTick hstep)
    cases hstep.symm.trans hs''
    exact hnode
  obtain ⟨a, h⟩ := hend
  refine ⟨fun l hl henabled => ?_, ?_⟩
  · obtain ⟨s', hs', -⟩ := h.tick hl henabled
    rw [hs']
    rfl
  · obtain ⟨t, hd⟩ := h.agree
    exact ⟨t, a.loop, hd.stored, h.bound⟩

/-- A connection comes in while another one hangs up, and then a third that gets its fd and its
blocks. -/
def reusedBlocks : List (NodeTick Nat Nat) :=
  let accept (fd : Int32) (p block : Nat) : CallbackEnv Nat Nat :=
    ⟨some fd, true, some p, asking, block, true, true, true, [], pieceEvent true false 0⟩
  [.register 3 .rpcOnAccept 100 true true, .wait [(3, 1)], .dispatch (accept 5 0 200),
    .wait [(3, 1), (5, 0x10)], .dispatch (accept 6 1 300), .dispatch (accept 7 2 400),
    .wait [(3, 1)], .dispatch (accept 5 0 200)]

theorem node_memory_safe_reused :
    (3 * reusedBlocks.length + 3 < 28 ∧ Along (nodeTick 28) KernelOk nodeStart reusedBlocks) ∧
    ∃ s, run (nodeTick 28) nodeStart reusedBlocks = some s ∧
      ((s.sessions 0).map Prod.fst = some 5 ∧ (s.sessions 1).map Prod.fst = some 6) ∧
      ∃ t loop, Stored s.loop.mem t loop ∧ Bound (registered loop) s.sessions := by
  have hok : Along (nodeTick 28) KernelOk nodeStart reusedBlocks := by decide +kernel
  have hend : (run (nodeTick 28) nodeStart reusedBlocks).map
      (fun s => ((s.sessions 0).map Prod.fst, (s.sessions 1).map Prod.fst)) =
        some (some 5, some 6) := by
    decide +kernel
  obtain ⟨s, hs, hsessions⟩ := Option.map_eq_some_iff.1 hend
  exact ⟨⟨by decide, hok⟩, s, hs, Prod.mk.inj hsessions, (node_memory_safe (by decide) hok hs).2⟩

end DRoole
