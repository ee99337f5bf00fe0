import DRoole.Event.Dispatch
import DRoole.Event.Failure

/-!
# Timers

`loop_add_timer` registers a timerfd for reading. Such an fd is readable from an
expiration until the count of expirations is read, and epoll, which is level-triggered
here, reports it in every wait until then. Of the timer callbacks of `src/main.c`,
`on_heartbeat_timer` reads the count and `cluster_reaper_tick` does not.

So the heartbeat runs at most once a second, whatever else the loop does, while the
reaper, once its timer has expired, runs in every round of the loop, which never
blocks again.

The loop here is `Reactor`, which stands for `loop_run` as long as no fd is removed
whose event is still to come.
-/

namespace DRoole

open Lib

/-- The callbacks of the node. -/
inductive NodeCallback where
  | onGossipReceive
  | onHeartbeatTimer
  | clusterReaperTick
  | rpcOnAccept
  | rpcOnClientEvent
  | exampleRaftTickHandler
  deriving DecidableEq, Repr

/-- The callback starts with `read(fd, &exp, sizeof(exp))`. -/
def NodeCallback.readsTimer : NodeCallback → Bool
  | .onHeartbeatTimer | .exampleRaftTickHandler => true
  | .onGossipReceive | .clusterReaperTick | .rpcOnAccept | .rpcOnClientEvent => false

/-! ## The timers of the kernel -/

/-- Both times of the `itimerspec`. -/
structure TimerSpec where
  sec : UInt64
  nsec : UInt64
  deriving DecidableEq, Repr

def timerSpec (intervalMs : UInt32) : TimerSpec :=
  ⟨(intervalMs / 1000).toUInt64, ((intervalMs % 1000) * 1000000).toUInt64⟩

def TimerSpec.nanoseconds (spec : TimerSpec) : Nat := spec.sec.toNat * 1000000000 + spec.nsec.toNat

/-- A timer set at `start`, and how many of its expirations have been read. Times are in
nanoseconds. -/
structure Timer where
  start : Nat
  period : Nat
  taken : Nat
  deriving DecidableEq, Repr

namespace Timer

/-- The expirations until `now`; a timer whose period is 0 is disarmed. -/
def total (t : Timer) (now : Nat) : Nat := (now - t.start) / t.period

def readable (t : Timer) (now : Nat) : Bool := t.taken < t.total now

def read (t : Timer) (now : Nat) : Timer := { t with taken := t.total now }

end Timer

/-! ## The loop with its timers -/

structure TimedLoop (γ : Type) where
  reactor : Reactor NodeCallback γ
  timers : Int32 → Option Timer
  clock : Nat

/-- What the calls of `loop_add_timer` return. -/
structure TimerEnv where
  create : Option Int32
  settime : Bool
  malloc : Bool
  ctl : Bool
  deriving DecidableEq, Repr

variable {γ : Type}

def loopAddTimer (s : TimedLoop γ) (intervalMs : UInt32) (cb : Option NodeCallback) (context : γ)
    (env : TimerEnv) : TimedLoop γ × Int32 :=
  match cb, env.create with
  | none, _ => (s, -1)
  | some _, none => (s, -1)
  | some callback, some tfd =>
    let closed := { s with timers := Function.update s.timers tfd none }
    if !env.settime then (closed, -1)
    else
      let added := loopAddFd s.reactor.loop tfd 1 (some callback) context env.malloc env.ctl
      if added.2 ≠ 0 then ({ closed with reactor := { s.reactor with loop := added.1 } }, -1)
      else
        ({ s with
            reactor := { s.reactor with loop := added.1 }
            timers := Function.update s.timers tfd
              (some ⟨s.clock, (timerSpec intervalMs).nanoseconds, 0⟩) }, tfd)

/-- Time passes, a timer is added, or the loop goes on. -/
inductive TimedTick (γ : Type) where
  | advance (ns : Nat)
  | addTimer (intervalMs : UInt32) (cb : Option NodeCallback) (context : γ) (env : TimerEnv)
  | loop (l : LoopTick Unit NodeCallback γ)

/-- A callback reads the timer it is called for, or none. -/
def readTimer (now : Nat) (timers : Int32 → Option Timer) (inv : Invocation NodeCallback γ) :
    Int32 → Option Timer :=
  if inv.callback.readsTimer then
    Function.update timers inv.fd ((timers inv.fd).map (·.read now))
  else timers

def timedTick (s : TimedLoop γ) : TimedTick γ → Option (TimedLoop γ)
  | .advance ns => some { s with clock := s.clock + ns }
  | .addTimer intervalMs cb context env => some (loopAddTimer s intervalMs cb context env).1
  | .loop l => (s.reactor.tick l).map fun a =>
      { s with
        reactor := a
        timers := (a.invoked.drop s.reactor.invoked.length).foldl (readTimer s.clock) s.timers }

/-- The fd stays registered and open, and every wait reports it exactly if its timer is readable.
A wait that a signal interrupts is none. -/
def LevelTriggered (fd : Int32) (s : TimedLoop γ) : TimedTick γ → Prop
  | .loop (.wait ready) => (ready.map Prod.fst).Nodup ∧
      ∀ t ∈ s.timers fd, (fd ∈ ready.map Prod.fst ↔ t.readable s.clock = true)
  | .loop (.call c _) => c.fd ≠ fd
  | .addTimer _ _ _ env => env.create ≠ some fd
  | _ => True

instance (fd : Int32) (s : TimedLoop γ) : (l : TimedTick γ) → Decidable (LevelTriggered fd s l)
  | .loop (.wait ready) => inferInstanceAs (Decidable ((ready.map Prod.fst).Nodup ∧
      ∀ t ∈ s.timers fd, (fd ∈ ready.map Prod.fst ↔ t.readable s.clock = true)))
  | .loop (.call c _) => inferInstanceAs (Decidable (c.fd ≠ fd))
  | .loop .stop | .loop .dispatch | .advance _ => inferInstanceAs (Decidable True)
  | .addTimer _ _ _ env => inferInstanceAs (Decidable (env.create ≠ some fd))

def invokedFor (fd : Int32) (s : TimedLoop γ) : Nat :=
  s.reactor.invoked.countP fun inv => inv.fd = fd

def pendingFor (fd : Int32) (s : TimedLoop γ) : Nat :=
  s.reactor.pending.countP fun r => r.1 = fd

def TimedTick.isWait : TimedTick γ → Bool
  | .loop (.wait _) => true
  | _ => false

/-! ## What a step does to a timer -/

theorem nanoseconds_timerSpec (intervalMs : UInt32) :
    (timerSpec intervalMs).nanoseconds = intervalMs.toNat * 1000000 := by
  have hnsec : ((intervalMs % 1000) * 1000000).toNat = intervalMs.toNat % 1000 * 1000000 := by
    rw [UInt32.toNat_mul, UInt32.toNat_mod]
    show intervalMs.toNat % 1000 * 1000000 % 4294967296 = _
    omega
  have hsec : (intervalMs / 1000).toNat = intervalMs.toNat / 1000 := UInt32.toNat_div ..
  rw [timerSpec, TimerSpec.nanoseconds]
  dsimp only
  rw [UInt32.toNat_toUInt64, UInt32.toNat_toUInt64, hnsec, hsec]
  omega

/-- The timer of `fd` was set at `start` and is registered for `callback`. -/
structure Armed (fd : Int32) (callback : NodeCallback) (start period taken : Nat)
    (s : TimedLoop γ) : Prop where
  bound : ∃ context, registered s.reactor.loop fd = some (callback, context)
  watched : (s.reactor.loop.interest fd).isSome
  timer : s.timers fd = some ⟨start, period, taken⟩
  once : (s.reactor.pending.map Prod.fst).Nodup
  ready : fd ∈ s.reactor.pending.map Prod.fst → taken < (s.clock - start) / period

variable {fd : Int32} {callback : NodeCallback} {start period taken : Nat} {s s' : TimedLoop γ}

theorem total_mono (start period : Nat) {now now' : Nat} (h : now ≤ now') :
    (now - start) / period ≤ (now' - start) / period :=
  Nat.div_le_div_right (Nat.sub_le_sub_right h _)

theorem Armed.kept (h : Armed fd callback start period taken s)
    (hreg : registered s'.reactor.loop fd = registered s.reactor.loop fd)
    (hint : s'.reactor.loop.interest fd = s.reactor.loop.interest fd)
    (htimer : s'.timers fd = s.timers fd) (hpending : s'.reactor.pending = s.reactor.pending)
    (hclock : s.clock ≤ s'.clock) : Armed fd callback start period taken s' where
  bound := by rw [hreg]; exact h.bound
  watched := by rw [hint]; exact h.watched
  timer := htimer.trans h.timer
  once := by rw [hpending]; exact h.once
  ready hfd := by
    rw [hpending] at hfd
    exact (h.ready hfd).trans_le (total_mono start period hclock)

/-- How a step from `s` to `s'` changes the calls for `fd` and the expirations that have been
read. -/
structure TimerStep (fd : Int32) (callback : NodeCallback) (start period taken taken' : Nat)
    (wait : Bool) (s s' : TimedLoop γ) : Prop where
  armed : Armed fd callback start period taken' s'
  clock : s.clock ≤ s'.clock
  reads : callback.readsTimer = true → invokedFor fd s' + taken ≤ invokedFor fd s + taken' ∧
    (taken' ≤ taken ∨ taken' ≤ (s'.clock - start) / period)
  keeps : callback.readsTimer = false → taken' = taken ∧
    invokedFor fd s' + pendingFor fd s' = invokedFor fd s + pendingFor fd s +
      if wait = true ∧ taken < (s.clock - start) / period then 1 else 0

theorem TimerStep.quiet (harmed : Armed fd callback start period taken s')
    (hinvoked : s'.reactor.invoked = s.reactor.invoked)
    (hpending : s'.reactor.pending = s.reactor.pending) (hclock : s.clock ≤ s'.clock) :
    TimerStep fd callback start period taken taken false s s' where
  armed := harmed
  clock := hclock
  reads _ := ⟨by rw [invokedFor, invokedFor, hinvoked], .inl le_rfl⟩
  keeps _ := ⟨rfl, by
    rw [invokedFor, invokedFor, pendingFor, pendingFor, hinvoked, hpending,
      if_neg fun hw => Bool.false_ne_true hw.1, Nat.add_zero]⟩

theorem registered_loopCall (loop : EventLoop NodeCallback γ) {c : LoopCall NodeCallback γ}
    (hfd : c.fd ≠ fd) : registered (c.run loop).1 fd = registered loop fd ∧
      (c.run loop).1.interest fd = loop.interest fd :=
  ⟨(c.run_step loop).registered_of_ne hfd.symm, (c.run_step loop).interest_of_ne hfd.symm⟩

theorem timerStep_addTimer (h : Armed fd callback start period taken s) {intervalMs : UInt32}
    {cb : Option NodeCallback} {context : γ} {env : TimerEnv} (hfd : env.create ≠ some fd) :
    TimerStep fd callback start period taken taken false s
      (loopAddTimer s intervalMs cb context env).1 := by
  have hsame := TimerStep.quiet h rfl rfl le_rfl
  unfold loopAddTimer
  split
  · exact hsame
  · exact hsame
  rename_i callback' tfd hcreate
  have hne : tfd ≠ fd := fun e => hfd (hcreate.trans (congrArg some e))
  have htimer : ∀ t, Function.update s.timers tfd t fd = s.timers fd := fun t =>
    Function.update_of_ne hne.symm t s.timers
  dsimp only
  split
  · exact .quiet (h.kept rfl rfl (htimer _) rfl le_rfl) rfl rfl le_rfl
  obtain ⟨hreg, hint⟩ := registered_loopCall s.reactor.loop
    (c := .addFd tfd 1 (some callback') context env.malloc env.ctl) hne
  split
  · exact .quiet (h.kept hreg hint (htimer _) rfl le_rfl) rfl rfl le_rfl
  · exact .quiet (h.kept hreg hint (htimer _) rfl le_rfl) rfl rfl le_rfl

theorem countP_fst_eq (fd : Int32) {l : List (Int32 × UInt32)} (hnodup : (l.map Prod.fst).Nodup) :
    l.countP (fun r => r.1 = fd) = if fd ∈ l.map Prod.fst then 1 else 0 := by
  rw [← List.Nodup.count hnodup, List.count, List.countP_map]
  exact List.countP_congr fun r _ => by simp

theorem timerStep_wait (h : Armed fd callback start period taken s)
    {ready : List (Int32 × UInt32)} (hok : LevelTriggered fd s (.loop (.wait ready)))
    (hempty : s.reactor.pending = []) :
    TimerStep fd callback start period taken taken true s
      { s with reactor := { s.reactor with
          pending := ready.filter fun r => (s.reactor.loop.interest r.1).isSome } } := by
  obtain ⟨hnodup, hready⟩ := hok
  have hreported : fd ∈ ready.map Prod.fst ↔ taken < (s.clock - start) / period :=
    (hready _ h.timer).trans decide_eq_true_iff
  have honce : ((ready.filter fun r => (s.reactor.loop.interest r.1).isSome).map Prod.fst).Nodup :=
    hnodup.sublist (List.filter_sublist.map _)
  have hkept : fd ∈ (ready.filter fun r => (s.reactor.loop.interest r.1).isSome).map Prod.fst ↔
      fd ∈ ready.map Prod.fst := by
    simp only [List.mem_map, List.mem_filter]
    constructor
    · rintro ⟨r, ⟨hr, -⟩, e⟩
      exact ⟨r, hr, e⟩
    · rintro ⟨r, hr, rfl⟩
      exact ⟨r, ⟨hr, h.watched⟩, rfl⟩
  refine ⟨⟨h.bound, h.watched, h.timer, honce, fun hfd => hreported.1 (hkept.1 hfd)⟩, le_rfl,
    fun _ => ⟨le_rfl, .inl le_rfl⟩, fun _ => ⟨rfl, ?_⟩⟩
  have hnone : pendingFor fd s = 0 := by
    rw [pendingFor, hempty]
    rfl
  have hcount := countP_fst_eq fd honce
  rw [hnone, Nat.add_zero, pendingFor, hcount]
  refine congrArg (invokedFor fd s + ·) (if_congr ?_ rfl rfl)
  rw [hkept, hreported]
  exact ⟨fun hlt => ⟨rfl, hlt⟩, And.right⟩

theorem timerStep_dispatch (h : Armed fd callback start period taken s) {r : Int32 × UInt32}
    {rest : List (Int32 × UInt32)} (hpending : s.reactor.pending = r :: rest) :
    ∃ taken', TimerStep fd callback start period taken taken' false s
      { s with
        reactor := { s.reactor with
          pending := rest
          invoked := s.reactor.invoked ++ (lookupInvocation s.reactor.loop r).toList }
        timers := (lookupInvocation s.reactor.loop r).toList.foldl (readTimer s.clock) s.timers } := by
  have honce := h.once
  rw [hpending, List.map_cons, List.nodup_cons] at honce
  have hrest : ∀ fd', fd' ∈ rest.map Prod.fst → fd' ∈ s.reactor.pending.map Prod.fst := by
    intro fd' hfd'
    rw [hpending]
    exact List.mem_cons_of_mem _ hfd'
  by_cases hr : r.1 = fd
  · subst hr
    obtain ⟨context, hreg⟩ := h.bound
    have hlookup : lookupInvocation s.reactor.loop r =
        some ⟨callback, context, r.1, triggeredEvents r.2⟩ := by
      rw [lookupInvocation, hreg]
      rfl
    have hpend : pendingFor r.1 s = pendingFor r.1 { s with
        reactor := { s.reactor with pending := rest } } + 1 := by
      rw [pendingFor, hpending, List.countP_cons_of_pos (by simp)]
      rfl
    rw [hlookup]
    have hinvoked : (s.reactor.invoked ++
        [(⟨callback, context, r.1, triggeredEvents r.2⟩ : Invocation NodeCallback γ)]).countP
          (fun inv => inv.fd = r.1) = invokedFor r.1 s + 1 := by
      rw [List.countP_append, List.countP_singleton, if_pos (by simp)]
      rfl
    have hready := h.ready (by rw [hpending]; exact List.mem_cons_self)
    cases hreads : callback.readsTimer with
    | true =>
      have htimers : readTimer s.clock s.timers
          (⟨callback, context, r.1, triggeredEvents r.2⟩ : Invocation NodeCallback γ) =
          Function.update s.timers r.1 (some ⟨start, period, (s.clock - start) / period⟩) := by
        rw [readTimer, if_pos hreads, h.timer]
        rfl
      refine ⟨(s.clock - start) / period, ⟨⟨context, hreg⟩, h.watched, ?_, honce.2, fun hfd => ?_⟩,
        le_rfl, fun _ => ⟨?_, .inr le_rfl⟩, fun hno => ?_⟩
      · show readTimer s.clock s.timers _ r.1 = _
        rw [htimers, Function.update_self]
      · exact absurd hfd honce.1
      · show List.countP _ (_ ++ [_]) + _ ≤ _
        rw [hinvoked]
        omega
      · rw [hreads] at hno
        cases hno
    | false =>
      have htimers : readTimer s.clock s.timers
          (⟨callback, context, r.1, triggeredEvents r.2⟩ : Invocation NodeCallback γ) = s.timers := by
        rw [readTimer, if_neg (by simp [hreads])]
      refine ⟨taken, ⟨⟨context, hreg⟩, h.watched, ?_, honce.2, fun hfd => ?_⟩,
        le_rfl, fun hyes => ?_, fun _ => ⟨rfl, ?_⟩⟩
      · show readTimer s.clock s.timers _ r.1 = _
        rw [htimers, h.timer]
      · exact h.ready (hrest _ hfd)
      · rw [hreads] at hyes
        cases hyes
      · show List.countP _ (_ ++ [_]) + pendingFor r.1 { s with
          reactor := { s.reactor with pending := rest } } = _
        rw [hinvoked, hpend, if_neg fun hw => Bool.false_ne_true hw.1]
        omega
  · have hother : ∀ inv ∈ (lookupInvocation s.reactor.loop r).toList, inv.fd = r.1 := by
      intro inv hinv
      obtain ⟨b, -, rfl⟩ := Option.map_eq_some_iff.1 (Option.mem_toList.1 hinv)
      rfl
    have htimer : ∀ invs : List (Invocation NodeCallback γ), (∀ inv ∈ invs, inv.fd = r.1) →
        ∀ timers : Int32 → Option Timer, invs.foldl (readTimer s.clock) timers fd = timers fd := by
      intro invs
      induction invs with
      | nil => exact fun _ _ => rfl
      | cons inv invs ih =>
        intro hinvs timers
        rw [List.foldl_cons, ih fun inv hinv => hinvs inv (List.mem_cons_of_mem _ hinv)]
        unfold readTimer
        split
        · rw [hinvs inv List.mem_cons_self, Function.update_of_ne (Ne.symm hr)]
        · rfl
    have hinvoked : ((s.reactor.invoked ++ (lookupInvocation s.reactor.loop r).toList).countP
        fun inv => inv.fd = fd) = invokedFor fd s := by
      rw [List.countP_append, invokedFor, Nat.add_eq_left, List.countP_eq_zero]
      intro inv hinv
      rw [hother inv hinv]
      simpa using hr
    have hpend : pendingFor fd { s with reactor := { s.reactor with pending := rest } } =
        pendingFor fd s := by
      rw [pendingFor, pendingFor, hpending, List.countP_cons_of_neg (by simpa using hr)]
    refine ⟨taken, ⟨h.bound, h.watched, (htimer _ hother _).trans h.timer, honce.2,
      fun hfd => h.ready (hrest _ hfd)⟩, le_rfl, fun _ => ⟨?_, .inl le_rfl⟩, fun _ => ⟨rfl, ?_⟩⟩
    · exact (Nat.add_le_add_iff_right.2 hinvoked.le)
    · rw [if_neg fun hw => Bool.false_ne_true hw.1, Nat.add_zero, ← hpend]
      exact congrArg (· + _) hinvoked

/-- **Step lemma.** -/
theorem Armed.step (h : Armed fd callback start period taken s) {l : TimedTick γ}
    (hok : LevelTriggered fd s l) (hstep : timedTick s l = some s') :
    ∃ taken', TimerStep fd callback start period taken taken' l.isWait s s' := by
  have hnone : ∀ a : Reactor NodeCallback γ, a.invoked = s.reactor.invoked →
      (a.invoked.drop s.reactor.invoked.length).foldl (readTimer s.clock) s.timers = s.timers := by
    intro a ha
    rw [ha, List.drop_length]
    rfl
  cases l with
  | advance ns =>
    cases hstep
    exact ⟨taken, .quiet (h.kept rfl rfl rfl rfl (Nat.le_add_right ..)) rfl rfl
      (Nat.le_add_right ..)⟩
  | addTimer intervalMs cb context env =>
    cases hstep
    exact ⟨taken, timerStep_addTimer h hok⟩
  | loop l =>
    obtain ⟨a, ha, rfl⟩ := Option.map_eq_some_iff.1 hstep
    cases l with
    | call c block =>
      cases ha
      obtain ⟨hreg, hint⟩ := registered_loopCall s.reactor.loop hok
      exact ⟨taken, .quiet (h.kept hreg hint (congrFun (hnone _ rfl) fd) rfl le_rfl) rfl rfl le_rfl⟩
    | stop =>
      cases ha
      exact ⟨taken, .quiet (h.kept rfl rfl (congrFun (hnone _ rfl) fd) rfl le_rfl) rfl rfl le_rfl⟩
    | wait ready =>
      obtain ⟨⟨-, hempty⟩, e⟩ := Option.ite_none_right_eq_some.1 ha
      cases e
      rw [hnone _ rfl]
      exact ⟨taken, timerStep_wait h hok (List.isEmpty_iff.1 hempty)⟩
    | dispatch =>
      cases hpending : s.reactor.pending with
      | nil =>
        rw [Reactor.tick, hpending] at ha
        cases ha
      | cons r rest =>
        rw [Reactor.tick, hpending] at ha
        cases ha
        dsimp only
        rw [List.drop_left]
        exact timerStep_dispatch h hpending

/-! ## Runs -/

theorem loopAddTimer_armed {intervalMs : UInt32} {cb : Option NodeCallback} {context : γ}
    {env : TimerEnv} (hadd : loopAddTimer s intervalMs cb context env = (s', fd)) (hfd : 0 ≤ fd)
    (hpending : s.reactor.pending = []) :
    ∃ callback, cb = some callback ∧
      Armed fd callback s.clock (intervalMs.toNat * 1000000) 0 s' ∧
      s'.clock = s.clock ∧ invokedFor fd s' = invokedFor fd s := by
  have hfail : ∀ t : TimedLoop γ, (t, (-1 : Int32)) ≠ (s', fd) := by
    intro t e
    cases e
    exact absurd hfd (by decide)
  unfold loopAddTimer at hadd
  split at hadd
  · exact absurd hadd (hfail _)
  · exact absurd hadd (hfail _)
  rename_i callback tfd hcreate
  dsimp only at hadd
  split at hadd
  · exact absurd hadd (hfail _)
  split at hadd
  · exact absurd hadd (hfail _)
  rename_i hzero
  cases hadd
  refine ⟨callback, rfl, ?_, rfl, rfl⟩
  have hstep : LoopStep s.reactor.loop
      (.addFd fd 1 (some callback) context env.malloc env.ctl)
      (loopAddFd s.reactor.loop fd 1 (some callback) context env.malloc env.ctl) :=
    loopAddFd_step ..
  have hzero' := not_not.1 hzero
  generalize loopAddFd s.reactor.loop fd 1 (some callback) context env.malloc env.ctl = added
    at hstep hzero' ⊢
  rw [← nanoseconds_timerSpec]
  generalize env.malloc = malloc at hstep
  generalize env.ctl = ctl at hstep
  cases hstep with
  | refused => cases hzero'
  | added _ hnew =>
    refine ⟨⟨context, registered_push _ _ _ _ _⟩, ?_, Function.update_self .., ?_, fun hmem => ?_⟩
    · dsimp only
      rw [Function.update_self]
      rfl
    · dsimp only
      rw [hpending]
      exact List.nodup_nil
    · dsimp only at hmem
      rw [hpending] at hmem
      exact absurd hmem List.not_mem_nil

/-- A callback that reads its timer is called at most once for each expiration. -/
theorem Armed.calls_le {ticks : List (TimedTick γ)} (h : Armed fd callback start period 0 s)
    (hreads : callback.readsTimer = true) (hok : Along timedTick (LevelTriggered fd) s ticks)
    (hrun : run timedTick s ticks = some s') :
    invokedFor fd s' ≤ invokedFor fd s + (s'.clock - start) / period := by
  obtain ⟨taken, -, htaken, hcalls⟩ : ∃ taken, Armed fd callback start period taken s' ∧
      taken ≤ (s'.clock - start) / period ∧ invokedFor fd s' ≤ invokedFor fd s + taken := by
    refine run_induct (P := fun t => ∃ taken, Armed fd callback start period taken t ∧
      taken ≤ (t.clock - start) / period ∧ invokedFor fd t ≤ invokedFor fd s + taken) ?_
      ⟨0, h, Nat.zero_le _, le_rfl⟩ hok hrun
    rintro t l t' ⟨taken, ht, htaken, hcalls⟩ hl hstep
    obtain ⟨taken', hnew⟩ := ht.step hl hstep
    obtain ⟨hmore, hle⟩ := hnew.reads hreads
    refine ⟨taken', hnew.armed, ?_, by omega⟩
    rcases hle with hle | hle
    · exact hle.trans (htaken.trans (total_mono start period hnew.clock))
    · exact hle
  omega

/-- A callback that does not read its timer is called in every round, once it has expired. -/
theorem Armed.calls_eq : ∀ {ticks : List (TimedTick γ)} {s s' : TimedLoop γ},
    Armed fd callback start period taken s → callback.readsTimer = false →
    taken < (s.clock - start) / period → Along timedTick (LevelTriggered fd) s ticks →
    run timedTick s ticks = some s' →
    invokedFor fd s' + pendingFor fd s' =
      invokedFor fd s + pendingFor fd s + ticks.countP TimedTick.isWait
  | [], _, _, _, _, _, _, hrun => by
    cases hrun
    rfl
  | l :: ticks, s, s', h, hkeeps, hexpired, hok, hrun => by
    obtain ⟨t, hstep, hrun⟩ := run_cons.1 hrun
    obtain ⟨taken', hnew⟩ := h.step hok.1 hstep
    obtain ⟨htaken, hone⟩ := hnew.keeps hkeeps
    have hlater := hexpired.trans_le (total_mono start period hnew.clock)
    have hrest := Armed.calls_eq (htaken ▸ hnew.armed) hkeeps hlater (hok.2 t hstep) hrun
    rw [hrest, hone, List.countP_cons]
    cases hw : l.isWait with
    | true =>
      rw [if_pos ⟨rfl, hexpired⟩, if_pos rfl]
      omega
    | false =>
      rw [if_neg fun hw => Bool.false_ne_true hw.1, if_neg Bool.false_ne_true]
      omega

/-- **Timer callbacks.** A callback that reads its timer is called at most once a period, however
often the loop goes round. One that does not read it is called in every round from the first
expiration on: each wait adds a call that has been made or is still to come in its batch. -/
theorem timer_callbacks {s₀ s₁ s₂ : TimedLoop γ} {intervalMs : UInt32}
    {context : γ} {env : TimerEnv} {before after : List (TimedTick γ)}
    (hadd : loopAddTimer s intervalMs (some callback) context env = (s₀, fd)) (hfd : 0 ≤ fd)
    (hpending : s.reactor.pending = [])
    (hbefore : Along timedTick (LevelTriggered fd) s₀ before)
    (hs₁ : run timedTick s₀ before = some s₁)
    (hafter : Along timedTick (LevelTriggered fd) s₁ after)
    (hs₂ : run timedTick s₁ after = some s₂) :
    (callback.readsTimer = true → invokedFor fd s₁ ≤
      invokedFor fd s₀ + (s₁.clock - s₀.clock) / (intervalMs.toNat * 1000000)) ∧
    (callback.readsTimer = false → 0 < intervalMs.toNat →
      s₀.clock + intervalMs.toNat * 1000000 ≤ s₁.clock →
      invokedFor fd s₂ + pendingFor fd s₂ =
        invokedFor fd s₁ + pendingFor fd s₁ + after.countP TimedTick.isWait) := by
  obtain ⟨_, ⟨⟩, harmed, hclock, -⟩ := loopAddTimer_armed hadd hfd hpending
  rw [← hclock] at harmed
  refine ⟨fun hreads => harmed.calls_le hreads hbefore hs₁, fun hkeeps hpos hexpired => ?_⟩
  have harmed₁ : Armed fd callback s₀.clock (intervalMs.toNat * 1000000) 0 s₁ := by
    refine run_induct (P := Armed fd callback s₀.clock (intervalMs.toNat * 1000000) 0) ?_ harmed
      hbefore hs₁
    intro t l t' ht hl hstep
    obtain ⟨taken', hnew⟩ := ht.step hl hstep
    obtain ⟨rfl, -⟩ := hnew.keeps hkeeps
    exact hnew.armed
  refine harmed₁.calls_eq hkeeps ?_ hafter hs₂
  exact Nat.div_pos (by omega) (by omega)

def newLoop : TimedLoop Unit := ⟨.start, fun _ => none, 0⟩

def reaperLoop : TimedLoop Unit :=
  (loopAddTimer newLoop 500 (some .clusterReaperTick) () ⟨some 7, true, true, true⟩).1

def reaperExpired : TimedLoop Unit := { reaperLoop with clock := 500000000 }

/-- The loop goes round three times while no time passes. -/
def reaperRounds : List (TimedTick Unit) :=
  [.loop (.wait [(7, 1)]), .loop .dispatch, .loop (.wait [(7, 1)]), .loop .dispatch,
    .loop (.wait [(7, 1)]), .loop .dispatch]

theorem timer_callbacks_reaper :
    ∃ s₂, run timedTick reaperExpired reaperRounds = some s₂ ∧
      invokedFor 7 s₂ + pendingFor 7 s₂ = 3 := by
  have hsome : (run timedTick reaperExpired reaperRounds).isSome := by decide
  obtain ⟨s₂, hs₂⟩ := Option.isSome_iff_exists.1 hsome
  have hadd : loopAddTimer newLoop 500 (some .clusterReaperTick) () ⟨some 7, true, true, true⟩ =
      (reaperLoop, 7) := rfl
  have hbefore : Along timedTick (LevelTriggered 7) reaperLoop [.advance 500000000] := by decide
  have hs₁ : run timedTick reaperLoop [.advance 500000000] = some reaperExpired := rfl
  have hafter : Along timedTick (LevelTriggered 7) reaperExpired reaperRounds := by decide
  have hrounds := (timer_callbacks hadd (by decide) rfl hbefore hs₁ hafter hs₂).2 rfl (by decide)
    (by decide)
  exact ⟨s₂, hs₂, hrounds.trans (by decide)⟩

end DRoole
