import DRoole.Event.Loop

/-!
# Registration calls that fail

The table and the kernel each keep the registrations. `loop_add_fd` undoes its
insertion when epoll refuses the fd. `loop_del_fd` does not: it reports success
with the fd out of the table and still registered with epoll.
-/

namespace DRoole

open Lib

variable {β γ : Type}

/-- The fds in the table are the fds registered with epoll. -/
def EventLoop.InStep (loop : EventLoop β γ) : Prop :=
  ∀ fd, (registered loop fd).isSome = (loop.interest fd).isSome

namespace LoopCall

/-- A `loop_mod_fd` that reaches `epoll_ctl` and is refused there. -/
def ModRefused (c : LoopCall β γ) (loop : EventLoop β γ) : Prop :=
  match c with
  | modFd fd _ cb _ ctl => ¬fd < 0 ∧ cb.isSome ∧ (findFileContext loop fd).isSome ∧ ctl = false
  | _ => False

/-- A `loop_del_fd` that reaches `epoll_ctl` and is refused there. -/
def DelRefused (c : LoopCall β γ) (loop : EventLoop β γ) : Prop :=
  match c with
  | delFd fd ctl => ¬fd < 0 ∧ (findFileContext loop fd).isSome ∧ ctl = false
  | _ => False

end LoopCall

namespace LoopStep

variable {loop : EventLoop β γ} {c : LoopCall β γ} {r : EventLoop β γ × Int}

theorem code (h : LoopStep loop c r) : r.2 = 0 ∨ r.2 = -1 := by
  cases h with
  | refused => exact .inr rfl
  | added _ hnew => exact .inl rfl
  | changed hfd hold ctl =>
    cases ctl with
    | true => exact .inl rfl
    | false => exact .inr rfl
  | removed hfd hold ctl => exact .inl rfl

/-- A refused `EPOLL_CTL_MOD` is the one failure that changes the loop, and then only the table. -/
theorem of_fails (h : LoopStep loop c r) (hcode : r.2 = -1) :
    r.1 = loop ∨ (c.ModRefused loop ∧ r.1.interest = loop.interest) := by
  cases h with
  | refused => exact .inl rfl
  | added _ hnew => exact absurd hcode (by simp)
  | changed hfd hold ctl =>
    cases ctl with
    | true => exact absurd hcode (by simp)
    | false => exact .inr ⟨⟨hfd, rfl, hold, rfl⟩, rfl⟩
  | removed hfd hold ctl => exact absurd hcode (by simp)

theorem interest_of_fails (h : LoopStep loop c r) (hcode : r.2 = -1) :
    r.1.interest = loop.interest := by
  rcases h.of_fails hcode with hsame | ⟨-, hsame⟩
  · rw [hsame]
  · exact hsame

theorem interest_of_ne (h : LoopStep loop c r) {fd : Int32} (hfd : fd ≠ c.fd) :
    r.1.interest fd = loop.interest fd := by
  cases h with
  | refused => rfl
  | added _ hnew => exact Function.update_of_ne hfd _ _
  | changed _ hold ctl =>
    cases ctl with
    | true => exact Function.update_of_ne hfd _ _
    | false => rfl
  | removed _ hold ctl =>
    cases ctl with
    | true => exact Function.update_of_ne hfd _ _
    | false => rfl

theorem own_inStep (h : LoopStep loop c r) (hsound : loop.Sound) (hcode : r.2 = 0)
    (hdel : ¬c.DelRefused loop) :
    (registered r.1 c.fd).isSome = (r.1.interest c.fd).isSome := by
  cases h with
  | refused => exact absurd hcode (by simp)
  | @added fd events callback context _ hnew =>
    have htable := registered_push fd callback context
      (Function.update loop.interest fd (some (epollEvents events))) loop.fdTable
    simp only [LoopCall.fd, htable, Function.update_self, Option.isSome_some]
  | @changed fd events callback context _ hold ctl =>
    cases ctl with
    | false => exact absurd hcode (by simp)
    | true =>
      have htable := registered_modify callback context
        (Function.update loop.interest fd (some (epollEvents events))) hold
      simp only [LoopCall.fd, if_true, htable, Function.update_self, Option.isSome_some]
  | @removed fd hfd hold ctl =>
    cases ctl with
    | false => exact absurd ⟨hfd, hold, rfl⟩ hdel
    | true =>
      have htable := registered_erase fd (Function.update loop.interest fd none) hsound
      simp only [LoopCall.fd, if_true, htable, Function.update_self, Option.isSome_none]

theorem inStep (h : LoopStep loop c r) (hsound : loop.Sound) (hcode : r.2 = 0)
    (hdel : ¬c.DelRefused loop) (hin : loop.InStep) : r.1.InStep := by
  intro fd
  by_cases hfd : fd = c.fd
  · rw [hfd]
    exact h.own_inStep hsound hcode hdel
  · rw [h.registered_of_ne hfd, h.interest_of_ne hfd]
    exact hin fd

end LoopStep

variable {loop : EventLoop β γ}

/-- A refused `EPOLL_CTL_DEL` is reported as success. -/
theorem LoopCall.DelRefused.run_eq {c : LoopCall β γ} (h : c.DelRefused loop) :
    c.run loop = (⟨Buckets.erase fdHash FileContext.fd loop.fdTable c.fd, loop.interest⟩, 0) := by
  cases c with
  | addFd => exact h.elim
  | modFd => exact h.elim
  | delFd fd ctl =>
    obtain ⟨hfd, hold, rfl⟩ := h
    rw [LoopCall.run, loopDelFd, if_neg hfd]
    exact if_neg (by simpa [removeFileContext, Option.isSome_iff_ne_none] using hold)

theorem failed_registration (hsound : loop.Sound) (c : LoopCall β γ) :
    ((c.run loop).2 = 0 ∨ (c.run loop).2 = -1) ∧
    ((c.run loop).2 = -1 → ¬c.ModRefused loop → ∀ fd,
      registered (c.run loop).1 fd = registered loop fd ∧
      (c.run loop).1.interest fd = loop.interest fd) ∧
    ((c.run loop).2 = -1 → ∀ fd,
      (fd ≠ c.fd → registered (c.run loop).1 fd = registered loop fd) ∧
      (c.run loop).1.interest fd = loop.interest fd) ∧
    ((c.run loop).2 = 0 → ¬c.DelRefused loop → loop.InStep → (c.run loop).1.InStep) ∧
    (c.DelRefused loop →
      (c.run loop).2 = 0 ∧ registered (c.run loop).1 c.fd = none ∧
      (∀ fd, fd ≠ c.fd → registered (c.run loop).1 fd = registered loop fd) ∧
      ∀ fd, (c.run loop).1.interest fd = loop.interest fd) := by
  have hstep := c.run_step loop
  refine ⟨hstep.code, fun hcode hmod fd => ?_, fun hcode fd => ⟨hstep.registered_of_ne, ?_⟩,
    hstep.inStep hsound, fun hdel => ⟨?_, ?_, fun fd => hstep.registered_of_ne, fun fd => ?_⟩⟩
  · rw [(hstep.of_fails hcode).resolve_right fun hrefused => hmod hrefused.1]
    exact ⟨rfl, rfl⟩
  · rw [hstep.interest_of_fails hcode]
  · rw [hdel.run_eq]
  · rw [hdel.run_eq]
    exact registered_erase _ _ hsound
  · rw [hdel.run_eq]

def loneLoop : EventLoop Nat Nat := (loopAddFd loopCreate 5 1 (some 1) 10 true true).1

theorem loneLoop_sound : loneLoop.Sound :=
  (loopAddFd_step 5 1 (some 1) 10 true true).sound Buckets.sound_empty

theorem loneLoop_inStep : loneLoop.InStep :=
  (loopAddFd_step 5 1 (some 1) 10 true true).inStep Buckets.sound_empty (by decide) id
    fun _ => rfl

/-- The addition of a second fd of the same bucket is rolled back. -/
theorem failed_registration_rollback :
    (loneLoop.Sound ∧ (loopAddFd loneLoop 261 1 (some 2) 20 true false).2 = -1) ∧
    ∀ fd, registered (loopAddFd loneLoop 261 1 (some 2) 20 true false).1 fd
        = registered loneLoop fd ∧
      (loopAddFd loneLoop 261 1 (some 2) 20 true false).1.interest fd = loneLoop.interest fd :=
  ⟨⟨loneLoop_sound, by decide⟩,
    (failed_registration loneLoop_sound (.addFd 261 1 (some 2) 20 true false)).2.1 (by decide) id⟩

/-- `loop_del_fd` returns 0 with the fd out of the table and registered with epoll. -/
theorem del_refused_out_of_step :
    loneLoop.Sound ∧ loneLoop.InStep ∧ (loopDelFd loneLoop 5 false).2 = 0 ∧
      registered (loopDelFd loneLoop 5 false).1 5 = none ∧
      (loopDelFd loneLoop 5 false).1.interest 5 = some 1 ∧
      ¬(loopDelFd loneLoop 5 false).1.InStep := by
  refine ⟨loneLoop_sound, loneLoop_inStep, by decide, by decide, by decide, fun hin => ?_⟩
  exact absurd (hin 5) (by decide)

end DRoole
