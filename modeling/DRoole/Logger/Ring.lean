import DRoole.Lib.Ring
import DRoole.Lib.Runs

/-!
# The log ring (`logger.c`)

One thread calls `log_msg`, one thread runs `logger_worker`. They share a ring
of 4096 entries, two free-running 64-bit indices and the flag `running`. Every
load, store, fill and read of a slot is one step, and a schedule is any list of
steps of the two threads and of `logger_shutdown`.

The content of an entry is of an arbitrary type. `accepted` lists the entries
whose index `log_msg` has published, `emitted` those the worker has printed, and
`late` says that a `log_msg` began after `running` was cleared; no step reads
the three.
-/

namespace DRoole

open Lib

/-- Where `log_msg` is. -/
inductive Producer (μ : Type) where
  | idle
  /-- has loaded `write_idx` -/
  | loadedWrite (m : μ) (w : UInt64)
  /-- has loaded `read_idx` and found room -/
  | room (m : μ) (w : UInt64)
  /-- has filled the slot -/
  | filled (m : μ) (w : UInt64)
deriving DecidableEq, Repr

/-- Where `logger_worker` is. -/
inductive Worker where
  /-- at the condition of the outer loop -/
  | condition
  /-- has found `running` cleared there -/
  | stopping
  /-- and has loaded `read_idx` -/
  | stoppingAt (r : UInt64)
  /-- in the body -/
  | body
  | loadedRead (r : UInt64)
  /-- has found `r == w` -/
  | empty (r w : UInt64)
  /-- in the inner loop -/
  | copying (r w : UInt64)
  | exited
deriving DecidableEq, Repr

structure LogRing (μ : Type) where
  ringBuffer : Fin 4096 → μ
  writeIdx : UInt64
  readIdx : UInt64
  running : Bool
  producer : Producer μ
  worker : Worker
  accepted : List μ
  emitted : List μ
  late : Bool

def maskIdx (i : UInt64) : Fin 4096 :=
  ⟨(i &&& 4095).toNat, by
    rw [UInt64.toNat_and]
    exact Nat.lt_succ_of_le Nat.and_le_right⟩

variable {μ : Type}

/-- After `logger_init`, with the indices where an earlier use left them. -/
def loggerInit (start : UInt64) (ringBuffer : Fin 4096 → μ) : LogRing μ where
  ringBuffer := ringBuffer
  writeIdx := start
  readIdx := start
  running := true
  producer := .idle
  worker := .condition
  accepted := []
  emitted := []
  late := false

/-- A step of `log_msg`; a producer that is idle calls it with `m`. -/
def logMsg (m : μ) (s : LogRing μ) : LogRing μ :=
  match s.producer with
  | .idle => { s with producer := .loadedWrite m s.writeIdx, late := s.late || !s.running }
  | .loadedWrite m w =>
    if w - s.readIdx ≥ 4096 then { s with producer := .idle } else { s with producer := .room m w }
  | .room m w =>
    { s with ringBuffer := Function.update s.ringBuffer (maskIdx w) m, producer := .filled m w }
  | .filled m w =>
    { s with writeIdx := w + 1, producer := .idle, accepted := s.accepted ++ [m] }

def loggerWorker (s : LogRing μ) : LogRing μ :=
  match s.worker with
  | .condition => { s with worker := if s.running then .body else .stopping }
  | .stopping => { s with worker := .stoppingAt s.readIdx }
  | .stoppingAt r => { s with worker := if r ≠ s.writeIdx then .body else .exited }
  | .body => { s with worker := .loadedRead s.readIdx }
  | .loadedRead r =>
    { s with worker := if r = s.writeIdx then .empty r s.writeIdx else .copying r s.writeIdx }
  | .empty r w => { s with worker := if !s.running ∧ r = w then .exited else .condition }
  | .copying r w =>
    if r ≠ w then
      { s with worker := .copying (r + 1) w, emitted := s.emitted ++ [s.ringBuffer (maskIdx r)] }
    else { s with worker := .condition, readIdx := r }
  | .exited => s

def loggerShutdown (s : LogRing μ) : LogRing μ := { s with running := false }

/-- Whose step is next. -/
inductive LogTick (μ : Type) where
  | producer (m : μ)
  | worker
  | shutdown
deriving DecidableEq, Repr

def LogRing.tick (s : LogRing μ) : LogTick μ → LogRing μ
  | .producer m => logMsg m s
  | .worker => loggerWorker s
  | .shutdown => loggerShutdown s

/-- Every step is possible at any time. -/
def LogRing.step (s : LogRing μ) (t : LogTick μ) : Option (LogRing μ) := some (s.tick t)

/-! ## Indices -/

def indexAt (start : UInt64) (k : Nat) : UInt64 := start + UInt64.ofNat k

section
variable (start : UInt64) {j k : Nat}

theorem toNat_indexAt (k : Nat) : (indexAt start k).toNat = (start.toNat + k) % 2 ^ 64 := by
  simp [indexAt]

theorem indexAt_zero : indexAt start 0 = start := by simp [indexAt]

theorem indexAt_succ (k : Nat) : indexAt start k + 1 = indexAt start (k + 1) := by
  apply UInt64.toNat.inj
  rw [UInt64.toNat_add, toNat_indexAt, toNat_indexAt]
  show ((start.toNat + k) % 2 ^ 64 + 1) % 2 ^ 64 = _
  omega

/-- The distance of two indices, also across the wrap-around. -/
theorem toNat_indexAt_sub (hle : j ≤ k) (hlt : k < j + 2 ^ 64) :
    (indexAt start k - indexAt start j).toNat = k - j := by
  rw [UInt64.toNat_sub, toNat_indexAt, toNat_indexAt]
  omega

theorem indexAt_eq_iff (hle : j ≤ k) (hlt : k < j + 2 ^ 64) :
    indexAt start j = indexAt start k ↔ j = k := by
  refine ⟨fun e => ?_, fun e => by rw [e]⟩
  have hsub := toNat_indexAt_sub start hle hlt
  rw [e, UInt64.sub_self] at hsub
  have hzero : k - j = 0 := hsub.symm
  omega

theorem maskIdx_val (i : UInt64) : (maskIdx i).val = i.toNat % 4096 :=
  Nat.and_two_pow_sub_one_eq_mod i.toNat 12

/-- Entries less than 4096 apart are in different slots. -/
theorem apart_maskIdx : Apart (fun k => maskIdx (indexAt start k)) 4096 := by
  intro j k hjk hlt heq
  have hval := congrArg Fin.val heq
  dsimp only at hval
  rw [maskIdx_val, maskIdx_val, toNat_indexAt, toNat_indexAt] at hval
  omega

end

end DRoole
