import Mathlib

/-!
# Bytes, big-endian words and C strings

`beBytes w n` is the `w`-byte big-endian image of `n` and `beVal` reads one
back. A `CString` is the text of a NUL-terminated character array: the bytes
before the terminator, none of which is NUL. `CString.ofField` reads such an
array, `CString.toField` lays one out.
-/

namespace Lib

theorem toNat_succ {n : UInt64} (h : n + 1 ≠ 0) : (n + 1).toNat = n.toNat + 1 := by
  have hlt := n.toNat_lt
  have hne : (n + 1).toNat ≠ 0 := fun e => h (UInt64.toNat_inj.1 e)
  rw [UInt64.toNat_add] at hne ⊢
  simp only [UInt64.toNat_one] at hne ⊢
  omega

abbrev Bytes := List UInt8

/-! ## Big-endian words -/

/-- The `w` big-endian bytes of `n`; higher bytes are dropped. -/
def beBytes : Nat → Nat → Bytes
  | 0, _ => []
  | w + 1, n => UInt8.ofNat (n / 256 ^ w) :: beBytes w n

/-- The number with the given big-endian bytes. -/
def beVal : Bytes → Nat
  | [] => 0
  | b :: bs => b.toNat * 256 ^ bs.length + beVal bs

@[simp] theorem length_beBytes (w n : Nat) : (beBytes w n).length = w := by
  induction w with
  | zero => rfl
  | succ w ih => simp only [beBytes, List.length_cons, ih]

theorem beVal_beBytes (w n : Nat) : beVal (beBytes w n) = n % 256 ^ w := by
  induction w with
  | zero => simp [beBytes, beVal, Nat.mod_one]
  | succ w ih =>
    have hw : 256 ^ (w + 1) = 256 ^ w * 256 := Nat.pow_succ ..
    simp only [beBytes, beVal, length_beBytes, ih, UInt8.toNat_ofNat']
    rw [hw, Nat.mod_mul, Nat.mul_comm, Nat.add_comm]

theorem beVal_beBytes_of_lt {w n : Nat} (h : n < 256 ^ w) : beVal (beBytes w n) = n := by
  rw [beVal_beBytes, Nat.mod_eq_of_lt h]

/-- A 32-bit word in network order, `htonl`. -/
def be32 (x : UInt32) : Bytes := beBytes 4 x.toNat

/-- A 64-bit word in network order, `htobe64`. -/
def be64 (x : UInt64) : Bytes := beBytes 8 x.toNat

def get32 (bs : Bytes) : UInt32 := UInt32.ofNat (beVal bs)

def get64 (bs : Bytes) : UInt64 := UInt64.ofNat (beVal bs)

@[simp] theorem length_be32 (x : UInt32) : (be32 x).length = 4 := length_beBytes ..

@[simp] theorem length_be64 (x : UInt64) : (be64 x).length = 8 := length_beBytes ..

@[simp] theorem get32_be32 (x : UInt32) : get32 (be32 x) = x := by
  rw [get32, be32, beVal_beBytes_of_lt x.toNat_lt, UInt32.ofNat_toNat]

@[simp] theorem get64_be64 (x : UInt64) : get64 (be64 x) = x := by
  rw [get64, be64, beVal_beBytes_of_lt x.toNat_lt, UInt64.ofNat_toNat]

/-! ## Reading -/

/-- The `w` bytes of a packed struct from offset `off`. -/
def slice (off w : Nat) (bs : Bytes) : Bytes := (bs.drop off).take w

theorem slice_front {w : Nat} {xs : Bytes} (h : xs.length = w) (ys : Bytes) :
    slice 0 w (xs ++ ys) = xs := by
  subst h
  simp [slice]

theorem slice_skip {off w : Nat} {xs : Bytes} (h : xs.length ≤ off) (ys : Bytes) :
    slice off w (xs ++ ys) = slice (off - xs.length) w ys := by
  simp only [slice, List.drop_append, List.drop_eq_nil_of_le h, List.nil_append]

theorem slice_append_slice (off v w : Nat) (bs : Bytes) :
    slice off v bs ++ slice (off + v) w bs = slice off (v + w) bs := by
  rw [slice, slice, slice, List.take_add, List.drop_drop]

theorem slice_self {w : Nat} {xs : Bytes} (h : xs.length = w) : slice 0 w xs = xs := by
  subst h
  simp [slice]

theorem eq_of_prefix_append {xs ys : Bytes} (zs : Bytes) (h : xs <+: ys ++ zs)
    (hlen : xs.length = ys.length) : xs = ys :=
  (List.prefix_of_prefix_length_le h (List.prefix_append ..) hlen.le).eq_of_length hlen

/-- `ys` is `xs` with a change, within the `n` bytes from `p` on. -/
structure Altered (p n : Nat) (xs ys : Bytes) : Prop where
  length : ys.length = xs.length
  front : ys.take p = xs.take p
  back : ys.drop (p + n) = xs.drop (p + n)
  ne : ys ≠ xs

namespace Altered

variable {p n : Nat} {xs ys : Bytes}

theorem take (h : Altered p n xs ys) {k : Nat} (hk : k ≤ p) : ys.take k = xs.take k := by
  rw [← Nat.min_eq_left hk, ← List.take_take, h.front, List.take_take]

theorem drop (h : Altered p n xs ys) {k : Nat} (hk : p + n ≤ k) : ys.drop k = xs.drop k := by
  rw [← Nat.add_sub_cancel' hk, ← List.drop_drop, h.back, List.drop_drop]

theorem middle {as ms bs : Bytes} (h : Altered p n (as ++ (ms ++ bs)) ys) (hlow : as.length ≤ p)
    (hhigh : p + n ≤ as.length + ms.length) :
    ∃ ms', ys = as ++ (ms' ++ bs) ∧ Altered (p - as.length) n ms ms' := by
  have has : ys.take as.length = as := by rw [h.take hlow, List.take_left]
  have hbs : ys.drop (as.length + ms.length) = bs := by
    rw [h.drop hhigh, ← List.drop_drop, List.drop_left, List.drop_left]
  have hys : ys = as ++ ((ys.drop as.length).take ms.length ++ bs) := by
    nth_rewrite 1 [← List.take_append_drop as.length ys,
      ← List.take_append_drop ms.length (ys.drop as.length)]
    rw [has, List.drop_drop, hbs]
  refine ⟨_, hys, ?_, ?_, ?_, fun e => h.ne ?_⟩
  · have hlen := h.length
    simp only [List.length_append] at hlen
    rw [List.length_take, List.length_drop, hlen]
    omega
  · have hfront := congrArg (List.drop as.length) h.front
    rw [List.drop_take, List.drop_take, List.drop_left] at hfront
    rw [List.take_take, Nat.min_comm, ← List.take_take, hfront, List.take_take, Nat.min_comm,
      ← List.take_take, List.take_left]
  · rw [List.drop_take, List.drop_drop, show as.length + (p - as.length + n) = p + n by omega, h.back,
      List.drop_append, List.drop_eq_nil_of_le (by omega), List.nil_append, List.drop_append,
      show p + n - as.length = p - as.length + n by omega,
      List.take_append_of_le_length (by rw [List.length_drop])]
    exact List.take_of_length_le (by rw [List.length_drop])
  · rw [hys, e]

end Altered

/-- `read(fd, buf, n)` at `bs`, if it returns `n`: the bytes read and those left. -/
def readN (n : Nat) (bs : Bytes) : Option (Bytes × Bytes) :=
  if n ≤ bs.length then some (bs.take n, bs.drop n) else none

theorem readN_append {n : Nat} {xs : Bytes} (h : xs.length = n) (ys : Bytes) :
    readN n (xs ++ ys) = some (xs, ys) := by
  subst h
  simp [readN]

theorem readN_eq_none {n : Nat} {bs : Bytes} (h : bs.length < n) : readN n bs = none :=
  if_neg (by omega)

theorem readN_eq_some {n : Nat} {bs xs ys : Bytes} (h : readN n bs = some (xs, ys)) :
    bs = xs ++ ys ∧ xs.length = n := by
  unfold readN at h
  split at h
  next hle =>
    obtain ⟨rfl, rfl⟩ := Prod.mk.inj (Option.some.inj h)
    exact ⟨(List.take_append_drop ..).symm, List.length_take_of_le hle⟩
  next => cases h

/-! ## C strings -/

/-- The text of a NUL-terminated string. -/
structure CString where
  bytes : Bytes
  noNul : (0 : UInt8) ∉ bytes
  deriving DecidableEq, Repr

namespace CString

@[ext] theorem ext {s t : CString} (h : s.bytes = t.bytes) : s = t := by
  cases s; cases t; cases h; rfl

def empty : CString := ⟨[], by simp⟩

/-- `strncpy(dst, s, n)` into an array whose byte `n` is NUL. -/
def strncpy (s : CString) (n : Nat) : CString :=
  ⟨s.bytes.take n, fun h => s.noNul (List.mem_of_mem_take h)⟩

theorem strncpy_of_le {s : CString} {n : Nat} (h : s.bytes.length ≤ n) : s.strncpy n = s :=
  CString.ext (List.take_of_length_le h)

theorem length_strncpy_le (s : CString) (n : Nat) : (s.strncpy n).bytes.length ≤ n := by
  simp [strncpy]

theorem strncpy_strncpy (s : CString) (n : Nat) : (s.strncpy n).strncpy n = s.strncpy n :=
  strncpy_of_le (length_strncpy_le s n)

def ofField (f : Bytes) : CString :=
  ⟨f.takeWhile (· ≠ 0), fun h => by simpa using List.mem_takeWhile_imp h⟩

/-- A terminated array holds the same text whatever follows it. -/
theorem ofField_append {f : Bytes} (h : (0 : UInt8) ∈ f) (g : Bytes) : ofField (f ++ g) = ofField f := by
  obtain ⟨a, b, rfl⟩ := List.append_of_mem h
  apply CString.ext
  induction a with
  | nil => simp [ofField]
  | cons x a ih =>
    have ih := ih (by simp)
    simp only [ofField, List.cons_append, List.takeWhile_cons] at ih ⊢
    split
    · rw [ih]
    · rfl

theorem length_ofField_lt {f : Bytes} (h : (0 : UInt8) ∈ f) : (ofField f).bytes.length < f.length := by
  refine Nat.lt_of_le_of_ne (List.takeWhile_sublist _).length_le fun heq => ?_
  have hall : (ofField f).bytes = f := (List.takeWhile_prefix _).eq_of_length heq
  have hno := (ofField f).noNul
  rw [hall] at hno
  exact hno h

/-- The array of `n` bytes holding `s`, padded with NUL. -/
def toField (s : CString) (n : Nat) : Bytes := s.bytes.take n ++ List.replicate (n - s.bytes.length) 0

theorem length_toField (s : CString) (n : Nat) : (s.toField n).length = n := by
  simp only [toField, List.length_append, List.length_take, List.length_replicate]
  omega

theorem zero_mem_toField {s : CString} {n : Nat} (h : s.bytes.length < n) : 0 ∈ s.toField n := by
  refine List.mem_append_right _ (List.mem_replicate.2 ⟨?_, rfl⟩)
  omega

theorem ofField_toField {s : CString} {n : Nat} (h : s.bytes.length < n) :
    ofField (s.toField n) = s := by
  obtain ⟨m, hm⟩ : ∃ m, n - s.bytes.length = m + 1 := ⟨n - s.bytes.length - 1, by omega⟩
  have hne : ∀ b ∈ s.bytes, decide (b ≠ 0) = true := fun b hb =>
    decide_eq_true fun h0 => s.noNul (h0 ▸ hb)
  apply CString.ext
  simp only [ofField, toField, List.take_of_length_le h.le, hm, List.replicate_succ]
  rw [List.takeWhile_append_of_pos hne]
  simp

end CString

end Lib
