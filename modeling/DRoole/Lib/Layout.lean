import DRoole.Lib.Bytes

/-!
# Words in memory and packed structs

A `Word` is an unsigned machine word of `width` bytes. The host is little-endian:
`le x` are the bytes of `x` in memory, `be x` those in network order, and
`bswap` takes one to the other. A `Codec` lays the values of a type out in a
fixed number of bytes, one to one; a packed struct is a codec put together from
those of its fields.
-/

namespace Lib

theorem beVal_lt (bs : Bytes) : beVal bs < 256 ^ bs.length := by
  induction bs with
  | nil => decide
  | cons b bs ih =>
    have hb : b.toNat + 1 ≤ 256 := b.toNat_lt
    calc beVal (b :: bs) < b.toNat * 256 ^ bs.length + 256 ^ bs.length := Nat.add_lt_add_left ih _
      _ = (b.toNat + 1) * 256 ^ bs.length := (Nat.succ_mul ..).symm
      _ ≤ 256 * 256 ^ bs.length := Nat.mul_le_mul_right _ hb
      _ = 256 ^ (b :: bs).length := (Nat.pow_succ' ..).symm

theorem beBytes_mod (w n : Nat) : beBytes w (n % 256 ^ w) = beBytes w n := by
  induction w generalizing n with
  | zero => rfl
  | succ w ih =>
    have hhead : UInt8.ofNat (n % 256 ^ (w + 1) / 256 ^ w) = UInt8.ofNat (n / 256 ^ w) := by
      rw [Nat.pow_succ, Nat.mod_mul_right_div_self]
      exact UInt8.ofNat_mod_size
    have htail : n % 256 ^ (w + 1) % 256 ^ w = n % 256 ^ w :=
      Nat.mod_mod_of_dvd n (Nat.pow_dvd_pow 256 w.le_succ)
    rw [beBytes, beBytes, hhead, ← ih (n % 256 ^ (w + 1)), htail, ih]

theorem beBytes_beVal (bs : Bytes) : beBytes bs.length (beVal bs) = bs := by
  induction bs with
  | nil => rfl
  | cons b bs ih =>
    have hlt := beVal_lt bs
    have hpos : 0 < 256 ^ bs.length := Nat.pow_pos (by decide)
    have hhead : beVal (b :: bs) / 256 ^ bs.length = b.toNat := by
      rw [beVal, Nat.mul_comm, Nat.mul_add_div hpos, Nat.div_eq_of_lt hlt, Nat.add_zero]
    have htail : beVal (b :: bs) % 256 ^ bs.length = beVal bs := by
      rw [beVal, Nat.mul_comm, Nat.mul_add_mod, Nat.mod_eq_of_lt hlt]
    rw [List.length_cons, beBytes, hhead, UInt8.ofNat_toNat, ← beBytes_mod, htail, ih]

theorem be32_get32 {bs : Bytes} (h : bs.length = 4) : be32 (get32 bs) = bs := by
  have hlt := beVal_lt bs
  rw [h] at hlt
  rw [be32, get32, UInt32.toNat_ofNat_of_lt' hlt, ← h, beBytes_beVal]

theorem be64_get64 {bs : Bytes} (h : bs.length = 8) : be64 (get64 bs) = bs := by
  have hlt := beVal_lt bs
  rw [h] at hlt
  rw [be64, get64, UInt64.toNat_ofNat_of_lt' hlt, ← h, beBytes_beVal]

/-! ## Words -/

/-- An unsigned word of `width` bytes. -/
class Word (α : Type) where
  width : Nat
  toNat : α → Nat
  ofNat : Nat → α
  toNat_lt : ∀ x, toNat x < 256 ^ width
  ofNat_toNat : ∀ x, ofNat (toNat x) = x
  toNat_ofNat : ∀ {n}, n < 256 ^ width → toNat (ofNat n) = n

instance : Word UInt8 where
  width := 1
  toNat := UInt8.toNat
  ofNat := UInt8.ofNat
  toNat_lt := UInt8.toNat_lt
  ofNat_toNat _ := UInt8.ofNat_toNat
  toNat_ofNat := UInt8.toNat_ofNat_of_lt'

instance : Word UInt16 where
  width := 2
  toNat := UInt16.toNat
  ofNat := UInt16.ofNat
  toNat_lt := UInt16.toNat_lt
  ofNat_toNat _ := UInt16.ofNat_toNat
  toNat_ofNat := UInt16.toNat_ofNat_of_lt'

instance : Word UInt32 where
  width := 4
  toNat := UInt32.toNat
  ofNat := UInt32.ofNat
  toNat_lt := UInt32.toNat_lt
  ofNat_toNat _ := UInt32.ofNat_toNat
  toNat_ofNat := UInt32.toNat_ofNat_of_lt'

instance : Word UInt64 where
  width := 8
  toNat := UInt64.toNat
  ofNat := UInt64.ofNat
  toNat_lt := UInt64.toNat_lt
  ofNat_toNat _ := UInt64.ofNat_toNat
  toNat_ofNat := UInt64.toNat_ofNat_of_lt'

namespace Word

@[simp] theorem width_uint8 : width UInt8 = 1 := rfl

@[simp] theorem width_uint16 : width UInt16 = 2 := rfl

@[simp] theorem width_uint32 : width UInt32 = 4 := rfl

@[simp] theorem width_uint64 : width UInt64 = 8 := rfl

variable {α : Type} [Word α]

def be (x : α) : Bytes := beBytes (width α) (toNat x)

def le (x : α) : Bytes := (be x).reverse

def ofBe (bs : Bytes) : α := ofNat (beVal bs)

def ofLe (bs : Bytes) : α := ofBe bs.reverse

def bswap (x : α) : α := ofBe (le x)

@[simp] theorem length_be (x : α) : (be x).length = width α := length_beBytes ..

@[simp] theorem length_le (x : α) : (le x).length = width α := by rw [le, List.length_reverse, length_be]

@[simp] theorem ofBe_be (x : α) : ofBe (be x) = x := by
  rw [ofBe, be, beVal_beBytes_of_lt (toNat_lt x), ofNat_toNat]

theorem be_ofBe {bs : Bytes} (h : bs.length = width α) : be (ofBe bs : α) = bs := by
  rw [be, ofBe, toNat_ofNat (h ▸ beVal_lt bs), ← h, beBytes_beVal]

@[simp] theorem ofLe_le (x : α) : ofLe (le x) = x := by
  rw [ofLe, le, List.reverse_reverse, ofBe_be]

theorem le_ofLe {bs : Bytes} (h : bs.length = width α) : le (ofLe bs : α) = bs := by
  rw [le, ofLe, be_ofBe (by rw [List.length_reverse, h]), List.reverse_reverse]

/-- A word is stored in network order by storing it swapped. -/
@[simp] theorem le_bswap (x : α) : le (bswap x) = be x := by
  rw [le, bswap, be_ofBe (length_le x), le, List.reverse_reverse]

@[simp] theorem bswap_bswap (x : α) : bswap (bswap x) = x := by
  rw [bswap, le_bswap, ofBe_be]

theorem le_uint8 (x : UInt8) : le x = [x] := by
  show [UInt8.ofNat (x.toNat / 256 ^ 0)] = [x]
  rw [Nat.pow_zero, Nat.div_one, UInt8.ofNat_toNat]

end Word

/-! ## Codecs -/

/-- A character array of `n` bytes. -/
structure Chars (n : Nat) where
  bytes : Bytes
  length_eq : bytes.length = n
  deriving DecidableEq, Repr

namespace Chars

variable {n : Nat}

attribute [simp] length_eq

@[ext] theorem ext {v w : Chars n} (h : v.bytes = w.bytes) : v = w := by
  cases v; cases w; cases h; rfl

def zero : Chars n := ⟨List.replicate n 0, List.length_replicate⟩

def ofCString (s : CString) : Chars n := ⟨s.toField n, s.length_toField n⟩

def text (v : Chars n) : CString := CString.ofField v.bytes

theorem text_ofCString {s : CString} (h : s.bytes.length < n) : (ofCString s : Chars n).text = s :=
  CString.ofField_toField h

end Chars

/-- A layout of the values of `α` in `width` bytes, one to one. -/
structure Codec (α : Type) where
  width : Nat
  put : α → Bytes
  get : Bytes → α
  length_put : ∀ a, (put a).length = width
  get_put : ∀ a, get (put a) = a
  put_get : ∀ {bs}, bs.length = width → put (get bs) = bs

namespace Codec

variable {α β : Type}

def word [Word α] : Codec α where
  width := Word.width α
  put := Word.le
  get := Word.ofLe
  length_put := Word.length_le
  get_put := Word.ofLe_le
  put_get := Word.le_ofLe

def chars (n : Nat) : Codec (Chars n) where
  width := n
  put v := v.bytes
  get bs := if h : bs.length = n then ⟨bs, h⟩ else .zero
  length_put v := v.length_eq
  get_put v := dif_pos v.length_eq
  put_get h := by rw [dif_pos h]

def pair (c : Codec α) (d : Codec β) : Codec (α × β) where
  width := c.width + d.width
  put p := c.put p.1 ++ d.put p.2
  get bs := (c.get (bs.take c.width), d.get (bs.drop c.width))
  length_put p := by rw [List.length_append, c.length_put, d.length_put]
  get_put p := by
    rw [List.take_left' (c.length_put _), List.drop_left' (c.length_put _), c.get_put, d.get_put]
  put_get h := by
    rw [c.put_get (List.length_take_of_le (by omega)), d.put_get (by rw [List.length_drop]; omega),
      List.take_append_drop]

def iso (c : Codec α) (e : α ≃ β) : Codec β where
  width := c.width
  put b := c.put (e.symm b)
  get bs := e (c.get bs)
  length_put b := c.length_put _
  get_put b := by rw [c.get_put, e.apply_symm_apply]
  put_get h := by rw [e.symm_apply_apply, c.put_get h]

@[simp] theorem word_put [Word α] (x : α) : word.put x = Word.le x := rfl

@[simp] theorem chars_put {n : Nat} (v : Chars n) : (chars n).put v = v.bytes := rfl

@[simp] theorem pair_put (c : Codec α) (d : Codec β) (p : α × β) :
    (c.pair d).put p = c.put p.1 ++ d.put p.2 := rfl

@[simp] theorem iso_put (c : Codec α) (e : α ≃ β) (b : β) : (c.iso e).put b = c.put (e.symm b) := rfl

def read (c : Codec α) (bs : Bytes) : α := c.get (bs.take c.width)

theorem read_put (c : Codec α) (a : α) (bs : Bytes) : c.read (c.put a ++ bs) = a := by
  rw [read, List.take_left' (c.length_put a), c.get_put]

theorem put_read (c : Codec α) {bs : Bytes} (h : bs.length = c.width) : c.put (c.read bs) = bs := by
  rw [read, List.take_of_length_le h.le, c.put_get h]

def readMany (c : Codec α) (n : Nat) (bs : Bytes) : List α :=
  (List.range n).map fun i => c.read (bs.drop (c.width * i))

theorem readMany_put (c : Codec α) (as : List α) (rest : Bytes) :
    c.readMany as.length ((as.map c.put).flatten ++ rest) = as := by
  induction as with
  | nil => rfl
  | cons a as ih =>
    have htail : ∀ i, (c.put a ++ ((as.map c.put).flatten ++ rest)).drop (c.width * (i + 1)) =
        ((as.map c.put).flatten ++ rest).drop (c.width * i) := by
      intro i
      rw [Nat.mul_succ, Nat.add_comm, ← List.drop_drop, List.drop_left' (c.length_put a)]
    unfold readMany at ih ⊢
    rw [List.length_cons, List.range_succ_eq_map, List.map_cons, List.map_map, List.map_cons,
      List.flatten_cons, List.append_assoc, Nat.mul_zero, List.drop_zero, c.read_put]
    simp only [Function.comp_def, htail, ih]

theorem readMany_take (c : Codec α) (as : List α) {n : Nat} (hn : n ≤ as.length) :
    c.readMany n (as.map c.put).flatten = as.take n := by
  have hlen : (as.take n).length = n := List.length_take_of_le hn
  have hsplit : (as.map c.put).flatten =
      ((as.take n).map c.put).flatten ++ ((as.drop n).map c.put).flatten := by
    rw [← List.flatten_append, ← List.map_append, List.take_append_drop]
  have hread := c.readMany_put (as.take n) ((as.drop n).map c.put).flatten
  rwa [hlen, ← hsplit] at hread

end Codec

/-! ## Offsets -/

/-- The fields stand in `bs`, each at its offset. -/
def Laid (fields : List (Nat × Bytes)) (bs : Bytes) : Prop :=
  ∀ f ∈ fields, slice f.1 f.2.length bs = f.2

/-- The fields, each with the offset at which it stands when they follow one another from `off`. -/
def offsets : Nat → List Bytes → List (Nat × Bytes)
  | _, [] => []
  | off, f :: fs => (off, f) :: offsets (off + f.length) fs

theorem laid_offsets (before : Bytes) (fs : List Bytes) :
    Laid (offsets before.length fs) (before ++ fs.flatten) := by
  induction fs generalizing before with
  | nil => exact fun _ h => absurd h List.not_mem_nil
  | cons f fs ih =>
    intro g hg
    rcases List.mem_cons.1 hg with rfl | hg
    · show slice before.length f.length (before ++ (f ++ fs.flatten)) = f
      rw [slice_skip le_rfl, Nat.sub_self, slice_front rfl]
    · have := ih (before ++ f)
      rw [List.length_append, List.append_assoc] at this
      exact this g hg

theorem laid_flatten (fs : List Bytes) : Laid (offsets 0 fs) fs.flatten := laid_offsets [] fs

end Lib
