import DRoole.Lib.Crc
import DRoole.Wal.Format

/-!
# The checksum

`crc32` is the reflected CRC-32 of the polynomial `0xEDB88320`: the 256 entries
of `crc32_table` are what the polynomial makes of each byte, and a look-up for
each byte is eight steps of the definition.
-/

namespace DRoole

open Lib

/-! ## The table -/

def crcTable (i : BitVec 8) : BitVec 32 := (crc32Table.getD i.toNat 0).toBitVec

/-- The polynomial of CRC-32 with its lowest power at the top; the leading one is not written. -/
def crcPolynomial : BitVec 32 := 0xEDB88320

/-- No entry of the table is mistyped. -/
theorem crcTable_eq : crcTable = Crc.byteRegister crcPolynomial := by
  have hall : ∀ i : Fin 256, crcTable ⟨i⟩ = Crc.byteRegister crcPolynomial ⟨i⟩ := by decide +kernel
  funext i
  exact hall i.toFin

theorem crcTable_topsDistinct : Crc.TopsDistinct crcTable := by
  rw [crcTable_eq]
  exact Crc.topsDistinct_byteRegister (by decide) (by decide)

/-! ## The checksum as a register -/

theorem crc32Step_toBitVec (s : UInt32) (b : UInt8) :
    (crc32Step s b).toBitVec = Crc.step crcTable s.toBitVec b.toBitVec := by
  have hindex : ((s ^^^ b.toUInt32) &&& 0xFF).toNat = (s.toBitVec.setWidth 8 ^^^ b.toBitVec).toNat := by
    have hb : b.toNat % 2 ^ 8 = b.toNat := Nat.mod_eq_of_lt b.toNat_lt
    have hmask := Nat.and_two_pow_sub_one_eq_mod (s.toNat ^^^ b.toNat) 8
    rw [Nat.xor_mod_two_pow, hb] at hmask
    rw [UInt32.toNat_and, UInt32.toNat_xor, UInt8.toNat_toUInt32, BitVec.toNat_xor,
      BitVec.toNat_setWidth]
    exact hmask
  unfold crc32Step Crc.step crcTable
  rw [hindex]
  rfl

theorem foldl_crc32Step_toBitVec (s : UInt32) (bs : Bytes) :
    (bs.foldl crc32Step s).toBitVec = Crc.run crcTable s.toBitVec (bs.map UInt8.toBitVec) := by
  induction bs generalizing s with
  | nil => rfl
  | cons b bs ih =>
    rw [List.foldl_cons, ih, crc32Step_toBitVec]
    rfl

/-- CRC-32 by its definition: every bit of the data is shifted through the register,
which starts from ones and is inverted at the end. -/
def bitwiseCrc32 (data : Bytes) : UInt32 :=
  ⟨Crc.bitRun crcPolynomial 0xFFFFFFFF (data.map UInt8.toBitVec) ^^^ 0xFFFFFFFF⟩

/-- **The table computes CRC-32.** -/
theorem crc32_eq_bitwise (data : Bytes) : crc32 data = bitwiseCrc32 data := by
  have hrun := foldl_crc32Step_toBitVec 0xFFFFFFFF data
  rw [crcTable_eq, ← Crc.bitRun_eq_run] at hrun
  unfold crc32 bitwiseCrc32
  apply UInt32.toBitVec_inj.1
  rw [UInt32.toBitVec_xor, hrun]
  rfl

-- the check value of CRC-32, of the digits 1 to 9
example : crc32 [49, 50, 51, 52, 53, 54, 55, 56, 57] = 0xCBF43926 := by decide +kernel

end DRoole
