import DRoole.Lib.Records
import DRoole.Raft.Node

/-!
# The write-ahead log file

The on-disk format of `src/cluster/raft_persistence.c`: a `WalHeader`, then for
each log entry its `WalEntryHeader`, its data and the CRC-32 of both. Words are
big-endian and the structs packed.

A record is read back from the front of any stream that starts with it and is
refused when it is cut short (`walFormat`), so recovery is the scan of
`Lib.Records`.
-/

namespace DRoole

open Lib

/-! ## CRC-32 -/

def crc32Table : List UInt32 := [
  0x00000000, 0x77073096, 0xee0e612c, 0x990951ba, 0x076dc419, 0x706af48f,
  0xe963a535, 0x9e6495a3, 0x0edb8832, 0x79dcb8a4, 0xe0d5e91e, 0x97d2d988,
  0x09b64c2b, 0x7eb17cbd, 0xe7b82d07, 0x90bf1d91, 0x1db71064, 0x6ab020f2,
  0xf3b97148, 0x84be41de, 0x1adad47d, 0x6ddde4eb, 0xf4d4b551, 0x83d385c7,
  0x136c9856, 0x646ba8c0, 0xfd62f97a, 0x8a65c9ec, 0x14015c4f, 0x63066cd9,
  0xfa0f3d63, 0x8d080df5, 0x3b6e20c8, 0x4c69105e, 0xd56041e4, 0xa2677172,
  0x3c03e4d1, 0x4b04d447, 0xd20d85fd, 0xa50ab56b, 0x35b5a8fa, 0x42b2986c,
  0xdbbbc9d6, 0xacbcf940, 0x32d86ce3, 0x45df5c75, 0xdcd60dcf, 0xabd13d59,
  0x26d930ac, 0x51de003a, 0xc8d75180, 0xbfd06116, 0x21b4f4b5, 0x56b3c423,
  0xcfba9599, 0xb8bda50f, 0x2802b89e, 0x5f058808, 0xc60cd9b2, 0xb10be924,
  0x2f6f7c87, 0x58684c11, 0xc1611dab, 0xb6662d3d, 0x76dc4190, 0x01db7106,
  0x98d220bc, 0xefd5102a, 0x71b18589, 0x06b6b51f, 0x9fbfe4a5, 0xe8b8d433,
  0x7807c9a2, 0x0f00f934, 0x9609a88e, 0xe10e9818, 0x7f6a0dbb, 0x086d3d2d,
  0x91646c97, 0xe6635c01, 0x6b6b51f4, 0x1c6c6162, 0x856530d8, 0xf262004e,
  0x6c0695ed, 0x1b01a57b, 0x8208f4c1, 0xf50fc457, 0x65b0d9c6, 0x12b7e950,
  0x8bbeb8ea, 0xfcb9887c, 0x62dd1ddf, 0x15da2d49, 0x8cd37cf3, 0xfbd44c65,
  0x4db26158, 0x3ab551ce, 0xa3bc0074, 0xd4bb30e2, 0x4adfa541, 0x3dd895d7,
  0xa4d1c46d, 0xd3d6f4fb, 0x4369e96a, 0x346ed9fc, 0xad678846, 0xda60b8d0,
  0x44042d73, 0x33031de5, 0xaa0a4c5f, 0xdd0d7cc9, 0x5005713c, 0x270241aa,
  0xbe0b1010, 0xc90c2086, 0x5768b525, 0x206f85b3, 0xb966d409, 0xce61e49f,
  0x5edef90e, 0x29d9c998, 0xb0d09822, 0xc7d7a8b4, 0x59b33d17, 0x2eb40d81,
  0xb7bd5c3b, 0xc0ba6cad, 0xedb88320, 0x9abfb3b6, 0x03b6e20c, 0x74b1d29a,
  0xead54739, 0x9dd277af, 0x04db2615, 0x73dc1683, 0xe3630b12, 0x94643b84,
  0x0d6d6a3e, 0x7a6a5aa8, 0xe40ecf0b, 0x9309ff9d, 0x0a00ae27, 0x7d079eb1,
  0xf00f9344, 0x8708a3d2, 0x1e01f268, 0x6906c2fe, 0xf762575d, 0x806567cb,
  0x196c3671, 0x6e6b06e7, 0xfed41b76, 0x89d32be0, 0x10da7a5a, 0x67dd4acc,
  0xf9b9df6f, 0x8ebeeff9, 0x17b7be43, 0x60b08ed5, 0xd6d6a3e8, 0xa1d1937e,
  0x38d8c2c4, 0x4fdff252, 0xd1bb67f1, 0xa6bc5767, 0x3fb506dd, 0x48b2364b,
  0xd80d2bda, 0xaf0a1b4c, 0x36034af6, 0x41047a60, 0xdf60efc3, 0xa867df55,
  0x316e8eef, 0x4669be79, 0xcb61b38c, 0xbc66831a, 0x256fd2a0, 0x5268e236,
  0xcc0c7795, 0xbb0b4703, 0x220216b9, 0x5505262f, 0xc5ba3bbe, 0xb2bd0b28,
  0x2bb45a92, 0x5cb36a04, 0xc2d7ffa7, 0xb5d0cf31, 0x2cd99e8b, 0x5bdeae1d,
  0x9b64c2b0, 0xec63f226, 0x756aa39c, 0x026d930a, 0x9c0906a9, 0xeb0e363f,
  0x72076785, 0x05005713, 0x95bf4a82, 0xe2b87a14, 0x7bb12bae, 0x0cb61b38,
  0x92d28e9b, 0xe5d5be0d, 0x7cdcefb7, 0x0bdbdf21, 0x86d3d2d4, 0xf1d4e242,
  0x68ddb3f8, 0x1fda836e, 0x81be16cd, 0xf6b9265b, 0x6fb077e1, 0x18b74777,
  0x88085ae6, 0xff0f6a70, 0x66063bca, 0x11010b5c, 0x8f659eff, 0xf862ae69,
  0x616bffd3, 0x166ccf45, 0xa00ae278, 0xd70dd2ee, 0x4e048354, 0x3903b3c2,
  0xa7672661, 0xd06016f7, 0x4969474d, 0x3e6e77db, 0xaed16a4a, 0xd9d65adc,
  0x40df0b66, 0x37d83bf0, 0xa9bcae53, 0xdebb9ec5, 0x47b2cf7f, 0x30b5ffe9,
  0xbdbdf21c, 0xcabac28a, 0x53b39330, 0x24b4a3a6, 0xbad03605, 0xcdd70693,
  0x54de5729, 0x23d967bf, 0xb3667a2e, 0xc4614ab8, 0x5d681b02, 0x2a6f2b94,
  0xb40bbe37, 0xc30c8ea1, 0x5a05df1b, 0x2d02ef8d]

def crc32Step (crc : UInt32) (b : UInt8) : UInt32 :=
  crc32Table.getD ((crc ^^^ b.toUInt32) &&& 0xFF).toNat 0 ^^^ (crc >>> 8)

def crc32 (data : Bytes) : UInt32 := data.foldl crc32Step 0xFFFFFFFF ^^^ 0xFFFFFFFF

/-! ## Headers -/

def walMagic : UInt32 := 0x52414654

def walVersion : UInt32 := 1

def entryMagic : UInt32 := 0xE0E0E0E0

def walHeaderSize : Nat := 64

def walEntryHeaderSize : Nat := 25

/-- `WalHeader`; `reserved` is always zero and never read. -/
structure WalHeader where
  magic : UInt32
  version : UInt32
  currentTerm : UInt64
  votedFor : CString
  deriving DecidableEq, Repr

def WalHeader.bytes (h : WalHeader) : Bytes :=
  be32 h.magic ++ be32 h.version ++ be64 h.currentTerm ++ h.votedFor.toField 37 ++
    List.replicate 11 0

def WalHeader.ofBytes (bs : Bytes) : WalHeader where
  magic := get32 (slice 0 4 bs)
  version := get32 (slice 4 4 bs)
  currentTerm := get64 (slice 8 8 bs)
  votedFor := CString.ofField (slice 16 37 bs)

@[simp] theorem WalHeader.length_bytes (h : WalHeader) : h.bytes.length = walHeaderSize := by
  simp [WalHeader.bytes, CString.length_toField, walHeaderSize]

theorem WalHeader.ofBytes_bytes {h : WalHeader} (hv : h.votedFor.bytes.length ≤ 36) :
    WalHeader.ofBytes h.bytes = h := by
  simp [WalHeader.ofBytes, WalHeader.bytes, slice_front, slice_skip, CString.length_toField,
    CString.ofField_toField (Nat.lt_succ_of_le hv)]

/-- `WalEntryHeader`. -/
structure WalEntryHeader where
  magic : UInt32
  term : UInt64
  index : UInt64
  entryType : UInt8
  dataLen : UInt32
  deriving DecidableEq, Repr

def WalEntryHeader.bytes (h : WalEntryHeader) : Bytes :=
  be32 h.magic ++ be64 h.term ++ be64 h.index ++ [h.entryType] ++ be32 h.dataLen

def WalEntryHeader.ofBytes (bs : Bytes) : WalEntryHeader where
  magic := get32 (slice 0 4 bs)
  term := get64 (slice 4 8 bs)
  index := get64 (slice 12 8 bs)
  entryType := (slice 20 1 bs).headD 0
  dataLen := get32 (slice 21 4 bs)

@[simp] theorem WalEntryHeader.length_bytes (h : WalEntryHeader) :
    h.bytes.length = walEntryHeaderSize := by
  simp [WalEntryHeader.bytes, walEntryHeaderSize]

theorem WalEntryHeader.ofBytes_bytes (h : WalEntryHeader) : WalEntryHeader.ofBytes h.bytes = h := by
  have htype : slice 20 1 h.bytes = [h.entryType] := by
    rw [WalEntryHeader.bytes, List.append_assoc, slice_skip (by simp)]
    exact @slice_front 1 [h.entryType] rfl _
  have hlen : slice 21 4 h.bytes = be32 h.dataLen := by
    rw [WalEntryHeader.bytes, slice_skip (by simp)]
    exact slice_self (length_be32 _)
  rw [WalEntryHeader.ofBytes, htype, hlen]
  simp [WalEntryHeader.bytes, slice_front, slice_skip]

/-! ## Records -/

/-- The header `raft_persist_state` writes for an entry; `htonl` keeps the low
32 bits of `data_len`. -/
def entryHeader (e : RaftLogEntry) : WalEntryHeader where
  magic := entryMagic
  term := e.term
  index := e.index
  entryType := e.entryType
  dataLen := UInt32.ofNat e.data.length

def entryBody (e : RaftLogEntry) : Bytes := (entryHeader e).bytes ++ e.data

def entryRecord (e : RaftLogEntry) : Bytes := entryBody e ++ be32 (crc32 (entryBody e))

/-- One turn of the read loop of `raft_restore_state`; `none` where it breaks. -/
def readEntry (bs : Bytes) : Option (RaftLogEntry × Bytes) := do
  let (hdrBytes, bs) ← readN walEntryHeaderSize bs
  let hdr := WalEntryHeader.ofBytes hdrBytes
  if hdr.magic ≠ entryMagic then none
  else
    let (data, bs) ← readN hdr.dataLen.toNat bs
    let (crcBytes, bs) ← readN 4 bs
    if get32 crcBytes ≠ crc32 (hdrBytes ++ data) then none
    else some (⟨hdr.term, hdr.index, data, hdr.entryType⟩, bs)

/-- The length field can hold the length of the data. -/
def RaftLogEntry.Storable (e : RaftLogEntry) : Prop := e.data.length < 2 ^ 32

instance (e : RaftLogEntry) : Decidable e.Storable := inferInstanceAs (Decidable (_ < _))

theorem length_entryRecord (e : RaftLogEntry) :
    (entryRecord e).length = walEntryHeaderSize + e.data.length + 4 := by
  simp [entryRecord, entryBody, Nat.add_assoc]

theorem RaftLogEntry.Storable.dataLen {e : RaftLogEntry} (h : e.Storable) :
    (entryHeader e).dataLen.toNat = e.data.length := UInt32.toNat_ofNat_of_lt' h

/-- The bytes of a record that passes every check of the loop. -/
structure Accepted (bs : Bytes) (e : RaftLogEntry) (rest hdr crc : Bytes) : Prop where
  bytes_eq : bs = hdr ++ (e.data ++ (crc ++ rest))
  length_hdr : hdr.length = walEntryHeaderSize
  magic : (WalEntryHeader.ofBytes hdr).magic = entryMagic
  dataLen : e.data.length = (WalEntryHeader.ofBytes hdr).dataLen.toNat
  length_crc : crc.length = 4
  crc_eq : get32 crc = crc32 (hdr ++ e.data)
  term : e.term = (WalEntryHeader.ofBytes hdr).term
  index : e.index = (WalEntryHeader.ofBytes hdr).index
  entryType : e.entryType = (WalEntryHeader.ofBytes hdr).entryType

/-- **What a turn of the loop reads.** -/
theorem readEntry_eq_some_iff {bs rest : Bytes} {e : RaftLogEntry} :
    readEntry bs = some (e, rest) ↔ ∃ hdr crc, Accepted bs e rest hdr crc := by
  constructor
  · intro h
    unfold readEntry at h
    obtain ⟨⟨hdr, bs₁⟩, h₁, h⟩ := Option.bind_eq_some_iff.1 h
    dsimp only at h
    split at h
    · cases h
    next hmagic =>
    obtain ⟨⟨data, bs₂⟩, h₂, h⟩ := Option.bind_eq_some_iff.1 h
    obtain ⟨⟨crc, bs₃⟩, h₃, h⟩ := Option.bind_eq_some_iff.1 h
    dsimp only at h
    split at h
    · cases h
    next hcrc =>
    obtain ⟨rfl, rfl⟩ := Prod.mk.inj (Option.some.inj h)
    obtain ⟨rfl, hl₁⟩ := readN_eq_some h₁
    obtain ⟨rfl, hl₂⟩ := readN_eq_some h₂
    obtain ⟨rfl, hl₃⟩ := readN_eq_some h₃
    exact ⟨hdr, crc, rfl, hl₁, not_not.1 hmagic, hl₂, hl₃, not_not.1 hcrc, rfl, rfl, rfl⟩
  · rintro ⟨hdr, crc, h⟩
    unfold readEntry
    rw [h.bytes_eq, readN_append h.length_hdr]
    simp only [Option.bind_eq_bind, Option.bind_some]
    rw [if_neg (not_not.2 h.magic), readN_append h.dataLen]
    simp only [Option.bind_some]
    rw [readN_append h.length_crc]
    simp only [Option.bind_some]
    rw [if_neg (not_not.2 h.crc_eq), ← h.term, ← h.index, ← h.entryType]

theorem readEntry_record {e : RaftLogEntry} (h : e.Storable) (rest : Bytes) :
    readEntry (entryRecord e ++ rest) = some (e, rest) := by
  have hhdr := (entryHeader e).ofBytes_bytes
  refine readEntry_eq_some_iff.2 ⟨(entryHeader e).bytes, be32 (crc32 (entryBody e)), ?_, ?_, ?_, ?_,
    length_be32 _, get32_be32 _, ?_, ?_, ?_⟩
  · simp only [entryRecord, entryBody, List.append_assoc]
  · exact WalEntryHeader.length_bytes _
  all_goals rw [hhdr]
  · rfl
  · exact h.dataLen.symm
  all_goals rfl

/-- A record cut short is refused: its header, if it is there, asks for more. -/
theorem readEntry_torn {e : RaftLogEntry} (h : e.Storable) {k : Nat}
    (hk : k < (entryRecord e).length) : readEntry ((entryRecord e).take k) = none := by
  rw [Option.eq_none_iff_forall_ne_some]
  rintro ⟨e', rest⟩ hread
  obtain ⟨hdr, crc, ha⟩ := readEntry_eq_some_iff.1 hread
  have hlen := congrArg List.length ha.bytes_eq
  have hsplit : hdr ++ (e'.data ++ (crc ++ rest) ++ (entryRecord e).drop k) =
      (entryHeader e).bytes ++ (e.data ++ be32 (crc32 (entryBody e))) := by
    rw [← List.append_assoc, ← ha.bytes_eq, List.take_append_drop, entryRecord, entryBody,
      List.append_assoc]
  have hhdr : hdr = (entryHeader e).bytes :=
    (List.append_inj hsplit (by rw [ha.length_hdr, WalEntryHeader.length_bytes])).1
  have hdata := ha.dataLen
  rw [hhdr, WalEntryHeader.ofBytes_bytes, h.dataLen] at hdata
  simp only [List.length_append, ha.length_hdr, ha.length_crc, List.length_take] at hlen
  rw [length_entryRecord] at hk
  omega

theorem readEntry_shorter {bs rest : Bytes} {e : RaftLogEntry}
    (h : readEntry bs = some (e, rest)) : rest.length < bs.length := by
  obtain ⟨hdr, crc, ha⟩ := readEntry_eq_some_iff.1 h
  rw [ha.bytes_eq]
  simp only [List.length_append, ha.length_crc]
  omega

def walFormat : RecordFormat RaftLogEntry where
  Storable := RaftLogEntry.Storable
  enc := entryRecord
  next := readEntry
  next_enc := readEntry_record
  next_torn := readEntry_torn
  next_shorter := readEntry_shorter

end DRoole
