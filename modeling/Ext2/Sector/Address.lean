import Ext2.Scalar

/-!
# Sector sizes and addresses

`src/sector.rs`.  A `SectorSize` tag fixes `LOG_SIZE`; an `Address<S>` is a pair
`(sector, offset)` of `u32`s whose offset stays below the sector size.  Every
constructor goes through the `i64` linear index `sector * SIZE + offset` and splits it
again, so an address stands for one byte of a medium of `2 ^ (32 + LOG_SIZE)` bytes.
The main results are

* `Address.withBlockSize_eq`, `Address.new_eq`: the constructors never panic, and build
  the split `ofIndex` of the index;
* `Address.intoIndex_ofIndex`: the split keeps the index modulo the size of the medium;
* `Address.fromU64_eq`, `Address.ofIndex_intoIndex`: `From` and `into_index` are
  mutually inverse;
* `Address.withBlockSize_of_lt_64`: blocks of any size; the shift loses only bits above
  the medium, and the only panics are a shift of 64 bits or more and one step below
  `i64::MIN`.
-/

namespace Ext2

/-- A `SectorSize` tag: `LOG_SIZE`, the base-2 logarithm of the sector size in bytes.
The spec assumes `LOG_SIZE` at most 31 (§4.1). -/
structure SectorSize where
  logSize : Nat
  logSize_le : logSize ≤ 31

namespace SectorSize

variable (S : SectorSize)

/-- `SIZE = 1 << LOG_SIZE`. -/
def size : Nat := 1 <<< S.logSize

/-- `OFFSET_MASK = (SIZE - 1) as u32`. -/
def offsetMask : Nat := (S.size - 1) % 2 ^ 32

lemma size_eq : S.size = 2 ^ S.logSize := Nat.one_shiftLeft _

lemma size_pos : 0 < S.size := S.size_eq ▸ Nat.two_pow_pos _

lemma size_le : S.size ≤ 2 ^ 31 :=
  S.size_eq ▸ Nat.pow_le_pow_right (by decide) S.logSize_le

lemma offsetMask_eq : S.offsetMask = 2 ^ S.logSize - 1 := by
  have := S.size_le
  rw [offsetMask, Nat.mod_eq_of_lt (by omega), size_eq]

/-- The medium has `2 ^ 32` sectors. -/
lemma two_pow_span : 2 ^ (32 + S.logSize) = 2 ^ 32 * S.size := by
  rw [Nat.pow_add, size_eq]

/-- The medium has at most `2 ^ 63` bytes. -/
lemma two_pow_span_le : 2 ^ (32 + S.logSize) ≤ 2 ^ 63 :=
  Nat.pow_le_pow_right (by decide) (by have := S.logSize_le; omega)

lemma size_dvd : (2 : Int) ^ S.logSize ∣ 2 ^ 32 :=
  pow_dvd_pow 2 (by have := S.logSize_le; omega)

lemma two_pow_span_dvd : (2 : Int) ^ (32 + S.logSize) ∣ 2 ^ 64 :=
  pow_dvd_pow 2 (by have := S.logSize_le; omega)

end SectorSize

/-- `Size512`. -/
def Size512 : SectorSize := ⟨9, by decide⟩

/-- `Size1024`. -/
def Size1024 : SectorSize := ⟨10, by decide⟩

/-- `Size2048`. -/
def Size2048 : SectorSize := ⟨11, by decide⟩

/-- `Size4096`. -/
def Size4096 : SectorSize := ⟨12, by decide⟩

/-- The linear index of byte `o` of sector `s` is below `2 ^ (32 + LOG_SIZE)`. -/
lemma SectorSize.shiftLeft_add_lt (S : SectorSize) {s o : Nat} (hs : s < 2 ^ 32)
    (ho : o < S.size) : (s <<< S.logSize) + o < 2 ^ (32 + S.logSize) := by
  rw [Nat.shiftLeft_eq, ← S.size_eq, S.two_pow_span]
  nlinarith

/-- `Address<S>`: byte `offset` of sector `sector`.  The offset is below the sector size,
as `new_unchecked` asserts; the fields are private to `sector.rs`, so every address is
built by `new_unchecked`. -/
@[ext]
structure Address (S : SectorSize) where
  sector : U32
  offset : U32
  offset_lt : offset.val < S.size
deriving DecidableEq, Repr

namespace Address

variable {S : SectorSize}

/-- `Address::new_unchecked`, which asserts the offset invariant. -/
def newUnchecked (sector offset : U32) : Except Panic (Address S) :=
  if h : offset.val < S.size then .ok ⟨sector, offset, h⟩
  else .error (.assertion "offset out of sector bounds")

/-- `Address::with_block_size`: byte `offset` of block `block`, for blocks of
`2 ^ log_block_size` bytes.  The `i64` index is split into `(index >> LOG_SIZE) as u32`
and `index as u32 & OFFSET_MASK`; `>>` on `i64` is the floor division by a power of
two. -/
def withBlockSize (block : U32) (offset : I32) (log_block_size : U32) :
    Except Panic (Address S) := do
  let index ← addI64 (← shlI64 block.val log_block_size.val) offset.val
  newUnchecked (castU32 (index / 2 ^ S.logSize)) (andU32 (castU32 index) S.offsetMask)

/-- `Address::new`: the computation of `with_block_size` with blocks of one sector. -/
def new (sector : U32) (offset : I32) : Except Panic (Address S) :=
  withBlockSize sector offset ⟨S.logSize, by have := S.logSize_le; omega⟩

/-- `Address::into_index`: `((sector as u64) << LOG_SIZE) + offset as u64`.  Neither
operation overflows. -/
def intoIndex (a : Address S) : U64 :=
  ⟨(a.sector.val <<< S.logSize) + a.offset.val,
    lt_of_lt_of_le (S.shiftLeft_add_lt a.sector.isLt a.offset_lt)
      (Nat.pow_le_pow_right (by decide) (by have := S.logSize_le; omega))⟩

/-- `Address::sector_size`. -/
def sectorSize (_ : Address S) : Nat := S.size

/-- `From<u64> for Address`. -/
def fromU64 (idx : U64) : Except Panic (Address S) :=
  new (castU32 (idx.val >>> S.logSize : Nat)) (castI32 (idx.val &&& S.offsetMask : Nat))

/-- `From<usize> for Address`. -/
def fromUsize (idx : Usize) : Except Panic (Address S) :=
  new (castU32 (idx.val >>> S.logSize : Nat)) (castI32 (idx.val &&& S.offsetMask : Nat))

/-- The address that `new` and `with_block_size` build from the `i64` index `index`. -/
def ofIndex (index : Int) : Address S where
  sector := castU32 (index / 2 ^ S.logSize)
  offset := andU32 (castU32 index) S.offsetMask
  offset_lt := by
    have := Nat.two_pow_pos S.logSize
    rw [S.size_eq]
    exact Nat.and_lt_two_pow _ (by rw [S.offsetMask_eq]; omega)

/-! ### The constructors -/

/-- The assertion of `new_unchecked` holds on the split of every index. -/
lemma newUnchecked_split (index : Int) :
    newUnchecked (castU32 (index / 2 ^ S.logSize)) (andU32 (castU32 index) S.offsetMask) =
      .ok (ofIndex index : Address S) :=
  dif_pos (ofIndex index : Address S).offset_lt

/-- `with_block_size` with blocks of at most `2 ^ 31` bytes neither overflows nor fails
its assertion. -/
lemma withBlockSize_eq (block : U32) (offset : I32) {log_block_size : U32}
    (h : log_block_size.val ≤ 31) :
    (withBlockSize block offset log_block_size : Except Panic (Address S)) =
      .ok (ofIndex (block.val * 2 ^ log_block_size.val + offset.val)) := by
  have hpow : (2 : Int) ^ log_block_size.val ≤ 2 ^ 31 := pow_le_pow_right₀ (by norm_num) h
  have hblock : (block.val : Int) ≤ 2 ^ 32 - 1 := by omega
  have hmul := Int.mul_le_mul hblock hpow (by positivity) (by norm_num)
  have hnn : 0 ≤ (block.val : Int) * 2 ^ log_block_size.val := by positivity
  have := offset.min_le
  have := offset.lt
  rw [withBlockSize, shlI64_of_lt (by omega) (by constructor <;> omega)]
  change (addI64 _ _ >>= _) = _
  rw [addI64_of_inI64 (by constructor <;> omega)]
  exact newUnchecked_split _

lemma new_eq (sector : U32) (offset : I32) :
    (new sector offset : Except Panic (Address S)) =
      .ok (ofIndex (sector.val * S.size + offset.val)) := by
  rw [new, withBlockSize_eq _ _ S.logSize_le, S.size_eq]
  norm_cast

/-! ### The linear index -/

lemma intoIndex_val (a : Address S) :
    a.intoIndex.val = a.sector.val * S.size + a.offset.val := by
  show (a.sector.val <<< S.logSize) + a.offset.val = _
  rw [Nat.shiftLeft_eq, S.size_eq]

lemma intoIndex_lt (a : Address S) : a.intoIndex.val < 2 ^ (32 + S.logSize) :=
  S.shiftLeft_add_lt a.sector.isLt a.offset_lt

lemma intoIndex_div (a : Address S) : a.intoIndex.val / S.size = a.sector.val := by
  rw [intoIndex_val, Nat.mul_comm, Nat.mul_add_div S.size_pos, Nat.div_eq_of_lt a.offset_lt,
    Nat.add_zero]

lemma intoIndex_mod (a : Address S) : a.intoIndex.val % S.size = a.offset.val := by
  rw [intoIndex_val, Nat.mul_comm, Nat.mul_add_mod, Nat.mod_eq_of_lt a.offset_lt]

/-- An address is determined by its linear index. -/
lemma intoIndex_injective : Function.Injective (intoIndex : Address S → U64) := by
  intro a b h
  ext
  · rw [← intoIndex_div, ← intoIndex_div, h]
  · rw [← intoIndex_mod, ← intoIndex_mod, h]

@[simp] lemma ofIndex_sector_val (i : Int) :
    ((ofIndex i : Address S).sector.val : Int) = i / 2 ^ S.logSize % 2 ^ 32 :=
  castU32_val _

@[simp] lemma ofIndex_offset_val (i : Int) :
    ((ofIndex i : Address S).offset.val : Int) = i % 2 ^ S.logSize := by
  simp only [ofIndex, andU32, S.offsetMask_eq, Nat.and_pow_two_sub_one_eq_mod, Int.natCast_mod,
    Int.natCast_pow, Nat.cast_ofNat, castU32_val, Int.emod_emod_of_dvd _ S.size_dvd]

/-- The split keeps the index modulo the size of the medium. -/
lemma intoIndex_ofIndex (i : Int) :
    ((ofIndex i : Address S).intoIndex.val : Int) = i % 2 ^ (32 + S.logSize) := by
  rw [intoIndex_val, S.size_eq]
  push_cast
  rw [ofIndex_sector_val, ofIndex_offset_val, pow_add,
    ediv_emod_mul_add_emod i (by positivity) (by norm_num)]

lemma intoIndex_ofIndex_natCast (n : Nat) :
    (ofIndex n : Address S).intoIndex.val = n % 2 ^ (32 + S.logSize) := by
  rw [← Int.ofNat_inj, intoIndex_ofIndex]
  norm_cast

lemma intoIndex_ofIndex_of_lt {n : Nat} (h : n < 2 ^ (32 + S.logSize)) :
    (ofIndex n : Address S).intoIndex.val = n := by
  rw [intoIndex_ofIndex_natCast, Nat.mod_eq_of_lt h]

lemma ofIndex_emod (i : Int) :
    (ofIndex (i % 2 ^ (32 + S.logSize)) : Address S) = ofIndex i := by
  apply intoIndex_injective
  rw [Fin.ext_iff, ← Int.ofNat_inj, intoIndex_ofIndex, intoIndex_ofIndex, Int.emod_emod]

lemma ofIndex_intoIndex (a : Address S) : ofIndex a.intoIndex.val = a :=
  intoIndex_injective (Fin.ext (intoIndex_ofIndex_of_lt a.intoIndex_lt))

/-- The addresses are the bytes of a medium of `2 ^ (32 + LOG_SIZE)` bytes, numbered by
`into_index`. -/
def equivIndex : Address S ≃ Fin (2 ^ (32 + S.logSize)) where
  toFun a := ⟨a.intoIndex.val, a.intoIndex_lt⟩
  invFun i := ofIndex i.val
  left_inv := ofIndex_intoIndex
  right_inv i := Fin.ext (intoIndex_ofIndex_of_lt i.isLt)

/-! ### Conversions from a linear index -/

lemma fromU64_eq (idx : U64) :
    (fromU64 idx : Except Panic (Address S)) = .ok (ofIndex idx.val) := by
  have hmask : idx.val &&& S.offsetMask = idx.val % S.size := by
    rw [S.offsetMask_eq, Nat.and_pow_two_sub_one_eq_mod, S.size_eq]
  have hoff : idx.val % S.size < 2 ^ 31 := lt_of_lt_of_le (Nat.mod_lt _ S.size_pos) S.size_le
  have hsplit : (idx.val >>> S.logSize) % 2 ^ 32 * S.size + idx.val % S.size =
      idx.val % 2 ^ (32 + S.logSize) := by
    rw [Nat.shiftRight_eq_div_pow, ← S.size_eq, S.two_pow_span, Nat.mul_comm (2 ^ 32),
      Nat.mod_mul]
    ring
  rw [fromU64, new_eq, hmask, castI32_val_of_lt (by omega) (by exact_mod_cast hoff),
    ← ofIndex_emod (idx.val : Int)]
  congr 2
  rw [castU32_natCast]
  exact_mod_cast hsplit

/-- On a 64-bit target `From<usize>` is `From<u64>`. -/
lemma fromUsize_eq_fromU64 (idx : Usize) :
    (fromUsize idx : Except Panic (Address S)) = fromU64 idx := rfl

/-- `From<u64>` and `into_index` are mutually inverse between the addresses and
`[0, 2 ^ (32 + LOG_SIZE))`; `From` reduces every other index modulo that size, and
`From<usize>` agrees with it. -/
theorem fromU64_intoIndex_inverse :
    (∀ idx : U64, ∃ a : Address S, fromU64 idx = .ok a ∧
      a.intoIndex.val = idx.val % 2 ^ (32 + S.logSize)) ∧
    (∀ idx : Usize, (fromUsize idx : Except Panic (Address S)) = fromU64 idx) ∧
    (∀ a : Address S, fromU64 a.intoIndex = .ok a) ∧
    ∀ a : Address S, a.intoIndex.val < 2 ^ (32 + S.logSize) := by
  refine ⟨fun idx => ⟨_, fromU64_eq idx, ?_⟩, fromUsize_eq_fromU64, fun a => ?_,
    intoIndex_lt⟩
  · exact_mod_cast intoIndex_ofIndex (idx.val : Int)
  · rw [fromU64_eq, ofIndex_intoIndex]

/-- `with_block_size`, for blocks of at most `2 ^ 31` bytes, and `new` build without
panicking the address of the integer `block * 2 ^ log_block_size + offset`, reduced
modulo the size of the medium: a negative offset borrows from the block, and an index
past the top wraps. -/
theorem withBlockSize_intoIndex (block : U32) (offset : I32) (log_block_size : U32)
    (h : log_block_size.val ≤ 31) :
    (∃ a : Address S, withBlockSize block offset log_block_size = .ok a ∧
      a.offset.val < S.size ∧
      (a.intoIndex.val : Int) =
        (block.val * 2 ^ log_block_size.val + offset.val) % 2 ^ (32 + S.logSize)) ∧
    ∀ (sector : U32) (offset : I32), ∃ a : Address S, new sector offset = .ok a ∧
      a.offset.val < S.size ∧
      (a.intoIndex.val : Int) = (sector.val * 2 ^ S.logSize + offset.val) % 2 ^ (32 + S.logSize) :=
  ⟨⟨_, withBlockSize_eq block offset h, (ofIndex _).offset_lt, intoIndex_ofIndex _⟩,
    fun sector offset => ⟨_, new_eq sector offset, (ofIndex _).offset_lt, by
      rw [intoIndex_ofIndex, S.size_eq]
      push_cast
      rfl⟩⟩

/-- The conversion test of `sector.rs`: 256 bytes before the end of block 1, for blocks of
1024 bytes on 512-byte sectors, is byte `1024 - 256`. -/
theorem withBlockSize_conv :
    (withBlockSize 1 ⟨-256, by decide, by decide⟩ 10 : Except Panic (Address Size512)).map
      (fun a => a.intoIndex.val) = .ok (1024 - 256) := by
  obtain ⟨⟨a, ha, -, hidx⟩, -⟩ :=
    @withBlockSize_intoIndex Size512 1 ⟨-256, by decide, by decide⟩ 10 (by decide)
  rw [ha]
  change Except.ok a.intoIndex.val = _
  rw [show (10 : U32).val = 10 from rfl, show Size512.logSize = 9 from rfl] at hidx
  norm_num at hidx
  rw [show a.intoIndex.val = 768 by omega]

/-! ### Blocks of any size -/

/-- The shifted block `(block as i64) << n`, before the wrap: its low 32 bits are clear
from `n = 32` on, and below that it stays under `2 ^ 63 - 2 ^ 31`. -/
lemma shiftedBlock_cases (block : U32) (n : Nat) :
    ((block.val : Int) * 2 ^ n) % 2 ^ 32 = 0 ∨ (block.val : Int) * 2 ^ n ≤ 2 ^ 63 - 2 ^ 31 := by
  rcases Nat.lt_or_ge n 32 with hn | hn
  · right
    have hpow : (2 : Int) ^ n ≤ 2 ^ 31 := pow_le_pow_right₀ (by norm_num) (by omega)
    have hb : (block.val : Int) ≤ 2 ^ 32 - 1 := by omega
    calc (block.val : Int) * 2 ^ n ≤ (2 ^ 32 - 1) * 2 ^ 31 :=
          Int.mul_le_mul hb hpow (by positivity) (by norm_num)
      _ = 2 ^ 63 - 2 ^ 31 := by norm_num
  · left
    obtain ⟨k, rfl⟩ := Nat.exists_eq_add_of_le hn
    rw [pow_add, mul_left_comm]
    exact Int.mul_emod_right _ _

/-- For every `log_block_size`, `with_block_size` panics exactly when the shift reaches
64 bits, or when the shifted block wraps to `i64::MIN` and the offset is negative.
Otherwise it builds the address of `block * 2 ^ log_block_size + offset` over the
integers, modulo the size of the medium: the bits that `<<` drops from a block of
`2 ^ 32` bytes or more lie above the medium. -/
theorem withBlockSize_of_lt_64 (block : U32) (offset : I32) (log_block_size : U32) :
    ((withBlockSize block offset log_block_size : Except Panic (Address S)) = .error .overflow ↔
      64 ≤ log_block_size.val ∨
        (((block.val : Int) * 2 ^ log_block_size.val) % 2 ^ 64 = 2 ^ 63 ∧ offset.val < 0)) ∧
    (log_block_size.val < 64 →
      ¬ (((block.val : Int) * 2 ^ log_block_size.val) % 2 ^ 64 = 2 ^ 63 ∧ offset.val < 0) →
      ∃ a : Address S, withBlockSize block offset log_block_size = .ok a ∧
        (a.intoIndex.val : Int) =
          (block.val * 2 ^ log_block_size.val + offset.val) % 2 ^ (32 + S.logSize)) := by
  rcases Nat.lt_or_ge log_block_size.val 64 with hn | hn
  · -- the shift is in range, and only the addition can overflow
    have key := inI64_wrapI64_add_iff (by positivity)
      (shiftedBlock_cases block log_block_size.val) offset.min_le offset.lt
    rw [withBlockSize, shlI64_of_lt_64 hn, ok_bind]
    by_cases hpanic : ((block.val : Int) * 2 ^ log_block_size.val) % 2 ^ 64 = 2 ^ 63 ∧
        offset.val < 0
    · rw [addI64_of_not_inI64 (key.not.2 (not_not.2 hpanic)), error_bind]
      exact ⟨iff_of_true rfl (.inr hpanic), fun _ h => absurd hpanic h⟩
    · rw [addI64_of_inI64 (key.2 hpanic), ok_bind, newUnchecked_split]
      refine ⟨iff_of_false (by rintro ⟨⟩) (by omega), fun _ _ => ⟨_, rfl, ?_⟩⟩
      rw [intoIndex_ofIndex, wrapI64_add_emod _ _ S.two_pow_span_dvd]
  · -- the shift amount reaches the width of `i64`
    rw [withBlockSize, shlI64_of_le hn, error_bind]
    exact ⟨iff_of_true rfl (.inl hn), fun h => absurd h (not_lt.2 hn)⟩

/-- Block `2 ^ 31` of blocks of `2 ^ 32` bytes is byte `2 ^ 63`, which `<<` wraps to
`i64::MIN`: one byte before it overflows `i64`. -/
theorem withBlockSize_wraps_to_min :
    (withBlockSize 2147483648 ⟨-1, by decide, by decide⟩ 32 : Except Panic (Address Size512)) =
      .error .overflow :=
  (withBlockSize_of_lt_64 _ _ _).1.2 (.inr ⟨by decide, by decide⟩)

end Address

end Ext2
