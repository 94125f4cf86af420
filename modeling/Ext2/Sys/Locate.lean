import Ext2.Sector.Arith
import Ext2.Volume.Size

/-!
# Bounds-checked record location

The protocol of §4.3 that `BlockGroupDescriptor::find_descriptor` and
`Inode::find_inode` share: the end of a record of `size` bytes at `offset` is
`offset + Address::from(size)`; when the extent of the volume is below the end, the
locator returns `AddressOutOfBounds` at the end, and otherwise it reads the bytes
`offset..end` as the record.  The `error` and `volume` modules that the locators use
are not in `src/`; the model takes from the spec what the locators need of them.

The end is computed with the wrapping address arithmetic, so the check is sound only
while the record ends below the top of the medium (`findRecord_of_lt`).
-/

namespace Ext2

/-- Modelled from the spec: `Error::AddressOutOfBounds` of the `error` module (§6, §7),
with the fields the locators fill (`sector`, `offset`, `size`). -/
inductive Error where
  | addressOutOfBounds (sector offset : U32) (size : Nat)
deriving DecidableEq, Repr

/-- Modelled from the spec: the `Volume<u8, S>` capability of the `volume` module, as
the locators use it (§6): its extent `size()`, and `slice_unchecked(start..end)`
followed by `dynamic_cast::<T>()`, which reads the bytes `start..end` as a record of
type `T` together with an address. -/
structure Volume (S : SectorSize) (T : Type) where
  size : Size S
  sliceCast : Address S → Address S → T × Address S

/-- The volume `vec![0_u8; 4096]` of the `find` test of `block_group.rs`, on 512-byte
sectors: its extent is bounded by byte 0 of sector 8, and a record read from it is
shown as `()` with its start. -/
def zeroVolume : Volume Size512 Unit := ⟨.bounded ⟨8, 0, by decide⟩, fun a _ => ((), a)⟩

variable {S : SectorSize} {T : Type}

/-- The error a locator returns for a record that ends at `e`. -/
def Error.outOfBounds (e : Address S) : Error :=
  .addressOutOfBounds e.sector e.offset e.sectorSize

/-- The body of `find_descriptor` and `find_inode` after the size check: the record of
`size` bytes at `offset`. -/
def findRecord (size : Usize) (haystack : Volume S T) (offset : Address S) :
    Except Panic (Except Error (T × Address S)) := do
  let end_ ← offset.add (← Address.fromUsize size)
  if haystack.size.ltAddress end_ then
    return .error (.addressOutOfBounds end_.sector end_.offset end_.sectorSize)
  return .ok (haystack.sliceCast offset end_)

/-- A locator panics only when the end address does, and compares the end with the
extent. -/
lemma findRecord_eq (size : Usize) (haystack : Volume S T) (offset : Address S) :
    findRecord size haystack offset = (fun e => if haystack.size.ltAddress e then
      .error (Error.outOfBounds e) else .ok (haystack.sliceCast offset e)) <$>
        offset.add (Address.ofIndex size.val) := by
  rw [findRecord, Address.fromUsize_eq_fromU64, Address.fromU64_eq, ok_bind]
  rcases offset.add (Address.ofIndex size.val) with p | e
  · rfl
  · rw [map_ok, ok_bind]
    split_ifs <;> rfl

/-- Below the top of the medium, and with sectors of at most `2 ^ 30` bytes, a locator
does what §4.3 asks: the end is the address of index `offset + size`, and the locator
reads the bytes `offset..end` when the volume holds them and otherwise returns the error
at the end. -/
lemma findRecord_of_lt (hS : S.logSize ≤ 30) (size : Usize) (haystack : Volume S T)
    (offset : Address S) (h : offset.intoIndex.val + size.val < 2 ^ (32 + S.logSize)) :
    findRecord size haystack offset =
      .ok (if haystack.size.holds (offset.intoIndex.val + size.val) then
        .ok (haystack.sliceCast offset (Address.ofIndex (offset.intoIndex.val + size.val : Nat)))
      else .error (Error.outOfBounds
        (Address.ofIndex (offset.intoIndex.val + size.val : Nat) : Address S))) := by
  rw [findRecord_eq, Address.add_ofIndex_of_lt hS h, map_ok, Size.ltAddress_eq_not_holds,
    Address.intoIndex_ofIndex_of_lt h]
  cases haystack.size.holds (offset.intoIndex.val + size.val) <;> rfl

/-- With a record shorter than a sector, and sectors of at most `2 ^ 30` bytes, the end
address is that of the index `offset + size` reduced modulo the size of the medium, and
the locator compares the reduced index with the extent. -/
lemma findRecord_of_lt_size (hS : S.logSize ≤ 30) (size : Usize) (haystack : Volume S T)
    (offset : Address S) (hsize : size.val < S.size) :
    findRecord size haystack offset =
      .ok (if haystack.size.holds ((offset.intoIndex.val + size.val) % 2 ^ (32 + S.logSize)) then
        .ok (haystack.sliceCast offset (Address.ofIndex (offset.intoIndex.val + size.val : Nat)))
      else .error (Error.outOfBounds
        (Address.ofIndex (offset.intoIndex.val + size.val : Nat) : Address S))) := by
  rw [findRecord_eq, Address.add_ofIndex_of_lt_size hS offset hsize, map_ok,
    Size.ltAddress_eq_not_holds, Address.intoIndex_ofIndex_natCast]
  cases haystack.size.holds ((offset.intoIndex.val + size.val) % 2 ^ (32 + S.logSize)) <;> rfl

/-- The end of a record below the top of the medium lies after its start. -/
lemma le_ofIndex_add {offset : Address S} {size : Nat}
    (h : offset.intoIndex.val + size < 2 ^ (32 + S.logSize)) :
    offset ≤ Address.ofIndex (offset.intoIndex.val + size : Nat) := by
  rw [Address.le_iff, Address.intoIndex_ofIndex_of_lt h]
  omega

end Ext2
