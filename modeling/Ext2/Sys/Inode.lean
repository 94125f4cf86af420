import Ext2.Sys.BlockGroup

/-!
# Inodes

`src/sys/inode.rs`.  `find_inode` accepts only the 128-byte record: for any other size
it panics with `unimplemented!` and returns no error (`findInode_of_ne`).  For 128 bytes
it is the record locator of §4.3 (`findInode_of_lt`).  Both locators take the end
address from the wrapping address arithmetic, so at the top of the medium they read a
range whose end lies before its start (`locators_accept_wrapped_end`).
-/

namespace Ext2

namespace Inode

variable {S : SectorSize} {I : Type}

/-- `mem::size_of::<Inode>()`: the packed record has 128 bytes (the `sizes` test of
`lib.rs`). -/
def sizeOf : Usize := 128

/-- `Inode::find_inode`, where `I` is the record type. -/
def findInode (haystack : Volume S I) (offset : Address S) (size : Usize) :
    Except Panic (Except Error (I × Address S)) :=
  if size ≠ sizeOf then .error (.unimplemented "inodes with a size != 128")
  else findRecord size haystack offset

/-- A size other than 128 is a panic, not an error. -/
lemma findInode_of_ne (haystack : Volume S I) (offset : Address S) {size : Usize}
    (h : size ≠ sizeOf) :
    findInode haystack offset size = .error (.unimplemented "inodes with a size != 128") :=
  if_pos h

/-- An inode of 256 bytes is not supported. -/
example :
    findInode (⟨.unbounded, fun a _ => ((), a)⟩ : Volume Size512 Unit) ⟨0, 0, by decide⟩
      256 = .error (.unimplemented "inodes with a size != 128") :=
  findInode_of_ne _ _ (by decide)

/-- Below the top of the medium, and with sectors of at most `2 ^ 30` bytes,
`find_inode` reads the 128 bytes from `offset` to an end after it when the volume holds
them, and otherwise returns the error at that end. -/
theorem findInode_of_lt (hS : S.logSize ≤ 30) (haystack : Volume S I) (offset : Address S)
    (h : offset.intoIndex.val + 128 < 2 ^ (32 + S.logSize)) :
    ∃ e : Address S, offset ≤ e ∧ e.intoIndex.val = offset.intoIndex.val + 128 ∧
      findInode haystack offset 128 = .ok (if haystack.size.holds (offset.intoIndex.val + 128) then
        .ok (haystack.sliceCast offset e) else .error (Error.outOfBounds e)) :=
  ⟨_, le_ofIndex_add h, Address.intoIndex_ofIndex_of_lt h,
    (if_neg (not_not.2 rfl)).trans (findRecord_of_lt hS sizeOf haystack offset h)⟩

/-- An inode at sector 4 of a volume of 4096 bytes, on 512-byte sectors. -/
theorem findInode_sector_four :
    findInode zeroVolume ⟨4, 0, by decide⟩ 128 = .ok (.ok ((), ⟨4, 0, by decide⟩)) := by
  obtain ⟨e, -, -, h⟩ :=
    findInode_of_lt (by decide) zeroVolume ⟨4, 0, by decide⟩ (by decide)
  rw [h]
  rfl

/-- On sectors of `2 ^ 8` to `2 ^ 30` bytes, `find_inode` compares with the extent the
end index `offset + 128` reduced modulo the size of the medium. -/
theorem findInode_eq_wrapped (h8 : 8 ≤ S.logSize) (hS : S.logSize ≤ 30)
    (haystack : Volume S I) (offset : Address S) :
    findInode haystack offset 128 =
      .ok (if haystack.size.holds ((offset.intoIndex.val + 128) % 2 ^ (32 + S.logSize)) then
        .ok (haystack.sliceCast offset (Address.ofIndex (offset.intoIndex.val + 128 : Nat)))
      else .error (Error.outOfBounds
        (Address.ofIndex (offset.intoIndex.val + 128 : Nat) : Address S))) :=
  (if_neg (not_not.2 rfl)).trans (findRecord_of_lt_size hS sizeOf haystack offset
    (lt_of_lt_of_le (by decide) (S.size_eq ▸ Nat.pow_le_pow_right (by decide) h8)))

/-- The inode at byte 384 of the last 512-byte sector passes the check against a volume
of 4096 bytes, its end wrapping to index 0. -/
theorem findInode_eq_wrapped_top :
    findInode zeroVolume ⟨4294967295, 384, by decide⟩ 128 =
      .ok (.ok ((), ⟨4294967295, 384, by decide⟩)) := by
  rw [findInode_eq_wrapped (by decide) (by decide)]
  rfl

end Inode

/-! ### Both locators -/

/-- At the top of the medium the end of a record wraps.  A descriptor at byte 480, or an
inode at byte 384, of the last 512-byte sector ends at index `2 ^ 41`, the size of the
medium, whose address is byte 0 of sector 0.  Against a volume of 4096 bytes the bounds
check passes, and both locators read the range from the last sector to byte 0, whose
end lies before its start. -/
theorem locators_accept_wrapped_end {D I : Type}
    (read : Address Size512 → Address Size512 → D × Address Size512)
    (readInode : Address Size512 → Address Size512 → I × Address Size512) :
    (⟨4294967295, 480, by decide⟩ : Address Size512).intoIndex.val + 32 = 2 ^ 41 ∧
    BlockGroupDescriptor.findDescriptor ⟨.bounded ⟨8, 0, by decide⟩, read⟩
        ⟨4294967295, 480, by decide⟩ =
      .ok (.ok (read ⟨4294967295, 480, by decide⟩ ⟨0, 0, by decide⟩)) ∧
    (⟨4294967295, 384, by decide⟩ : Address Size512).intoIndex.val + 128 = 2 ^ 41 ∧
    Inode.findInode ⟨.bounded ⟨8, 0, by decide⟩, readInode⟩ ⟨4294967295, 384, by decide⟩ 128 =
      .ok (.ok (readInode ⟨4294967295, 384, by decide⟩ ⟨0, 0, by decide⟩)) :=
  ⟨by decide, rfl, by decide, rfl⟩

end Ext2
