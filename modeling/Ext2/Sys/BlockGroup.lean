import Ext2.Sys.Locate

/-!
# Block group descriptors

`src/sys/block_group.rs`.  `find_descriptor` is the record locator of §4.3 for the
32-byte descriptor.  `find_descriptor_table` checks the end of the whole table first,
then reads the descriptors one by one, each through `find_descriptor`.  Below the top
of the medium the table is all or nothing (`findDescriptorTable_of_lt`): once the table
check passes, no record check inside the loop fails.  At the top, the end of the table
wraps to a small address and the check lets a table that the volume does not hold pass
(`findDescriptorTable_accepts_wrapped_end`).  Whatever the input, a table that comes
back is whole (`findDescriptorTable_length`).
-/

namespace Ext2

namespace BlockGroupDescriptor

variable {S : SectorSize} {D : Type}

/-- `mem::size_of::<BlockGroupDescriptor>()`: the packed record has 32 bytes (the
`sizes` test of `lib.rs`). -/
def sizeOf : Usize := 32

/-- `BlockGroupDescriptor::find_descriptor`, where `D` is the record type. -/
def findDescriptor (haystack : Volume S D) (offset : Address S) :
    Except Panic (Except Error (D × Address S)) :=
  findRecord sizeOf haystack offset

/-- Below the top of the medium, and with sectors of at most `2 ^ 30` bytes,
`find_descriptor` reads the 32 bytes from `offset` to an end after it when the volume
holds them, and otherwise returns the error at that end. -/
theorem findDescriptor_of_lt (hS : S.logSize ≤ 30) (haystack : Volume S D) (offset : Address S)
    (h : offset.intoIndex.val + 32 < 2 ^ (32 + S.logSize)) :
    ∃ e : Address S, offset ≤ e ∧ e.intoIndex.val = offset.intoIndex.val + 32 ∧
      findDescriptor haystack offset = .ok (if haystack.size.holds (offset.intoIndex.val + 32) then
        .ok (haystack.sliceCast offset e) else .error (Error.outOfBounds e)) :=
  ⟨_, le_ofIndex_add h, Address.intoIndex_ofIndex_of_lt h,
    findRecord_of_lt hS sizeOf haystack offset h⟩

/-- A descriptor at sector 4 of a volume of 4096 bytes, on 512-byte sectors. -/
theorem findDescriptor_sector_four :
    findDescriptor zeroVolume ⟨4, 0, by decide⟩ = .ok (.ok ((), ⟨4, 0, by decide⟩)) := by
  obtain ⟨e, -, -, h⟩ :=
    findDescriptor_of_lt (by decide) zeroVolume ⟨4, 0, by decide⟩ (by decide)
  rw [h]
  rfl

/-- On sectors of `2 ^ 6` to `2 ^ 30` bytes, `find_descriptor` compares with the extent
the end index `offset + 32` reduced modulo the size of the medium, not the end index
itself: a record that ends past the top of the medium passes the check when its wrapped
end does. -/
theorem findDescriptor_eq_wrapped (h6 : 6 ≤ S.logSize) (hS : S.logSize ≤ 30)
    (haystack : Volume S D) (offset : Address S) :
    findDescriptor haystack offset =
      .ok (if haystack.size.holds ((offset.intoIndex.val + 32) % 2 ^ (32 + S.logSize)) then
        .ok (haystack.sliceCast offset (Address.ofIndex (offset.intoIndex.val + 32 : Nat)))
      else .error (Error.outOfBounds
        (Address.ofIndex (offset.intoIndex.val + 32 : Nat) : Address S))) :=
  findRecord_of_lt_size hS sizeOf haystack offset
    (lt_of_lt_of_le (by decide) (S.size_eq ▸ Nat.pow_le_pow_right (by decide) h6))

/-- The record at byte 480 of the last 512-byte sector passes the check against a volume
of 4096 bytes, its end wrapping to index 0. -/
theorem findDescriptor_eq_wrapped_top :
    findDescriptor zeroVolume ⟨4294967295, 480, by decide⟩ =
      .ok (.ok ((), ⟨4294967295, 480, by decide⟩)) := by
  rw [findDescriptor_eq_wrapped (by decide) (by decide)]
  rfl

/-- The loop of `find_descriptor_table`: for each index `i` in turn, the descriptor at
`offset + Address::from(i * size_of)` is pushed onto `vec`, and the first error returns
through `?`. -/
def descriptorLoop (haystack : Volume S D) (offset : Address S) :
    List D → List Nat → Except Panic (Except Error (List D))
  | vec, [] => pure (.ok vec)
  | vec, i :: is => do
    let offset_i ← offset.add (← Address.fromUsize (← mulUsize i sizeOf.val))
    match ← findDescriptor haystack offset_i with
    | .error e => pure (.error e)
    | .ok (d, _) => descriptorLoop haystack offset (vec ++ [d]) is

/-- `BlockGroupDescriptor::find_descriptor_table`.  `Vec::with_capacity(count)` panics
when the table would exceed `isize::MAX` bytes. -/
def findDescriptorTable (haystack : Volume S D) (offset : Address S) (count : Usize) :
    Except Panic (Except Error (List D × Address S)) := do
  let end_ ← offset.add (← Address.fromUsize (← mulUsize count.val sizeOf.val))
  if haystack.size.ltAddress end_ then
    return .error (.addressOutOfBounds end_.sector end_.offset end_.sectorSize)
  if 2 ^ 63 - 1 < count.val * sizeOf.val then
    throw .capacityOverflow
  match ← descriptorLoop haystack offset [] (List.range count.val) with
  | .error e => return .error e
  | .ok vec => return .ok (vec, offset)

/-- The address of descriptor `i` of a table at `offset`. -/
def entry (offset : Address S) (i : Nat) : Address S :=
  Address.ofIndex (offset.intoIndex.val + i * 32 : Nat)

/-- Below the top of the medium, `offset + Address::from(k * size_of)` neither panics nor
wraps: it is the address of entry `k`. -/
lemma entry_bind {β : Type} (hS : S.logSize ≤ 30) (offset : Address S) {k : Nat}
    (h : offset.intoIndex.val + k * 32 < 2 ^ (32 + S.logSize)) (f : Address S → Except Panic β) :
    (do let e ← offset.add (← Address.fromUsize (← mulUsize k sizeOf.val)); f e) =
      f (entry offset k) := by
  have hmul : k * sizeOf.val < 2 ^ 64 := by
    have := S.two_pow_span_le
    change k * 32 < _
    omega
  rw [mulUsize_of_lt hmul, ok_bind, Address.fromUsize_eq_fromU64, Address.fromU64_eq, ok_bind,
    Address.add_ofIndex_of_lt hS (by change _ + k * 32 < _; exact h), ok_bind]
  rfl

/-- Below the top of the medium, descriptor `i` of a table is read from its own 32 bytes
when the volume holds them. -/
lemma findDescriptor_entry (hS : S.logSize ≤ 30) (haystack : Volume S D) (offset : Address S)
    {i : Nat} (h : offset.intoIndex.val + (i + 1) * 32 < 2 ^ (32 + S.logSize)) :
    findDescriptor haystack (entry offset i) =
      .ok (if haystack.size.holds (offset.intoIndex.val + (i + 1) * 32) then
        .ok (haystack.sliceCast (entry offset i) (entry offset (i + 1)))
      else .error (Error.outOfBounds (entry offset (i + 1)))) := by
  have hi : (entry offset i).intoIndex.val = offset.intoIndex.val + i * 32 :=
    Address.intoIndex_ofIndex_of_lt (by omega)
  have hend :
      (entry offset i).intoIndex.val + sizeOf.val = offset.intoIndex.val + (i + 1) * 32 := by
    rw [hi, Nat.add_mul, one_mul, ← Nat.add_assoc]
    rfl
  rw [findDescriptor, findRecord_of_lt hS _ _ _ (by omega), hend]
  rfl

/-- One round of the loop reads the next descriptor and pushes it. -/
lemma descriptorLoop_cons (hS : S.logSize ≤ 30) (haystack : Volume S D) (offset : Address S)
    (vec : List D) {i : Nat} (is : List Nat)
    (h : offset.intoIndex.val + (i + 1) * 32 < 2 ^ (32 + S.logSize)) :
    descriptorLoop haystack offset vec (i :: is) = (do
      match ← findDescriptor haystack (entry offset i) with
      | .error e => pure (.error e)
      | .ok (d, _) => descriptorLoop haystack offset (vec ++ [d]) is) := by
  rw [descriptorLoop, entry_bind hS offset (by rw [Nat.add_mul] at h; omega)]

/-- When the volume holds every descriptor of the loop, the loop pushes them all, in
order. -/
lemma descriptorLoop_of_holds (hS : S.logSize ≤ 30) (haystack : Volume S D)
    (offset : Address S) (vec : List D) (is : List Nat)
    (h : ∀ i ∈ is, offset.intoIndex.val + (i + 1) * 32 < 2 ^ (32 + S.logSize) ∧
      haystack.size.holds (offset.intoIndex.val + (i + 1) * 32)) :
    descriptorLoop haystack offset vec is = .ok (.ok (vec ++
      is.map fun i => (haystack.sliceCast (entry offset i) (entry offset (i + 1))).1)) := by
  induction is generalizing vec with
  | nil => simp only [descriptorLoop, List.map_nil, List.append_nil]; rfl
  | cons i is ih =>
    obtain ⟨hlt, hholds⟩ := h i (List.mem_cons_self _ _)
    rw [descriptorLoop_cons hS haystack offset vec is hlt,
      findDescriptor_entry hS haystack offset hlt, if_pos hholds, ok_bind]
    simp only
    rw [ih _ (fun j hj => h j (List.mem_cons_of_mem _ hj))]
    simp

/-- Below the top of the medium, and with sectors of at most `2 ^ 30` bytes, a table of
`count` descriptors is all or nothing: when the volume holds the whole table, every
descriptor is read from its own 32 bytes, in order, and no record check fails;
otherwise the error is at the end of the whole table. -/
theorem findDescriptorTable_of_lt (hS : S.logSize ≤ 30) (haystack : Volume S D)
    (offset : Address S) (count : Usize)
    (h : offset.intoIndex.val + count.val * 32 < 2 ^ (32 + S.logSize)) :
    findDescriptorTable haystack offset count =
      .ok (if haystack.size.holds (offset.intoIndex.val + count.val * 32) then
        .ok ((List.range count.val).map
          (fun i => (haystack.sliceCast (entry offset i) (entry offset (i + 1))).1), offset)
      else .error (Error.outOfBounds (entry offset count.val))) := by
  have hend : (entry offset count.val).intoIndex.val = offset.intoIndex.val + count.val * 32 :=
    Address.intoIndex_ofIndex_of_lt h
  rw [findDescriptorTable, entry_bind hS offset h, Size.ltAddress_eq_not_holds, hend]
  cases hholds : haystack.size.holds (offset.intoIndex.val + count.val * 32)
  · rfl
  · have hcap : ¬ 2 ^ 63 - 1 < count.val * sizeOf.val := by
      have := S.two_pow_span_le
      change ¬ _ < count.val * 32
      omega
    simp only [Bool.not_true, Bool.false_eq_true, if_false, hcap]
    rw [descriptorLoop_of_holds hS haystack offset [] _ (fun i hi => by
      have := List.mem_range.1 hi
      have hle : offset.intoIndex.val + (i + 1) * 32 ≤ offset.intoIndex.val + count.val * 32 := by
        omega
      exact ⟨by omega, Size.holds_of_le hholds hle⟩)]
    rfl

/-- Every run of the loop that returns a table pushed one descriptor per index. -/
lemma descriptorLoop_length {haystack : Volume S D} {offset : Address S} {vec v : List D}
    {is : List Nat} (h : descriptorLoop haystack offset vec is = .ok (.ok v)) :
    v.length = vec.length + is.length := by
  induction is generalizing vec with
  | nil =>
    cases h
    rfl
  | cons i is ih =>
    rw [descriptorLoop] at h
    obtain ⟨_, -, h⟩ := bind_eq_ok h
    obtain ⟨_, -, h⟩ := bind_eq_ok h
    obtain ⟨_, -, h⟩ := bind_eq_ok h
    obtain ⟨r, -, h⟩ := bind_eq_ok h
    rcases r with e | ⟨d, _⟩
    · cases h
    · rw [ih h, List.length_append, List.length_singleton, List.length_cons]
      omega

/-- Whatever the volume, the offset and the count, a table that `find_descriptor_table`
returns has one descriptor per index, and comes with the offset it was asked for: no
run returns a partial table. -/
theorem findDescriptorTable_length (haystack : Volume S D) (offset : Address S) (count : Usize)
    {v : List D} {o : Address S}
    (h : findDescriptorTable haystack offset count = .ok (.ok (v, o))) :
    v.length = count.val ∧ o = offset := by
  rw [findDescriptorTable] at h
  obtain ⟨_, -, h⟩ := bind_eq_ok h
  obtain ⟨_, -, h⟩ := bind_eq_ok h
  obtain ⟨e, -, h⟩ := bind_eq_ok h
  dsimp only at h
  split_ifs at h
  · -- the table does not fit the extent
    cases h
  · -- the table would exceed `isize::MAX` bytes
    cases h
  · simp only [pure_bind] at h
    obtain ⟨r, hr, h⟩ := bind_eq_ok h
    rcases r with e | vec
    · cases h
    · cases h
      rw [descriptorLoop_length hr, List.length_range]
      exact ⟨Nat.zero_add _, rfl⟩

/-- The table of two descriptors at sector 4 of a volume of 4096 bytes. -/
theorem findDescriptorTable_length_two :
    findDescriptorTable zeroVolume ⟨4, 0, by decide⟩ 2 =
        .ok (.ok ([(), ()], ⟨4, 0, by decide⟩)) ∧
      ([(), ()] : List Unit).length = 2 :=
  have h : findDescriptorTable zeroVolume ⟨4, 0, by decide⟩ 2 =
      .ok (.ok ([(), ()], ⟨4, 0, by decide⟩)) := rfl
  ⟨h, (findDescriptorTable_length _ _ _ h).1⟩

/-- The `find` test of `block_group.rs`: a table of 8 descriptors at sector 4 of a
volume of 4096 bytes, on 512-byte sectors, has 8 entries. -/
theorem findDescriptorTable_find :
    (findDescriptorTable zeroVolume ⟨4, 0, by decide⟩ 8).map
      (fun r => r.map (fun t => t.1.length)) = .ok (.ok 8) := by
  rw [findDescriptorTable_of_lt (by decide) _ _ _ (by decide)]
  rfl

/-- At the top of the medium the end of the table wraps.  One descriptor at byte 480 of
the last 512-byte sector ends at index `2 ^ 41`, the size of the medium, whose address
is byte 0 of sector 0: neither the table check nor the record check fails against a
volume of 4096 bytes, and the table of one descriptor read from the last sector to
byte 0 is returned.  Two descriptors at byte 448 end at the same wrapped address, so
the table check passes; the end of the first descriptor does not wrap, and its record
check fails inside the loop, with the end of that descriptor rather than of the
table. -/
theorem findDescriptorTable_accepts_wrapped_end
    (read : Address Size512 → Address Size512 → D × Address Size512) :
    (⟨4294967295, 480, by decide⟩ : Address Size512).intoIndex.val + 1 * 32 = 2 ^ 41 ∧
    findDescriptorTable ⟨.bounded ⟨8, 0, by decide⟩, read⟩
        ⟨4294967295, 480, by decide⟩ 1 =
      .ok (.ok ([(read ⟨4294967295, 480, by decide⟩ ⟨0, 0, by decide⟩).1],
        ⟨4294967295, 480, by decide⟩)) ∧
    (⟨4294967295, 448, by decide⟩ : Address Size512).intoIndex.val + 2 * 32 = 2 ^ 41 ∧
    findDescriptorTable ⟨.bounded ⟨8, 0, by decide⟩, read⟩
        ⟨4294967295, 448, by decide⟩ 2 =
      .ok (.error (.addressOutOfBounds 4294967295 480 512)) :=
  ⟨by decide, rfl, by decide, rfl⟩

end BlockGroupDescriptor

end Ext2
