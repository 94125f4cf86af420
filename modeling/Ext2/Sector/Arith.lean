import Ext2.Sector.Order

/-!
# Adding and subtracting addresses

`Add for Address` and `Sub for Address` combine the sectors and the offsets apart, and
renormalize the result through `Address::new`.  The sum of the linear indices comes out
whenever it stays below the size of the medium and the offset sum fits the `i32`
parameter of `new` (`add_intoIndex`), which it always does with sectors of at most
`2 ^ 30` bytes; with sectors of `2 ^ 31` bytes the cast of the offset sum to `i32`
wraps (`add_wraps_at_logSize_31`).  A difference of indices always comes out, borrowing
one sector exactly when the offsets do (`sub_intoIndex`).  Past those bounds neither
operation checks the medium: each panics only when the sectors overflow, and otherwise
reduces the result modulo the size of the medium (`add_intoIndex_emod`,
`sub_intoIndex_emod`); on sectors of `2 ^ 31` bytes a sum falls two sectors short
whenever its offsets do not fit `i32` (`add_intoIndex_castI32`).  Subtraction and
addition undo each other (`add_sub_cancel_of_lt`, `sub_add_cancel_of_le`).
-/

namespace Ext2

namespace Address

variable {S : SectorSize}

/-- `Add for Address`. -/
def add (a b : Address S) : Except Panic (Address S) := do
  new (← addU32 a.sector b.sector) (castI32 (← addU32 a.offset b.offset).val)

/-- `Sub for Address`. -/
def sub (a b : Address S) : Except Panic (Address S) := do
  new (← subU32 a.sector b.sector) (← subI32 (castI32 a.offset.val) (castI32 b.offset.val))

lemma offset_add_lt (a b : Address S) : a.offset.val + b.offset.val < 2 ^ 32 := by
  have := a.offset_lt
  have := b.offset_lt
  have := S.size_le
  omega

/-- `add` panics exactly when the sectors overflow, and otherwise builds the split of
the sum, with the offset sum read as an `i32`. -/
lemma add_eq (a b : Address S) : a.add b =
    if a.sector.val + b.sector.val < 2 ^ 32 then
      .ok (ofIndex ((a.sector.val + b.sector.val) * S.size +
        (castI32 (a.offset.val + b.offset.val)).val))
    else .error .overflow := by
  split_ifs with h
  · simp only [add, addU32_of_lt h, addU32_of_lt (offset_add_lt a b), ok_bind, new_eq,
      Nat.cast_add]
  · simp only [add, addU32_of_le (not_lt.1 h), error_bind]

/-! ### Sums -/

/-- Two addresses whose indices add up below the size of the medium have sectors that
add up below `2 ^ 32`. -/
lemma sector_add_lt {a b : Address S}
    (h : a.intoIndex.val + b.intoIndex.val < 2 ^ (32 + S.logSize)) :
    a.sector.val + b.sector.val < 2 ^ 32 := by
  have hle : (a.sector.val + b.sector.val) * S.size ≤ a.intoIndex.val + b.intoIndex.val := by
    rw [intoIndex_val, intoIndex_val, Nat.add_mul]
    omega
  rw [S.two_pow_span] at h
  exact Nat.lt_of_mul_lt_mul_right (lt_of_le_of_lt hle h)

/-- With sectors of at most `2 ^ 30` bytes, every offset sum fits `i32`. -/
lemma offset_add_lt_of_logSize_le (hS : S.logSize ≤ 30) (a b : Address S) :
    a.offset.val + b.offset.val < 2 ^ 31 := by
  have hsize : S.size ≤ 2 ^ 30 := S.size_eq ▸ Nat.pow_le_pow_right (by decide) hS
  have := a.offset_lt
  have := b.offset_lt
  omega

/-- When the sectors add up below `2 ^ 32` and the offset sum fits `i32`, the sum of two
addresses is the split of the sum of their indices. -/
lemma add_eq_ofIndex {a b : Address S} (hs : a.sector.val + b.sector.val < 2 ^ 32)
    (ho : a.offset.val + b.offset.val < 2 ^ 31) :
    a.add b = .ok (ofIndex (a.intoIndex.val + b.intoIndex.val : Nat)) := by
  have hX : ((a.sector.val : Int) + b.sector.val) * S.size + ((a.offset.val : Int) + b.offset.val)
      = ((a.intoIndex.val + b.intoIndex.val : Nat) : Int) := by
    push_cast [intoIndex_val]
    ring
  rw [add_eq, if_pos hs, castI32_val_of_lt (by omega) (by omega), hX]

/-- The sum of two addresses is the sum of their indices when that sum stays below the
size of the medium and the offset sum fits `i32`. -/
lemma add_intoIndex {a b : Address S}
    (h : a.intoIndex.val + b.intoIndex.val < 2 ^ (32 + S.logSize))
    (ho : a.offset.val + b.offset.val < 2 ^ 31) :
    ∃ c, a.add b = .ok c ∧ c.intoIndex.val = a.intoIndex.val + b.intoIndex.val :=
  ⟨_, add_eq_ofIndex (sector_add_lt h) ho, intoIndex_ofIndex_of_lt h⟩

/-- With sectors of at most `2 ^ 30` bytes, adding two addresses whose indices add up
below the size of the medium neither overflows nor wraps, and adds the indices. -/
theorem add_intoIndex_of_logSize_le {a b : Address S} (hS : S.logSize ≤ 30)
    (h : a.intoIndex.val + b.intoIndex.val < 2 ^ (32 + S.logSize)) :
    ∃ c, a.add b = .ok c ∧ c.intoIndex.val = a.intoIndex.val + b.intoIndex.val :=
  add_intoIndex h (offset_add_lt_of_logSize_le hS a b)

/-- The addition test of `sector.rs`: twice byte 1024 of sector 0, on 2048-byte sectors,
is byte 2048. -/
theorem add_intoIndex_arithmetic :
    ∃ c : Address Size2048,
      (⟨0, 1024, by decide⟩ : Address Size2048).add ⟨0, 1024, by decide⟩ = .ok c ∧
      c.intoIndex.val = 2048 := by
  obtain ⟨c, hc, hidx⟩ := @add_intoIndex_of_logSize_le Size2048 ⟨0, 1024, by decide⟩
    ⟨0, 1024, by decide⟩ (by decide) (by decide)
  exact ⟨c, hc, hidx.trans (by decide)⟩

/-- Adding the address of a small index `n` moves `n` bytes forward. -/
lemma add_ofIndex_of_lt (hS : S.logSize ≤ 30) {a : Address S} {n : Nat}
    (h : a.intoIndex.val + n < 2 ^ (32 + S.logSize)) :
    a.add (ofIndex n) = .ok (ofIndex (a.intoIndex.val + n : Nat)) := by
  have hn : (ofIndex n : Address S).intoIndex.val = n := intoIndex_ofIndex_of_lt (by omega)
  rw [add_eq_ofIndex (sector_add_lt (by rw [hn]; exact h)) (offset_add_lt_of_logSize_le hS _ _), hn]

/-- Adding the address of an index below the sector size moves that many bytes forward,
modulo the size of the medium: the sectors cannot overflow. -/
lemma add_ofIndex_of_lt_size (hS : S.logSize ≤ 30) (a : Address S) {n : Nat} (hn : n < S.size) :
    a.add (ofIndex n) = .ok (ofIndex (a.intoIndex.val + n : Nat)) := by
  have hlt : n < 2 ^ (32 + S.logSize) := by rw [S.two_pow_span]; omega
  have hsector : (ofIndex n : Address S).sector.val = 0 := by
    rw [← intoIndex_div, intoIndex_ofIndex_of_lt hlt, Nat.div_eq_of_lt hn]
  rw [add_eq_ofIndex (by rw [hsector]; exact a.sector.isLt) (offset_add_lt_of_logSize_le hS _ _),
    intoIndex_ofIndex_of_lt hlt]

/-- With sectors of at most `2 ^ 30` bytes, `Add for Address` panics exactly when the
sectors overflow; otherwise it gives the sum of the indices reduced modulo the size of
the medium, so a sum past the top of the medium wraps to its start. -/
theorem add_intoIndex_emod (hS : S.logSize ≤ 30) (a b : Address S) :
    (a.add b = .error .overflow ↔ 2 ^ 32 ≤ a.sector.val + b.sector.val) ∧
    (a.sector.val + b.sector.val < 2 ^ 32 → ∃ c, a.add b = .ok c ∧
      c.intoIndex.val = (a.intoIndex.val + b.intoIndex.val) % 2 ^ (32 + S.logSize)) := by
  refine ⟨?_, fun h => ⟨_, add_eq_ofIndex h (offset_add_lt_of_logSize_le hS a b),
    intoIndex_ofIndex_natCast _⟩⟩
  rw [add_eq]
  split_ifs with h
  · simp only [reduceCtorEq, false_iff, not_le]
    exact h
  · simp only [true_iff]
    omega

/-- Byte 256 of the last 512-byte sector, plus 256 bytes, is byte 0 of sector 0. -/
theorem add_wraps_past_top :
    ∃ c : Address Size512,
      (⟨4294967295, 256, by decide⟩ : Address Size512).add ⟨0, 256, by decide⟩ = .ok c ∧
      c.intoIndex.val = 0 := by
  obtain ⟨-, h⟩ := add_intoIndex_emod (by decide)
    (⟨4294967295, 256, by decide⟩ : Address Size512) ⟨0, 256, by decide⟩
  obtain ⟨c, hc, hidx⟩ := h (by decide)
  exact ⟨c, hc, hidx.trans (by decide)⟩

/-- For every sector size, an addition whose sectors do not overflow falls `2 ^ 32`
bytes short of the sum of the indices, modulo the size of the medium, exactly when the
offsets add up to `2 ^ 31` or more, which only sectors of `2 ^ 31` bytes allow:
`(self.offset + rhs.offset) as i32` is then negative, and `new` borrows two sectors. -/
theorem add_intoIndex_castI32 (a b : Address S) (h : a.sector.val + b.sector.val < 2 ^ 32) :
    ∃ c, a.add b = .ok c ∧ (c.intoIndex.val : Int) =
      ((a.intoIndex.val + b.intoIndex.val : Nat) -
        (if 2 ^ 31 ≤ a.offset.val + b.offset.val then 2 ^ 32 else 0)) % 2 ^ (32 + S.logSize) := by
  refine ⟨_, (add_eq a b).trans (if_pos h), ?_⟩
  rw [intoIndex_ofIndex, ← Nat.cast_add a.offset.val, castI32_natCast_val (offset_add_lt a b),
    intoIndex_val, intoIndex_val]
  push_cast
  congr 1
  ring

/-- On sectors of `2 ^ 31` bytes, byte `2 ^ 31 - 1` of sector 5 plus byte 1 of sector 7
is byte `11 * 2 ^ 31`, two sectors short of byte `13 * 2 ^ 31`. -/
theorem add_two_sectors_short :
    ∃ c : Address ⟨31, le_refl 31⟩,
      (⟨5, 2147483647, by decide⟩ : Address ⟨31, le_refl 31⟩).add ⟨7, 1, by decide⟩ = .ok c ∧
      (c.intoIndex.val : Int) = 11 * 2 ^ 31 := by
  obtain ⟨c, hc, hidx⟩ := add_intoIndex_castI32
    (⟨5, 2147483647, by decide⟩ : Address ⟨31, le_refl 31⟩) ⟨7, 1, by decide⟩ (by decide)
  exact ⟨c, hc, hidx.trans (by decide)⟩

/-- With sectors of `2 ^ 31` bytes, the offset sum `2 ^ 31` of twice byte `2 ^ 30` of
sector 0 wraps to `i32::MIN` in `(self.offset + rhs.offset) as i32`: the sum is the
first byte of the last sector, not byte `2 ^ 31`. -/
theorem add_wraps_at_logSize_31 :
    let a : Address ⟨31, le_refl 31⟩ := ⟨0, 1073741824, by decide⟩
    a.intoIndex.val + a.intoIndex.val < 2 ^ (32 + 31) ∧
      a.add a = .ok ⟨4294967295, 0, by decide⟩ ∧
      (⟨4294967295, 0, by decide⟩ : Address ⟨31, le_refl 31⟩).intoIndex.val =
        2 ^ 63 - 2 ^ 31 := by
  dsimp only
  decide

/-! ### Differences -/

/-- `sub` panics exactly when the sectors underflow, and otherwise builds the split of
the difference. -/
lemma sub_eq (a b : Address S) : a.sub b =
    if b.sector.val ≤ a.sector.val then
      .ok (ofIndex ((a.sector.val - b.sector.val : Nat) * S.size +
        ((a.offset.val : Int) - b.offset.val)))
    else .error .overflow := by
  split_ifs with h
  · obtain ⟨z, hz, hzv⟩ := subI32_castI32 (lt_of_lt_of_le a.offset_lt S.size_le)
      (lt_of_lt_of_le b.offset_lt S.size_le)
    simp only [sub, subU32_of_le h, ok_bind, hz, new_eq, hzv]
  · simp only [sub, subU32_of_lt (not_le.1 h), error_bind]

/-- Subtracting an address of smaller or equal index builds the address of the
difference of the indices. -/
lemma sub_eq_ofIndex {a b : Address S} (h : b.intoIndex.val ≤ a.intoIndex.val) :
    a.sub b = .ok (ofIndex (a.intoIndex.val - b.intoIndex.val : Nat)) := by
  have hs := sector_le_of_intoIndex_le h
  rw [sub_eq, if_pos hs, Nat.cast_sub hs, Nat.cast_sub h, intoIndex_val, intoIndex_val]
  push_cast
  ring_nf

/-- The sector of the difference is the difference of the sectors, less one when the
offsets borrow. -/
lemma intoIndex_sub_div {a b : Address S} (h : b.intoIndex.val ≤ a.intoIndex.val) :
    (a.intoIndex.val - b.intoIndex.val) / S.size =
      a.sector.val - b.sector.val - (if a.offset.val < b.offset.val then 1 else 0) := by
  have hs := sector_le_of_intoIndex_le h
  have hmul := Nat.mul_le_mul_right S.size hs
  have ho := a.offset_lt
  have hbo := b.offset_lt
  rw [intoIndex_val, intoIndex_val] at h ⊢
  split_ifs with hlt
  · -- the offsets borrow, so the sectors differ
    have hs' : b.sector.val + 1 ≤ a.sector.val :=
      Nat.lt_of_mul_lt_mul_right (a := S.size) (by omega)
    have hmul' := Nat.mul_le_mul_right S.size hs'
    simp only [Nat.add_mul, Nat.one_mul] at hmul'
    apply Nat.div_eq_of_lt_le <;> simp only [Nat.sub_mul, Nat.add_mul, Nat.one_mul] <;> omega
  · apply Nat.div_eq_of_lt_le <;>
      simp only [Nat.sub_mul, Nat.add_mul, Nat.one_mul, Nat.sub_zero] <;> omega

/-- Subtracting an address of smaller or equal index neither underflows nor wraps: the
index of the difference is the difference of the indices, and the sector borrows one
exactly when the offsets do. -/
theorem sub_intoIndex (a b : Address S) (h : b.intoIndex.val ≤ a.intoIndex.val) :
    ∃ c : Address S, a.sub b = .ok c ∧ c.intoIndex.val = a.intoIndex.val - b.intoIndex.val ∧
      c.sector.val = a.sector.val - b.sector.val - (if a.offset.val < b.offset.val then 1 else 0) :=
  have hc := intoIndex_ofIndex_of_lt (S := S) (lt_of_le_of_lt (Nat.sub_le _ _) a.intoIndex_lt)
  ⟨_, sub_eq_ofIndex h, hc, by rw [← intoIndex_div, hc, intoIndex_sub_div h]⟩

/-- The subtraction test of `sector.rs`: byte 2048 less byte 256, on 512-byte sectors,
is byte 1792, in sector 3. -/
theorem sub_intoIndex_arithmetic :
    ∃ c : Address Size512,
      (⟨4, 0, by decide⟩ : Address Size512).sub ⟨0, 256, by decide⟩ = .ok c ∧
      c.intoIndex.val = 1792 ∧ c.sector.val = 3 := by
  obtain ⟨c, hc, hidx, hsector⟩ := sub_intoIndex (⟨4, 0, by decide⟩ : Address Size512)
    ⟨0, 256, by decide⟩ (by decide)
  exact ⟨c, hc, hidx.trans (by decide), hsector.trans (by decide)⟩

/-- `Sub for Address` panics exactly when the sectors underflow; otherwise it gives the
difference of the indices over the integers, reduced modulo the size of the medium, so
a difference below zero wraps to the top of the medium. -/
theorem sub_intoIndex_emod (a b : Address S) :
    (a.sub b = .error .overflow ↔ a.sector.val < b.sector.val) ∧
    (b.sector.val ≤ a.sector.val → ∃ c, a.sub b = .ok c ∧
      (c.intoIndex.val : Int) =
        ((a.intoIndex.val : Int) - b.intoIndex.val) % 2 ^ (32 + S.logSize)) := by
  refine ⟨?_, fun h => ⟨_, (sub_eq a b).trans (if_pos h), ?_⟩⟩
  · rw [sub_eq]
    split_ifs with h
    · simp only [reduceCtorEq, false_iff, not_lt]
      exact h
    · simp only [true_iff]
      omega
  · rw [intoIndex_ofIndex, intoIndex_val, intoIndex_val, Nat.cast_sub h]
    push_cast
    ring_nf

/-- Byte 0 of sector 0 less 256 bytes, on 512-byte sectors, is byte 256 of the last
sector, 256 bytes below the top of the medium. -/
theorem sub_wraps_below_zero :
    ∃ c : Address Size512,
      (⟨0, 0, by decide⟩ : Address Size512).sub ⟨0, 256, by decide⟩ = .ok c ∧
      (c.intoIndex.val : Int) = 2 ^ 41 - 256 := by
  obtain ⟨-, h⟩ :=
    sub_intoIndex_emod (⟨0, 0, by decide⟩ : Address Size512) ⟨0, 256, by decide⟩
  obtain ⟨c, hc, hidx⟩ := h (by decide)
  exact ⟨c, hc, hidx.trans (by decide)⟩

/-- Below the top of the medium, and with sectors of at most `2 ^ 30` bytes,
subtracting `b` undoes adding it. -/
theorem add_sub_cancel_of_lt (hS : S.logSize ≤ 30) (a b : Address S)
    (h : a.intoIndex.val + b.intoIndex.val < 2 ^ (32 + S.logSize)) :
    (a.add b >>= fun c => c.sub b) = .ok a := by
  obtain ⟨c, hc, hidx⟩ := add_intoIndex h (offset_add_lt_of_logSize_le hS a b)
  rw [hc, ok_bind, sub_eq_ofIndex (by omega), hidx, Nat.add_sub_cancel, ofIndex_intoIndex]

/-- Adding and then subtracting 256 bytes from the start of sector 1, on 512-byte
sectors. -/
theorem add_sub_cancel_sector_one :
    ((⟨1, 0, by decide⟩ : Address Size512).add ⟨0, 256, by decide⟩ >>=
      fun c => c.sub ⟨0, 256, by decide⟩) =
      .ok ⟨1, 0, by decide⟩ :=
  add_sub_cancel_of_lt (by decide) _ _ (by decide)

/-- With sectors of at most `2 ^ 30` bytes, adding `b` back to `a - b` gives `a` for
every `b` of smaller or equal index: neither operation panics. -/
theorem sub_add_cancel_of_le (hS : S.logSize ≤ 30) (a b : Address S)
    (h : b.intoIndex.val ≤ a.intoIndex.val) : (a.sub b >>= fun c => c.add b) = .ok a := by
  have hc : (ofIndex (a.intoIndex.val - b.intoIndex.val : Nat) : Address S).intoIndex.val =
      a.intoIndex.val - b.intoIndex.val :=
    intoIndex_ofIndex_of_lt (lt_of_le_of_lt (Nat.sub_le _ _) a.intoIndex_lt)
  have hsum := a.intoIndex_lt
  rw [sub_eq_ofIndex h, ok_bind, add_eq_ofIndex (sector_add_lt (by rw [hc]; omega))
    (offset_add_lt_of_logSize_le hS _ _), hc, Nat.sub_add_cancel h, ofIndex_intoIndex]

/-- The borrow example of the spec: byte 0 of sector 2 less 256 bytes, plus 256 bytes,
on 512-byte sectors. -/
theorem sub_add_cancel_sector_two :
    ((⟨2, 0, by decide⟩ : Address Size512).sub ⟨0, 256, by decide⟩ >>=
      fun c => c.add ⟨0, 256, by decide⟩) = .ok ⟨2, 0, by decide⟩ :=
  sub_add_cancel_of_le (by decide) _ _ (by decide)

end Address

end Ext2
