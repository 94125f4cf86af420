import Ext2.Sector.Order

/-!
# Stepping through sectors

`Step for Address` lets a range of addresses be iterated sector by sector: a step of
`count` moves the sector by `count` and resets the offset to 0, and fails past the
first or the last sector.  The count is a `usize` that the step casts to `u32`, keeping
its low 32 bits.  For counts below `2 ^ 32` the laws of `Step` hold between
sector-aligned addresses (`step_laws_of_lt`), and between arbitrary addresses exactly
where the target of a step is the first byte of a sector (`step_laws_unaligned`); a
count of `2 ^ 32` steps nowhere (`forwardChecked_truncates_count`).
-/

namespace Ext2

namespace Address

variable {S : SectorSize}

/-- The first byte of sector `sector`. -/
def sectorStart (sector : U32) : Address S := ⟨sector, 0, S.size_pos⟩

/-- `Step::steps_between`. -/
def stepsBetween (start end_ : Address S) : Option Usize :=
  if start.sector.val ≤ end_.sector.val then
    some ⟨end_.sector.val - start.sector.val,
      lt_of_le_of_lt (Nat.sub_le _ _) (lt_trans end_.sector.isLt (by decide))⟩
  else none

/-- The shared body of `forward_checked` and `backward_checked`: the checked operation
`op` on the sector and `count as u32`, then the first byte of the new sector. -/
def stepChecked (op : U32 → U32 → Option U32) (start : Address S) (count : Usize) :
    Except Panic (Option (Address S)) :=
  match op start.sector (castU32 count.val) with
  | some sector => some <$> new sector 0
  | none => pure none

/-- `Step::forward_checked`. -/
def forwardChecked (start : Address S) (count : Usize) : Except Panic (Option (Address S)) :=
  stepChecked checkedAddU32 start count

/-- `Step::backward_checked`. -/
def backwardChecked (start : Address S) (count : Usize) : Except Panic (Option (Address S)) :=
  stepChecked checkedSubU32 start count

@[simp] lemma sectorStart_sector (sector : U32) :
    (sectorStart sector : Address S).sector = sector := rfl

lemma intoIndex_sectorStart (sector : U32) :
    (sectorStart sector : Address S).intoIndex.val = sector.val * S.size := by
  rw [intoIndex_val]
  rfl

lemma sectorStart_injective : Function.Injective (sectorStart : U32 → Address S) :=
  fun _ _ h => congrArg Address.sector h

lemma new_zero (sector : U32) :
    (new sector 0 : Except Panic (Address S)) = .ok (sectorStart sector) := by
  have h := (sectorStart sector : Address S).intoIndex_lt
  rw [intoIndex_sectorStart] at h
  rw [new_eq, I32.zero_val, add_zero, ← Nat.cast_mul]
  exact congrArg _ (intoIndex_injective (Fin.ext (by
    rw [intoIndex_ofIndex_of_lt h, intoIndex_sectorStart])))

lemma stepChecked_eq (op : U32 → U32 → Option U32) (start : Address S) (count : Usize) :
    stepChecked op start count = .ok ((op start.sector (castU32 count.val)).map sectorStart) := by
  unfold stepChecked
  split <;> rename_i h <;> rw [h]
  · rw [new_zero]
    rfl
  · rfl

/-- `forward_checked` adds the low 32 bits of the count to the sector. -/
lemma forwardChecked_eq (start : Address S) (count : Usize) : start.forwardChecked count =
    .ok (if start.sector.val + count.val % 2 ^ 32 < 2 ^ 32 then
      some (sectorStart (castU32 (start.sector.val + count.val % 2 ^ 32 : Nat))) else none) := by
  rw [forwardChecked, stepChecked_eq, checkedAddU32_eq, castU32_natCast]
  split_ifs <;> rfl

/-- `backward_checked` subtracts the low 32 bits of the count from the sector. -/
lemma backwardChecked_eq (start : Address S) (count : Usize) : start.backwardChecked count =
    .ok (if count.val % 2 ^ 32 ≤ start.sector.val then
      some (sectorStart (castU32 (start.sector.val - count.val % 2 ^ 32 : Nat))) else none) := by
  rw [backwardChecked, stepChecked_eq, checkedSubU32_eq, castU32_natCast]
  split_ifs <;> rfl

lemma sectorStart_lt_iff (a b : U32) :
    (sectorStart a : Address S) < sectorStart b ↔ a.val < b.val := by
  rw [lt_iff, intoIndex_sectorStart, intoIndex_sectorStart]
  exact Nat.mul_lt_mul_right S.size_pos

/-! ### Steps between first bytes of sectors -/

/-- A step lands on a first byte exactly when the checked operation gives its sector. -/
lemma stepChecked_sectorStart_eq_some_iff (op : U32 → U32 → Option U32) (a b : U32)
    (n : Usize) : stepChecked op (sectorStart a : Address S) n = .ok (some (sectorStart b)) ↔
      op a (castU32 n.val) = some b := by
  simp only [stepChecked_eq, Except.ok.injEq, Option.map_eq_some', sectorStart_injective.eq_iff,
    exists_eq_right, sectorStart_sector]

lemma forwardChecked_sectorStart_eq_some_iff {a b : U32} {n : Usize} (hn : n.val < 2 ^ 32) :
    (sectorStart a : Address S).forwardChecked n = .ok (some (sectorStart b)) ↔
      a.val + n.val = b.val := by
  rw [forwardChecked, stepChecked_sectorStart_eq_some_iff, checkedAddU32_eq_some_iff,
    castU32_natCast, Nat.mod_eq_of_lt hn]

lemma backwardChecked_sectorStart_eq_some_iff {a b : U32} {n : Usize} (hn : n.val < 2 ^ 32) :
    (sectorStart b : Address S).backwardChecked n = .ok (some (sectorStart a)) ↔
      a.val + n.val = b.val := by
  rw [backwardChecked, stepChecked_sectorStart_eq_some_iff, checkedSubU32_eq_some_iff,
    castU32_natCast, Nat.mod_eq_of_lt hn]

lemma stepsBetween_sectorStart_eq_some_iff (a b : U32) (n : Usize) :
    (sectorStart a : Address S).stepsBetween (sectorStart b) = some n ↔
      a.val + n.val = b.val := by
  unfold stepsBetween
  simp only [sectorStart_sector]
  split_ifs with h
  · simp only [Option.some.injEq, Fin.ext_iff]
    omega
  · simp only [reduceCtorEq, false_iff]
    omega

/-- For counts below `2 ^ 32`, the laws of `Step` hold between first bytes of sectors:
`forward_checked` and `backward_checked` move the sector by the count and fail past the
last or the first sector, and `steps_between` counts the steps of both. -/
theorem step_laws_of_lt (a b : U32) (n : Usize) (hn : n.val < 2 ^ 32) :
    (sectorStart a : Address S).forwardChecked n = .ok (if a.val + n.val < 2 ^ 32 then
      some (sectorStart (castU32 (a.val + n.val : Nat))) else none) ∧
    (sectorStart a : Address S).backwardChecked n = .ok (if n.val ≤ a.val then
      some (sectorStart (castU32 (a.val - n.val : Nat))) else none) ∧
    ((sectorStart a : Address S).stepsBetween (sectorStart b) = some n ↔
      (sectorStart a : Address S).forwardChecked n = .ok (some (sectorStart b))) ∧
    ((sectorStart a : Address S).forwardChecked n = .ok (some (sectorStart b)) ↔
      (sectorStart b : Address S).backwardChecked n = .ok (some (sectorStart a))) ∧
    ((sectorStart b : Address S) < sectorStart a →
      (sectorStart a : Address S).stepsBetween (sectorStart b) = none) := by
  have hmod : n.val % 2 ^ 32 = n.val := Nat.mod_eq_of_lt hn
  refine ⟨by rw [forwardChecked_eq, hmod]; rfl, by rw [backwardChecked_eq, hmod]; rfl, ?_, ?_,
    fun h => if_neg (not_le.2 ((sectorStart_lt_iff b a).1 h))⟩
  · rw [stepsBetween_sectorStart_eq_some_iff, forwardChecked_sectorStart_eq_some_iff hn]
  · rw [forwardChecked_sectorStart_eq_some_iff hn, backwardChecked_sectorStart_eq_some_iff hn]

/-- Three sectors forward from sector 0. -/
theorem step_laws_three :
    (sectorStart 0 : Address Size512).forwardChecked 3 = .ok (some (sectorStart 3)) ∧
    (sectorStart 0 : Address Size512).stepsBetween (sectorStart 3) = some 3 := by
  obtain ⟨hfwd, -, hsteps, -⟩ := @step_laws_of_lt Size512 0 3 3 (by decide)
  have h : (sectorStart 0 : Address Size512).forwardChecked 3 = .ok (some (sectorStart 3)) := by
    rw [hfwd]
    decide
  exact ⟨h, hsteps.2 h⟩

/-! ### Steps between arbitrary addresses -/

/-- A step always lands on the first byte of the sector that the checked operation
gives. -/
lemma stepChecked_eq_some_iff (op : U32 → U32 → Option U32) (a b : Address S) (n : Usize) :
    stepChecked op a n = .ok (some b) ↔
      op a.sector (castU32 n.val) = some b.sector ∧ b.offset.val = 0 := by
  rw [stepChecked_eq, Except.ok.injEq, Option.map_eq_some']
  constructor
  · rintro ⟨s, hs, rfl⟩
    exact ⟨hs, rfl⟩
  · rintro ⟨hs, ho⟩
    exact ⟨b.sector, hs, Address.ext rfl (Fin.ext ho.symm)⟩

/-- `steps_between` reads the sectors only. -/
lemma stepsBetween_eq_some_iff (a b : Address S) (n : Usize) :
    a.stepsBetween b = some n ↔ a.sector.val + n.val = b.sector.val := by
  unfold stepsBetween
  split_ifs with h
  · simp only [Option.some.injEq, Fin.ext_iff]
    omega
  · simp only [reduceCtorEq, false_iff]
    omega

lemma stepsBetween_eq_none_iff (a b : Address S) :
    a.stepsBetween b = none ↔ b.sector.val < a.sector.val := by
  unfold stepsBetween
  split_ifs with h
  · simp only [reduceCtorEq, false_iff]
    omega
  · simp only [true_iff]
    omega

/-- Between arbitrary addresses, and for counts below `2 ^ 32`, the laws of `Step` hold
exactly where they can: a step forward or backward lands on the first byte of a sector,
so it reaches `b` from `a` in `steps_between(a, b)` steps only when its target is such a
byte; and since `steps_between` ignores the offsets, it counts steps from `a` back to a
smaller `b` exactly when the two lie in one sector. -/
theorem step_laws_unaligned (a b : Address S) (n : Usize) (hn : n.val < 2 ^ 32) :
    (a.forwardChecked n = .ok (some b) ↔ a.stepsBetween b = some n ∧ b.offset.val = 0) ∧
    (b.backwardChecked n = .ok (some a) ↔ a.stepsBetween b = some n ∧ a.offset.val = 0) ∧
    (b < a ∧ a.stepsBetween b ≠ none ↔ a.sector = b.sector ∧ b.offset.val < a.offset.val) := by
  refine ⟨?_, ?_, ?_⟩
  · rw [forwardChecked, stepChecked_eq_some_iff, checkedAddU32_eq_some_iff, castU32_natCast,
      Nat.mod_eq_of_lt hn, stepsBetween_eq_some_iff]
  · rw [backwardChecked, stepChecked_eq_some_iff, checkedSubU32_eq_some_iff, castU32_natCast,
      Nat.mod_eq_of_lt hn, stepsBetween_eq_some_iff]
  · rw [lt_iff, intoIndex_lt_iff, Ne, stepsBetween_eq_none_iff, Fin.ext_iff]
    omega

/-- Byte 50 of sector 2 lies before byte 100 of sector 2 on 512-byte sectors, yet
`steps_between` counts 0 steps from the later to the earlier. -/
theorem stepsBetween_backwards_in_sector :
    (⟨2, 50, by decide⟩ : Address Size512) < ⟨2, 100, by decide⟩ ∧
      (⟨2, 100, by decide⟩ : Address Size512).stepsBetween ⟨2, 50, by decide⟩ ≠ none :=
  ((step_laws_unaligned (⟨2, 100, by decide⟩ : Address Size512) ⟨2, 50, by decide⟩ 0
    (by decide)).2.2).2 ⟨rfl, by decide⟩

/-- `count as u32` keeps the low 32 bits of the count: from the first sector, a step of
`2 ^ 32` sectors forward or backward gives the first sector again instead of failing,
while `steps_between` that sector and itself is 0. -/
theorem forwardChecked_truncates_count :
    (sectorStart 0 : Address Size512).forwardChecked 4294967296 = .ok (some (sectorStart 0)) ∧
    (sectorStart 0 : Address Size512).backwardChecked 4294967296 = .ok (some (sectorStart 0)) ∧
    (sectorStart 0 : Address Size512).stepsBetween (sectorStart 0) = some 0 := by
  decide

end Address

end Ext2
