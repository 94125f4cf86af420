import Ext2.Sector.Address

/-!
# The derived order of addresses

`Address` derives `PartialEq` and `PartialOrd`: fields are compared in declaration order,
the sector first, then the offset, and the phantom field always compares equal.  Because
the offset stays below the sector size, this lexicographic order is the order of the
linear indices (`partialCmp_eq`), so `equivIndex` is an order isomorphism onto the bytes
of the medium (`equivIndex_le_iff`, `equivIndex_lt_iff`).
-/

namespace Ext2

namespace Address

variable {S : SectorSize}

/-- The derived `PartialEq for Address`. -/
def eq (a b : Address S) : Bool := a.sector == b.sector && a.offset == b.offset

/-- The derived `PartialOrd for Address`: sectors first, then offsets. -/
def partialCmp (a b : Address S) : Option Ordering :=
  some ((compare a.sector.val b.sector.val).then (compare a.offset.val b.offset.val))

/-- `a < b`, as `PartialOrd::lt` derives it from `partial_cmp`. -/
instance : LT (Address S) := ⟨fun a b => a.partialCmp b = some .lt⟩

/-- `a <= b`, as `PartialOrd::le` derives it from `partial_cmp`. -/
instance : LE (Address S) :=
  ⟨fun a b => a.partialCmp b = some .lt ∨ a.partialCmp b = some .eq⟩

instance (a b : Address S) : Decidable (a < b) := inferInstanceAs (Decidable (_ = _))

instance (a b : Address S) : Decidable (a ≤ b) := inferInstanceAs (Decidable (_ ∨ _))

lemma eq_iff (a b : Address S) : a.eq b ↔ a = b := by
  simp only [eq, Bool.and_eq_true, beq_iff_eq, Address.ext_iff]

/-- Comparing sectors compares indices. -/
lemma sector_le_of_intoIndex_le {a b : Address S} (h : a.intoIndex.val ≤ b.intoIndex.val) :
    a.sector.val ≤ b.sector.val := by
  rw [← intoIndex_div, ← intoIndex_div]
  exact Nat.div_le_div_right h

/-- The index order is the lexicographic order of `(sector, offset)`. -/
lemma intoIndex_lt_iff (a b : Address S) :
    a.intoIndex.val < b.intoIndex.val ↔ a.sector.val < b.sector.val ∨
      a.sector.val = b.sector.val ∧ a.offset.val < b.offset.val := by
  have hab := intoIndex_val a
  have hba := intoIndex_val b
  constructor
  · intro h
    rcases (sector_le_of_intoIndex_le h.le).lt_or_eq with hs | hs
    · exact .inl hs
    · rw [hs] at hab
      omega
  · rintro (hs | ⟨hs, ho⟩)
    · exact lt_of_not_le fun h => (sector_le_of_intoIndex_le h).not_lt hs
    · rw [hs] at hab
      omega

/-- The derived comparison compares linear indices. -/
lemma partialCmp_eq (a b : Address S) :
    a.partialCmp b = some (compare a.intoIndex.val b.intoIndex.val) := by
  have hlt := intoIndex_lt_iff a b
  have hgt := intoIndex_lt_iff b a
  simp only [partialCmp, Nat.compare_def_lt, hlt, hgt, Option.some.injEq]
  split_ifs <;> first | rfl | omega

lemma lt_iff (a b : Address S) : a < b ↔ a.intoIndex.val < b.intoIndex.val := by
  show a.partialCmp b = some .lt ↔ _
  rw [partialCmp_eq, Option.some.injEq, Nat.compare_eq_lt]

lemma le_iff (a b : Address S) : a ≤ b ↔ a.intoIndex.val ≤ b.intoIndex.val := by
  show a.partialCmp b = some .lt ∨ a.partialCmp b = some .eq ↔ _
  rw [partialCmp_eq, Option.some.injEq, Option.some.injEq, Nat.compare_eq_lt, Nat.compare_eq_eq,
    Nat.le_iff_lt_or_eq]

lemma eq_iff_intoIndex (a b : Address S) : a.eq b ↔ a.intoIndex.val = b.intoIndex.val := by
  rw [eq_iff, ← Fin.ext_iff]
  exact intoIndex_injective.eq_iff.symm

/-! ### The order of the bytes of the medium -/

/-- The bijection `equivIndex` carries the order of the bytes back to the derived `<=`. -/
lemma equivIndex_le_iff (a b : Address S) : equivIndex a ≤ equivIndex b ↔ a ≤ b :=
  (le_iff a b).symm

/-- The bijection `equivIndex` carries the order of the bytes back to the derived `<`. -/
lemma equivIndex_lt_iff (a b : Address S) : equivIndex a < equivIndex b ↔ a < b :=
  (lt_iff a b).symm

end Address

end Ext2
