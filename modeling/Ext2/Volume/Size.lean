import Ext2.Sector.Order
import Mathlib.Data.ENat.Lattice
import Mathlib.Order.CompletePartialOrder

/-!
# Extents of a volume

`src/volume/size.rs`.  The extent of a volume is unbounded, or bounded by an address.
The locators ask one question of it, `size < end` (`PartialOrd<Address<S>> for Size`):
its answer compares the index of the bound with the index of the end, and is never yes
for an unbounded extent (`ltAddress_iff`).  An unbounded extent equals nothing, itself
included (`eq_unbounded`).  An extent stands for a number of bytes, infinitely many when
it is unbounded (`bytes`): every comparison of the module compares those numbers
(`comparisons_refine_bytes`), and the impls keep the laws of `PartialEq` and
`PartialOrd` (`partialOrd_laws`).
-/

namespace Ext2

/-- `Size<S>`: the extent of a volume. -/
inductive Size (S : SectorSize) where
  | unbounded
  | bounded (n : Address S)
deriving DecidableEq, Repr

namespace Size

variable {S : SectorSize}

/-- `Size::try_len`. -/
def tryLen : Size S → Option (Address S)
  | unbounded => none
  | bounded n => some n

/-- `Size::is_bounded`. -/
def isBounded : Size S → Bool
  | unbounded => false
  | bounded _ => true

/-- `PartialEq for Size`: an unbounded extent equals nothing. -/
def eq : Size S → Size S → Bool
  | unbounded, _ => false
  | _, unbounded => false
  | bounded a, bounded b => a.eq b

/-- `PartialEq<Address<S>> for Size`. -/
def eqAddress : Size S → Address S → Bool
  | unbounded, _ => false
  | bounded n, rhs => n.eq rhs

/-- `PartialOrd for Size`: two unbounded extents are unordered. -/
def partialCmp : Size S → Size S → Option Ordering
  | unbounded, unbounded => none
  | unbounded, _ => some .gt
  | _, unbounded => some .lt
  | bounded a, bounded b => a.partialCmp b

/-- `PartialOrd<Address<S>> for Size`. -/
def partialCmpAddress : Size S → Address S → Option Ordering
  | unbounded, _ => some .gt
  | bounded n, rhs => n.partialCmp rhs

/-- `matches!(o, Some(Less))`, the body of the default `PartialOrd::lt`. -/
def isSomeLt : Option Ordering → Bool
  | some .lt => true
  | _ => false

/-- `s < t` on extents. -/
def lt (s t : Size S) : Bool := isSomeLt (s.partialCmp t)

/-- `s < e` for an address `e`: the bounds test of the locators. -/
def ltAddress (s : Size S) (e : Address S) : Bool := isSomeLt (s.partialCmpAddress e)

/-- The extent covers the first `n` bytes of the medium. -/
def holds : Size S → Nat → Bool
  | unbounded, _ => true
  | bounded b, n => n ≤ b.intoIndex.val

lemma holds_of_le {s : Size S} {m n : Nat} (h : s.holds n) (hmn : m ≤ n) : s.holds m := by
  cases s with
  | unbounded => rfl
  | bounded b =>
    simp only [holds, decide_eq_true_eq] at h ⊢
    omega

lemma isSomeLt_iff (o : Option Ordering) : isSomeLt o ↔ o = some .lt := by
  rcases o with _ | _ | _ | _ <;> simp [isSomeLt]

lemma tryLen_eq_none_iff (s : Size S) : s.tryLen = none ↔ s.isBounded = false := by
  cases s <;> simp [tryLen, isBounded]

/-- An unbounded extent is not equal to itself. -/
lemma eq_unbounded (s : Size S) : s.eq unbounded = false := by
  cases s <;> rfl

lemma eq_bounded_iff (a b : Address S) : (bounded a).eq (bounded b) ↔ a = b :=
  Address.eq_iff a b

@[simp] lemma ltAddress_unbounded (e : Address S) : (unbounded : Size S).ltAddress e = false :=
  rfl

@[simp] lemma ltAddress_bounded (n e : Address S) :
    (bounded n).ltAddress e ↔ n.intoIndex.val < e.intoIndex.val := by
  rw [ltAddress, partialCmpAddress, isSomeLt_iff, ← Address.lt_iff]
  rfl

lemma ltAddress_iff (s : Size S) (e : Address S) :
    s.ltAddress e ↔ ∃ n, s = bounded n ∧ n.intoIndex.val < e.intoIndex.val := by
  cases s <;> simp

/-- The bounds test fails exactly when the extent covers the bytes up to the end. -/
lemma ltAddress_eq_not_holds (s : Size S) (e : Address S) :
    s.ltAddress e = !s.holds e.intoIndex.val := by
  cases s with
  | unbounded => rfl
  | bounded n =>
    rw [Bool.eq_iff_iff, ltAddress_bounded, holds, Bool.not_eq_true', decide_eq_false_iff_not,
      not_le]

lemma ltAddress_eq_lt (s : Size S) (e : Address S) : s.ltAddress e = s.lt (bounded e) := by
  cases s <;> rfl

/-- The derived order of addresses is the order of their linear indices.  The bounds
test `size < end` of the locators holds exactly when the extent is bounded by an address
of smaller index than the end, so never for an unbounded extent, and it agrees with
comparing the extent against `Size::Bounded(end)`. -/
theorem ltAddress_agrees_intoIndex :
    (∀ a b : Address S, (a < b ↔ a.intoIndex.val < b.intoIndex.val) ∧
      (a.eq b ↔ a.intoIndex.val = b.intoIndex.val)) ∧
    ∀ (s : Size S) (e : Address S),
      (s.ltAddress e ↔ ∃ n, s = bounded n ∧ n.intoIndex.val < e.intoIndex.val) ∧
      s.ltAddress e = s.lt (bounded e) :=
  ⟨fun a b => ⟨Address.lt_iff a b, Address.eq_iff_intoIndex a b⟩,
    fun s e => ⟨ltAddress_iff s e, ltAddress_eq_lt s e⟩⟩

/-! ### What an extent stands for -/

/-- The number of bytes an extent covers: the index of its bound, or infinitely many for
an unbounded extent. -/
def bytes : Size S → ℕ∞
  | unbounded => ⊤
  | bounded n => n.intoIndex.val

@[simp] lemma bytes_unbounded : (unbounded : Size S).bytes = ⊤ := rfl

@[simp] lemma bytes_bounded (n : Address S) : (bounded n).bytes = n.intoIndex.val := rfl

lemma partialCmp_eq_none_iff (s t : Size S) :
    s.partialCmp t = none ↔ s.bytes = ⊤ ∧ t.bytes = ⊤ := by
  cases s <;> cases t <;> simp [partialCmp, ENat.coe_ne_top, Address.partialCmp_eq]

lemma partialCmp_eq_lt_iff (s t : Size S) : s.partialCmp t = some .lt ↔ s.bytes < t.bytes := by
  cases s <;> cases t <;>
    simp [partialCmp, ENat.coe_lt_top, Address.partialCmp_eq, Nat.compare_eq_lt]

lemma partialCmp_eq_gt_iff (s t : Size S) : s.partialCmp t = some .gt ↔ t.bytes < s.bytes := by
  cases s <;> cases t <;>
    simp [partialCmp, ENat.coe_lt_top, Address.partialCmp_eq, Nat.compare_eq_gt]

lemma partialCmp_eq_eq_iff (s t : Size S) :
    s.partialCmp t = some .eq ↔ s.bytes = t.bytes ∧ s.bytes ≠ ⊤ := by
  cases s <;> cases t <;>
    simp [partialCmp, ENat.coe_ne_top, Address.partialCmp_eq, Nat.compare_eq_eq]

lemma lt_iff_bytes (s t : Size S) : s.lt t ↔ s.bytes < t.bytes := by
  rw [lt, isSomeLt_iff, partialCmp_eq_lt_iff]

/-- An unbounded extent equals nothing, so equality of extents is equality of bounded
byte counts. -/
lemma eq_iff_bytes (s t : Size S) : s.eq t ↔ s.bytes = t.bytes ∧ s.bytes ≠ ⊤ := by
  cases s <;> cases t <;> simp [eq, ENat.coe_ne_top, Address.eq_iff_intoIndex]

lemma ltAddress_iff_bytes (s : Size S) (e : Address S) :
    s.ltAddress e ↔ s.bytes < e.intoIndex.val := by
  cases s <;> simp

lemma eqAddress_iff_bytes (s : Size S) (e : Address S) :
    s.eqAddress e ↔ s.bytes = e.intoIndex.val := by
  cases s <;> simp [eqAddress, Address.eq_iff_intoIndex]

lemma holds_iff_bytes (s : Size S) (n : ℕ) : s.holds n ↔ (n : ℕ∞) ≤ s.bytes := by
  cases s <;> simp [holds]

/-- An extent stands for the number of bytes it covers, infinitely many when it is
unbounded, and every comparison of `size.rs` compares those numbers: `<` against an
extent or an address is `<` of byte counts; `partial_cmp` orders the counts and leaves
only two unbounded extents unordered; `==` is equality of counts, except that an
unbounded extent equals nothing.  The bounds test of the locators asks whether the
count reaches the end. -/
theorem comparisons_refine_bytes :
    (∀ s t : Size S, (s.lt t ↔ s.bytes < t.bytes) ∧
      (s.partialCmp t = none ↔ s.bytes = ⊤ ∧ t.bytes = ⊤) ∧
      (s.partialCmp t = some .lt ↔ s.bytes < t.bytes) ∧
      (s.partialCmp t = some .gt ↔ t.bytes < s.bytes) ∧
      (s.partialCmp t = some .eq ↔ s.bytes = t.bytes ∧ s.bytes ≠ ⊤) ∧
      (s.eq t ↔ s.bytes = t.bytes ∧ s.bytes ≠ ⊤)) ∧
    ∀ (s : Size S) (e : Address S), (s.ltAddress e ↔ s.bytes < e.intoIndex.val) ∧
      (s.eqAddress e ↔ s.bytes = e.intoIndex.val) ∧
      ∀ n : ℕ, s.holds n ↔ (n : ℕ∞) ≤ s.bytes :=
  ⟨fun s t => ⟨lt_iff_bytes s t, partialCmp_eq_none_iff s t, partialCmp_eq_lt_iff s t,
      partialCmp_eq_gt_iff s t, partialCmp_eq_eq_iff s t, eq_iff_bytes s t⟩,
    fun s e => ⟨ltAddress_iff_bytes s e, eqAddress_iff_bytes s e, holds_iff_bytes s⟩⟩

/-- `PartialEq for Size` and the two `PartialOrd` impls keep the laws that Rust asks of
them: `==` is symmetric and transitive, though not reflexive since nothing equals
`Unbounded`, itself included; `partial_cmp` is dual under swapping its arguments and
answers `Equal` exactly when `==` holds, and `<` is transitive. -/
theorem partialOrd_laws :
    (∀ s t : Size S, s.eq t = t.eq s) ∧
    (∀ s t u : Size S, s.eq t → t.eq u → s.eq u) ∧
    (∀ s : Size S, s.eq unbounded = false) ∧
    (∀ s t : Size S, s.partialCmp t = (t.partialCmp s).map Ordering.swap) ∧
    (∀ s t : Size S, s.eq t ↔ s.partialCmp t = some .eq) ∧
    (∀ s t u : Size S, s.lt t → t.lt u → s.lt u) ∧
    (∀ (s : Size S) (e : Address S), s.eqAddress e ↔ s.partialCmpAddress e = some .eq) := by
  refine ⟨fun s t => ?_, fun s t u hst htu => ?_, eq_unbounded, fun s t => ?_, fun s t => ?_,
    fun s t u hst htu => ?_, fun s e => ?_⟩
  · -- symmetry
    rw [Bool.eq_iff_iff, eq_iff_bytes, eq_iff_bytes]
    exact ⟨fun ⟨h, h'⟩ => ⟨h.symm, h ▸ h'⟩, fun ⟨h, h'⟩ => ⟨h.symm, h ▸ h'⟩⟩
  · -- transitivity of `==`
    rw [eq_iff_bytes] at hst htu ⊢
    exact ⟨hst.1.trans htu.1, hst.2⟩
  · -- duality
    cases s <;> cases t <;> simp [partialCmp, Address.partialCmp_eq, Nat.compare_swap] <;> rfl
  · rw [eq_iff_bytes, partialCmp_eq_eq_iff]
  · -- transitivity of `<`
    rw [lt_iff_bytes] at hst htu ⊢
    exact hst.trans htu
  · cases s with
    | unbounded => simp [eqAddress, partialCmpAddress]
    | bounded n =>
      rw [eqAddress, partialCmpAddress, Address.eq_iff_intoIndex, Address.partialCmp_eq,
        Option.some.injEq, Nat.compare_eq_eq]

end Size

end Ext2
