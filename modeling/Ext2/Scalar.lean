import Mathlib.Tactic.LinearCombination
import Mathlib.Tactic.Linarith
import Mathlib.Tactic.Positivity

/-!
# Machine integers, as a debug build runs them

The crate's tests run with overflow checks on: an arithmetic operation whose exact
result leaves its type panics, a shift panics when its amount reaches the width, and
an `as` cast keeps the low bits of its operand and never panics.  A machine integer is
its mathematical value, a `Nat` or an `Int` in the type's range; an operation that may
panic returns an `Except Panic`.
-/

namespace Ext2

/-- Why a computation of the crate panics. -/
inductive Panic where
  /-- An arithmetic operation left its type (`attempt to add with overflow`, ...). -/
  | overflow
  /-- `Vec::with_capacity` was asked for more than `isize::MAX` bytes. -/
  | capacityOverflow
  /-- A failed `assert!`, with its message. -/
  | assertion (msg : String)
  /-- An `unimplemented!`, with its message. -/
  | unimplemented (msg : String)
deriving DecidableEq, Repr

/-- Rust's `u32`. -/
abbrev U32 := Fin (2 ^ 32)

/-- Rust's `u64`. -/
abbrev U64 := Fin (2 ^ 64)

/-- Rust's `usize`, on the 64-bit targets the crate is built for. -/
abbrev Usize := Fin (2 ^ 64)

/-- Rust's `i32`. -/
structure I32 where
  val : Int
  min_le : -2 ^ 31 ≤ val
  lt : val < 2 ^ 31
deriving DecidableEq, Repr

instance instDecidableEqExcept {ε α : Type} [DecidableEq ε] [DecidableEq α] :
    DecidableEq (Except ε α)
  | .ok a, .ok b => decidable_of_iff (a = b) (by simp)
  | .error a, .error b => decidable_of_iff (a = b) (by simp)
  | .ok _, .error _ => isFalse (by simp)
  | .error _, .ok _ => isFalse (by simp)

@[simp] lemma ok_bind {α β : Type} (x : α) (f : α → Except Panic β) :
    (Except.ok x >>= f) = f x := rfl

@[simp] lemma error_bind {α β : Type} (e : Panic) (f : α → Except Panic β) :
    (Except.error e >>= f) = Except.error e := rfl

/-- A bind that succeeds ran its first computation to a value. -/
lemma bind_eq_ok {α β : Type} {x : Except Panic α} {f : α → Except Panic β} {b : β}
    (h : (x >>= f) = .ok b) : ∃ a, x = .ok a ∧ f a = .ok b := by
  cases x with
  | error e => cases h
  | ok a => exact ⟨a, rfl, h⟩

instance : Zero I32 := ⟨⟨0, by decide, by decide⟩⟩

@[simp] lemma I32.zero_val : (0 : I32).val = 0 := rfl

@[simp] lemma map_ok {α β : Type} (f : α → β) (x : α) :
    (f <$> (Except.ok x : Except Panic α)) = Except.ok (f x) := rfl

/-! ### Casts and bitwise operations -/

/-- `x as u32`: the low 32 bits of an integer. -/
def castU32 (x : Int) : U32 := ⟨(x % 2 ^ 32).toNat, by omega⟩

/-- `x as i32`: the low 32 bits of an integer, read in two's complement. -/
def castI32 (x : Int) : I32 := ⟨(x + 2 ^ 31) % 2 ^ 32 - 2 ^ 31, by omega, by omega⟩

/-- `x & m` on `u32`. -/
def andU32 (x : U32) (m : Nat) : U32 := ⟨x.val &&& m, lt_of_le_of_lt Nat.and_le_left x.2⟩

@[simp] lemma castU32_val (x : Int) : ((castU32 x).val : Int) = x % 2 ^ 32 := by
  simp only [castU32]
  omega

lemma castU32_natCast (x : Nat) : (castU32 x).val = x % 2 ^ 32 := by
  simp only [castU32]
  omega

lemma castI32_val_of_lt {x : Int} (h0 : -2 ^ 31 ≤ x) (h : x < 2 ^ 31) : (castI32 x).val = x := by
  simp only [castI32]
  omega

/-- A `u32` read as an `i32` loses `2 ^ 32` from `2 ^ 31` on. -/
lemma castI32_natCast_val {x : Nat} (h : x < 2 ^ 32) :
    (castI32 x).val = x - if 2 ^ 31 ≤ x then 2 ^ 32 else 0 := by
  simp only [castI32]
  split_ifs <;> omega

/-! ### Checked arithmetic -/

/-- `u32::checked_add`. -/
def checkedAddU32 (x y : U32) : Option U32 :=
  if h : x.val + y.val < 2 ^ 32 then some ⟨x.val + y.val, h⟩ else none

/-- `u32::checked_sub`. -/
def checkedSubU32 (x y : U32) : Option U32 :=
  if y.val ≤ x.val then some ⟨x.val - y.val, lt_of_le_of_lt (Nat.sub_le _ _) x.2⟩ else none

lemma checkedAddU32_eq (x y : U32) : checkedAddU32 x y =
    if x.val + y.val < 2 ^ 32 then some (castU32 (x.val + y.val : Nat)) else none := by
  unfold checkedAddU32
  split_ifs with h
  · exact congrArg some (Fin.ext (by rw [castU32_natCast, Nat.mod_eq_of_lt h]))
  · rfl

lemma checkedSubU32_eq (x y : U32) : checkedSubU32 x y =
    if y.val ≤ x.val then some (castU32 (x.val - y.val : Nat)) else none := by
  unfold checkedSubU32
  split_ifs with h
  · exact congrArg some (Fin.ext (by rw [castU32_natCast, Nat.mod_eq_of_lt (by omega)]))
  · rfl

lemma checkedAddU32_eq_some_iff {x y z : U32} :
    checkedAddU32 x y = some z ↔ x.val + y.val = z.val := by
  unfold checkedAddU32
  split_ifs with h
  · rw [Option.some.injEq, Fin.ext_iff]
  · simp only [reduceCtorEq, false_iff]
    omega

lemma checkedSubU32_eq_some_iff {x y z : U32} :
    checkedSubU32 x y = some z ↔ z.val + y.val = x.val := by
  unfold checkedSubU32
  split_ifs with h
  · rw [Option.some.injEq, Fin.ext_iff]
    exact (Nat.sub_eq_iff_eq_add h).trans eq_comm
  · simp only [reduceCtorEq, false_iff]
    omega

/-- `x + y` on `u32`: `checked_add`, panicking on overflow. -/
def addU32 (x y : U32) : Except Panic U32 :=
  match checkedAddU32 x y with
  | some z => .ok z
  | none => .error .overflow

/-- `x - y` on `u32`: `checked_sub`, panicking on overflow. -/
def subU32 (x y : U32) : Except Panic U32 :=
  match checkedSubU32 x y with
  | some z => .ok z
  | none => .error .overflow

/-- `x - y` on `i32`. -/
def subI32 (x y : I32) : Except Panic I32 :=
  if h : -2 ^ 31 ≤ x.val - y.val ∧ x.val - y.val < 2 ^ 31 then .ok ⟨x.val - y.val, h.1, h.2⟩
  else .error .overflow

/-- `x * y` on `usize`. -/
def mulUsize (x y : Nat) : Except Panic Usize :=
  if h : x * y < 2 ^ 64 then .ok ⟨x * y, h⟩ else .error .overflow

/-- The integer lies in the range of `i64`. -/
def InI64 (x : Int) : Prop := -2 ^ 63 ≤ x ∧ x < 2 ^ 63

instance : DecidablePred InI64 := fun _ => inferInstanceAs (Decidable (_ ∧ _))

/-- The two's-complement wrap of an integer onto `i64`. -/
def wrapI64 (x : Int) : Int := (x + 2 ^ 63) % 2 ^ 64 - 2 ^ 63

/-- `x << n` on `i64`: the bits shifted out are lost, and the amount must stay below 64. -/
def shlI64 (x : Int) (n : Nat) : Except Panic Int :=
  if n < 64 then .ok (wrapI64 (x * 2 ^ n)) else .error .overflow

/-- `x + y` on `i64`. -/
def addI64 (x y : Int) : Except Panic Int :=
  if InI64 (x + y) then .ok (x + y) else .error .overflow

lemma addU32_of_lt {x y : U32} (h : x.val + y.val < 2 ^ 32) :
    addU32 x y = .ok ⟨x.val + y.val, h⟩ := by
  simp only [addU32, checkedAddU32, dif_pos h]

lemma addU32_of_le {x y : U32} (h : 2 ^ 32 ≤ x.val + y.val) : addU32 x y = .error .overflow := by
  simp only [addU32, checkedAddU32, dif_neg (not_lt.2 h)]

lemma subU32_of_le {x y : U32} (h : y.val ≤ x.val) :
    subU32 x y = .ok ⟨x.val - y.val, lt_of_le_of_lt (Nat.sub_le _ _) x.2⟩ := by
  simp only [subU32, checkedSubU32, if_pos h]

lemma subU32_of_lt {x y : U32} (h : x.val < y.val) : subU32 x y = .error .overflow := by
  simp only [subU32, checkedSubU32, if_neg (not_le.2 h)]

lemma subI32_of_inRange {x y : I32} (h0 : -2 ^ 31 ≤ x.val - y.val) (h : x.val - y.val < 2 ^ 31) :
    subI32 x y = .ok ⟨x.val - y.val, h0, h⟩ := by
  simp only [subI32, dif_pos (And.intro h0 h)]

lemma subI32_castI32 {x y : Nat} (hx : x < 2 ^ 31) (hy : y < 2 ^ 31) :
    ∃ z, subI32 (castI32 x) (castI32 y) = .ok z ∧ z.val = (x : Int) - y := by
  have hx' : (castI32 x).val = x := castI32_val_of_lt (by omega) (by omega)
  have hy' : (castI32 y).val = y := castI32_val_of_lt (by omega) (by omega)
  have h0 : -2 ^ 31 ≤ (castI32 x).val - (castI32 y).val := by omega
  have h1 : (castI32 x).val - (castI32 y).val < 2 ^ 31 := by omega
  exact ⟨⟨_, h0, h1⟩, subI32_of_inRange h0 h1, by simp only [hx', hy']⟩

lemma mulUsize_of_lt {x y : Nat} (h : x * y < 2 ^ 64) : mulUsize x y = .ok ⟨x * y, h⟩ := by
  simp only [mulUsize, dif_pos h]

lemma wrapI64_of_inI64 {x : Int} (h : InI64 x) : wrapI64 x = x := by
  unfold InI64 at h
  unfold wrapI64
  omega

lemma shlI64_of_lt {x : Int} {n : Nat} (hn : n < 64) (h : InI64 (x * 2 ^ n)) :
    shlI64 x n = .ok (x * 2 ^ n) := by
  simp [shlI64, hn, wrapI64_of_inI64 h]

lemma shlI64_of_lt_64 {x : Int} {n : Nat} (hn : n < 64) :
    shlI64 x n = .ok (wrapI64 (x * 2 ^ n)) :=
  if_pos hn

lemma shlI64_of_le {x : Int} {n : Nat} (hn : 64 ≤ n) : shlI64 x n = .error .overflow :=
  if_neg (Nat.not_lt.2 hn)

lemma addI64_of_inI64 {x y : Int} (h : InI64 (x + y)) : addI64 x y = .ok (x + y) := by
  simp [addI64, h]

lemma addI64_of_not_inI64 {x y : Int} (h : ¬ InI64 (x + y)) : addI64 x y = .error .overflow :=
  if_neg h

/-- The bits that the wrap onto `i64` drops lie above every divisor of `2 ^ 64`. -/
lemma wrapI64_add_emod (x o : Int) {m : Int} (h : m ∣ 2 ^ 64) :
    (wrapI64 x + o) % m = (x + o) % m := by
  obtain ⟨k, hk⟩ := h
  have hw : wrapI64 x + o = x + o + m * (-(k * ((x + 2 ^ 63) / 2 ^ 64))) := by
    rw [wrapI64, Int.emod_def, hk]
    ring
  rw [hw, Int.add_mul_emod_self_left]

/-- A wrapped value whose low 32 bits are clear, or which stays below `2 ^ 63 - 2 ^ 31`,
plus an `i32` leaves `i64` only downwards from `i64::MIN`. -/
lemma inI64_wrapI64_add_iff {x o : Int} (hx0 : 0 ≤ x)
    (hx : x % 2 ^ 32 = 0 ∨ x ≤ 2 ^ 63 - 2 ^ 31) (ho0 : -2 ^ 31 ≤ o) (ho : o < 2 ^ 31) :
    InI64 (wrapI64 x + o) ↔ ¬ (x % 2 ^ 64 = 2 ^ 63 ∧ o < 0) := by
  unfold InI64 wrapI64
  omega

/-! ### Splitting an integer at a power of two -/

/-- Splitting an integer at `P` and its quotient at `K` is splitting it at `K * P`. -/
lemma ediv_emod_mul_add_emod (i : Int) {P K : Int} (hP : 0 < P) (hK : 0 < K) :
    i / P % K * P + i % P = i % (K * P) := by
  have h1 := Int.ediv_add_emod i P
  have h2 := Int.ediv_add_emod (i / P) K
  have hr0 := Int.emod_nonneg i hP.ne'
  have hr1 := Int.emod_lt_of_pos i hP
  have hq0 := Int.emod_nonneg (i / P) hK.ne'
  have hq1 := Int.emod_lt_of_pos (i / P) hK
  refine ((@Int.ediv_emod_unique i (K * P) _ (i / P / K) (Int.mul_pos hK hP)).2
    ⟨?_, ?_, ?_⟩).2.symm
  · linear_combination h1 + P * h2
  · positivity
  · have hle := Int.mul_le_mul_of_nonneg_right (Int.add_one_le_iff.2 hq1) hP.le
    linarith

end Ext2
