import Mathlib.Data.Fintype.Card
import Mathlib.Data.List.Nodup
import Mathlib.Order.Defs.LinearOrder

/-!
# Fixed-width integers

The order on 64-bit integers, how many distinct 32-bit integers there are, for loops that
visit each at most once, and what a counter is when it is raised by one.
-/

namespace MiniSqlite.Std

instance int64LinearOrder : LinearOrder Int64 where
  le_refl _ := Int64.le_refl _
  le_trans _ _ _ := Int64.le_trans
  le_antisymm _ _ := Int64.le_antisymm
  lt_iff_le_not_ge first second := by
    rw [Int64.not_le]
    exact ⟨fun below => ⟨Int64.le_of_lt below, below⟩, fun below => below.2⟩
  le_total := Int64.le_total
  toDecidableLE := inferInstance
  toDecidableEq := inferInstance
  toDecidableLT := inferInstance

/-- A list of distinct 32-bit integers that leaves one out is shorter than `2 ^ 32`. -/
theorem length_lt_of_missing {ids : List Int32} (missing : Int32) (nodup : ids.Nodup)
    (absent : missing ∉ ids) : ids.length < 4294967296 := by
  have distinct : ((missing :: ids).map fun id => id.toBitVec.toFin).Nodup := by
    refine (List.nodup_cons.mpr ⟨absent, nodup⟩).map ?_
    intro first second same
    exact Int32.toBitVec.inj (BitVec.toFin_inj.mp same)
  have bounded := distinct.length_le_card
  rw [List.length_map, List.length_cons, Fintype.card_fin] at bounded
  exact bounded

/-- Small numbers are distinguished by their 32-bit integers. -/
theorem ofNat_inj {first second : Nat} (firstSmall : first < 2147483648)
    (secondSmall : second < 2147483648) (same : Int32.ofNat first = Int32.ofNat second) :
    first = second := by
  have values := congrArg Int32.toInt same
  rw [Int32.toInt_ofNat_of_lt firstSmall, Int32.toInt_ofNat_of_lt secondSmall] at values
  exact Int.ofNat.inj values

/-- A counter that is not the largest integer is raised by one. -/
theorem toInt_add_one {count : Int32} (left : count ≠ 2147483647) :
    (count + 1).toInt = count.toInt + 1 := by
  have below := count.toInt_lt
  have above := count.le_toInt
  have notLast : count.toInt ≠ 2147483647 := fun last => left (Int32.toInt_inj.mp last)
  have one : (1 : Int32).toInt = 1 := rfl
  rw [Int32.toInt_add, one]
  exact Int.bmod_eq_of_le (by omega) (by omega)

/-- A counter that has not grown was the largest integer. -/
theorem eq_last_of_wraps {count : Int32} (wraps : count + 1 < count) : count = 2147483647 := by
  by_contra left
  rw [Int32.lt_iff_toInt_lt, toInt_add_one left] at wraps
  omega

theorem ne_last_of_grows {count : Int32} (grows : count ≤ count + 1) : count ≠ 2147483647 := by
  rintro rfl
  exact absurd grows (by decide)

end MiniSqlite.Std
