import Mathlib.Data.List.Nodup
import Mathlib.Data.List.Range

/-!
# Stamps from a wrapping counter

A counter that wraps around at `size` hands out its value and counts on.  As long as it has not
been round, no two stamps are equal.
-/

namespace Stamps

/-- The first `n` stamps, newest first. -/
def issue (size n : Nat) : List Nat := (List.range n).reverse.map fun k => k % size

theorem issue_succ (size n : Nat) : issue size (n + 1) = n % size :: issue size n := by
  simp [issue, List.range_succ]

theorem issue_of_le {size n : Nat} (h : n ≤ size) : issue size n = (List.range n).reverse := by
  conv_rhs => rw [← List.map_id (List.range n).reverse]
  refine List.map_congr_left fun k hk => Nat.mod_eq_of_lt ?_
  have := List.mem_range.mp (List.mem_reverse.mp hk)
  omega

theorem nodup_issue {size n : Nat} (h : n ≤ size) : (issue size n).Nodup := by
  rw [issue_of_le h, List.nodup_reverse]
  exact List.nodup_range

/-- What is stamped with distinct stamps is distinct. -/
theorem nodup_of_stamped {α : Type*} {size : Nat} {xs : List α} {stamp : α → Nat}
    (hstamp : xs.map stamp = issue size xs.length) (h : xs.length ≤ size) : xs.Nodup := by
  apply List.Nodup.of_map stamp
  rw [hstamp]
  exact nodup_issue h

end Stamps
