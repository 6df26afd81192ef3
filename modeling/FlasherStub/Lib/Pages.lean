import Mathlib.Tactic.Common

/-! A list cut into pages of `n` elements. -/

namespace Pages

variable {α : Type} {n k : Nat} {xs : List α}

/-- Page `k`; the last one may be shorter than `n`. -/
def slice (n : Nat) (xs : List α) (k : Nat) : List α := (xs.drop (k * n)).take n

theorem length_slice (n k : Nat) (xs : List α) :
    (slice n xs k).length = min n (xs.length - k * n) := by
  rw [slice, List.length_take, List.length_drop]

theorem slice_append (whole : (k + 1) * n ≤ xs.length) (ys : List α) :
    slice n (xs ++ ys) k = slice n xs k := by
  rw [Nat.succ_mul] at whole
  rw [slice, slice, List.drop_append_of_le_length (by omega), List.take_append_of_le_length]
  rw [List.length_drop]
  omega

theorem slice_last (last : xs.length ≤ (k + 1) * n) : slice n xs k = xs.drop (k * n) := by
  rw [Nat.succ_mul] at last
  rw [slice, List.take_of_length_le]
  rw [List.length_drop]
  omega

theorem getElem?_slice {i : Nat} (inside : i < n) (k : Nat) (xs : List α) :
    (slice n xs k)[i]? = xs[k * n + i]? := by
  rw [slice, List.getElem?_take_of_lt inside, List.getElem?_drop]

def padded (n : Nat) (pad : α) (page : List α) : List α :=
  page ++ List.replicate (n - page.length) pad

theorem length_padded {page : List α} (fits : page.length ≤ n) (pad : α) :
    (padded n pad page).length = n := by
  rw [padded, List.length_append, List.length_replicate, Nat.add_sub_cancel' fits]

theorem padded_full {page : List α} (full : page.length = n) (pad : α) : padded n pad page = page := by
  rw [padded, full, Nat.sub_self, List.replicate_zero, List.append_nil]

theorem getElem?_padded {i : Nat} {page : List α} (inside : i < page.length) (pad : α) :
    (padded n pad page)[i]? = page[i]? := by
  rw [padded, List.getElem?_append_left inside]

/-- The pages of a list, without an empty one at its end. -/
def cut (n : Nat) (xs : List α) : List (List α) :=
  (List.range ((xs.length + n - 1) / n)).map (slice n xs)

theorem slice_succ {page : List α} (whole : page.length = n) (k : Nat) (xs : List α) :
    slice n (page ++ xs) (k + 1) = slice n xs k := by
  rw [slice, slice, Nat.succ_mul, Nat.add_comm, ← List.drop_drop, List.drop_left' whole]

/-- A list is being cut, and `left` of its elements are still to come. -/
structure Cutting (n left : Nat) (pages : List (List α)) : Prop where
  some : ∀ p ∈ pages, p ≠ []
  short : ∀ p ∈ pages, p.length ≤ n
  whole : ∀ p ∈ pages.dropLast, p.length = n
  full : 0 < left → ∀ p ∈ pages, p.length = n

namespace Cutting

variable {left : Nat} {page : List α} {pages : List (List α)}

theorem nil (n left : Nat) : Cutting n left ([] : List (List α)) where
  some := by simp
  short := by simp
  whole := by simp
  full := by simp

theorem snoc (cutting : Cutting n left pages) (nonzero : 0 < n) (more : 0 < left)
    (next : page.length = min left n) : Cutting n (left - page.length) (pages ++ [page]) where
  some := by
    refine List.forall_mem_append.mpr ⟨cutting.some, List.forall_mem_singleton.mpr ?_⟩
    rw [← List.length_pos_iff]
    omega
  short := List.forall_mem_append.mpr ⟨cutting.short, List.forall_mem_singleton.mpr (by omega)⟩
  whole := by
    rw [List.dropLast_concat]
    exact cutting.full more
  full rest := List.forall_mem_append.mpr
    ⟨cutting.full more, List.forall_mem_singleton.mpr (by omega)⟩

theorem length_flatten (cutting : Cutting n left pages) (more : 0 < left) :
    pages.flatten.length = pages.length * n := by
  have lengths : pages.map List.length = List.replicate pages.length n :=
    List.map_eq_replicate_iff.mpr (cutting.full more)
  rw [List.length_flatten, lengths, List.sum_replicate_nat]

end Cutting

theorem eq_cut {pages : List (List α)} (some : ∀ p ∈ pages, p ≠ [])
    (short : ∀ p ∈ pages, p.length ≤ n) (whole : ∀ p ∈ pages.dropLast, p.length = n) :
    pages = cut n pages.flatten := by
  induction pages with
  | nil =>
    have none : (n - 1) / n = 0 := Nat.div_eq_zero_iff.mpr (by omega)
    simp [cut, none]
  | cons page pages ih =>
    have length := List.length_pos_iff.mpr (some page (by simp))
    have fits := short page (by simp)
    cases pages with
    | nil =>
      have one : (page.length + n - 1) / n = 1 :=
        Nat.div_eq_of_lt_le (by omega) (by omega)
      simp [cut, one, slice, List.take_of_length_le fits]
    | cons next pages =>
      have full : page.length = n := whole page (by simp)
      have rest := ih (fun p mem => some p (List.mem_cons_of_mem _ mem))
        (fun p mem => short p (List.mem_cons_of_mem _ mem))
        (fun p mem => whole p (by simp [mem]))
      have first : slice n (page ++ (next :: pages).flatten) 0 = page := by
        simp [slice, List.take_left' full]
      have count : ((page ++ (next :: pages).flatten).length + n - 1) / n =
          ((next :: pages).flatten.length + n - 1) / n + 1 := by
        rw [List.length_append, full, Nat.add_assoc, Nat.add_sub_assoc (by omega),
          Nat.add_div_left _ (by omega)]
      rw [List.flatten_cons, cut, count, List.range_succ_eq_map, List.map_cons, List.map_map, first]
      exact congrArg (page :: ·)
        (rest.trans (List.map_congr_left fun k _ => (slice_succ full k _).symm))

theorem Cutting.eq_cut {left : Nat} {pages : List (List α)} (cutting : Cutting n left pages) :
    pages = cut n pages.flatten := Pages.eq_cut cutting.some cutting.short cutting.whole

end Pages
