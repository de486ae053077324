import Mathlib.Data.List.Basic
import Mathlib.Order.Lattice

/-!
# Pages and batches

A table is read page after page, each one after the last key of the page before; what is
written goes out in batches.  Reading all the pages reads the table, and the batches
together are what was to be written.
-/

namespace Paging

variable {α κ : Type*}

section Pages

/-- Read page after page; a page shorter than the limit is the last one. -/
def readPages (read : Option κ → List α) (key : α → κ) (limit : ℕ) : ℕ → Option κ → List α
  | 0, _ => []
  | fuel + 1, after =>
    let page := read after
    if page.length < limit then page
    else page ++ readPages read key limit fuel (page.getLast?.map key)

variable [LinearOrder κ] {key : α → κ} {limit : ℕ}

/-- The page after a key. -/
def pageAfter (key : α → κ) (limit : ℕ) (l : List α) (after : Option κ) : List α :=
  (l.filter fun a => after.all (· < key a)).take limit

theorem filter_after_getLast {done rest : List α}
    (h : (done ++ rest).Pairwise fun a b => key a < key b) :
    (done ++ rest).filter (fun a => (done.getLast?.map key).all (· < key a)) = rest := by
  rcases List.eq_nil_or_concat done with rfl | ⟨init, last, rfl⟩
  · simp
  · rw [List.concat_eq_append] at h ⊢
    rw [List.pairwise_append] at h
    obtain ⟨hdone, -, hacross⟩ := h
    have hnone : (init ++ [last]).filter (fun a => (some (key last)).all (· < key a)) = [] := by
      rw [List.filter_eq_nil_iff]
      intro a ha
      rw [List.pairwise_append] at hdone
      rcases List.mem_append.mp ha with hinit | hlast
      · have hlt := hdone.2.2 a hinit last List.mem_cons_self
        simpa using le_of_lt hlt
      · obtain rfl := List.mem_singleton.mp hlast
        simp
    have hall : rest.filter (fun a => (some (key last)).all (· < key a)) = rest := by
      rw [List.filter_eq_self]
      intro a ha
      simpa using hacross last (List.mem_append_right init List.mem_cons_self) a ha
    rw [List.getLast?_append, List.getLast?_singleton, Option.some_or, Option.map_some,
      List.filter_append, hnone, hall, List.nil_append]

theorem readPages_rest (hlimit : 0 < limit) {l : List α}
    (h : l.Pairwise fun a b => key a < key b) {fuel : ℕ} {done rest : List α}
    (hl : l = done ++ rest) (hfuel : rest.length < fuel) :
    readPages (pageAfter key limit l) key limit fuel (done.getLast?.map key) = rest := by
  induction fuel generalizing done rest with
  | zero => exact absurd hfuel (Nat.not_lt_zero _)
  | succ fuel ih =>
      have hpage : pageAfter key limit l (done.getLast?.map key) = rest.take limit := by
        rw [pageAfter, hl, filter_after_getLast (hl ▸ h)]
      rw [readPages, hpage]
      split
      · next hshort =>
          rw [List.length_take] at hshort
          exact List.take_of_length_le (by omega)
      · next hfull =>
          rw [List.length_take] at hfull
          have hne : rest.take limit ≠ [] := by
            rw [ne_eq, List.take_eq_nil_iff]
            rintro (hzero | hnil)
            · omega
            · rw [hnil] at hfull
              simp at hfull
              omega
          have hlast : (rest.take limit).getLast? = (done ++ rest.take limit).getLast? := by
            rw [List.getLast?_append, List.getLast?_eq_some_getLast hne, Option.some_or]
          have hsplit : l = (done ++ rest.take limit) ++ rest.drop limit := by
            rw [List.append_assoc, List.take_append_drop, hl]
          have hrest : (rest.drop limit).length < fuel := by
            rw [List.length_drop]
            omega
          rw [hlast, ih hsplit hrest, List.take_append_drop]

/-- All the pages of a table in the order of its keys are the table. -/
theorem readPages_eq (hlimit : 0 < limit) {l : List α}
    (h : l.Pairwise fun a b => key a < key b) {fuel : ℕ} (hfuel : l.length < fuel) :
    readPages (pageAfter key limit l) key limit fuel none = l := by
  have hsplit : l = [] ++ l := rfl
  exact readPages_rest hlimit h hsplit hfuel

end Pages

section Batches

/-- The batches of at most `n` entries. -/
def batchesAux (n : ℕ) : ℕ → List α → List (List α)
  | 0, _ => []
  | fuel + 1, l => if l.isEmpty then [] else l.take n :: batchesAux n fuel (l.drop n)

def batches (n : ℕ) (l : List α) : List (List α) := batchesAux n l.length l

theorem flatten_batchesAux {n : ℕ} (hn : 0 < n) {fuel : ℕ} {l : List α} (h : l.length ≤ fuel) :
    (batchesAux n fuel l).flatten = l := by
  induction fuel generalizing l with
  | zero =>
      obtain rfl := List.length_eq_zero_iff.mp (Nat.le_zero.mp h)
      rfl
  | succ fuel ih =>
      rw [batchesAux]
      split
      · next hempty => rw [List.isEmpty_iff.mp hempty, List.flatten_nil]
      · have hdrop : (l.drop n).length ≤ fuel := by
          rw [List.length_drop]
          omega
        rw [List.flatten_cons, ih hdrop, List.take_append_drop]

theorem flatten_batches {n : ℕ} (hn : 0 < n) (l : List α) : (batches n l).flatten = l :=
  flatten_batchesAux hn (Nat.le_refl _)

end Batches

end Paging
