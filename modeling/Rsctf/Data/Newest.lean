import Mathlib.Algebra.BigOperators.Group.Finset.Piecewise
import Mathlib.Algebra.Order.BigOperators.Group.Finset
import Mathlib.Algebra.Order.Ring.Int
import Mathlib.Data.Finset.Max
import Mathlib.Data.List.Sort
import Rsctf.Data.Keyed

/-!
# The newest keys of a table

A table is read from its newest row on.  The first row of each key counts, for at most `n`
keys, and the charges of the rows which count are added up.  Rows of the same time may be
read in any order; which sums can arise, and when there is only one, is the subject here.
-/

namespace Newest

variable {α κ τ M : Type*}

section Firsts

variable [DecidableEq κ] {key : α → κ} {l l' : List α} {a b : α}

/-- The first row of each key. -/
def firsts (key : α → κ) : List α → List α
  | [] => []
  | a :: l => a :: (firsts key l).filter fun b => key b ≠ key a

theorem firsts_sublist : ∀ l : List α, (firsts key l).Sublist l
  | [] => .slnil
  | _ :: l => (List.filter_sublist.trans (firsts_sublist l)).cons_cons _

theorem mem_map_firsts {k : κ} : k ∈ (firsts key l).map key ↔ k ∈ l.map key := by
  induction l with
  | nil => rfl
  | cons a l ih =>
      rw [firsts, List.map_cons, List.mem_cons, List.map_cons, List.mem_cons, ← ih]
      by_cases hk : k = key a
      · simp [hk]
      · simp only [hk, false_or, List.mem_map, List.mem_filter, decide_eq_true_eq]
        constructor
        · rintro ⟨b, ⟨hb, -⟩, rfl⟩
          exact ⟨b, hb, rfl⟩
        · rintro ⟨b, hb, rfl⟩
          exact ⟨b, ⟨hb, hk⟩, rfl⟩

theorem nodup_firsts : ∀ l : List α, ((firsts key l).map key).Nodup
  | [] => .nil
  | a :: l => by
      rw [firsts, List.map_cons, List.nodup_cons]
      refine ⟨fun hmem => ?_, (nodup_firsts l).sublist (List.filter_sublist.map _)⟩
      obtain ⟨b, hb, hkey⟩ := List.mem_map.mp hmem
      exact of_decide_eq_true (List.mem_filter.mp hb).2 hkey

/-- The keys of the first rows do not depend on the order of the table. -/
theorem map_firsts_perm (h : l.Perm l') :
    ((firsts key l).map key).Perm ((firsts key l').map key) := by
  rw [List.perm_ext_iff_of_nodup (nodup_firsts l) (nodup_firsts l')]
  intro k
  rw [mem_map_firsts, mem_map_firsts]
  exact (h.map key).mem_iff

theorem length_firsts_perm (h : l.Perm l') : (firsts key l).length = (firsts key l').length := by
  have hkeys : ((firsts key l).map key).Perm ((firsts key l').map key) := map_firsts_perm h
  have hlength := hkeys.length_eq
  rwa [List.length_map, List.length_map] at hlength

/-- What holds of the rows up to some row of the table may be asked of the first rows. -/
theorem firsts_filter_of_pairwise {p : α → Bool} (h : l.Pairwise fun a b => p b → p a) :
    firsts key (l.filter p) = (firsts key l).filter p := by
  induction l with
  | nil => rfl
  | cons a l ih =>
      obtain ⟨hhead, htail⟩ := List.pairwise_cons.mp h
      by_cases hp : p a = true
      · rw [List.filter_cons_of_pos hp, firsts, firsts, List.filter_cons_of_pos hp, ih htail,
          List.filter_comm]
      · have hnone : ∀ b ∈ l, ¬p b = true := fun b hb hpb => hp (hhead b hb hpb)
        have hfirst : ∀ b ∈ firsts key (a :: l), ¬p b = true := by
          intro b hb
          rcases List.mem_cons.mp ((firsts_sublist _).subset hb) with rfl | htail
          · exact hp
          · exact hnone b htail
        rw [List.filter_cons_of_neg hp, List.filter_eq_nil_iff.mpr hnone,
          List.filter_eq_nil_iff.mpr hfirst]
        rfl

theorem firsts_append : firsts key (l ++ l') =
    firsts key l ++ (firsts key l').filter fun b => key b ∉ l.map key := by
  induction l with
  | nil => simp [firsts]
  | cons a l ih =>
      rw [List.cons_append, firsts, ih, firsts, List.filter_append, List.filter_filter,
        List.cons_append]
      congr 2
      refine List.filter_congr fun b _ => ?_
      by_cases hkey : key b = key a
      · simp [hkey]
      · simp [hkey]

/-- More rows of a key which came already change nothing. -/
theorem firsts_cons_append {m : List α} (h : ∀ b ∈ m, key b = key a) :
    firsts key (a :: (m ++ l)) = firsts key (a :: l) := by
  rw [firsts, firsts, firsts_append, List.filter_append]
  have hnone : (firsts key m).filter (fun b => key b ≠ key a) = [] := by
    rw [List.filter_eq_nil_iff]
    intro b hb
    simp [h b ((firsts_sublist m).subset hb)]
  rw [hnone, List.nil_append, List.filter_filter]
  congr 1
  refine List.filter_congr fun b _ => ?_
  by_cases hkey : key b = key a
  · simp [hkey]
  · have hout : key b ∉ m.map key := by
      intro hmem
      obtain ⟨c, hc, hsame⟩ := List.mem_map.mp hmem
      exact hkey (hsame.symm.trans (h c hc))
    simp [hkey, hout]

theorem get_firsts (h : a ∈ firsts key l) : Keyed.get key (key a) (firsts key l) = some a :=
  (Keyed.get_eq_some_iff (nodup_firsts l)).mpr ⟨h, rfl⟩

end Firsts

section TopSum

variable [DecidableEq κ] [AddCommMonoid M] {key : α → κ} {charge : α → M} {n : ℕ} {l l' : List α}

/-- The charges of the first rows of the first `n` keys. -/
def topSum (key : α → κ) (charge : α → M) (n : ℕ) (l : List α) : M :=
  (((firsts key l).take n).map charge).sum

/-- The charge of the first row of a key. -/
def chargeOf (key : α → κ) (charge : α → M) (l : List α) (k : κ) : M :=
  (Keyed.get key k (firsts key l)).elim 0 charge

theorem chargeOf_firsts {a : α} (h : a ∈ firsts key l) :
    chargeOf key charge l (key a) = charge a := by
  rw [chargeOf, get_firsts h]
  rfl

theorem topSum_eq_chargeOf : topSum key charge n l =
    ((((firsts key l).map key).take n).map (chargeOf key charge l)).sum := by
  rw [topSum, ← List.map_take, List.map_map]
  congr 1
  refine List.map_congr_left fun a ha => ?_
  exact (chargeOf_firsts (List.mem_of_mem_take ha)).symm

variable [LinearOrder M] [IsOrderedAddMonoid M]

/-- A choice of `n` keys costs no more than another one, if no key it has alone costs more
than a key which the other one has alone. -/
theorem sum_take_le_sum_take {ks ls : List κ} {c : κ → M} (hperm : ks.Perm ls)
    (hnodup : ks.Nodup)
    (h : ∀ x ∈ ks.take n, ∀ y ∈ ls.take n, x ∉ ls.take n → y ∉ ks.take n → c x ≤ c y) :
    ((ks.take n).map c).sum ≤ ((ls.take n).map c).sum := by
  have hks : (ks.take n).Nodup := hnodup.sublist (List.take_sublist n ks)
  have hls : (ls.take n).Nodup := (hperm.nodup_iff.mp hnodup).sublist (List.take_sublist n ls)
  rw [← List.sum_toFinset _ hks, ← List.sum_toFinset _ hls]
  set A := (ks.take n).toFinset
  set B := (ls.take n).toFinset
  have hcard : A.card = B.card := by
    rw [List.toFinset_card_of_nodup hks, List.toFinset_card_of_nodup hls, List.length_take,
      List.length_take, hperm.length_eq]
  have hdiff : (A \ B).card = (B \ A).card := Finset.card_sdiff_comm hcard
  have hle : ∑ x ∈ A \ B, c x ≤ ∑ y ∈ B \ A, c y := by
    rcases (A \ B).eq_empty_or_nonempty with hempty | hnonempty
    · rw [hempty, Finset.card_empty] at hdiff
      rw [hempty, Finset.card_eq_zero.mp hdiff.symm]
    · obtain ⟨x, hx, hmax⟩ := Finset.exists_max_image (A \ B) c hnonempty
      have hbelow : ∀ y ∈ B \ A, c x ≤ c y := by
        intro y hy
        rw [Finset.mem_sdiff, List.mem_toFinset, List.mem_toFinset] at hx hy
        exact h x hx.1 y hy.1 hx.2 hy.2
      calc ∑ z ∈ A \ B, c z ≤ (A \ B).card • c x := Finset.sum_le_card_nsmul _ _ _ hmax
        _ = (B \ A).card • c x := by rw [hdiff]
        _ ≤ ∑ y ∈ B \ A, c y := Finset.card_nsmul_le_sum _ _ _ hbelow
  calc ∑ x ∈ A, c x = ∑ x ∈ A ∩ B, c x + ∑ x ∈ A \ B, c x :=
        (Finset.sum_inter_add_sum_sdiff A B c).symm
    _ ≤ ∑ x ∈ B ∩ A, c x + ∑ x ∈ B \ A, c x := by
        rw [Finset.inter_comm]
        gcongr
    _ = ∑ x ∈ B, c x := Finset.sum_inter_add_sum_sdiff B A c

end TopSum

section Order

variable [LinearOrder τ] {key : α → κ} {time : α → τ} {n : ℕ} {rows l l' : List α} {a b : α}

/-- The table is read from its newest row on. -/
def NewestFirst (time : α → τ) (l : List α) : Prop := l.Pairwise fun a b => time b ≤ time a

/-- No row of the same key is newer. -/
def IsNewest (key : α → κ) (time : α → τ) (rows : List α) (a : α) : Prop :=
  ∀ b ∈ rows, key b = key a → time b ≤ time a

theorem IsNewest.perm (hperm : l.Perm l') (h : IsNewest key time l a) : IsNewest key time l' a :=
  fun b hb => h b (hperm.mem_iff.mpr hb)

/-- Two newest rows of one key have the same time. -/
theorem IsNewest.time_eq (ha : a ∈ rows) (hb : b ∈ rows) (hkey : key a = key b)
    (hnewest : IsNewest key time rows a) (hnewest' : IsNewest key time rows b) : time a = time b :=
  le_antisymm (hnewest' a ha hkey) (hnewest b hb hkey.symm)

variable [DecidableEq κ]

/-- How many keys have a row after a time. -/
def keysAfter (key : α → κ) (time : α → τ) (rows : List α) (t : τ) : ℕ :=
  (firsts key (rows.filter fun a => t < time a)).length

/-- How many keys have a row at a time or after it. -/
def keysSince (key : α → κ) (time : α → τ) (rows : List α) (t : τ) : ℕ :=
  (firsts key (rows.filter fun a => t ≤ time a)).length

/-- Two rows of the same time which may both count for the first `n` keys, but not at once:
they are newest rows of one key, or of two keys of which only one may be left a place. -/
structure Contested (key : α → κ) (time : α → τ) (n : ℕ) (rows : List α) (a b : α) : Prop where
  newest_left : IsNewest key time rows a
  newest_right : IsNewest key time rows b
  same_time : time a = time b
  placed : keysAfter key time rows (time a) < n
  apart : key a = key b ∨ n < keysSince key time rows (time a)

/-- Contested rows have the same charge. -/
def Steady (key : α → κ) (time : α → τ) (charge : α → M) (n : ℕ) (rows : List α) : Prop :=
  ∀ a ∈ rows, ∀ b ∈ rows, Contested key time n rows a b → charge a = charge b

theorem newest_of_mem_firsts (h : NewestFirst time l) (ha : a ∈ firsts key l) :
    IsNewest key time l a := by
  induction l with
  | nil => cases ha
  | cons c l ih =>
      obtain ⟨hhead, htail⟩ := List.pairwise_cons.mp h
      intro b hb hkey
      rcases List.mem_cons.mp ha with rfl | hrest
      · rcases List.mem_cons.mp hb with rfl | hb
        · exact le_rfl
        · exact hhead b hb
      · obtain ⟨hmem, hne⟩ := List.mem_filter.mp hrest
        rcases List.mem_cons.mp hb with rfl | hb
        · exact absurd hkey.symm (of_decide_eq_true hne)
        · exact ih htail hmem b hb hkey

theorem keysAfter_perm (hperm : rows.Perm l) (t : τ) :
    keysAfter key time rows t = keysAfter key time l t :=
  length_firsts_perm (hperm.filter _)

theorem keysSince_perm (hperm : rows.Perm l) (t : τ) :
    keysSince key time rows t = keysSince key time l t :=
  length_firsts_perm (hperm.filter _)

/-- A key with a place has less than `n` keys before it. -/
theorem keysAfter_lt (h : NewestFirst time l) (ha : a ∈ (firsts key l).take n) :
    keysAfter key time l (time a) < n := by
  have hfilter : firsts key (l.filter fun b => time a < time b) =
      (firsts key l).filter fun b => time a < time b :=
    firsts_filter_of_pairwise (h.imp fun hle hlt =>
      decide_eq_true (lt_of_lt_of_le (of_decide_eq_true hlt) hle))
  have hsplit : (firsts key l).take n ++ (firsts key l).drop n = firsts key l :=
    List.take_append_drop ..
  have hsorted : NewestFirst time ((firsts key l).take n ++ (firsts key l).drop n) := by
    rw [hsplit]
    exact h.sublist (firsts_sublist l)
  have hrest : ((firsts key l).drop n).filter (fun b => time a < time b) = [] := by
    rw [List.filter_eq_nil_iff]
    intro b hb
    simpa using (List.pairwise_append.mp hsorted).2.2 a ha b hb
  have hlt : (((firsts key l).take n).filter fun b => time a < time b).length <
      ((firsts key l).take n).length := by
    refine List.length_filter_lt_length_iff_exists.mpr ⟨a, ha, ?_⟩
    simp
  rw [keysAfter, hfilter, ← hsplit, List.filter_append, hrest, List.append_nil]
  exact hlt.trans_le (List.length_take_le ..)

/-- A key without a place has `n` keys before it which are as new. -/
theorem lt_keysSince (h : NewestFirst time l) (ha : a ∈ (firsts key l).drop n) :
    n < keysSince key time l (time a) := by
  have hfilter : firsts key (l.filter fun b => time a ≤ time b) =
      (firsts key l).filter fun b => time a ≤ time b :=
    firsts_filter_of_pairwise (h.imp fun hle hlt =>
      decide_eq_true (le_trans (of_decide_eq_true hlt) hle))
  have hsplit : (firsts key l).take n ++ (firsts key l).drop n = firsts key l :=
    List.take_append_drop ..
  have hsorted : NewestFirst time ((firsts key l).take n ++ (firsts key l).drop n) := by
    rw [hsplit]
    exact h.sublist (firsts_sublist l)
  have hall : ((firsts key l).take n).filter (fun b => time a ≤ time b) =
      (firsts key l).take n := by
    rw [List.filter_eq_self]
    intro b hb
    simpa using (List.pairwise_append.mp hsorted).2.2 b hb a ha
  have hpos : 0 < (((firsts key l).drop n).filter fun b => time a ≤ time b).length :=
    List.length_pos_of_mem (List.mem_filter.mpr ⟨ha, by simp⟩)
  have hdrop := List.length_pos_of_mem ha
  rw [List.length_drop] at hdrop
  rw [keysSince, hfilter, ← hsplit, List.filter_append, hall, List.length_append,
    List.length_take]
  omega

end Order

section Bounds

variable [DecidableEq κ] [LinearOrder τ] [AddCommMonoid M] [LinearOrder M] [IsOrderedAddMonoid M]
  {key : α → κ} {time : α → τ} {charge : α → M} {n : ℕ} {rows l l' : List α} {a b : α}

omit [LinearOrder τ] [AddCommMonoid M] [LinearOrder M] [IsOrderedAddMonoid M] in
/-- A key without a place is one of those after the first `n`. -/
theorem exists_mem_drop {k : κ} (hmem : k ∈ (firsts key l).map key)
    (hout : k ∉ ((firsts key l).map key).take n) : ∃ a ∈ (firsts key l).drop n, key a = k := by
  rw [← List.take_append_drop n ((firsts key l).map key), List.mem_append] at hmem
  have hdrop := hmem.resolve_left hout
  rw [← List.map_drop] at hdrop
  exact List.mem_map.mp hdrop

omit [AddCommMonoid M] [LinearOrder M] [IsOrderedAddMonoid M] in
theorem NewestFirst.firsts_le (h : NewestFirst time l) (ha : a ∈ (firsts key l).take n)
    (hb : b ∈ (firsts key l).drop n) : time b ≤ time a := by
  have hsorted : NewestFirst time ((firsts key l).take n ++ (firsts key l).drop n) := by
    rw [List.take_append_drop]
    exact h.sublist (firsts_sublist l)
  exact (List.pairwise_append.mp hsorted).2.2 a ha b hb

/-- One reading sums to at most another, if no first row costs more than the row counted for
its key by the other, and none which counts costs more than one of its time which does not. -/
theorem topSum_le_topSum (hperm : l.Perm l') (hl : NewestFirst time l) (hl' : NewestFirst time l')
    (hsame : ∀ a ∈ firsts key l, ∀ b ∈ (firsts key l').take n, key a = key b → charge a ≤ charge b)
    (htied : ∀ a ∈ (firsts key l).take n, ∀ b ∈ (firsts key l).drop n, time a = time b →
      charge a ≤ charge b) : topSum key charge n l ≤ topSum key charge n l' := by
  have hkeys : ((firsts key l).map key).Perm ((firsts key l').map key) := map_firsts_perm hperm
  have htimes : ∀ a ∈ firsts key l, ∀ b ∈ firsts key l', key a = key b → time a = time b := by
    intro a ha b hb hkey
    have hb' : b ∈ l := hperm.mem_iff.mpr ((firsts_sublist l').subset hb)
    exact IsNewest.time_eq ((firsts_sublist l).subset ha) hb' hkey (newest_of_mem_firsts hl ha)
      ((newest_of_mem_firsts hl' hb).perm hperm.symm)
  have hchoice : ((((firsts key l).map key).take n).map (chargeOf key charge l)).sum ≤
      ((((firsts key l').map key).take n).map (chargeOf key charge l)).sum := by
    refine sum_take_le_sum_take hkeys (nodup_firsts l) fun x hx y hy hxout hyout => ?_
    have hxmem := hkeys.mem_iff.mp (List.mem_of_mem_take hx)
    have hymem := hkeys.mem_iff.mpr (List.mem_of_mem_take hy)
    rw [← List.map_take] at hx hy
    obtain ⟨a, ha, rfl⟩ := List.mem_map.mp hx
    obtain ⟨b, hb, rfl⟩ := List.mem_map.mp hy
    obtain ⟨a', ha', hkeya⟩ := exists_mem_drop hxmem hxout
    obtain ⟨b', hb', hkeyb⟩ := exists_mem_drop hymem hyout
    have hfirst := List.mem_of_mem_take ha
    have hfirst' := List.mem_of_mem_drop hb'
    have htimea := htimes a hfirst a' (List.mem_of_mem_drop ha') hkeya.symm
    have htimeb := htimes b' hfirst' b (List.mem_of_mem_take hb) hkeyb
    have hle : time a ≤ time b' := by
      rw [htimea, htimeb]
      exact hl'.firsts_le hb ha'
    rw [← hkeyb, chargeOf_firsts hfirst, chargeOf_firsts hfirst']
    exact htied a ha b' hb' (le_antisymm hle (hl.firsts_le ha hb'))
  have hcharges : ((((firsts key l').map key).take n).map (chargeOf key charge l)).sum ≤
      ((((firsts key l').map key).take n).map (chargeOf key charge l')).sum := by
    refine List.sum_le_sum fun k hk => ?_
    rw [← List.map_take] at hk
    obtain ⟨b, hb, rfl⟩ := List.mem_map.mp hk
    have hb' := List.mem_of_mem_take hb
    obtain ⟨a, ha, hkey⟩ := List.mem_map.mp (hkeys.mem_iff.mpr (List.mem_map_of_mem hb'))
    rw [chargeOf_firsts hb', ← hkey, chargeOf_firsts ha]
    exact hsame a ha b hb hkey
  rw [topSum_eq_chargeOf, topSum_eq_chargeOf]
  exact hchoice.trans hcharges

/-- Steady tables have one sum. -/
theorem Steady.topSum_eq (h : Steady key time charge n rows) (hperm : rows.Perm l)
    (hperm' : rows.Perm l') (hl : NewestFirst time l) (hl' : NewestFirst time l') :
    topSum key charge n l = topSum key charge n l' := by
  have hle : ∀ {m m' : List α}, rows.Perm m → rows.Perm m' → NewestFirst time m →
      NewestFirst time m' → topSum key charge n m ≤ topSum key charge n m' := by
    intro m m' hm hm' hfirst hfirst'
    have hrow : ∀ {c : α}, c ∈ firsts key m → c ∈ rows ∧ IsNewest key time rows c := fun hc =>
      ⟨hm.mem_iff.mpr ((firsts_sublist m).subset hc), (newest_of_mem_firsts hfirst hc).perm hm.symm⟩
    have hrow' : ∀ {c : α}, c ∈ firsts key m' → c ∈ rows ∧ IsNewest key time rows c := fun hc =>
      ⟨hm'.mem_iff.mpr ((firsts_sublist m').subset hc),
        (newest_of_mem_firsts hfirst' hc).perm hm'.symm⟩
    refine topSum_le_topSum (hm.symm.trans hm') hfirst hfirst' (fun a ha b hb hkey => ?_)
      fun a ha b hb htime => ?_
    · obtain ⟨hamem, hanew⟩ := hrow ha
      obtain ⟨hbmem, hbnew⟩ := hrow' (List.mem_of_mem_take hb)
      have htime := IsNewest.time_eq hamem hbmem hkey hanew hbnew
      have hplace := keysAfter_lt hfirst' hb
      rw [← keysAfter_perm hm', ← htime] at hplace
      exact (h a hamem b hbmem ⟨hanew, hbnew, htime, hplace, .inl hkey⟩).le
    · obtain ⟨hamem, hanew⟩ := hrow (List.mem_of_mem_take ha)
      obtain ⟨hbmem, hbnew⟩ := hrow (List.mem_of_mem_drop hb)
      have hplace := keysAfter_lt hfirst ha
      have hcrowd := lt_keysSince hfirst hb
      rw [← keysAfter_perm hm] at hplace
      rw [← keysSince_perm hm, ← htime] at hcrowd
      exact (h a hamem b hbmem ⟨hanew, hbnew, htime, hplace, .inr hcrowd⟩).le
  exact le_antisymm (hle hperm hperm' hl hl') (hle hperm' hperm hl' hl)

/-- The newer row first, and of two rows of one time the one with the smaller charge. -/
def LeastLe (time : α → τ) (charge : α → M) (a b : α) : Prop :=
  time b < time a ∨ time a = time b ∧ charge a ≤ charge b

instance : DecidableRel (LeastLe time charge) := fun _ _ => inferInstanceAs (Decidable (_ ∨ _))

omit [AddCommMonoid M] [IsOrderedAddMonoid M] in
theorem LeastLe.time_le (h : LeastLe time charge a b) : time b ≤ time a :=
  h.elim le_of_lt fun hsame => hsame.1.ge

/-- The table with ties broken towards the smaller charge. -/
def leastFirst (time : α → τ) (charge : α → M) (rows : List α) : List α :=
  rows.insertionSort (LeastLe time charge)

omit [AddCommMonoid M] [IsOrderedAddMonoid M] in
theorem pairwise_leastFirst : (leastFirst time charge rows).Pairwise (LeastLe time charge) := by
  have : Std.Total (LeastLe time charge) := ⟨fun a b => by
    rcases lt_trichotomy (time a) (time b) with hlt | heq | hgt
    · exact .inr (.inl hlt)
    · rcases le_total (charge a) (charge b) with hle | hge
      · exact .inl (.inr ⟨heq, hle⟩)
      · exact .inr (.inr ⟨heq.symm, hge⟩)
    · exact .inl (.inl hgt)⟩
  have : IsTrans α (LeastLe time charge) := ⟨fun a b c hab hbc => by
    rcases hab with hlt | ⟨heq, hle⟩
    · exact .inl (lt_of_le_of_lt hbc.time_le hlt)
    · rcases hbc with hlt' | ⟨heq', hle'⟩
      · exact .inl (heq ▸ hlt')
      · exact .inr ⟨heq.trans heq', hle.trans hle'⟩⟩
  exact List.pairwise_insertionSort ..

omit [AddCommMonoid M] [IsOrderedAddMonoid M] in
theorem newestFirst_leastFirst : NewestFirst time (leastFirst time charge rows) :=
  pairwise_leastFirst.imp LeastLe.time_le

omit [AddCommMonoid M] [IsOrderedAddMonoid M] in
theorem leastFirst_perm : (leastFirst time charge rows).Perm rows := List.perm_insertionSort ..

/-- The sum with ties broken towards the smaller charge. -/
def leastSum (key : α → κ) (time : α → τ) (charge : α → M) (n : ℕ) (rows : List α) : M :=
  topSum key charge n (leastFirst time charge rows)

omit [AddCommMonoid M] [IsOrderedAddMonoid M] in
/-- The first row of a key comes before all others of it. -/
theorem firsts_leastLe {m : List α} (h : m.Pairwise (LeastLe time charge))
    (ha : a ∈ firsts key m) (hb : b ∈ m) (hkey : key a = key b) :
    a = b ∨ LeastLe time charge a b := by
  induction m with
  | nil => cases hb
  | cons c m ih =>
      obtain ⟨hhead, htail⟩ := List.pairwise_cons.mp h
      rcases List.mem_cons.mp ha with rfl | hrest
      · rcases List.mem_cons.mp hb with rfl | hb
        · exact .inl rfl
        · exact .inr (hhead b hb)
      · obtain ⟨hmem, hne⟩ := List.mem_filter.mp hrest
        rcases List.mem_cons.mp hb with rfl | hb
        · exact absurd hkey (of_decide_eq_true hne)
        · exact ih htail hmem hb

theorem leastSum_le (hperm : rows.Perm l) (hl : NewestFirst time l) :
    leastSum key time charge n rows ≤ topSum key charge n l := by
  have hsorted : (leastFirst time charge rows).Pairwise (LeastLe time charge) :=
    pairwise_leastFirst
  have hfirst : NewestFirst time (leastFirst time charge rows) := newestFirst_leastFirst
  have hperm' : (leastFirst time charge rows).Perm l := leastFirst_perm.trans hperm
  refine topSum_le_topSum hperm' hfirst hl (fun a ha b hb hkey => ?_) fun a ha b hb htime => ?_
  · have hb' : b ∈ leastFirst time charge rows :=
      hperm'.mem_iff.mpr ((firsts_sublist l).subset (List.mem_of_mem_take hb))
    have hnewest := (newest_of_mem_firsts hl (List.mem_of_mem_take hb)).perm hperm'.symm
    rcases firsts_leastLe hsorted ha hb' hkey with rfl | hlt | ⟨-, hle⟩
    · exact le_rfl
    · exact absurd (hnewest a ((firsts_sublist _).subset ha) hkey) (not_le.mpr hlt)
    · exact hle
  · have hsplit : ((firsts key (leastFirst time charge rows)).take n ++
        (firsts key (leastFirst time charge rows)).drop n).Pairwise (LeastLe time charge) := by
      rw [List.take_append_drop]
      exact hsorted.sublist (firsts_sublist _)
    rcases (List.pairwise_append.mp hsplit).2.2 a ha b hb with hlt | ⟨-, hle⟩
    · exact absurd htime hlt.ne'
    · exact hle

end Bounds

section Readings

variable [LinearOrder τ] {key : α → κ} {time : α → τ} {n : ℕ} {rows l z r m : List α} {a b : α}
  {t : τ}

/-- The table in its order. -/
def sorted (time : α → τ) (l : List α) : List α := l.insertionSort fun a b => time b ≤ time a

theorem newestFirst_sorted : NewestFirst time (sorted time l) := by
  have : Std.Total fun a b : α => time b ≤ time a := ⟨fun a b => le_total (time b) (time a)⟩
  have : IsTrans α fun a b => time b ≤ time a := ⟨fun a b c hab hbc => hbc.trans hab⟩
  exact List.pairwise_insertionSort ..

theorem sorted_perm : (sorted time l).Perm l := List.perm_insertionSort ..

theorem sorted_eq_self (h : NewestFirst time l) : sorted time l = l := h.insertionSort_eq

/-- A row goes in front of the rows which are not newer. -/
theorem orderedInsert_of_forall {s : List α} (h : ∀ b ∈ s, time b ≤ time a) :
    s.orderedInsert (fun a b => time b ≤ time a) a = a :: s := by
  cases s with
  | nil => rfl
  | cons b s => exact if_pos (h b List.mem_cons_self)

theorem filter_orderedInsert (p : α → Bool) {s : List α} (hs : NewestFirst time s) :
    (s.orderedInsert (fun a b => time b ≤ time a) a).filter p =
      if p a then (s.filter p).orderedInsert (fun a b => time b ≤ time a) a else s.filter p := by
  induction s with
  | nil =>
      rw [List.orderedInsert, List.filter_cons]
      rfl
  | cons b s ih =>
      obtain ⟨hhead, htail⟩ := List.pairwise_cons.mp hs
      rw [List.orderedInsert]
      by_cases hle : time b ≤ time a
      · rw [if_pos hle, List.filter_cons]
        split
        · rw [orderedInsert_of_forall]
          intro c hc
          rcases List.mem_cons.mp (List.mem_of_mem_filter hc) with rfl | hc
          · exact hle
          · exact (hhead c hc).trans hle
        · rfl
      · rw [if_neg hle, List.filter_cons, ih htail, List.filter_cons]
        by_cases hb : p b = true
        · rw [if_pos hb, if_pos hb, List.orderedInsert, if_neg hle]
          split <;> rfl
        · rw [if_neg hb, if_neg hb]

/-- Rows can be left out before the table is put in its order or after it. -/
theorem filter_sorted (p : α → Bool) : (sorted time l).filter p = sorted time (l.filter p) := by
  induction l with
  | nil => rfl
  | cons a l ih =>
      have hcons : sorted time (a :: l) =
          (sorted time l).orderedInsert (fun a b => time b ≤ time a) a := rfl
      rw [hcons, filter_orderedInsert p newestFirst_sorted, ih, List.filter_cons]
      split <;> rfl

/-- The rows before and after a time in their order, and in between those of the time as given. -/
def reading (time : α → τ) (rows : List α) (t : τ) (z : List α) : List α :=
  sorted time (rows.filter fun a => t < time a) ++
    (z ++ sorted time (rows.filter fun a => time a < t))

theorem newestFirst_reading (hz : ∀ a ∈ z, time a = t) :
    NewestFirst time (reading time rows t z) := by
  refine List.pairwise_append.mpr ⟨newestFirst_sorted, List.pairwise_append.mpr
    ⟨List.pairwise_of_forall_mem_list fun a ha b hb => ?_, newestFirst_sorted, ?_⟩, ?_⟩
  · rw [hz a ha, hz b hb]
  · intro a ha b hb
    have hbefore := of_decide_eq_true (List.mem_filter.mp (sorted_perm.mem_iff.mp hb)).2
    exact hz a ha ▸ hbefore.le
  · intro a ha b hb
    have hafter := of_decide_eq_true (List.mem_filter.mp (sorted_perm.mem_iff.mp ha)).2
    rcases List.mem_append.mp hb with hmid | hold
    · exact hz b hmid ▸ hafter.le
    · have hbefore := of_decide_eq_true (List.mem_filter.mp (sorted_perm.mem_iff.mp hold)).2
      exact (hbefore.trans hafter).le

/-- The rows since a time are those after it and those of the time. -/
theorem perm_since (hz : z.Perm (rows.filter fun a => time a = t)) :
    (rows.filter fun a => t ≤ time a).Perm
      (sorted time (rows.filter fun a => t < time a) ++ z) := by
  have hsplit := List.filter_append_perm (fun a => t < time a) (rows.filter fun a => t ≤ time a)
  rw [List.filter_filter, List.filter_filter] at hsplit
  have hafter : rows.filter (fun a => decide (t < time a) && decide (t ≤ time a)) =
      rows.filter fun a => t < time a :=
    List.filter_congr fun a _ => by simpa using le_of_lt
  have hequal : rows.filter (fun a => !decide (t < time a) && decide (t ≤ time a)) =
      rows.filter fun a => time a = t :=
    List.filter_congr fun a _ => by
      rw [Bool.eq_iff_iff, Bool.and_eq_true, Bool.not_eq_true', decide_eq_false_iff_not,
        decide_eq_true_eq, decide_eq_true_eq, not_lt]
      exact le_antisymm_iff.symm
  rw [hafter, hequal] at hsplit
  exact hsplit.symm.trans (sorted_perm.symm.append hz.symm)

theorem perm_reading (hz : z.Perm (rows.filter fun a => time a = t)) :
    rows.Perm (reading time rows t z) := by
  have hsplit := List.filter_append_perm (fun a => t ≤ time a) rows
  have hbefore : rows.filter (fun a => !decide (t ≤ time a)) =
      rows.filter fun a => time a < t :=
    List.filter_congr fun a _ => by
      rw [Bool.eq_iff_iff, Bool.not_eq_true', decide_eq_false_iff_not, decide_eq_true_eq, not_le]
  rw [hbefore] at hsplit
  rw [reading, ← List.append_assoc]
  exact hsplit.symm.trans ((perm_since hz).append sorted_perm.symm)

/-- The newest rows of a key have no place among those after them. -/
theorem IsNewest.not_mem_after (h : IsNewest key time rows a) :
    key a ∉ (sorted time (rows.filter fun b => time a < time b)).map key := by
  intro hmem
  obtain ⟨b, hb, hkey⟩ := List.mem_map.mp hmem
  obtain ⟨hrow, hafter⟩ := List.mem_filter.mp (sorted_perm.mem_iff.mp hb)
  exact absurd (h b hrow hkey) (not_le.mpr (of_decide_eq_true hafter))

variable [DecidableEq κ]

/-- The rows of one time and key, with a given one in front. -/
theorem exists_block (key : α → κ) (time : α → τ) (ha : a ∈ rows) (htime : time a = t) :
    ∃ m, (a :: m).Perm ((rows.filter fun c => time c = t).filter fun c => key c = key a) ∧
      ∀ c ∈ m, key c = key a := by
  have hmem : a ∈ (rows.filter fun c => time c = t).filter fun c => key c = key a := by
    simp [ha, htime]
  obtain ⟨u, v, huv⟩ := List.append_of_mem hmem
  refine ⟨u ++ v, ?_, fun c hc => ?_⟩
  · rw [huv]
    exact List.perm_middle.symm
  · have hc' : c ∈ (rows.filter fun c => time c = t).filter fun c => key c = key a := by
      rw [huv]
      rcases List.mem_append.mp hc with hu | hv
      · exact List.mem_append_left _ hu
      · exact List.mem_append_right _ (List.mem_cons_of_mem _ hv)
    exact of_decide_eq_true (List.mem_filter.mp hc').2

/-- What comes after a new key. -/
def afterBlock (key : α → κ) (x : List α) (k : κ) (l : List α) : List α :=
  ((firsts key l).filter fun b => key b ≠ k).filter fun b => key b ∉ x.map key

theorem firsts_block {x : List α} (hm : ∀ c ∈ m, key c = key a) (ha : key a ∉ x.map key) :
    firsts key (x ++ a :: (m ++ l)) = firsts key x ++ a :: afterBlock key x (key a) l := by
  rw [firsts_append, firsts_cons_append hm, firsts, List.filter_cons, if_pos (by simpa using ha)]
  rfl

theorem length_firsts_after :
    (firsts key (sorted time (rows.filter fun b => t < time b))).length =
      keysAfter key time rows t :=
  length_firsts_perm sorted_perm

end Readings

section Contest

variable [DecidableEq κ] [LinearOrder τ] [AddCommGroup M] {key : α → κ} {time : α → τ}
  {charge : α → M} {n : ℕ} {rows l m m' r : List α} {a b : α}

/-- The sum of a reading which starts its time with a given row. -/
theorem topSum_block {x : List α} (hm : ∀ c ∈ m, key c = key a) (ha : key a ∉ x.map key)
    (hplace : (firsts key x).length < n) : topSum key charge n (x ++ a :: (m ++ l)) =
      ((firsts key x).map charge).sum + (charge a +
        (((afterBlock key x (key a) l).take (n - (firsts key x).length - 1)).map charge).sum) := by
  obtain ⟨p, hp⟩ := Nat.exists_eq_add_of_lt hplace
  rw [topSum, firsts_block hm ha, List.take_append, List.take_of_length_le hplace.le,
    List.map_append, List.sum_append]
  have hleft : n - (firsts key x).length = p + 1 := by omega
  rw [hleft, List.take_succ_cons, List.map_cons, List.sum_cons, Nat.add_sub_cancel]

/-- Two newest rows of one key, each of them first of its time. -/
theorem topSum_ne_of_same (ha : a ∈ rows) (hb : b ∈ rows) (hkey : key a = key b)
    (h : Contested key time n rows a b) (hne : charge a ≠ charge b) :
    ∃ l l', rows.Perm l ∧ rows.Perm l' ∧ NewestFirst time l ∧ NewestFirst time l' ∧
      topSum key charge n l ≠ topSum key charge n l' := by
  obtain ⟨m, hm, hmkey⟩ := exists_block key time ha rfl
  obtain ⟨m', hm', hmkey'⟩ := exists_block key time hb h.same_time.symm
  set z := rows.filter fun c => time c = time a
  set r := z.filter fun c => !decide (key c = key a)
  have hsplit : ((z.filter fun c => key c = key a) ++ r).Perm z := List.filter_append_perm ..
  have hz : (a :: (m ++ r)).Perm z := (hm.append_right r).trans hsplit
  have hz' : (b :: (m' ++ r)).Perm z := by
    rw [← hkey] at hm'
    exact (hm'.append_right r).trans hsplit
  have htime : ∀ {y : List α}, y.Perm z → ∀ c ∈ y, time c = time a := fun hy c hc =>
    of_decide_eq_true (List.mem_filter.mp (hy.mem_iff.mp hc)).2
  refine ⟨_, _, perm_reading hz, perm_reading hz', newestFirst_reading (htime hz),
    newestFirst_reading (htime hz'), fun heq => hne ?_⟩
  have hout := h.newest_left.not_mem_after
  have hplace := h.placed
  rw [← length_firsts_after] at hplace
  rw [reading, reading, List.cons_append, List.cons_append, List.append_assoc, List.append_assoc,
    topSum_block hmkey hout hplace, topSum_block hmkey' (hkey ▸ hout) hplace, ← hkey] at heq
  exact add_right_cancel (add_left_cancel heq)

theorem afterBlock_append {x : List α} {k : κ} (hr : ∀ c ∈ r, key c ≠ k) :
    ∃ w, afterBlock key x k (r ++ l) =
        ((firsts key r).filter fun b => key b ∉ x.map key) ++ w ∧
      w.length ≤ (firsts key l).length := by
  have hself : (firsts key r).filter (fun b => key b ≠ k) = firsts key r :=
    List.filter_eq_self.mpr fun c hc => decide_eq_true (hr c ((firsts_sublist r).subset hc))
  rw [afterBlock, firsts_append, List.filter_append, List.filter_append, hself]
  exact ⟨_, rfl, (List.length_filter_le ..).trans
    ((List.length_filter_le ..).trans (List.length_filter_le ..))⟩

/-- Newest rows of two keys, each of them first of its time and the other one last. -/
theorem topSum_ne_of_crowded (ha : a ∈ rows) (hb : b ∈ rows) (hkey : key a ≠ key b)
    (h : Contested key time n rows a b) (hcrowd : n < keysSince key time rows (time a))
    (hne : charge a ≠ charge b) :
    ∃ l l', rows.Perm l ∧ rows.Perm l' ∧ NewestFirst time l ∧ NewestFirst time l' ∧
      topSum key charge n l ≠ topSum key charge n l' := by
  obtain ⟨m, hm, hmkey⟩ := exists_block key time ha rfl
  obtain ⟨m', hm', hmkey'⟩ := exists_block key time hb h.same_time.symm
  set z := rows.filter fun c => time c = time a
  set y := z.filter fun c => !decide (key c = key a)
  set r := y.filter fun c => !decide (key c = key b)
  have hsplit : ((z.filter fun c => key c = key a) ++ y).Perm z := List.filter_append_perm ..
  have hrest : ((y.filter fun c => key c = key b) ++ r).Perm y := List.filter_append_perm ..
  have hblock : y.filter (fun c => key c = key b) = z.filter fun c => key c = key b := by
    rw [List.filter_filter]
    refine List.filter_congr fun c _ => ?_
    by_cases hc : key c = key b
    · simp [hc, hkey.symm]
    · simp [hc]
  rw [hblock] at hrest
  have hparts : ((a :: m) ++ (r ++ (b :: m'))).Perm z :=
    (hm.append (List.perm_append_comm.trans ((hm'.append_right r).trans hrest))).trans hsplit
  have hparts' : ((b :: m') ++ (r ++ (a :: m))).Perm z :=
    (List.perm_append_comm_assoc ..).trans
      ((List.perm_append_comm.append_left r |>.trans (List.perm_append_comm_assoc ..)).trans hparts)
  have htime : ∀ {u : List α}, u.Perm z → ∀ c ∈ u, time c = time a := fun hu c hc =>
    of_decide_eq_true (List.mem_filter.mp (hu.mem_iff.mp hc)).2
  refine ⟨_, _, perm_reading hparts, perm_reading hparts', newestFirst_reading (htime hparts),
    newestFirst_reading (htime hparts'), fun heq => hne ?_⟩
  have hout := h.newest_left.not_mem_after
  have hout' := h.newest_right.not_mem_after
  rw [← h.same_time] at hout'
  have hplace := h.placed
  rw [← length_firsts_after] at hplace
  set x := sorted time (rows.filter fun b => time a < time b)
  have hra : ∀ c ∈ r, key c ≠ key a := fun c hc heq => by
    simpa [heq] using (List.mem_filter.mp (List.mem_of_mem_filter hc)).2
  have hrb : ∀ c ∈ r, key c ≠ key b := fun c hc heq => by
    simpa [heq] using (List.mem_filter.mp hc).2
  -- the keys in between fill all the places which the first row leaves
  have hfill : n - (firsts key x).length - 1 ≤
      ((firsts key r).filter fun c => key c ∉ x.map key).length := by
    obtain ⟨w, hw, hlength⟩ := afterBlock_append (x := x) (l := b :: m') hra
    have hone : (firsts key (b :: m')).length = 1 := by
      have hblock' : firsts key (b :: (m' ++ [])) = firsts key [b] := firsts_cons_append hmkey'
      rw [List.append_nil] at hblock'
      rw [hblock']
      rfl
    have hsince : keysSince key time rows (time a) =
        (firsts key (x ++ a :: (m ++ (r ++ b :: m')))).length :=
      length_firsts_perm (perm_since hparts)
    rw [firsts_block hmkey hout, hw, List.length_append, List.length_cons,
      List.length_append] at hsince
    omega
  obtain ⟨w, hw, -⟩ := afterBlock_append (x := x)
    (l := b :: (m' ++ sorted time (rows.filter fun c => time c < time a))) hra
  obtain ⟨w', hw', -⟩ := afterBlock_append (x := x)
    (l := a :: (m ++ sorted time (rows.filter fun c => time c < time a))) hrb
  simp only [reading, List.cons_append, List.append_assoc] at heq
  rw [topSum_block hmkey hout hplace, topSum_block hmkey' hout' hplace, hw, hw',
    List.take_append_of_le_length hfill, List.take_append_of_le_length hfill] at heq
  exact add_right_cancel (add_left_cancel heq)

/-- A table has one sum in every reading just when its contested rows have the same charge. -/
theorem steady_iff [LinearOrder M] [IsOrderedAddMonoid M] :
    Steady key time charge n rows ↔ ∀ l l', rows.Perm l → rows.Perm l' → NewestFirst time l →
      NewestFirst time l' → topSum key charge n l = topSum key charge n l' := by
  refine ⟨fun h l l' hperm hperm' => h.topSum_eq hperm hperm', fun h a ha b hb hcontest => ?_⟩
  by_contra hne
  obtain ⟨l, l', hperm, hperm', hl, hl', hdiffer⟩ : ∃ l l', rows.Perm l ∧ rows.Perm l' ∧
      NewestFirst time l ∧ NewestFirst time l' ∧
        topSum key charge n l ≠ topSum key charge n l' := by
    by_cases hkey : key a = key b
    · exact topSum_ne_of_same ha hb hkey hcontest hne
    · exact topSum_ne_of_crowded ha hb hkey hcontest (hcontest.apart.resolve_left hkey) hne
  exact hdiffer (h l l' hperm hperm' hl hl')

end Contest

end Newest
