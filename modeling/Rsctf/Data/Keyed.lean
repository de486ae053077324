import Mathlib.Data.List.Dedup
import Mathlib.Data.List.MinMax
import Mathlib.Data.List.Nodup
import Mathlib.Data.List.Sort

/-!
# Keyed lists

A table is a list of rows together with a key of every row.  Collecting a table
into a map keeps the last row of every key; iterating over the map in key order
is iterating over the sorted distinct keys.  When the keys are distinct, a
lookup is determined by membership alone, so it does not see the order of the
rows.
-/

namespace Keyed

variable {α κ : Type*} [DecidableEq κ]

/-- The row collected under a key: the last one of the table with that key. -/
def get (key : α → κ) (k : κ) (l : List α) : Option α :=
  l.reverse.find? fun a => key a = k

@[simp] theorem get_nil (key : α → κ) (k : κ) : get key k [] = none := rfl

theorem get_append (key : α → κ) (k : κ) (l₁ l₂ : List α) :
    get key k (l₁ ++ l₂) = (get key k l₂).or (get key k l₁) := by
  simp [get]

theorem mem_of_get {key : α → κ} {k : κ} {l : List α} {a : α}
    (h : get key k l = some a) : a ∈ l ∧ key a = k := by
  have hmem := List.mem_of_find?_eq_some h
  have hkey := List.find?_some h
  exact ⟨List.mem_reverse.mp hmem, by simpa using hkey⟩

theorem get_eq_none_iff {key : α → κ} {k : κ} {l : List α} :
    get key k l = none ↔ ∀ a ∈ l, key a ≠ k := by
  simp [get]

theorem get_eq_some_iff {key : α → κ} {l : List α} (hnd : (l.map key).Nodup)
    {k : κ} {a : α} :
    get key k l = some a ↔ a ∈ l ∧ key a = k := by
  refine ⟨mem_of_get, ?_⟩
  rintro ⟨ha, hk⟩
  cases hget : get key k l with
  | none => exact absurd hk (get_eq_none_iff.mp hget a ha)
  | some b =>
      obtain ⟨hb, hkb⟩ := mem_of_get hget
      rw [List.inj_on_of_nodup_map hnd hb ha (hkb.trans hk.symm)]

/-- A lookup in a table with distinct keys depends only on its rows. -/
theorem get_perm {key : α → κ} {l₁ l₂ : List α} (h : l₁.Perm l₂)
    (hnd : (l₁.map key).Nodup) (k : κ) :
    get key k l₁ = get key k l₂ := by
  have hnd₂ : (l₂.map key).Nodup := (h.map key).nodup_iff.mp hnd
  refine Option.ext fun a => ?_
  rw [get_eq_some_iff hnd, get_eq_some_iff hnd₂, h.mem_iff]

theorem get_congr {κ' : Type*} [DecidableEq κ'] {key : α → κ} {key' : α → κ'} {k : κ}
    {k' : κ'} {l : List α} (h : ∀ a ∈ l, key a = k ↔ key' a = k') :
    get key k l = get key' k' l := by
  unfold get
  induction l with
  | nil => rfl
  | cons a l ih =>
      rw [List.reverse_cons, List.find?_append, List.find?_append,
        ih fun b hb => h b (List.mem_cons_of_mem a hb)]
      simp [List.find?_cons, h a List.mem_cons_self]

/-- A lookup in a table made of blocks only sees the block which has the key. -/
theorem get_flatMap {β : Type*} {key : α → κ} {k : κ} {f : β → List α} {l₁ l₂ : List β} {b : β}
    (h : ∀ c ∈ l₁ ++ l₂, ∀ a ∈ f c, key a ≠ k) :
    get key k ((l₁ ++ b :: l₂).flatMap f) = get key k (f b) := by
  have hnone : ∀ l : List β, (∀ c ∈ l, c ∈ l₁ ++ l₂) → get key k (l.flatMap f) = none := by
    intro l hl
    rw [get_eq_none_iff]
    intro a ha
    obtain ⟨c, hc, hac⟩ := List.mem_flatMap.mp ha
    exact h c (hl c hc) a hac
  rw [List.flatMap_append, List.flatMap_cons, get_append, get_append,
    hnone l₁ fun c hc => by simp [hc], hnone l₂ fun c hc => by simp [hc]]
  simp

theorem find?_eq_some_of_unique {p : α → Bool} {l : List α} {a : α} (ha : a ∈ l)
    (hp : p a = true) (hunique : ∀ b ∈ l, p b = true → b = a) : l.find? p = some a := by
  cases hfind : l.find? p with
  | none => exact absurd hp (List.find?_eq_none.mp hfind a ha)
  | some b =>
      rw [hunique b (List.mem_of_find?_eq_some hfind) (List.find?_some hfind)]

theorem get_filter {key : α → κ} {k : κ} {p : α → Bool} {l : List α}
    (h : ∀ a ∈ l, key a = k → p a = true) : get key k (l.filter p) = get key k l := by
  induction l using List.reverseRecOn with
  | nil => rfl
  | append_singleton l a ih =>
      have ih := ih fun b hb => h b (List.mem_append_left _ hb)
      have ha := h a (by simp)
      by_cases hk : key a = k
      · simp [get, List.filter_append, ha hk, hk]
      · rw [List.filter_append, get_append, get_append, ih]
        have hone : get key k ([a].filter p) = none :=
          get_eq_none_iff.mpr fun b hb => by simpa [List.mem_singleton.mp (List.mem_of_mem_filter hb)]
        have hone' : get key k [a] = none := get_eq_none_iff.mpr (by simpa using hk)
        rw [hone, hone']

theorem get_map {β : Type*} (key : β → κ) (f : α → β) (k : κ) (l : List α) :
    get key k (l.map f) = (get (key ∘ f) k l).map f := by
  rw [get, ← List.map_reverse, List.find?_map]
  rfl

/-- A lookup in the graph of a function. -/
theorem get_graph {β : Type*} (f : κ → β) {k : κ} {ks : List κ} (hk : k ∈ ks) :
    get Prod.fst k (ks.map fun k => (k, f k)) = some (k, f k) := by
  have hget : get id k ks = some k := by
    cases h : get id k ks with
    | none => exact absurd rfl (get_eq_none_iff.mp h k hk)
    | some k' => rw [← (mem_of_get h).2, id]
  rw [get_map]
  exact congrArg (Option.map _) hget

/-- Whether a row with a key satisfies a condition, when the keys decide the condition. -/
theorem any_key_eq {key : α → κ} {p : α → Bool} {q : κ → Bool} {l : List α}
    (h : ∀ a ∈ l, p a = q (key a)) {k : κ} (hk : k ∈ l.map key) :
    (l.any fun a => p a && decide (key a = k)) = q k := by
  obtain ⟨a, ha, rfl⟩ := List.mem_map.mp hk
  rw [Bool.eq_iff_iff, List.any_eq_true]
  constructor
  · rintro ⟨b, hb, hcond⟩
    rw [Bool.and_eq_true, decide_eq_true_eq, h b hb] at hcond
    exact hcond.2 ▸ hcond.1
  · intro hq
    exact ⟨a, ha, by rw [h a ha, hq, decide_eq_true rfl]; rfl⟩

/-- The rows of a table with a given key, in table order. -/
def rows (key : α → κ) (k : κ) (l : List α) : List α :=
  l.filter fun a => key a = k

@[simp] theorem mem_rows {key : α → κ} {k : κ} {l : List α} {a : α} :
    a ∈ rows key k l ↔ a ∈ l ∧ key a = k := by
  simp [rows]

theorem rows_ne_nil {key : α → κ} {l : List α} {a : α} (h : a ∈ l) :
    rows key (key a) l ≠ [] :=
  List.ne_nil_of_mem (mem_rows.mpr ⟨h, rfl⟩)

@[simp] theorem rows_nil (key : α → κ) (k : κ) : rows key k [] = [] := rfl

theorem rows_append (key : α → κ) (k : κ) (l₁ l₂ : List α) :
    rows key k (l₁ ++ l₂) = rows key k l₁ ++ rows key k l₂ :=
  List.filter_append l₁ l₂

theorem rows_map {β : Type*} (key : β → κ) (f : α → β) (k : κ) (l : List α) :
    rows key k (l.map f) = (rows (key ∘ f) k l).map f := by
  simp [rows, List.filter_map, Function.comp_def]

theorem rows_flatMap {β : Type*} (key : β → κ) (f : α → List β) (k : κ) (l : List α) :
    rows key k (l.flatMap f) = l.flatMap fun a => rows key k (f a) := by
  simp [rows, List.filter_flatMap]

/-- When every block carries a tag of its own as its key, the rows with that key are
the block. -/
theorem rows_flatMap_of_tag {β : Type*} {key : β → κ} {f : α → List β} {tag : α → κ}
    {l : List α} {a : α} (hkey : ∀ c ∈ l, ∀ b ∈ f c, key b = tag c) (hnd : (l.map tag).Nodup)
    (ha : a ∈ l) : rows key (tag a) (l.flatMap f) = f a := by
  have hother : ∀ m : List α, (∀ c ∈ m, c ∈ l ∧ tag c ≠ tag a) →
      rows key (tag a) (m.flatMap f) = [] := by
    intro m hm
    refine List.eq_nil_iff_forall_not_mem.mpr fun b hb => ?_
    obtain ⟨hmem, hb⟩ := mem_rows.mp hb
    obtain ⟨c, hc, hbc⟩ := List.mem_flatMap.mp hmem
    exact (hm c hc).2 ((hkey c (hm c hc).1 b hbc).symm.trans hb)
  have hown : rows key (tag a) (f a) = f a :=
    List.filter_eq_self.mpr fun b hb => decide_eq_true (hkey a ha b hb)
  obtain ⟨l₁, l₂, rfl⟩ := List.append_of_mem ha
  rw [List.map_append, List.map_cons, List.nodup_middle, List.nodup_cons] at hnd
  have hne : ∀ c ∈ l₁ ++ l₂, tag c ≠ tag a := by
    intro c hc heq
    exact hnd.1 (by rw [← heq, ← List.map_append]; exact List.mem_map_of_mem hc)
  rw [List.flatMap_append, List.flatMap_cons, rows_append, rows_append, hown,
    hother l₁ fun c hc => ⟨by simp [hc], hne c (by simp [hc])⟩,
    hother l₂ fun c hc => ⟨by simp [hc], hne c (by simp [hc])⟩]
  simp

/-- The rows of all keys together are the table. -/
theorem flatMap_rows_perm {key : α → κ} {ks : List κ} {l : List α} (hnd : ks.Nodup)
    (hkeys : ∀ a ∈ l, key a ∈ ks) : (ks.flatMap fun k => rows key k l).Perm l := by
  induction ks generalizing l with
  | nil =>
      have hnil : l = [] := List.eq_nil_iff_forall_not_mem.mpr fun a ha =>
        List.not_mem_nil (hkeys a ha)
      rw [hnil]
      exact .refl _
  | cons k ks ih =>
      obtain ⟨hk, hks⟩ := List.nodup_cons.mp hnd
      have hrest : ∀ a ∈ l.filter (fun a => !decide (key a = k)), key a ∈ ks := by
        intro a ha
        obtain ⟨hmem, hne⟩ := List.mem_filter.mp ha
        exact (List.mem_cons.mp (hkeys a hmem)).resolve_left (by simpa using hne)
      have hsame : ∀ j ∈ ks, rows key j l = rows key j (l.filter fun a => !decide (key a = k)) := by
        intro j hj
        rw [rows, rows, List.filter_filter]
        refine List.filter_congr fun a _ => ?_
        by_cases ha : key a = j
        · have hne : j ≠ k := fun heq => hk (heq ▸ hj)
          simp [ha, hne]
        · simp [ha]
      rw [List.flatMap_cons, List.flatMap_congr hsame]
      exact ((ih hks hrest).append_left _).trans (List.filter_append_perm ..)

/-- A lookup by a pair of keys looks among the rows with the first one. -/
theorem get_rows_pair {κ' : Type*} [DecidableEq κ'] (key : α → κ) (key' : α → κ') (k : κ) (k' : κ')
    (l : List α) : get key k (rows key' k' l) = get (fun a => (key' a, key a)) (k', k) l := by
  simp only [get, rows, ← List.filter_reverse, List.find?_filter, Prod.mk.injEq]
  congr 1
  funext a
  rw [Bool.eq_iff_iff]
  simp

theorem rows_id {l : List κ} (hnd : l.Nodup) {k : κ} (hk : k ∈ l) : rows id k l = [k] := by
  have hfilter : rows id k l = List.replicate (l.count k) k := List.filter_eq k
  rw [hfilter, List.count_eq_one_of_mem hnd hk]
  rfl

/-- Under distinct keys a key has at most one row. -/
theorem rows_eq_nil_or_singleton {key : α → κ} {l : List α} (hnd : (l.map key).Nodup) (k : κ) :
    rows key k l = [] ∨ ∃ a ∈ l, key a = k ∧ rows key k l = [a] := by
  by_cases hk : k ∈ l.map key
  · have hmap : (rows key k l).map key = [k] := by
      have h := rows_map id key k l
      rw [rows_id hnd hk] at h
      exact h.symm
    obtain ⟨a, ha, -⟩ := List.map_eq_singleton_iff.mp hmap
    have hmem : a ∈ rows key k l := by rw [ha]; exact List.mem_singleton_self a
    exact .inr ⟨a, (mem_rows.mp hmem).1, (mem_rows.mp hmem).2, ha⟩
  · refine .inl (List.eq_nil_iff_forall_not_mem.mpr fun a ha => hk ?_)
    obtain ⟨hmem, hkey⟩ := mem_rows.mp ha
    exact List.mem_map.mpr ⟨a, hmem, hkey⟩

omit [DecidableEq κ] in
/-- Rows which keep the key of the row they are made from have distinct keys. -/
theorem nodup_filterMap {β : Type*} {f : α → Option β} {key : α → κ} {key' : β → κ}
    {l : List α} (hnd : (l.map key).Nodup)
    (hkey : ∀ a b, f a = some b → key' b = key a) : ((l.filterMap f).map key').Nodup := by
  induction l with
  | nil => simp
  | cons a l ih =>
      obtain ⟨hfresh, hnd⟩ := List.nodup_cons.mp hnd
      cases hf : f a with
      | none => simpa [List.filterMap_cons, hf] using ih hnd
      | some b =>
          rw [List.filterMap_cons_some hf, List.map_cons, List.nodup_cons]
          refine ⟨fun hmem => hfresh ?_, ih hnd⟩
          obtain ⟨b', hb', heq⟩ := List.mem_map.mp hmem
          obtain ⟨a', ha', hf'⟩ := List.mem_filterMap.mp hb'
          refine List.mem_map.mpr ⟨a', ha', ?_⟩
          rw [← hkey a' b' hf', heq, hkey a b hf]

omit [DecidableEq κ] in
/-- Blocks without repeated keys, each under a tag of its own which its keys tell,
have no repeated keys together. -/
theorem nodup_flatMap_of_tag {β κ' : Type*} {key : β → κ} {f : α → List β} {tag : α → κ'}
    (tagOf : κ → κ') {l : List α} (htag : ∀ a ∈ l, ∀ b ∈ f a, tagOf (key b) = tag a)
    (hnd : (l.map tag).Nodup) (hblock : ∀ a ∈ l, ((f a).map key).Nodup) :
    ((l.flatMap f).map key).Nodup := by
  rw [List.map_flatMap, List.nodup_flatMap]
  refine ⟨hblock, ?_⟩
  apply (List.pairwise_map.mp hnd).imp_of_mem
  intro a b ha hb hne k hka hkb
  obtain ⟨x, hx, rfl⟩ := List.mem_map.mp hka
  obtain ⟨y, hy, heq⟩ := List.mem_map.mp hkb
  apply hne
  rw [← htag a ha x hx, ← htag b hb y hy, heq]

/-- A lookup by a key without repetitions finds the row with the key. -/
theorem find?_key_eq_some {key : α → κ} {l : List α} (hnd : (l.map key).Nodup) {a : α}
    (ha : a ∈ l) : l.find? (fun b => key b = key a) = some a :=
  find?_eq_some_of_unique ha (by simp) fun b hb hkey =>
    List.inj_on_of_nodup_map hnd hb ha (by simpa using hkey)

/-- Insert rows one after the other, skipping a row whose key is already taken. -/
def insertNew (key : α → κ) (table rows : List α) : List α :=
  rows.foldl (fun t r => if ∃ a ∈ t, key a = key r then t else t ++ [r]) table

theorem insertNew_eq_append {key : α → κ} {table rows : List α}
    (hnd : ((table ++ rows).map key).Nodup) :
    insertNew key table rows = table ++ rows := by
  induction rows generalizing table with
  | nil => simp [insertNew]
  | cons r rows ih =>
      have hfresh : ¬∃ a ∈ table, key a = key r := by
        rintro ⟨a, ha, hkey⟩
        rw [List.map_append, List.nodup_append] at hnd
        exact hnd.2.2 _ (List.mem_map_of_mem ha) _ (by simp) hkey
      have hstep : insertNew key table (r :: rows) = insertNew key (table ++ [r]) rows := by
        simp only [insertNew, List.foldl_cons, if_neg hfresh]
      rw [hstep, ih (by simpa using hnd)]
      simp

/-- Rows whose keys are taken are not inserted again. -/
theorem insertNew_of_taken {key : α → κ} {table rows : List α}
    (h : ∀ r ∈ rows, ∃ a ∈ table, key a = key r) : insertNew key table rows = table := by
  induction rows with
  | nil => rfl
  | cons r rows ih =>
      have hstep : insertNew key table (r :: rows) = insertNew key table rows := by
        simp only [insertNew, List.foldl_cons, if_pos (h r List.mem_cons_self)]
      rw [hstep]
      exact ih fun s hs => h s (List.mem_cons_of_mem r hs)

/-- Inserting rows adds some of them, so that every key is taken once. -/
theorem exists_insertNew (key : α → κ) (table l : List α) :
    ∃ added, insertNew key table l = table ++ added ∧ added.Sublist l ∧
      (∀ r ∈ l, ∃ a ∈ table ++ added, key a = key r) ∧
      ((table.map key).Nodup → ((table ++ added).map key).Nodup) := by
  induction l generalizing table with
  | nil => exact ⟨[], by simp [insertNew], .slnil, by simp, by simp⟩
  | cons r l ih =>
      by_cases htaken : ∃ a ∈ table, key a = key r
      · obtain ⟨added, hinsert, hsub, hkeys, hnd⟩ := ih table
        have hstep : insertNew key table (r :: l) = insertNew key table l := by
          simp only [insertNew, List.foldl_cons, if_pos htaken]
        refine ⟨added, hstep.trans hinsert, hsub.cons r, fun s hs => ?_, hnd⟩
        rcases List.mem_cons.mp hs with rfl | hs
        · obtain ⟨a, ha, hkey⟩ := htaken
          exact ⟨a, List.mem_append_left _ ha, hkey⟩
        · exact hkeys s hs
      · obtain ⟨added, hinsert, hsub, hkeys, hnd⟩ := ih (table ++ [r])
        have hstep : insertNew key table (r :: l) = insertNew key (table ++ [r]) l := by
          simp only [insertNew, List.foldl_cons, if_neg htaken]
        rw [List.append_assoc, List.singleton_append] at hinsert hkeys hnd
        refine ⟨r :: added, hstep.trans hinsert, hsub.cons_cons r, fun s hs => ?_, fun h => hnd ?_⟩
        · rcases List.mem_cons.mp hs with rfl | hs
          · exact ⟨s, by simp, rfl⟩
          · exact hkeys s hs
        · rw [List.map_append, List.map_singleton]
          refine List.nodup_append.mpr ⟨h, List.nodup_singleton _, ?_⟩
          intro k hk k' hk' heq
          obtain ⟨a, ha, rfl⟩ := List.mem_map.mp hk
          exact htaken ⟨a, ha, heq.trans (List.mem_singleton.mp hk')⟩

/-- Sorting a list along any order that tells its elements apart gives the one
sorted arrangement of it. -/
theorem insertionSort_eq_of_perm {r : α → α → Prop} [DecidableRel r] [Std.Total r]
    [IsTrans α r] {l₁ l₂ : List α} (hperm : l₁.Perm l₂) (hsorted : l₂.Pairwise r)
    (hanti : ∀ a ∈ l₂, ∀ b ∈ l₂, r a b → r b a → a = b) :
    l₁.insertionSort r = l₂ := by
  have hsort := (List.perm_insertionSort r l₁).trans hperm
  exact hsort.eq_of_pairwise (fun a b ha hb => hanti a (hsort.mem_iff.mp ha) b hb)
    (List.pairwise_insertionSort r l₁) hsorted

section SortedKeys

variable [LinearOrder κ]

omit [DecidableEq κ] in
/-- Sorting by a key without repetitions forgets the order. -/
theorem insertionSort_key_eq {key : α → κ} {l l' : List α}
    (h : l.Perm l') (hnd : (l.map key).Nodup) :
    l.insertionSort (fun a b => key a ≤ key b) = l'.insertionSort (fun a b => key a ≤ key b) := by
  have : Std.Total fun a b : α => key a ≤ key b := ⟨fun a b => le_total (key a) (key b)⟩
  have : IsTrans α fun a b => key a ≤ key b := ⟨fun a b c => le_trans⟩
  have hperm := List.perm_insertionSort (fun a b => key a ≤ key b) l'
  apply insertionSort_eq_of_perm (h.trans hperm.symm) (List.pairwise_insertionSort _ _)
  intro a ha b hb hab hba
  have ha := (h.trans hperm.symm).mem_iff.mpr ha
  have hb := (h.trans hperm.symm).mem_iff.mpr hb
  exact List.inj_on_of_nodup_map hnd ha hb (le_antisymm hab hba)

omit [DecidableEq κ] in
/-- In a list sorted by a key without repetitions, the rows with a smaller key are
the ones that stand before. -/
theorem filter_lt_key {key : α → κ} {l₁ l₂ : List α} {a : α}
    (h : ((l₁ ++ a :: l₂).map key).Pairwise (· < ·)) (p : α → Bool) :
    (l₁ ++ a :: l₂).filter (fun b => p b && decide (key b < key a)) = l₁.filter p := by
  rw [List.pairwise_map, List.pairwise_append, List.pairwise_cons] at h
  obtain ⟨-, ⟨hafter, -⟩, hbefore⟩ := h
  have hleft : l₁.filter (fun b => p b && decide (key b < key a)) = l₁.filter p := by
    apply List.filter_congr
    intro b hb
    simp [hbefore b hb a List.mem_cons_self]
  have hright : (a :: l₂).filter (fun b => p b && decide (key b < key a)) = [] := by
    apply List.filter_eq_nil_iff.mpr
    intro b hb
    rcases List.mem_cons.mp hb with rfl | hb
    · simp
    · simp [(hafter b hb).le]
  rw [List.filter_append, hleft, hright, List.append_nil]

/-- The distinct keys of a table in increasing order. -/
def sortedKeys (ks : List κ) : List κ :=
  ks.dedup.insertionSort (· ≤ ·)

@[simp] theorem mem_sortedKeys {ks : List κ} {k : κ} : k ∈ sortedKeys ks ↔ k ∈ ks := by
  simp [sortedKeys]

theorem nodup_sortedKeys (ks : List κ) : (sortedKeys ks).Nodup :=
  (List.perm_insertionSort (· ≤ ·) ks.dedup).nodup_iff.mpr ks.nodup_dedup

theorem pairwise_sortedKeys (ks : List κ) : (sortedKeys ks).Pairwise (· < ·) := by
  have hle : (sortedKeys ks).Pairwise (· ≤ ·) := List.pairwise_insertionSort (· ≤ ·) _
  exact hle.imp₂ (fun a b hab hne => lt_of_le_of_ne hab hne) (nodup_sortedKeys ks)

/-- The iteration order of a map is determined by the set of its keys. -/
theorem sortedKeys_congr {ks ls : List κ} (h : ∀ k, k ∈ ks ↔ k ∈ ls) :
    sortedKeys ks = sortedKeys ls := by
  have hperm : (sortedKeys ks).Perm (sortedKeys ls) := by
    rw [List.perm_ext_iff_of_nodup (nodup_sortedKeys ks) (nodup_sortedKeys ls)]
    intro k
    simp [h]
  exact hperm.eq_of_pairwise (fun a b _ _ => le_antisymm)
    (List.pairwise_insertionSort (· ≤ ·) _) (List.pairwise_insertionSort (· ≤ ·) _)

/-- Keys which are already listed in increasing order. -/
theorem sortedKeys_eq_of_pairwise {ks ls : List κ} (hsorted : ls.Pairwise (· < ·))
    (h : ∀ k, k ∈ ks ↔ k ∈ ls) : sortedKeys ks = ls := by
  have hperm : (sortedKeys ks).Perm ls := by
    rw [List.perm_ext_iff_of_nodup (nodup_sortedKeys ks) (hsorted.imp fun hlt => hlt.ne)]
    intro k
    simp [h]
  exact hperm.eq_of_pairwise (fun a b _ _ => le_antisymm)
    (List.pairwise_insertionSort (· ≤ ·) _) (hsorted.imp fun hlt => hlt.le)

end SortedKeys

section Latest

omit [DecidableEq κ]

variable [LinearOrder κ] {key : α → κ} {l : List α} {a : α}

/-- The first row with the greatest key. -/
def latest (key : α → κ) (l : List α) : Option α := l.argmax key

theorem latest_eq_none_iff : latest key l = none ↔ l = [] := List.argmax_eq_none

theorem mem_of_latest (h : latest key l = some a) : a ∈ l := List.argmax_mem h

theorem le_of_latest (h : latest key l = some a) {b : α} (hb : b ∈ l) : key b ≤ key a :=
  List.le_of_mem_argmax hb h

/-- The latest row of a table with increasing keys is its last one. -/
theorem latest_append_singleton (h : ∀ b ∈ l, key b < key a) :
    latest key (l ++ [a]) = some a := by
  rw [latest, List.argmax_concat]
  cases hl : l.argmax key with
  | none => rfl
  | some c => exact if_pos (h c (List.argmax_mem hl))

end Latest

end Keyed
