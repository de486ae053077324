import Mathlib.Algebra.BigOperators.Group.List.Basic
import Mathlib.Data.List.DropRight
import Rsctf.Data.Keyed

/-!
# Histories and running totals

`record f before l` is the table written while the history `l` is processed:
every item writes one entry, computed from the items before it.  The history
that precedes the current item is carried along explicitly, so that an entry
does not depend on positions.  When an entry carries a running total, it is the
sum of the values up to its own item.
-/

namespace Ledger

section Record

variable {α β : Type*}

/-- The entries written for the items of a history, each from what came before. -/
def record (f : List α → α → β) (before : List α) : List α → List β
  | [] => []
  | a :: l => f before a :: record f (before ++ [a]) l

@[simp] theorem record_nil (f : List α → α → β) (before : List α) :
    record f before [] = [] := rfl

theorem record_cons (f : List α → α → β) (before : List α) (a : α) (l : List α) :
    record f before (a :: l) = f before a :: record f (before ++ [a]) l := rfl

theorem record_append (f : List α → α → β) (before l₁ l₂ : List α) :
    record f before (l₁ ++ l₂) = record f before l₁ ++ record f (before ++ l₁) l₂ := by
  induction l₁ generalizing before with
  | nil => simp
  | cons a l₁ ih => simp [record_cons, ih]

theorem record_append_singleton (f : List α → α → β) (before l : List α) (a : α) :
    record f before (l ++ [a]) = record f before l ++ [f (before ++ l) a] := by
  rw [record_append, record_cons, record_nil]

theorem map_record {γ : Type*} {f : List α → α → β} {g : β → γ} {h : α → γ}
    (hf : ∀ before a, g (f before a) = h a) (before l : List α) :
    (record f before l).map g = l.map h := by
  induction l generalizing before with
  | nil => simp
  | cons a l ih => simp [record_cons, hf, ih]

@[simp] theorem length_record (f : List α → α → β) (before l : List α) :
    (record f before l).length = l.length := by
  induction l generalizing before with
  | nil => simp
  | cons a l ih => simp [record_cons, ih]

theorem map_record_eq {γ : Type*} (f : List α → α → β) (g : β → γ) (before l : List α) :
    (record f before l).map g = record (fun b a => g (f b a)) before l := by
  induction l generalizing before with
  | nil => simp
  | cons a l ih => simp [record_cons, ih]

theorem record_map {γ : Type*} (f : List β → β → γ) (g : α → β) (before l : List α) :
    record f (before.map g) (l.map g) = record (fun b a => f (b.map g) (g a)) before l := by
  induction l generalizing before with
  | nil => simp
  | cons a l ih => simpa [record_cons] using ih (before ++ [a])

theorem mem_record {f : List α → α → β} {before l : List α} {b : β} :
    b ∈ record f before l ↔ ∃ l₁ a l₂, l = l₁ ++ a :: l₂ ∧ b = f (before ++ l₁) a := by
  induction l generalizing before with
  | nil => simp
  | cons a l ih =>
      rw [record_cons, List.mem_cons, ih]
      constructor
      · rintro (rfl | ⟨l₁, c, l₂, rfl, rfl⟩)
        · exact ⟨[], a, l, rfl, by simp⟩
        · exact ⟨a :: l₁, c, l₂, rfl, by simp⟩
      · rintro ⟨l₁, c, l₂, hl, rfl⟩
        cases l₁ with
        | nil =>
            obtain ⟨rfl, rfl⟩ := List.cons.inj hl
            exact .inl (by simp)
        | cons d l₁ =>
            obtain ⟨rfl, rfl⟩ := List.cons.inj hl
            exact .inr ⟨l₁, c, l₂, rfl, by simp⟩

/-- A property of every item of a history and what came before it. -/
theorem forall_split_cons {P : List α → α → Prop} {a : α} {l : List α} :
    (∀ l₁ b l₂, a :: l = l₁ ++ b :: l₂ → P l₁ b) ↔
      P [] a ∧ ∀ l₁ b l₂, l = l₁ ++ b :: l₂ → P (a :: l₁) b := by
  constructor
  · intro h
    exact ⟨h [] a l rfl, fun l₁ b l₂ hl => h (a :: l₁) b l₂ (by rw [hl]; rfl)⟩
  · rintro ⟨hhead, htail⟩ l₁ b l₂ hl
    cases l₁ with
    | nil =>
        obtain ⟨rfl, rfl⟩ := List.cons.inj hl
        exact hhead
    | cons c l₁ =>
        obtain ⟨rfl, rfl⟩ := List.cons.inj hl
        exact htail l₁ b l₂ rfl

theorem forall_split_append_singleton {P : List α → α → Prop} {a : α} {l : List α} :
    (∀ l₁ b l₂, l ++ [a] = l₁ ++ b :: l₂ → P l₁ b) ↔
      (∀ l₁ b l₂, l = l₁ ++ b :: l₂ → P l₁ b) ∧ P l a := by
  constructor
  · intro h
    refine ⟨fun l₁ b l₂ hl => h l₁ b (l₂ ++ [a]) (by simp [hl]), h l a [] rfl⟩
  · rintro ⟨hinit, hlast⟩ l₁ b l₂ hl
    rcases List.eq_nil_or_concat l₂ with rfl | ⟨l₃, c, rfl⟩
    · obtain ⟨rfl, hab⟩ := List.append_inj' hl rfl
      obtain rfl := List.singleton_inj.mp hab
      exact hlast
    · rw [List.concat_eq_append, ← List.cons_append, ← List.append_assoc] at hl
      exact hinit l₁ b l₃ (List.append_inj' hl rfl).1

/-- Two tables written over the same rows agree exactly when every entry does. -/
theorem record_eq_record_iff {f g : List α → α → β} {before before' l : List α} :
    record f before l = record g before' l ↔
      ∀ l₁ a l₂, l = l₁ ++ a :: l₂ → f (before ++ l₁) a = g (before' ++ l₁) a := by
  induction l generalizing before before' with
  | nil => simp
  | cons a l ih =>
      rw [forall_split_cons, record_cons, record_cons, List.cons.injEq, ih]
      simp

/-- When every item writes a block of rows under a key of its own, the rows with
that key are the block of the item. -/
theorem rows_flatten_record {γ κ : Type*} [DecidableEq κ] {f : List α → α → List γ}
    {key : γ → κ} {tag : α → κ} (hf : ∀ before a, ∀ r ∈ f before a, key r = tag a)
    {l₁ l₂ : List α} {a : α} (hnd : ((l₁ ++ a :: l₂).map tag).Nodup) (before : List α) :
    Keyed.rows key (tag a) (record f before (l₁ ++ a :: l₂)).flatten =
      f (before ++ l₁) a := by
  have hother : ∀ (l : List α) (before : List α), (∀ b ∈ l, tag b ≠ tag a) →
      Keyed.rows key (tag a) (record f before l).flatten = [] := by
    intro l before hne
    simp only [Keyed.rows, List.filter_eq_nil_iff, List.mem_flatten, decide_eq_true_eq]
    rintro r ⟨block, hblock, hr⟩
    obtain ⟨l₃, b, l₄, rfl, rfl⟩ := mem_record.mp hblock
    rw [hf _ _ r hr]
    exact hne b (by simp)
  have hown : Keyed.rows key (tag a) (f (before ++ l₁) a) = f (before ++ l₁) a := by
    rw [Keyed.rows, List.filter_eq_self]
    intro r hr
    simpa using hf _ _ r hr
  rw [List.map_append, List.map_cons, List.nodup_middle, List.nodup_cons] at hnd
  have hne : ∀ b ∈ l₁ ++ l₂, tag b ≠ tag a := by
    intro b hb hab
    exact hnd.1 (by rw [← hab, ← List.map_append]; exact List.mem_map_of_mem hb)
  rw [record_append, record_cons, List.flatten_append, List.flatten_cons,
    Keyed.rows_append, Keyed.rows_append, hown,
    hother l₁ _ fun b hb => hne b (by simp [hb]),
    hother l₂ _ fun b hb => hne b (by simp [hb])]
  simp

theorem rows_flatten_record_of_single {γ κ : Type*} [DecidableEq κ]
    {f : List α → α → List γ} {g : List α → α → γ} {key : γ → κ} {k : κ} {l : List α}
    (hf : ∀ before, ∀ a ∈ l, Keyed.rows key k (f before a) = [g before a])
    (before : List α) :
    Keyed.rows key k (record f before l).flatten = record g before l := by
  induction l generalizing before with
  | nil => simp
  | cons a l ih =>
      rw [record_cons, record_cons, List.flatten_cons, Keyed.rows_append,
        hf before a (by simp), ih (fun b c hc => hf b c (by simp [hc]))]
      rfl

/-- The entries of the first items are kept when the others are dropped. -/
theorem filter_record {f : List α → α → β} {p : β → Bool} {before l₁ l₂ : List α}
    (h₁ : ∀ b ∈ record f before l₁, p b = true)
    (h₂ : ∀ b ∈ record f (before ++ l₁) l₂, p b = false) :
    (record f before (l₁ ++ l₂)).filter p = record f before l₁ := by
  rw [record_append, List.filter_append, List.filter_eq_self.mpr h₁, List.filter_eq_nil_iff.mpr,
    List.append_nil]
  exact fun b hb => by simp [h₂ b hb]

/-- The blocks of the first items are kept when the rows with the keys of the others are
dropped. -/
theorem filter_flatten_record {γ κ : Type*} {f : List α → α → List γ} {key : γ → κ} {tag : α → κ}
    (hf : ∀ before a, ∀ r ∈ f before a, key r = tag a) {p : κ → Bool} {before l₁ l₂ : List α}
    (h₁ : ∀ a ∈ l₁, p (tag a) = true) (h₂ : ∀ a ∈ l₂, p (tag a) = false) :
    ((record f before (l₁ ++ l₂)).flatten.filter fun r => p (key r)) =
      (record f before l₁).flatten := by
  have htag : ∀ {before l : List α} {r : γ}, r ∈ (record f before l).flatten →
      ∃ a ∈ l, key r = tag a := by
    intro before l r hr
    obtain ⟨block, hblock, hr⟩ := List.mem_flatten.mp hr
    obtain ⟨s, a, t, rfl, rfl⟩ := mem_record.mp hblock
    exact ⟨a, by simp, hf _ _ r hr⟩
  rw [record_append, List.flatten_append, List.filter_append, List.filter_eq_self.mpr,
    List.filter_eq_nil_iff.mpr, List.append_nil]
  · intro r hr
    obtain ⟨a, ha, hkey⟩ := htag hr
    rw [hkey, h₂ a ha]
    exact Bool.false_ne_true
  · intro r hr
    obtain ⟨a, ha, hkey⟩ := htag hr
    rw [hkey, h₁ a ha]

/-- Blocks of rows with distinct keys, written under distinct tags, never repeat a
key. -/
theorem nodup_flatten_record {γ κ τ : Type*} {f : List α → α → List γ} {key : γ → κ}
    (part : κ → τ) {tag : α → τ} (hf : ∀ before a, ∀ r ∈ f before a, part (key r) = tag a)
    {l : List α} (hblock : ∀ before, ∀ a ∈ l, ((f before a).map key).Nodup)
    (hnd : (l.map tag).Nodup) (before : List α) :
    ((record f before l).flatten.map key).Nodup := by
  induction l generalizing before with
  | nil => simp
  | cons a l ih =>
      rw [List.map_cons, List.nodup_cons] at hnd
      rw [record_cons, List.flatten_cons, List.map_append, List.nodup_append]
      refine ⟨hblock before a (by simp), ih (fun b c hc => hblock b c (by simp [hc])) hnd.2 _, ?_⟩
      intro k hk k' hk' hkk'
      obtain ⟨r, hr, rfl⟩ := List.mem_map.mp hk
      obtain ⟨r', hr', rfl⟩ := List.mem_map.mp hk'
      obtain ⟨block, hblock', hr'⟩ := List.mem_flatten.mp hr'
      obtain ⟨l₁, c, l₂, rfl, rfl⟩ := mem_record.mp hblock'
      have htag : tag a = tag c := by rw [← hf _ _ r hr, ← hf _ _ r' hr', hkk']
      exact hnd.1 (by simp [htag])

end Record

section Totals

/-- A column of a total is the total of the columns. -/
theorem column_sum {M N : Type*} [AddMonoid M] [AddMonoid N] (column : M → N)
    (hzero : column 0 = 0) (hadd : ∀ a b, column (a + b) = column a + column b)
    (l : List M) : column l.sum = (l.map column).sum := by
  induction l with
  | nil => simp [hzero]
  | cons a l ih => simp [hadd, ih]

end Totals

section Middle

variable {α κ : Type*} [DecidableEq κ]

/-- A stretch of a list is recovered from its keys when no key repeats. -/
theorem filter_mem_map {key : α → κ} {l₁ l₂ l₃ : List α}
    (hnd : ((l₁ ++ l₂ ++ l₃).map key).Nodup) :
    ((l₁ ++ l₂ ++ l₃).filter fun a => key a ∈ l₂.map key) = l₂ := by
  rw [List.map_append, List.map_append, List.nodup_append, List.nodup_append] at hnd
  obtain ⟨⟨-, -, h₁₂⟩, -, h₃⟩ := hnd
  have hleft : (l₁.filter fun a => key a ∈ l₂.map key) = [] := by
    rw [List.filter_eq_nil_iff]
    intro a ha hmem
    exact h₁₂ _ (List.mem_map_of_mem ha) _ (of_decide_eq_true hmem) rfl
  have hright : (l₃.filter fun a => key a ∈ l₂.map key) = [] := by
    rw [List.filter_eq_nil_iff]
    intro a ha hmem
    exact h₃ _ (List.mem_append_right _ (of_decide_eq_true hmem)) _
      (List.mem_map_of_mem ha) rfl
  have hmiddle : (l₂.filter fun a => key a ∈ l₂.map key) = l₂ := by
    rw [List.filter_eq_self]
    intro a ha
    exact decide_eq_true (List.mem_map_of_mem ha)
  rw [List.filter_append, List.filter_append, hleft, hmiddle, hright]
  simp

/-- The last items of a list are recovered from the last keys when no key repeats. -/
theorem filter_mem_rtake {key : α → κ} {l : List α} (hnd : (l.map key).Nodup) (n : ℕ) :
    (l.filter fun a => key a ∈ (l.map key).rtake n) = l.rtake n := by
  have hkeys : (l.map key).rtake n = (l.rtake n).map key := by
    simp only [List.rtake, List.length_map, List.map_drop]
  have hsplit : l = l.take (l.length - n) ++ l.rtake n ++ [] := by
    simp [List.rtake]
  rw [hsplit] at hnd
  have hfilter := filter_mem_map hnd
  rw [← hsplit, ← hkeys] at hfilter
  exact hfilter

end Middle

section Last

variable {α : Type*}

/-- The last items of a history are determined by the last items of any part of
it that is followed by the rest. -/
theorem rtake_rtake_append (n : ℕ) (l₁ l₂ : List α) :
    (l₁.rtake n ++ l₂).rtake n = (l₁ ++ l₂).rtake n := by
  simp only [List.rtake_eq_reverse_take_reverse, List.reverse_append, List.reverse_reverse,
    List.take_append, List.length_reverse, List.take_take]
  have hmin : min (n - l₂.length) n = n - l₂.length := min_eq_left (Nat.sub_le _ _)
  rw [hmin]

end Last

end Ledger
