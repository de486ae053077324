import Mathlib.Data.List.Basic

/-!
# A table with a second index

Values are kept under their keys, and every value has an owner.  A second table maps each
owner to the key of its value.  The two are inverse to each other as long as a value is
entered in both, taken out of both, and no owner has two values.
-/

universe u v w

/-- An owner is mapped to a key exactly when the value under this key is its own. -/
structure Indexed {κ : Type u} {ν : Type v} {ω : Type w} [BEq κ] [Hashable κ] [BEq ω] [Hashable ω]
    [EquivBEq κ] [LawfulHashable κ] [EquivBEq ω] [LawfulHashable ω] (owner : ν → ω)
    (byKey : Std.ExtHashMap κ ν) (byOwner : Std.ExtHashMap ω κ) : Prop where
  inverse : ∀ o k, byOwner[o]? = some k ↔ ∃ a, byKey[k]? = some a ∧ owner a = o

namespace Indexed

variable {κ : Type u} {ν : Type v} {ω : Type w} [BEq κ] [Hashable κ] [BEq ω] [Hashable ω]
  [LawfulBEq κ] [LawfulHashable κ] [LawfulBEq ω] [LawfulHashable ω] {owner : ν → ω}
  {byKey : Std.ExtHashMap κ ν} {byOwner : Std.ExtHashMap ω κ} {k k' : κ} {a a' : ν}

theorem getElem?_erase_eq_some {table : Std.ExtHashMap κ ν} :
    (table.erase k)[k']? = some a ↔ k' ≠ k ∧ table[k']? = some a := by
  rw [Std.ExtHashMap.getElem?_erase]
  by_cases h : k = k'
  · simp [h]
  · simp [h, Ne.symm h]

theorem getElem?_insert_eq_some {table : Std.ExtHashMap κ ν} :
    (table.insert k a)[k']? = some a' ↔ k' = k ∧ a = a' ∨ k' ≠ k ∧ table[k']? = some a' := by
  rw [Std.ExtHashMap.getElem?_insert]
  by_cases h : k = k'
  · simp [h]
  · simp [h, Ne.symm h]

theorem getElem?_filter_eq_some {table : Std.ExtHashMap κ ν} {p : κ → ν → Bool} :
    (table.filter p)[k]? = some a ↔ table[k]? = some a ∧ p k a = true := by
  rw [Std.ExtHashMap.getElem?_filter', Option.filter_eq_some_iff]

theorem erase_eq_self {table : Std.ExtHashMap κ ν} (h : table[k]? = none) :
    table.erase k = table := by
  refine Std.ExtHashMap.ext_getElem? fun k' => ?_
  rw [Std.ExtHashMap.getElem?_erase]
  by_cases hk : k = k'
  · subst hk
    simpa using h.symm
  · simp [hk]

@[simp] theorem filter_empty (p : κ → ν → Bool) :
    (∅ : Std.ExtHashMap κ ν).filter p = ∅ :=
  Std.ExtHashMap.ext_getElem? fun k => by simp

theorem empty : Indexed owner (∅ : Std.ExtHashMap κ ν) (∅ : Std.ExtHashMap ω κ) :=
  ⟨fun o k => by simp⟩

theorem byOwner_eq (h : Indexed owner byKey byOwner) (ha : byKey[k]? = some a) :
    byOwner[owner a]? = some k :=
  (h.inverse _ _).mpr ⟨a, ha, rfl⟩

/-- An owner has one value. -/
theorem key_eq (h : Indexed owner byKey byOwner) (ha : byKey[k]? = some a)
    (ha' : byKey[k']? = some a') (howner : owner a = owner a') : k = k' := by
  have hk := h.byOwner_eq ha
  rw [howner, h.byOwner_eq ha'] at hk
  exact (Option.some.inj hk).symm

theorem insert (h : Indexed owner byKey byOwner) (hkey : byKey[k]? = none)
    (howner : byOwner[owner a]? = none) :
    Indexed owner (byKey.insert k a) (byOwner.insert (owner a) k) := by
  refine ⟨fun o k' => ?_⟩
  rw [getElem?_insert_eq_some]
  constructor
  · rintro (⟨rfl, rfl⟩ | ⟨hne, hold⟩)
    · exact ⟨a, Std.ExtHashMap.getElem?_insert_self, rfl⟩
    · obtain ⟨a', ha', rfl⟩ := (h.inverse o k').mp hold
      refine ⟨a', getElem?_insert_eq_some.mpr (.inr ⟨fun hk => ?_, ha'⟩), rfl⟩
      rw [hk, hkey] at ha'
      cases ha'
  · rintro ⟨a', ha', rfl⟩
    rcases getElem?_insert_eq_some.mp ha' with ⟨rfl, rfl⟩ | ⟨hne, hold⟩
    · exact .inl ⟨rfl, rfl⟩
    · have hold' := h.byOwner_eq hold
      refine .inr ⟨fun howner' => ?_, hold'⟩
      rw [howner', howner] at hold'
      cases hold'

theorem erase (h : Indexed owner byKey byOwner) (ha : byKey[k]? = some a) :
    Indexed owner (byKey.erase k) (byOwner.erase (owner a)) := by
  refine ⟨fun o k' => ?_⟩
  rw [getElem?_erase_eq_some]
  constructor
  · rintro ⟨hne, hold⟩
    obtain ⟨a', ha', rfl⟩ := (h.inverse o k').mp hold
    refine ⟨a', getElem?_erase_eq_some.mpr ⟨fun hk => hne ?_, ha'⟩, rfl⟩
    rw [hk, ha] at ha'
    rw [Option.some.inj ha']
  · rintro ⟨a', ha', rfl⟩
    obtain ⟨hne, hold⟩ := getElem?_erase_eq_some.mp ha'
    exact ⟨fun howner => hne (h.key_eq hold ha howner), h.byOwner_eq hold⟩

theorem filter (h : Indexed owner byKey byOwner) (p : κ → ν → Bool) :
    Indexed owner (byKey.filter p) (byOwner.filter fun _ k => (byKey.filter p).contains k) := by
  refine ⟨fun o k => ?_⟩
  rw [getElem?_filter_eq_some, h.inverse, Std.ExtHashMap.contains_eq_isSome_getElem?,
    Option.isSome_iff_exists]
  constructor
  · rintro ⟨⟨a, ha, howner⟩, a', ha'⟩
    have hold := (getElem?_filter_eq_some.mp ha').1
    rw [ha] at hold
    exact ⟨a, by rwa [Option.some.inj hold], howner⟩
  · rintro ⟨a, ha, howner⟩
    exact ⟨⟨a, (getElem?_filter_eq_some.mp ha).1, howner⟩, a, ha⟩

end Indexed
