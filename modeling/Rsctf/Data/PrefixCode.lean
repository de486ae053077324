import Mathlib.Algebra.Ring.Nat
import Mathlib.Data.Fin.Basic
import Mathlib.Data.List.Basic

/-!
# Encodings which can be read back

A message is written field by field, one encoding after the other.  An encoding decodes when
its end can be told from what it wrote, so that neither the value nor what follows can be
taken for anything else.  Fields of a fixed width decode, and so do lists behind their
length; what is put together from fields which decode does so as well.
-/

universe u v w

namespace PrefixCode

variable {α : Type u} {β : Type v} {γ : Type w}

/-- Equal messages which begin with an encoding begin with the same value and go on equally. -/
def Decodes (P : α → Prop) (encode : α → List γ) : Prop :=
  ∀ a b s t, P a → P b → encode a ++ s = encode b ++ t → a = b ∧ s = t

namespace Decodes

variable {P : α → Prop} {Q : β → Prop} {encode : α → List γ} {encode' : β → List γ}

theorem injOn (h : Decodes P encode) {a b : α} (ha : P a) (hb : P b)
    (heq : encode a = encode b) : a = b :=
  (h a b [] [] ha hb (by rw [heq])).1

theorem mono {P' : α → Prop} (h : Decodes P encode) (hP : ∀ a, P' a → P a) : Decodes P' encode :=
  fun a b s t ha hb => h a b s t (hP a ha) (hP b hb)

/-- A field of a fixed width. -/
theorem fixed (n : ℕ) (hlength : ∀ a, P a → (encode a).length = n)
    (hinj : ∀ a b, P a → P b → encode a = encode b → a = b) : Decodes P encode := by
  intro a b s t ha hb heq
  obtain ⟨hencode, hrest⟩ := List.append_inj heq ((hlength a ha).trans (hlength b hb).symm)
  exact ⟨hinj a b ha hb hencode, hrest⟩

/-- Two fields, one after the other. -/
theorem pair (h : Decodes P encode) (h' : Decodes Q encode') :
    Decodes (fun p : α × β => P p.1 ∧ Q p.2) (fun p => encode p.1 ++ encode' p.2) := by
  intro a b s t ha hb heq
  rw [List.append_assoc, List.append_assoc] at heq
  obtain ⟨hfst, hrest⟩ := h a.1 b.1 _ _ ha.1 hb.1 heq
  obtain ⟨hsnd, hst⟩ := h' a.2 b.2 s t ha.2 hb.2 hrest
  exact ⟨Prod.ext hfst hsnd, hst⟩

/-- A value which is determined by its fields. -/
theorem of_fields (h : Decodes P encode) (fields : β → α) (hfields : ∀ b, Q b → P (fields b))
    (hinj : ∀ b b', fields b = fields b' → b = b') : Decodes Q fun b => encode (fields b) := by
  intro a b s t ha hb heq
  obtain ⟨hfield, hst⟩ := h _ _ s t (hfields a ha) (hfields b hb) heq
  exact ⟨hinj a b hfield, hst⟩

/-- The elements of two lists of one length. -/
theorem elements (h : Decodes P encode) {l l' : List α} {s t : List γ} (hl : ∀ a ∈ l, P a)
    (hl' : ∀ a ∈ l', P a) (hlength : l.length = l'.length)
    (heq : l.flatMap encode ++ s = l'.flatMap encode ++ t) : l = l' ∧ s = t := by
  induction l generalizing l' with
  | nil =>
      obtain rfl := List.length_eq_zero_iff.mp hlength.symm
      exact ⟨rfl, heq⟩
  | cons a l ih =>
      cases l' with
      | nil => cases hlength
      | cons b l' =>
          rw [List.flatMap_cons, List.flatMap_cons, List.append_assoc, List.append_assoc] at heq
          obtain ⟨rfl, hrest⟩ := h a b _ _ (hl a List.mem_cons_self) (hl' b List.mem_cons_self) heq
          obtain ⟨rfl, hst⟩ := ih (fun c hc => hl c (List.mem_cons_of_mem a hc))
            (fun c hc => hl' c (List.mem_cons_of_mem a hc)) (Nat.succ.inj hlength) hrest
          exact ⟨rfl, hst⟩

/-- A list behind its length. -/
theorem list {N : ℕ → Prop} {count : ℕ → List γ} (hcount : Decodes N count)
    (h : Decodes P encode) :
    Decodes (fun l : List α => N l.length ∧ ∀ a ∈ l, P a)
      fun l => count l.length ++ l.flatMap encode := by
  intro l l' s t hl hl' heq
  rw [List.append_assoc, List.append_assoc] at heq
  obtain ⟨hlength, hrest⟩ := hcount _ _ _ _ hl.1 hl'.1 heq
  exact h.elements hl.2 hl'.2 hlength hrest

/-- Raw symbols behind their number. -/
theorem raw {N : ℕ → Prop} {count : ℕ → List γ} (hcount : Decodes N count) :
    Decodes (fun l : List γ => N l.length) fun l => count l.length ++ l := by
  intro l l' s t hl hl' heq
  rw [List.append_assoc, List.append_assoc] at heq
  obtain ⟨hlength, hrest⟩ := hcount _ _ _ _ hl hl' heq
  exact List.append_inj hrest hlength

end Decodes

/-- The same for encodings whose end can be told only from what follows. -/
def DecodesBefore (E : List γ → Prop) (P : α → Prop) (encode : α → List γ) : Prop :=
  ∀ a b s t, P a → P b → E s → E t → encode a ++ s = encode b ++ t → a = b ∧ s = t

theorem Decodes.before {E : List γ → Prop} {P : α → Prop} {encode : α → List γ}
    (h : Decodes P encode) : DecodesBefore E P encode :=
  fun a b s t ha hb _ _ => h a b s t ha hb

namespace DecodesBefore

variable {E E' : List γ → Prop} {P : α → Prop} {Q : β → Prop} {encode : α → List γ}
  {encode' : β → List γ}

/-- Symbols of one kind, up to one of another kind. -/
theorem symbols (p : γ → Prop) :
    DecodesBefore (fun s => ∀ c ∈ s.head?, ¬p c) (fun l => ∀ c ∈ l, p c) fun l => l := by
  intro l l' s t hl hl' hs ht heq
  induction l generalizing l' with
  | nil =>
      cases l' with
      | nil => exact ⟨rfl, heq⟩
      | cons c l' =>
          rw [List.nil_append] at heq
          exact absurd (hl' c List.mem_cons_self) (hs c (by rw [heq]; rfl))
  | cons c l ih =>
      cases l' with
      | nil =>
          rw [List.nil_append] at heq
          exact absurd (hl c List.mem_cons_self) (ht c (by rw [← heq]; rfl))
      | cons d l' =>
          obtain ⟨rfl, hrest⟩ := List.cons.inj heq
          obtain ⟨rfl, hst⟩ := ih l' (fun e he => hl e (List.mem_cons_of_mem c he))
            (fun e he => hl' e (List.mem_cons_of_mem c he)) hrest
          exact ⟨rfl, hst⟩

theorem pair (h : DecodesBefore E' P encode) (h' : DecodesBefore E Q encode')
    (hE : ∀ b s, Q b → E s → E' (encode' b ++ s)) :
    DecodesBefore E (fun p : α × β => P p.1 ∧ Q p.2) fun p => encode p.1 ++ encode' p.2 := by
  intro a b s t ha hb hs ht heq
  rw [List.append_assoc, List.append_assoc] at heq
  obtain ⟨hfst, hrest⟩ :=
    h a.1 b.1 _ _ ha.1 hb.1 (hE a.2 s ha.2 hs) (hE b.2 t hb.2 ht) heq
  obtain ⟨hsnd, hst⟩ := h' a.2 b.2 s t ha.2 hb.2 hs ht hrest
  exact ⟨Prod.ext hfst hsnd, hst⟩

theorem of_fields (h : DecodesBefore E P encode) (fields : β → α)
    (hfields : ∀ b, Q b → P (fields b)) (hinj : ∀ b b', fields b = fields b' → b = b') :
    DecodesBefore E Q fun b => encode (fields b) := by
  intro a b s t ha hb hs ht heq
  obtain ⟨hfield, hst⟩ := h _ _ s t (hfields a ha) (hfields b hb) hs ht heq
  exact ⟨hinj a b hfield, hst⟩

/-- The elements of two lists, up to a symbol with which no element begins. -/
theorem elements (starts : γ → Prop) (h : DecodesBefore E P encode)
    (hstarts : ∀ a s, P a → E (encode a ++ s) ∧ ∃ c ∈ (encode a).head?, starts c) {l l' : List α}
    {s t : List γ} (hl : ∀ a ∈ l, P a) (hl' : ∀ a ∈ l', P a)
    (hs : E s ∧ ∀ c ∈ s.head?, ¬starts c) (ht : E t ∧ ∀ c ∈ t.head?, ¬starts c)
    (heq : l.flatMap encode ++ s = l'.flatMap encode ++ t) : l = l' ∧ s = t := by
  have hhead : ∀ {a s' t'}, P a → encode a ++ s' = t' → ∃ c ∈ t'.head?, starts c := by
    rintro a s' t' ha rfl
    obtain ⟨c, hc, hcs⟩ := (hstarts a s' ha).2
    exact ⟨c, List.mem_head?_append_of_mem_head? hc, hcs⟩
  have hE : ∀ {l : List α} {s}, (∀ a ∈ l, P a) → E s → E (l.flatMap encode ++ s) := by
    intro l s hl hs
    cases l with
    | nil => exact hs
    | cons a l =>
        rw [List.flatMap_cons, List.append_assoc]
        exact (hstarts a _ (hl a List.mem_cons_self)).1
  induction l generalizing l' with
  | nil =>
      cases l' with
      | nil => exact ⟨rfl, heq⟩
      | cons b l' =>
          rw [List.flatMap_cons, List.append_assoc] at heq
          obtain ⟨c, hc, hcs⟩ := hhead (hl' b List.mem_cons_self) heq.symm
          exact absurd hcs (hs.2 c hc)
  | cons a l ih =>
      have ha := hl a List.mem_cons_self
      have hrest : ∀ a ∈ l, P a := fun b hb => hl b (List.mem_cons_of_mem a hb)
      rw [List.flatMap_cons, List.append_assoc] at heq
      cases l' with
      | nil =>
          obtain ⟨c, hc, hcs⟩ := hhead ha heq
          exact absurd hcs (ht.2 c hc)
      | cons b l' =>
          have hrest' : ∀ a ∈ l', P a := fun c hc => hl' c (List.mem_cons_of_mem b hc)
          rw [List.flatMap_cons, List.append_assoc] at heq
          obtain ⟨rfl, htail⟩ := h a b _ _ ha (hl' b List.mem_cons_self) (hE hrest hs.1)
            (hE hrest' ht.1) heq
          obtain ⟨rfl, hst⟩ := ih hrest hrest' htail
          exact ⟨rfl, hst⟩

end DecodesBefore

theorem byte_lt (n : ℕ) : n % 256 < 256 := Nat.mod_lt n (Nat.succ_pos 255)

/-- The lowest byte of a number. -/
def byte (n : ℕ) : Fin 256 := ⟨n % 256, byte_lt n⟩

/-- A number in `width` bytes, the highest first. -/
def beBytes : ℕ → ℕ → List (Fin 256)
  | 0, _ => []
  | width + 1, n => byte (n / 256 ^ width) :: beBytes width n

@[simp] theorem length_beBytes (width n : ℕ) : (beBytes width n).length = width := by
  induction width with
  | zero => rfl
  | succ width ih => rw [beBytes, List.length_cons, ih]

theorem mod_eq_of_beBytes_eq {width m n : ℕ} (h : beBytes width m = beBytes width n) :
    m % 256 ^ width = n % 256 ^ width := by
  induction width with
  | zero => rw [Nat.pow_zero, Nat.mod_one, Nat.mod_one]
  | succ width ih =>
      obtain ⟨hhead, htail⟩ := List.cons.inj h
      have hdigit : m / 256 ^ width % 256 = n / 256 ^ width % 256 := congrArg Fin.val hhead
      rw [Nat.pow_succ, Nat.mod_mul, Nat.mod_mul, ih htail, hdigit]

/-- The number which is written in bytes, the highest first. -/
def ofBeBytes : List (Fin 256) → ℕ
  | [] => 0
  | b :: bytes => ofBeBytes bytes + 256 ^ bytes.length * b

theorem ofBeBytes_beBytes {width n : ℕ} (hn : n < 256 ^ width) :
    ofBeBytes (beBytes width n) = n := by
  have hmod : ofBeBytes (beBytes width n) = n % 256 ^ width := by
    clear hn
    induction width with
    | zero => rw [Nat.pow_zero, Nat.mod_one]; rfl
    | succ width ih => rw [beBytes, ofBeBytes, ih, length_beBytes, Nat.pow_succ, Nat.mod_mul]; rfl
  rw [hmod, Nat.mod_eq_of_lt hn]

theorem ofBeBytes_lt (bytes : List (Fin 256)) : ofBeBytes bytes < 256 ^ bytes.length := by
  induction bytes with
  | nil => exact Nat.one_pos
  | cons b bytes ih =>
      have hb : 256 ^ bytes.length * (b.val + 1) ≤ 256 ^ bytes.length * 256 :=
        Nat.mul_le_mul_left _ b.isLt
      rw [ofBeBytes, List.length_cons, Nat.pow_succ]
      rw [Nat.mul_add, Nat.mul_one] at hb
      omega

/-- Higher digits are not written. -/
theorem beBytes_add_mul {width k : ℕ} (hk : width ≤ k) (n c : ℕ) :
    beBytes width (n + 256 ^ k * c) = beBytes width n := by
  induction width with
  | zero => rfl
  | succ width ih =>
      have hsplit : 256 ^ k = 256 ^ width * (256 ^ (k - width - 1) * 256) := by
        rw [← Nat.pow_succ, ← Nat.pow_add]
        congr 1
        omega
      rw [beBytes, beBytes, ih (Nat.le_of_succ_le hk)]
      congr 1
      apply Fin.ext
      change (n + 256 ^ k * c) / 256 ^ width % 256 = n / 256 ^ width % 256
      rw [hsplit, Nat.mul_assoc, Nat.add_mul_div_left _ _ (Nat.pow_pos (Nat.succ_pos 255)),
        Nat.mul_right_comm, Nat.add_mul_mod_self_right]

/-- All bytes are the bytes of some number. -/
theorem beBytes_ofBeBytes (bytes : List (Fin 256)) :
    beBytes bytes.length (ofBeBytes bytes) = bytes := by
  induction bytes with
  | nil => rfl
  | cons b bytes ih =>
      have hhead : byte (ofBeBytes (b :: bytes) / 256 ^ bytes.length) = b := by
        apply Fin.ext
        change (ofBeBytes bytes + 256 ^ bytes.length * b.val) / 256 ^ bytes.length % 256 = b.val
        rw [Nat.add_mul_div_left _ _ (Nat.pow_pos (Nat.succ_pos 255)),
          Nat.div_eq_of_lt (ofBeBytes_lt bytes), Nat.zero_add, Nat.mod_eq_of_lt b.isLt]
      rw [List.length_cons, beBytes, hhead, ofBeBytes, beBytes_add_mul (le_refl _), ih]

theorem decodes_beBytes (width : ℕ) : Decodes (· < 256 ^ width) (beBytes width) := by
  refine .fixed width (fun n _ => length_beBytes width n) fun m n hm hn h => ?_
  have hmod := mod_eq_of_beBytes_eq h
  rwa [Nat.mod_eq_of_lt hm, Nat.mod_eq_of_lt hn] at hmod

end PrefixCode
