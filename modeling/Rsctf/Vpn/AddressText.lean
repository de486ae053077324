import Mathlib.Data.List.Induction
import Rsctf.Data.Delimited
import Rsctf.Vpn.Address

/-!
# The text of an address

Addresses are stored as four decimal octets joined by dots.  A text is an address only in
the one spelling that an address is printed in.
-/

namespace Rsctf

namespace Vpn

def octetText (octet : ℕ) : List Char := Nat.toDigits 10 octet

def octets (address : ℕ) : List ℕ :=
  [address / 2 ^ 24, address / 2 ^ 16 % 256, address / 2 ^ 8 % 256, address % 256]

def addressText (address : ℕ) : String :=
  String.ofList (List.intercalate ['.'] ((octets address).map octetText))

/-- At most three digits, without leading zeros. -/
def parseOctet (text : List Char) : Option ℕ :=
  let value := text.foldl (fun value digit => 10 * value + (digit.toNat - '0'.toNat)) 0
  if (1 ≤ text.length ∧ text.length ≤ 3) ∧ text.all Char.isDigit ∧
      (text.head? ≠ some '0' ∨ text.length = 1) ∧ value ≤ 255 then some value
  else none

def parseIpv4 (text : String) : Option ℕ :=
  match (text.toList.splitOn '.').mapM parseOctet with
  | some [a, b, c, d] => some (a * 2 ^ 24 + b * 2 ^ 16 + c * 2 ^ 8 + d)
  | _ => none

theorem parseOctet_octetText : ∀ octet < 256, parseOctet (octetText octet) = some octet := by
  decide +kernel

theorem dot_not_mem_octetText : ∀ octet < 256, '.' ∉ octetText octet := by
  decide +kernel

theorem octets_lt {address octet : ℕ} (h : address < 2 ^ 32) (hmem : octet ∈ octets address) :
    octet < 256 := by
  simp only [octets, List.mem_cons, List.not_mem_nil, or_false] at hmem
  omega

theorem mapM_parseOctet {values : List ℕ} (h : ∀ octet ∈ values, octet < 256) :
    (values.map octetText).mapM parseOctet = some values := by
  induction values with
  | nil => rfl
  | cons octet values ih =>
      have hhead := parseOctet_octetText octet (h octet List.mem_cons_self)
      have htail := ih fun other hother => h other (List.mem_cons_of_mem octet hother)
      rw [List.map_cons, List.mapM_cons, hhead, htail]
      rfl

/-- Every address is read back from its text. -/
theorem parseIpv4_addressText {address : ℕ} (h : address < 2 ^ 32) :
    parseIpv4 (addressText address) = some address := by
  have hsplit : (addressText address).toList.splitOn '.' = (octets address).map octetText := by
    rw [addressText, String.toList_ofList]
    refine List.splitOn_intercalate '.' (fun text htext => ?_) (by simp [octets])
    obtain ⟨octet, hoctet, rfl⟩ := List.mem_map.mp htext
    exact dot_not_mem_octetText octet (octets_lt h hoctet)
  rw [parseIpv4, hsplit, mapM_parseOctet fun octet hoctet => octets_lt h hoctet]
  simp only [octets, Option.some.injEq]
  omega

theorem digitChar_toNat {c : Char} (h : c.isDigit = true) :
    c.toNat - '0'.toNat < 10 ∧ (c.toNat - '0'.toNat).digitChar = c := by
  have hval : 48 ≤ c.toNat ∧ c.toNat ≤ 57 := by
    simpa [Char.isDigit, UInt32.le_iff_toNat_le] using h
  have hdigit : ∀ n < 58, 48 ≤ n → (n - 48).digitChar = Char.ofNat n := by decide
  refine ⟨by change c.toNat - 48 < 10; omega, ?_⟩
  change (c.toNat - 48).digitChar = c
  rw [hdigit c.toNat (by omega) hval.1, Char.ofNat_toNat]

/-- Digits without a leading zero are the digits of their number. -/
theorem toDigits_value {text : List Char} (hne : text ≠ [])
    (hdigits : ∀ c ∈ text, c.isDigit = true)
    (hzero : text.head? ≠ some '0' ∨ text.length = 1) :
    Nat.toDigits 10 (text.foldl (fun value c => 10 * value + (c.toNat - '0'.toNat)) 0) = text := by
  induction text using List.reverseRecOn with
  | nil => exact absurd rfl hne
  | append_singleton text c ih =>
      obtain ⟨hlt, hchar⟩ := digitChar_toNat (hdigits c (by simp))
      rw [List.foldl_append, List.foldl_cons, List.foldl_nil]
      by_cases htext : text = []
      · subst htext
        rw [List.foldl_nil, Nat.mul_zero, Nat.zero_add, Nat.toDigits_of_lt_base hlt, hchar]
        rfl
      · have hhead : text.head? ≠ some '0' := by
          obtain ⟨first, rest, rfl⟩ := List.exists_cons_of_ne_nil htext
          simpa using hzero
        have hvalue := ih htext (fun d hd => hdigits d (by simp [hd])) (.inl hhead)
        have hpos : text.foldl (fun value c => 10 * value + (c.toNat - '0'.toNat)) 0 ≠ 0 := by
          intro h
          rw [h] at hvalue
          exact hhead (hvalue ▸ rfl)
        generalize hn : text.foldl (fun value c => 10 * value + (c.toNat - '0'.toNat)) 0 = n at *
        rw [Nat.toDigits_of_base_le (by decide) (by omega)]
        have hdiv : (10 * n + (c.toNat - '0'.toNat)) / 10 = n := by omega
        have hmod : (10 * n + (c.toNat - '0'.toNat)) % 10 = c.toNat - '0'.toNat := by omega
        rw [hdiv, hmod, hvalue, hchar]

/-- An octet has one spelling. -/
theorem eq_octetText {text : List Char} {octet : ℕ} (h : parseOctet text = some octet) :
    text = octetText octet ∧ octet < 256 := by
  simp only [parseOctet, Option.ite_none_right_eq_some] at h
  obtain ⟨⟨⟨hpos, -⟩, hdigits, hzero, hle⟩, hvalue⟩ := h
  have htext := toDigits_value (List.length_pos_iff.mp hpos) (List.all_eq_true.mp hdigits) hzero
  rw [Option.some.inj hvalue] at hle htext
  exact ⟨htext.symm, by omega⟩

theorem map_octetText_of_mapM {texts : List (List Char)} {values : List ℕ}
    (h : texts.mapM parseOctet = some values) :
    texts = values.map octetText ∧ ∀ octet ∈ values, octet < 256 := by
  induction texts generalizing values with
  | nil =>
      obtain rfl := Option.some.inj h
      exact ⟨rfl, by simp⟩
  | cons text texts ih =>
      simp only [List.mapM_cons, Option.bind_eq_bind, Option.bind_eq_some_iff, Option.pure_def,
        Option.some.injEq] at h
      obtain ⟨octet, hoctet, rest, hrest, rfl⟩ := h
      obtain ⟨htext, hlt⟩ := eq_octetText hoctet
      obtain ⟨htexts, hlts⟩ := ih hrest
      exact ⟨by rw [htext, htexts]; rfl, List.forall_mem_cons.mpr ⟨hlt, hlts⟩⟩

/-- An address is read from its text and from no other. -/
theorem parseIpv4_eq_some_iff {text : String} {address : ℕ} :
    parseIpv4 text = some address ↔ address < 2 ^ 32 ∧ text = addressText address := by
  constructor
  · intro h
    unfold parseIpv4 at h
    split at h
    · next a b c d hmap =>
        obtain ⟨htexts, hlt⟩ := map_octetText_of_mapM hmap
        simp only [List.mem_cons, List.not_mem_nil, or_false, forall_eq_or_imp, forall_eq] at hlt
        obtain rfl := Option.some.inj h
        have hoctets : octets (a * 2 ^ 24 + b * 2 ^ 16 + c * 2 ^ 8 + d) = [a, b, c, d] := by
          simp only [octets, List.cons.injEq, and_true]
          omega
        refine ⟨by omega, ?_⟩
        rw [addressText, hoctets, ← htexts, List.intercalate_splitOn, String.ofList_toList]
    · cases h
  · intro h
    rw [h.2, parseIpv4_addressText h.1]

/-- The characters of an address. -/
theorem isDigit_or_dot {text : String} {address : ℕ} {c : Char}
    (h : parseIpv4 text = some address) (hc : c ∈ text.toList) : c.isDigit = true ∨ c = '.' := by
  by_cases hdot : c = '.'
  · exact .inr hdot
  · obtain ⟨part, hpart, hmem⟩ := Delimited.exists_part hc hdot
    unfold parseIpv4 at h
    split at h
    · next hmap =>
      rw [(map_octetText_of_mapM hmap).1] at hpart
      obtain ⟨octet, -, rfl⟩ := List.mem_map.mp hpart
      exact .inl (Nat.isDigit_of_mem_toDigits (by omega) (by omega) hmem)
    · cases h

end Vpn

end Rsctf
