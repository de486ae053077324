import Mathlib.Data.List.TakeWhile
import Rsctf.Data.Delimited
import Rsctf.Worker.RegistryRepository

/-!
# The grammar of repositories

The languages of components, of domains and of references are built from sums and products, and
the check accepts exactly their words.
-/

namespace Rsctf

namespace RegistryRepository

open Delimited

/-- Lower-case letters and digits. -/
def word : Language Char := {text | text ≠ [] ∧ ∀ c ∈ text, isLowerOrDigit c = true}

def dashes : Language Char := {text | text ≠ [] ∧ ∀ c ∈ text, c = '-'}

/-- A dot, one or two underscores, or dashes. -/
def separator : Language Char := {['.']} + {['_']} + {['_', '_']} + dashes

def component : Language Char := delimited word separator

/-- At most 63 letters, digits and inner hyphens. -/
def label : Language Char :=
  {text | 1 ≤ text.length ∧ text.length ≤ 63 ∧ (∀ c ∈ text, c.isAlphanum = true ∨ c = '-') ∧
    text.head? ≠ some '-' ∧ text.getLast? ≠ some '-'}

def host : Language Char := delimited label {['.']}

/-- Digits of a number between 1 and 65535. -/
def port : Language Char :=
  {text | text ≠ [] ∧ (∀ c ∈ text, c.isDigit = true) ∧ 1 ≤ decimalValue text ∧
    decimalValue text ≤ 65535}

def ipv6Address : Language Char := {text | isIpv6Addr text = true}

def ipv6Literal : Language Char := {['[']} * (ipv6Address * {[']']})

def portSuffix : Language Char := 1 + {[':']} * port

def domain : Language Char := (host + ipv6Literal) * portSuffix

def path : Language Char := delimited component {['/']}

/-- There are two parts, and the first one is meant as a domain. -/
def HasDomain (text : List Char) : Prop :=
  ∃ first second rest, text.splitOn '/' = first :: second :: rest ∧
    (first = "localhost".toList ∨ '.' ∈ first ∨ ':' ∈ first ∨ first.head? = some '[')

/-- A path, after a domain where there is one. -/
def Reference (text : List Char) : Prop :=
  (HasDomain text → text ∈ domain * ({['/']} * path)) ∧ (¬ HasDomain text → text ∈ path)

section Splitting

variable {c : Char} {text before after : List Char}

theorem splitOnce_eq_some_iff :
    splitOnce c text = some (before, after) ↔ c ∉ before ∧ text = before ++ c :: after := by
  constructor
  · intro h
    simp only [splitOnce, Option.ite_none_right_eq_some, Option.some.injEq, Prod.mk.injEq] at h
    obtain ⟨hmem, rfl, rfl⟩ := h
    have hbefore : c ∉ text.takeWhile (· ≠ c) := fun hc => by
      simpa using List.mem_takeWhile_imp hc
    have hne : text.dropWhile (· ≠ c) ≠ [] := fun hnil => by
      simpa using List.dropWhile_eq_nil_iff.mp hnil c hmem
    have hhead : (text.dropWhile (· ≠ c)).head hne = c := by
      simpa using List.head_dropWhile_not (· ≠ c) hne
    have hafter : c :: (text.dropWhile (· ≠ c)).tail = text.dropWhile (· ≠ c) := by
      nth_rewrite 1 [← hhead]
      exact List.cons_head_tail hne
    rw [hafter, List.takeWhile_append_dropWhile]
    exact ⟨hbefore, rfl⟩
  · rintro ⟨hbefore, rfl⟩
    have hne : ∀ d ∈ before, decide (d ≠ c) = true := fun d hd =>
      decide_eq_true fun heq => hbefore (heq ▸ hd)
    rw [splitOnce, if_pos (by simp), List.takeWhile_append_of_pos hne,
      List.dropWhile_append_of_pos hne]
    simp

theorem splitOnce_eq_none_iff : splitOnce c text = none ↔ c ∉ text := by
  simp [splitOnce]

theorem rsplitOnce_eq_some_iff :
    rsplitOnce c text = some (before, after) ↔ c ∉ after ∧ text = before ++ c :: after := by
  have hreverse : text.reverse = after.reverse ++ c :: before.reverse ↔
      text = before ++ c :: after := by
    rw [← List.reverse_inj]
    simp
  rw [← hreverse, ← List.mem_reverse, ← splitOnce_eq_some_iff, rsplitOnce]
  cases splitOnce c text.reverse with
  | none => simp
  | some halves => simp [Prod.ext_iff, List.reverse_eq_iff, and_comm]

theorem rsplitOnce_eq_none_iff : rsplitOnce c text = none ↔ c ∉ text := by
  simp [rsplitOnce, splitOnce_eq_none_iff]

theorem stripPrefix_eq_some_iff : stripPrefix c text = some after ↔ text = c :: after := by
  cases text with
  | nil => simp [stripPrefix]
  | cons d text => simp [stripPrefix]

end Splitting

section Components

variable {text next : List Char}

theorem word_head? (h : text ∈ word) : text.head?.any isLowerOrDigit = true := by
  obtain ⟨hne, hall⟩ := h
  cases text with
  | nil => exact absurd rfl hne
  | cons c text => exact hall c List.mem_cons_self

/-- A text before a word goes on after a separator exactly when it is one. -/
theorem afterSeparator_eq_some_iff (hnext : next.head?.any isLowerOrDigit = true) :
    afterSeparator text = some next ↔ ∃ s ∈ separator, text = s ++ next := by
  constructor
  · intro h
    cases text with
    | nil => cases h
    | cons c rest =>
        rw [afterSeparator] at h
        split at h
        · next hdot =>
          obtain rfl := Option.some.inj h
          exact ⟨['.'], .inl (.inl (.inl rfl)), by rw [hdot]; rfl⟩
        split at h
        · next hunderscore =>
          obtain rfl := Option.some.inj h
          split
          · next htwo =>
            refine ⟨['_', '_'], .inl (.inr rfl), ?_⟩
            rw [hunderscore, ← List.cons_head?_tail htwo]
            rfl
          · exact ⟨['_'], .inl (.inl (.inr rfl)), by rw [hunderscore]; rfl⟩
        split at h
        · next hdash =>
          obtain rfl := Option.some.inj h
          have hall : ∀ d ∈ '-' :: rest.takeWhile (· = '-'), d = '-' := by
            intro d hd
            rcases List.mem_cons.mp hd with rfl | hd
            · rfl
            · simpa using List.mem_takeWhile_imp hd
          refine ⟨'-' :: rest.takeWhile (· = '-'), .inr ⟨List.cons_ne_nil _ _, hall⟩, ?_⟩
          rw [hdash, List.cons_append, List.takeWhile_append_dropWhile]
        · cases h
  · rintro ⟨s, hs, rfl⟩
    cases next with
    | nil => cases hnext
    | cons c rest =>
        have hunderscore : c ≠ '_' := by
          rintro rfl
          cases hnext
        have hdash : c ≠ '-' := by
          rintro rfl
          cases hnext
        rcases hs with ((rfl | rfl) | rfl) | ⟨hne, hall⟩
        · rfl
        · simp [afterSeparator, hunderscore]
        · simp [afterSeparator]
        · cases s with
          | nil => exact absurd rfl hne
          | cons d s =>
              obtain ⟨rfl, hs⟩ := List.forall_mem_cons.mp hall
              have hdrop : ∀ d ∈ s, decide (d = '-') = true := fun d hd => decide_eq_true (hs d hd)
              simp [afterSeparator, List.dropWhile_append_of_pos hdrop, hdash]

theorem separator_head? {s : List Char} (h : s ∈ separator) :
    ∃ c rest, s = c :: rest ∧ isLowerOrDigit c = false := by
  rcases h with ((rfl | rfl) | rfl) | ⟨hne, hall⟩
  · exact ⟨'.', [], rfl, rfl⟩
  · exact ⟨'_', [], rfl, rfl⟩
  · exact ⟨'_', ['_'], rfl, rfl⟩
  · cases s with
    | nil => exact absurd rfl hne
    | cons c s =>
        obtain rfl := hall c List.mem_cons_self
        exact ⟨'-', s, rfl, rfl⟩

theorem validRepositoryComponent_word (h : text ∈ word) :
    validRepositoryComponent text = true := by
  have hdrop : text.dropWhile isLowerOrDigit = [] := List.dropWhile_eq_nil_iff.mpr h.2
  rw [validRepositoryComponent, word_head? h, scanComponent]
  simp [hdrop]

/-- The scan of a component goes on after a word and a separator. -/
theorem validRepositoryComponent_append {w s : List Char} (hw : w ∈ word) (hs : s ∈ separator)
    (h : validRepositoryComponent text = true) :
    validRepositoryComponent (w ++ (s ++ text)) = true := by
  obtain ⟨hhead, hscan⟩ := Bool.and_eq_true_iff.mp h
  obtain ⟨c, rest, hcons, hc⟩ := separator_head? hs
  have hdrop : (w ++ (s ++ text)).dropWhile isLowerOrDigit = s ++ text := by
    rw [List.dropWhile_append_of_pos hw.2, hcons, List.cons_append,
      List.dropWhile_cons_of_neg (by simp [hc])]
  have hafter : afterSeparator (s ++ text) = some text :=
    (afterSeparator_eq_some_iff hhead).mpr ⟨s, hs, rfl⟩
  have hne : s ++ text ≠ [] := by simp [hcons]
  have hword : (w ++ (s ++ text)).head?.any isLowerOrDigit = true := by
    rw [List.head?_append_of_ne_nil _ hw.1]
    exact word_head? hw
  rw [validRepositoryComponent, hword, scanComponent, hdrop]
  simp only [hne, if_false, Bool.true_and]
  split
  · next hnone => simp [hafter] at hnone
  · next next hsome =>
    obtain rfl := Option.some.inj (hafter.symm.trans hsome)
    rw [if_pos hhead, hscan]

theorem mem_component_of_scan (h : validRepositoryComponent text = true) :
    text ∈ component := by
  induction hlength : text.length using Nat.strong_induction_on generalizing text with
  | _ n ih =>
    obtain ⟨hhead, hscan⟩ := Bool.and_eq_true_iff.mp h
    have happend := List.takeWhile_append_dropWhile (p := isLowerOrDigit) (l := text)
    have hword : text.takeWhile isLowerOrDigit ∈ word := by
      refine ⟨fun hnil => ?_, fun c hc => List.mem_takeWhile_imp hc⟩
      cases text with
      | nil => cases hhead
      | cons c rest =>
          have hc : isLowerOrDigit c = true := hhead
          simp [hc] at hnil
    rw [scanComponent] at hscan
    split at hscan
    · next hnil =>
      rw [hnil, List.append_nil] at happend
      exact item_mem_delimited (happend ▸ hword)
    · split at hscan
      · cases hscan
      · next next hafter =>
        obtain ⟨hnext, hrest⟩ : next.head?.any isLowerOrDigit = true ∧ scanComponent next = true := by
          split at hscan
          · next hnext => exact ⟨hnext, hscan⟩
          · cases hscan
        obtain ⟨s, hs, hsplit⟩ := (afterSeparator_eq_some_iff hnext).mp hafter
        have hlt : next.length < n :=
          hlength ▸ (length_afterSeparator_lt hafter).trans_le (List.dropWhile_sublist _).length_le
        rw [← happend, hsplit]
        exact append_mem_delimited hword hs
          (ih _ hlt (Bool.and_eq_true_iff.mpr ⟨hnext, hrest⟩) rfl)

theorem mem_component_iff : validRepositoryComponent text = true ↔ text ∈ component := by
  constructor
  · exact mem_component_of_scan
  · refine delimited_induction (P := fun text => validRepositoryComponent text = true) ?_ ?_
    · exact fun w hw => validRepositoryComponent_word hw
    · exact fun w s l hw hs _ hl => validRepositoryComponent_append hw hs hl

end Components

section Addresses

variable {text : List Char}

/-- The characters of an address. -/
def isAddressChar (c : Char) : Bool := isHexDigit c || c = ':' || c = '.'

theorem isHexDigit_of_isDigit {c : Char} (h : c.isDigit = true) : isHexDigit c = true := by
  simp only [Char.isDigit, Bool.and_eq_true, decide_eq_true_eq] at h
  simp only [isHexDigit, Bool.or_eq_true, Bool.and_eq_true, decide_eq_true_eq]
  exact .inl (.inl h)

theorem isAddressChar_of_parts {c : Char} (sep : Char) (hsep : isAddressChar sep = true)
    (h : ∀ part ∈ text.splitOn sep, ∀ d ∈ part, isAddressChar d = true) (hc : c ∈ text) :
    isAddressChar c = true := by
  by_cases hne : c = sep
  · exact hne ▸ hsep
  · obtain ⟨part, hpart, hmem⟩ := exists_part hc hne
    exact h part hpart c hmem

theorem isAddressChar_of_isIpv4Addr {c : Char} (h : isIpv4Addr text = true) (hc : c ∈ text) :
    isAddressChar c = true := by
  obtain ⟨address, haddress⟩ := Option.isSome_iff_exists.mp h
  rw [← String.toList_ofList (l := text)] at hc
  rcases Vpn.isDigit_or_dot haddress hc with hdigit | rfl
  · simp [isAddressChar, isHexDigit_of_isDigit hdigit]
  · rfl

theorem isAddressChar_of_isHexGroup {c : Char} (h : isHexGroup text = true) (hc : c ∈ text) :
    isAddressChar c = true := by
  have hhex := List.all_eq_true.mp (Bool.and_eq_true_iff.mp h).2 c hc
  simp [isAddressChar, hhex]

theorem isAddressChar_of_groupCount {embedded : Bool} {n : ℕ} {c : Char}
    (h : groupCount text embedded = some n) (hc : c ∈ text) : isAddressChar c = true := by
  refine isAddressChar_of_parts ':' rfl (fun part hpart d hd => ?_) hc
  unfold groupCount at h
  rw [if_neg (List.ne_nil_of_mem hc)] at h
  simp only at h
  split at h
  · next hall => exact isAddressChar_of_isHexGroup (List.all_eq_true.mp hall part hpart) hd
  split at h
  · next hembedded =>
    simp only [Bool.and_eq_true] at hembedded
    obtain ⟨⟨-, hinit⟩, hlast⟩ := hembedded
    have hne := List.splitOn_ne_nil ':' text
    rw [← List.dropLast_append_getLast hne, List.mem_append, List.mem_singleton] at hpart
    rcases hpart with hpart | rfl
    · exact isAddressChar_of_isHexGroup (List.all_eq_true.mp hinit part hpart) hd
    · rw [List.getLast?_eq_some_getLast hne] at hlast
      exact isAddressChar_of_isIpv4Addr hlast hd
  · cases h

theorem splitCompressed_eq_append {head tail : List Char}
    (h : splitCompressed text = some (head, tail)) : text = head ++ ([':', ':'] ++ tail) := by
  induction text generalizing head with
  | nil => cases h
  | cons c text ih =>
      rw [splitCompressed] at h
      split at h
      · next hcolons =>
        obtain ⟨rfl, rfl⟩ := Prod.mk.inj (Option.some.inj h)
        rw [hcolons.1, ← List.cons_head?_tail hcolons.2]
        rfl
      · obtain ⟨⟨front, back⟩, hrest, hpair⟩ := Option.map_eq_some_iff.mp h
        obtain ⟨rfl, rfl⟩ := Prod.mk.inj hpair
        rw [ih hrest]
        rfl

theorem isAddressChar_of_mem_ipv6Address {c : Char} (h : text ∈ ipv6Address) (hc : c ∈ text) :
    isAddressChar c = true := by
  change isIpv6Addr text = true at h
  unfold isIpv6Addr at h
  split at h
  · exact isAddressChar_of_groupCount (of_decide_eq_true h) hc
  · next head tail hsplit =>
    split at h
    · next front back hfront hback =>
      rw [splitCompressed_eq_append hsplit] at hc
      rcases List.mem_append.mp hc with hc | hc
      · exact isAddressChar_of_groupCount hfront hc
      rcases List.mem_append.mp hc with hc | hc
      · rcases List.mem_pair.mp hc with rfl | rfl <;> rfl
      · exact isAddressChar_of_groupCount hback hc
    · cases h

end Addresses

section Domains

variable {text suffix : List Char}

theorem mem_port_iff : validRegistryPort (some text) = true ↔ text ∈ port := by
  have hparse : (parseU16 text).any (· ≠ 0) = true ↔
      1 ≤ decimalValue text ∧ decimalValue text ≤ 65535 := by
    unfold parseU16
    split
    · next hle =>
      have hone : decimalValue text ≠ 0 ↔ 1 ≤ decimalValue text := Nat.one_le_iff_ne_zero.symm
      simp only [Option.any_some, decide_eq_true_eq]
      rw [hone, and_iff_left hle]
    · next hgt => simp [hgt]
  simp only [validRegistryPort, Option.any_some, Bool.and_eq_true, decide_eq_true_eq,
    List.all_eq_true, hparse, and_assoc]
  rfl

theorem mem_portSuffix_cases (h : suffix ∈ portSuffix) :
    suffix = [] ∨ ∃ p ∈ port, suffix = ':' :: p := by
  rcases (Language.mem_add ..).mp h with rfl | h
  · exact .inl rfl
  · obtain ⟨colon, rfl, p, hp, rfl⟩ := Language.mem_mul.mp h
    exact .inr ⟨p, hp, rfl⟩

theorem colon_mem_portSuffix (h : text ∈ port) : ':' :: text ∈ portSuffix := by
  have hcolon : [':'] ++ text ∈ ({[':']} : Language Char) * port := Language.append_mem_mul rfl h
  exact .inr hcolon

theorem mem_portSuffix_iff :
    text ∈ portSuffix ↔ text = [] ∨ validRegistryPort (stripPrefix ':' text) = true := by
  constructor
  · intro h
    rcases mem_portSuffix_cases h with rfl | ⟨p, hp, rfl⟩
    · exact .inl rfl
    · exact .inr (mem_port_iff.mpr hp)
  · rintro (rfl | h)
    · exact .inl rfl
    · cases hstrip : stripPrefix ':' text with
      | none =>
          rw [hstrip] at h
          cases h
      | some p =>
          rw [hstrip] at h
          rw [stripPrefix_eq_some_iff.mp hstrip]
          exact colon_mem_portSuffix (mem_port_iff.mp h)

theorem isAlphanum_iff_ne_dash {c : Char} (h : c.isAlphanum = true ∨ c = '-') :
    c.isAlphanum = true ↔ c ≠ '-' := by
  rcases h with h | rfl
  · refine iff_of_true h ?_
    rintro rfl
    cases h
  · exact iff_of_false (by decide) (fun hne => hne rfl)

theorem any_isAlphanum_iff {outer : Option Char} (hsome : outer.isSome = true)
    (h : ∀ c ∈ outer, c.isAlphanum = true ∨ c = '-') :
    outer.any Char.isAlphanum = true ↔ outer ≠ some '-' := by
  obtain ⟨c, rfl⟩ := Option.isSome_iff_exists.mp hsome
  rw [Option.any_some, isAlphanum_iff_ne_dash (h c rfl), Ne, Ne, Option.some.injEq]

theorem mem_label_iff : validLabel text = true ↔ text ∈ label := by
  have hpos : text ≠ [] ↔ 1 ≤ text.length := List.length_pos_iff.symm
  simp only [validLabel, Bool.and_eq_true, decide_eq_true_eq, List.all_eq_true, Bool.or_eq_true,
    and_assoc, hpos]
  refine and_congr_right fun hne => and_congr_right fun _ => and_congr_right fun hall => ?_
  have hfirst : text.head?.isSome = true := List.isSome_head?.mpr (hpos.mpr hne)
  have hlast : text.getLast?.isSome = true := List.getLast?_isSome.mpr (hpos.mpr hne)
  rw [any_isAlphanum_iff hfirst fun c hc => hall c (List.mem_of_mem_head? hc),
    any_isAlphanum_iff hlast fun c hc => hall c (List.mem_of_getLast? hc)]

theorem mem_host_iff : text ∈ host ↔ ∀ part ∈ text.splitOn '.', validLabel part = true := by
  have hdot : ∀ w ∈ label, '.' ∉ w := by
    intro w hw hmem
    rcases hw.2.2.1 '.' hmem with h | h <;> cases h
  rw [host, mem_delimited_iff hdot]
  exact forall₂_congr fun part _ => mem_label_iff.symm

theorem not_mem_host {a : Char} (halnum : a.isAlphanum = false) (hdash : a ≠ '-')
    (hdot : a ≠ '.') (h : text ∈ host) : a ∉ text := by
  refine not_mem_of_mem_delimited ?_ ?_ h
  · intro w hw hmem
    rcases hw.2.2.1 a hmem with ha | ha
    · rw [halnum] at ha
      cases ha
    · exact hdash ha
  · rintro s (rfl : s = ['.'])
    simpa using hdot

theorem not_mem_port {a : Char} (ha : a.isDigit = false) (h : text ∈ port) : a ∉ text := by
  intro hmem
  have hdigit := h.2.1 a hmem
  rw [ha] at hdigit
  cases hdigit

theorem ne_nil_of_mem_host (h : text ∈ host) : text ≠ [] := by
  rintro rfl
  have hnil := mem_host_iff.mp h []
  simp [validLabel] at hnil

theorem mem_domain_of_literal {address : List Char} (haddress : address ∈ ipv6Address)
    (hsuffix : suffix ∈ portSuffix) : '[' :: (address ++ ']' :: suffix) ∈ domain := by
  have hliteral : ['['] ++ (address ++ [']']) ∈ ipv6Literal :=
    Language.append_mem_mul rfl (Language.append_mem_mul haddress rfl)
  have hname : ['['] ++ (address ++ [']']) ∈ host + ipv6Literal := .inr hliteral
  have hdomain : ['['] ++ (address ++ [']']) ++ suffix ∈ domain :=
    Language.append_mem_mul hname hsuffix
  simpa using hdomain

theorem mem_domain_of_host {name : List Char} (hname : name ∈ host)
    (hsuffix : suffix ∈ portSuffix) : name ++ suffix ∈ domain := by
  have hname : name ∈ host + ipv6Literal := .inl hname
  exact Language.append_mem_mul hname hsuffix

/-- A domain is a host or an address in brackets, before its port. -/
theorem mem_domain_cases (h : text ∈ domain) :
    (∃ name suffix, text = name ++ suffix ∧ name ∈ host ∧ suffix ∈ portSuffix) ∨
      ∃ address suffix, text = '[' :: (address ++ ']' :: suffix) ∧ address ∈ ipv6Address ∧
        suffix ∈ portSuffix := by
  obtain ⟨name, hname, suffix, hsuffix, rfl⟩ := Language.mem_mul.mp h
  rcases hname with hname | hname
  · exact .inl ⟨name, suffix, rfl, hname, hsuffix⟩
  · obtain ⟨opening, rfl, rest, hrest, rfl⟩ := Language.mem_mul.mp hname
    obtain ⟨address, haddress, closing, rfl, rfl⟩ := Language.mem_mul.mp hrest
    exact .inr ⟨address, suffix, by simp, haddress, hsuffix⟩

theorem validRegistryDomain_of_literal {address : List Char} (haddress : address ∈ ipv6Address)
    (hsuffix : suffix ∈ portSuffix) :
    validRegistryDomain ('[' :: (address ++ ']' :: suffix)) = true := by
  have hclosing : ']' ∉ address := fun hmem => by
    cases isAddressChar_of_mem_ipv6Address haddress hmem
  have hsplit : splitOnce ']' (address ++ ']' :: suffix) = some (address, suffix) :=
    splitOnce_eq_some_iff.mpr ⟨hclosing, rfl⟩
  have hport := mem_portSuffix_iff.mp hsuffix
  have hv6 : isIpv6Addr address = true := haddress
  simp only [validRegistryDomain, stripPrefix, if_true, hsplit, hv6, Bool.true_and,
    Bool.or_eq_true, decide_eq_true_eq]
  exact hport

theorem validRegistryDomain_of_host {name : List Char} (hname : name ∈ host)
    (hsuffix : suffix ∈ portSuffix) : validRegistryDomain (name ++ suffix) = true := by
  have hne := ne_nil_of_mem_host hname
  have hcolon : ':' ∉ name := not_mem_host rfl (by decide) (by decide) hname
  have hopening : stripPrefix '[' (name ++ suffix) = none := by
    cases name with
    | nil => exact absurd rfl hne
    | cons c name =>
        have hopening : '[' ∉ c :: name := not_mem_host rfl (by decide) (by decide) hname
        have hc : c ≠ '[' := fun heq => hopening (heq ▸ List.mem_cons_self)
        simp [stripPrefix, hc]
  have hlabels : (name.splitOn '.').all validLabel = true :=
    List.all_eq_true.mpr (mem_host_iff.mp hname)
  rcases mem_portSuffix_cases hsuffix with rfl | ⟨p, hp, rfl⟩
  · have hnone : rsplitOnce ':' name = none := rsplitOnce_eq_none_iff.mpr hcolon
    simp only [List.append_nil] at hopening ⊢
    simp [validRegistryDomain, hopening, hnone, hcolon, hne, hlabels]
  · have hdigits : ':' ∉ p := not_mem_port rfl hp
    have hsome : rsplitOnce ':' (name ++ ':' :: p) = some (name, p) :=
      rsplitOnce_eq_some_iff.mpr ⟨hdigits, rfl⟩
    simp [validRegistryDomain, hopening, hsome, hcolon, hne, hlabels, mem_port_iff.mpr hp]

theorem mem_domain_iff : validRegistryDomain text = true ↔ text ∈ domain := by
  constructor
  · intro h
    unfold validRegistryDomain at h
    split at h
    · next rest hstrip =>
      split at h
      · cases h
      · next address suffix hsplit =>
        simp only [Bool.and_eq_true, Bool.or_eq_true, decide_eq_true_eq] at h
        rw [stripPrefix_eq_some_iff.mp hstrip, (splitOnce_eq_some_iff.mp hsplit).2]
        exact mem_domain_of_literal h.1 (mem_portSuffix_iff.mpr h.2)
    · cases hsplit : rsplitOnce ':' text with
      | none =>
          simp only [hsplit] at h
          split at h
          · cases h
          · have hname := mem_host_iff.mpr (List.all_eq_true.mp (Bool.and_eq_true_iff.mp h).2)
            rw [← List.append_nil text]
            exact mem_domain_of_host hname (.inl rfl)
      | some halves =>
          obtain ⟨name, p⟩ := halves
          simp only [hsplit] at h
          split at h
          · cases h
          · next hport =>
            have hp : validRegistryPort (some p) = true := by
              by_contra hinvalid
              exact hport (by simp [hinvalid])
            have hname := mem_host_iff.mpr (List.all_eq_true.mp (Bool.and_eq_true_iff.mp h).2)
            rw [(rsplitOnce_eq_some_iff.mp hsplit).2]
            exact mem_domain_of_host hname (colon_mem_portSuffix (mem_port_iff.mp hp))
  · intro h
    rcases mem_domain_cases h with ⟨name, suffix, rfl, hname, hsuffix⟩ |
      ⟨address, suffix, rfl, haddress, hsuffix⟩
    · exact validRegistryDomain_of_host hname hsuffix
    · exact validRegistryDomain_of_literal haddress hsuffix

end Domains

section References

variable {text : List Char}

theorem slash_not_mem_component (h : text ∈ component) : '/' ∉ text := by
  refine not_mem_of_mem_delimited ?_ ?_ h
  · intro w hw hmem
    cases hw.2 '/' hmem
  · rintro s (((rfl | rfl) | rfl) | hs) hmem
    · simp at hmem
    · simp at hmem
    · simp at hmem
    · cases hs.2 '/' hmem

theorem slash_not_mem_portSuffix (h : text ∈ portSuffix) : '/' ∉ text := by
  rcases mem_portSuffix_cases h with rfl | ⟨p, hp, rfl⟩
  · exact List.not_mem_nil
  · simpa using not_mem_port rfl hp

theorem slash_not_mem_domain (h : text ∈ domain) : '/' ∉ text := by
  rcases mem_domain_cases h with ⟨name, suffix, rfl, hname, hsuffix⟩ |
    ⟨address, suffix, rfl, haddress, hsuffix⟩
  · have hslash : '/' ∉ name := not_mem_host rfl (by decide) (by decide) hname
    simp [hslash, slash_not_mem_portSuffix hsuffix]
  · have hslash : '/' ∉ address := fun hmem => by
      cases isAddressChar_of_mem_ipv6Address haddress hmem
    simp [hslash, slash_not_mem_portSuffix hsuffix]

theorem mem_path_iff :
    text ∈ path ↔ ∀ part ∈ text.splitOn '/', validRepositoryComponent part = true := by
  rw [path, mem_delimited_iff fun w hw => slash_not_mem_component hw]
  exact forall₂_congr fun part _ => mem_component_iff.symm

theorem mem_domain_path_iff {first second : List Char} {rest : List (List Char)}
    (h : text.splitOn '/' = first :: second :: rest) :
    text ∈ domain * ({['/']} * path) ↔ validRegistryDomain first = true ∧
      ∀ part ∈ second :: rest, validRepositoryComponent part = true := by
  rw [mem_domain_iff]
  constructor
  · intro htext
    obtain ⟨name, hname, tail, htail, rfl⟩ := Language.mem_mul.mp htext
    obtain ⟨slash, rfl, names, hnames, rfl⟩ := Language.mem_mul.mp htail
    have hslash := slash_not_mem_domain hname
    rw [List.singleton_append, List.splitOn_append_cons_self_of_not_mem hslash] at h
    obtain ⟨rfl, hrest⟩ := List.cons.inj h
    exact ⟨hname, hrest ▸ mem_path_iff.mp hnames⟩
  · rintro ⟨hfirst, hrest⟩
    have htext : text = first ++ (['/'] ++ ['/'].intercalate (second :: rest)) := by
      rw [← List.append_assoc, ← List.intercalate_cons_cons, ← h, List.intercalate_splitOn]
    have hnames : ['/'].intercalate (second :: rest) ∈ path :=
      intercalate_mem_delimited (List.cons_ne_nil _ _) fun part hpart =>
        mem_component_iff.mp (hrest part hpart)
    rw [htext]
    exact Language.append_mem_mul hfirst (Language.append_mem_mul rfl hnames)

theorem looksLikeDomain_iff : looksLikeDomain text = true ↔
    text = "localhost".toList ∨ '.' ∈ text ∨ ':' ∈ text ∨ text.head? = some '[' := by
  simp only [looksLikeDomain, Bool.or_eq_true, decide_eq_true_eq, List.contains_iff_mem,
    or_assoc]

/-- The decision which the check takes on the parts. -/
theorem pathStart_iff : ((text.splitOn '/').length > 1 &&
    (text.splitOn '/').head?.any looksLikeDomain) = true ↔ HasDomain text := by
  rw [HasDomain]
  simp only [← looksLikeDomain_iff]
  cases text.splitOn '/' with
  | nil => simp
  | cons first rest =>
    cases rest with
    | nil => simp
    | cons second rest => simp

/-- No empty part has to be refused for itself. -/
theorem reference_iff : Reference text ↔ (∀ part ∈ text.splitOn '/', part ≠ []) ∧
    (HasDomain text → (text.splitOn '/').head?.any validRegistryDomain = true ∧
      ∀ part ∈ (text.splitOn '/').tail, validRepositoryComponent part = true) ∧
    (¬ HasDomain text → ∀ part ∈ text.splitOn '/', validRepositoryComponent part = true) := by
  have hcomponent : validRepositoryComponent [] ≠ true := by
    intro h
    cases h
  have hname : validRegistryDomain [] ≠ true := by
    intro h
    cases h
  by_cases hdomain : HasDomain text
  · obtain ⟨first, second, rest, hsplit, -⟩ := id hdomain
    simp only [Reference, hdomain, not_true_eq_false, false_imp_iff, true_imp_iff, and_true]
    rw [mem_domain_path_iff hsplit, hsplit]
    simp only [List.head?_cons, Option.any_some, List.tail_cons]
    refine (and_iff_right_of_imp ?_).symm
    rintro ⟨hfirst, hrest⟩ part hpart rfl
    rcases List.mem_cons.mp hpart with rfl | hpart
    · exact hname hfirst
    · exact hcomponent (hrest [] hpart)
  · simp only [Reference, hdomain, not_false_eq_true, false_imp_iff, true_imp_iff, true_and]
    rw [mem_path_iff]
    refine (and_iff_right_of_imp ?_).symm
    rintro hparts part hpart rfl
    exact hcomponent (hparts [] hpart)

end References

/-- The check accepts the words of the grammar. -/
theorem isValidRegistryRepository_iff (value : String) :
    isValidRegistryRepository value = true ↔
      value ≠ "" ∧ isAscii value.toList = true ∧
        value.utf8ByteSize ≤ maxRegistryRepositoryBytes ∧ '@' ∉ value.toList ∧
          Reference value.toList := by
  unfold isValidRegistryRepository
  simp only
  split
  · next hguard =>
    simp only [Bool.or_eq_true, decide_eq_true_eq, Bool.not_eq_true', List.contains_iff_mem]
      at hguard
    refine iff_of_false (fun h => by cases h) ?_
    rintro ⟨hempty, hascii, hsize, hat, -⟩
    rcases hguard with ((h | h) | h) | h
    · exact hempty h
    · exact absurd hsize (not_le.mpr h)
    · rw [hascii] at h
      cases h
    · exact hat h
  · next hguard =>
    simp only [Bool.or_eq_true, decide_eq_true_eq, Bool.not_eq_true', List.contains_iff_mem,
      not_or, not_lt, Bool.not_eq_false] at hguard
    obtain ⟨⟨⟨hempty, hsize⟩, hascii⟩, hat⟩ := hguard
    rw [and_iff_right hempty, and_iff_right hascii, and_iff_right hsize, and_iff_right hat,
      reference_iff, ← pathStart_iff]
    split
    · next hempty =>
      refine iff_of_false (fun h => by cases h) fun h => ?_
      obtain ⟨part, hpart, hnil⟩ := List.any_eq_true.mp hempty
      exact h.1 part hpart (of_decide_eq_true hnil)
    · next hparts =>
      have hparts : ∀ part ∈ value.toList.splitOn '/', part ≠ [] := fun part hpart hnil =>
        hparts (List.any_eq_true.mpr ⟨part, hpart, decide_eq_true hnil⟩)
      rw [and_iff_right hparts]
      cases decide ((value.toList.splitOn '/').length > 1) &&
          (value.toList.splitOn '/').head?.any looksLikeDomain with
      | true => simp [List.all_eq_true]
      | false => simp [List.all_eq_true]

end RegistryRepository

end Rsctf
