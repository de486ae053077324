import Mathlib.Algebra.Order.Group.Int
import Mathlib.Data.List.Nodup
import Mathlib.Data.List.Pairwise

/-!
# Leased operations

A table with one row for each operation in progress.  A caller reserves an operation
under a token and a lease; when the lease has run out another caller may take the row
over; only the caller whose token is in the row can complete it; and a completed row
serves its response until it expires.  An operation is therefore completed at most once
in the lifetime of its row, and everybody is served the response of that completion.
-/

namespace LeaseTable

structure Row (κ τ ρ : Type*) where
  key : κ
  token : τ
  leaseEnd : ℤ
  response : Option ρ
  expiry : ℤ

section Operations

variable {κ τ ρ : Type*} [DecidableEq κ]

/-- Delete some of the rows that have expired. -/
def purge (doomed : List κ) (now : ℤ) (rows : List (Row κ τ ρ)) : List (Row κ τ ρ) :=
  rows.filter fun row => !(decide (row.key ∈ doomed) && decide (row.expiry ≤ now))

/-- Insert a row, or take an open row over whose lease has run out. -/
def reserve (lease lifetime : ℤ) (key : κ) (token : τ) (now : ℤ) (rows : List (Row κ τ ρ)) :
    Option (List (Row κ τ ρ)) :=
  let reserved : Row κ τ ρ := ⟨key, token, now + lease, none, now + lifetime⟩
  match rows.find? fun row => row.key = key with
  | none => some (rows ++ [reserved])
  | some row =>
      if row.response.isNone = true ∧ row.leaseEnd ≤ now then
        some (rows.map fun other => if other.key = key then reserved else other)
      else none

/-- The response of a completed row that has not expired. -/
def read (key : κ) (now : ℤ) (rows : List (Row κ τ ρ)) : Option ρ :=
  (rows.find? fun row =>
    decide (row.key = key) && row.response.isSome && decide (now < row.expiry)).bind Row.response

/-- The tokens a reservation takes a row from. -/
def holders (key : κ) (rows : List (Row κ τ ρ)) : List τ :=
  (rows.filter fun row => row.key = key).map Row.token

variable [DecidableEq τ]

/-- The row is open and belongs to the token. -/
def Row.heldBy (key : κ) (token : τ) (row : Row κ τ ρ) : Bool :=
  decide (row.key = key) && decide (row.token = token) && row.response.isNone

/-- Write the response, if the token still holds the row. -/
def complete (lifetime : ℤ) (key : κ) (token : τ) (response : ρ) (now : ℤ)
    (rows : List (Row κ τ ρ)) : Option (List (Row κ τ ρ)) :=
  if rows.any (Row.heldBy key token) then
    some (rows.map fun row =>
      if row.heldBy key token then { row with response := some response, expiry := now + lifetime }
      else row)
  else none

/-- Give an open row up. -/
def release (key : κ) (token : τ) (rows : List (Row κ τ ρ)) : List (Row κ τ ρ) :=
  rows.filter fun row => !row.heldBy key token

end Operations

/-- A completed operation. -/
structure Commit (κ τ ρ : Type*) where
  key : κ
  token : τ
  response : ρ
  time : ℤ

/-- A response that a caller was given. -/
structure Served (κ ρ : Type*) where
  key : κ
  response : ρ
  time : ℤ

/-- The table with its history, the newest first. -/
structure State (κ τ ρ : Type*) where
  now : ℤ
  rows : List (Row κ τ ρ)
  issued : List τ
  superseded : List τ
  commits : List (Commit κ τ ρ)
  served : List (Served κ ρ)

section Table

variable {κ τ ρ : Type*} {lifetime : ℤ} {s : State κ τ ρ}

/-- What holds of a table and its history at all times. -/
structure Sound (lifetime : ℤ) (s : State κ τ ρ) : Prop where
  keys : (s.rows.map Row.key).Nodup
  tokens : (s.rows.map Row.token).Nodup
  issued : ∀ row ∈ s.rows, row.token ∈ s.issued
  supersededIssued : ∀ token ∈ s.superseded, token ∈ s.issued
  commitsIssued : ∀ c ∈ s.commits, c.token ∈ s.issued
  current : ∀ row ∈ s.rows, row.token ∉ s.superseded
  unused : ∀ row ∈ s.rows, row.response = none → ∀ c ∈ s.commits, c.token ≠ row.token
  completed : ∀ row ∈ s.rows, ∀ response, row.response = some response →
    ∃ c ∈ s.commits, c.key = row.key ∧ c.response = response ∧ row.expiry = c.time + lifetime
  kept : ∀ c ∈ s.commits, s.now < c.time + lifetime →
    ∃ row ∈ s.rows, row.key = c.key ∧ row.response = some c.response ∧
      row.expiry = c.time + lifetime
  past : ∀ c ∈ s.commits, c.time ≤ s.now
  apart : s.commits.Pairwise fun newer older =>
    newer.key = older.key → older.time + lifetime ≤ newer.time
  fenced : ∀ c ∈ s.commits, c.token ∉ s.superseded
  served : ∀ r ∈ s.served, ∃ c ∈ s.commits,
    c.key = r.key ∧ c.response = r.response ∧ c.time ≤ r.time ∧ r.time < c.time + lifetime

namespace Sound

theorem tick (h : Sound lifetime s) {later : ℤ} (forward : s.now ≤ later) :
    Sound lifetime { s with now := later } :=
  { h with
    kept := fun c hc hlive => h.kept c hc (forward.trans_lt hlive)
    past := fun c hc => (h.past c hc).trans forward }

/-- Rows may go when they are open or have expired. -/
theorem filter (h : Sound lifetime s) {p : Row κ τ ρ → Bool}
    (hp : ∀ row ∈ s.rows, p row = false → row.response = none ∨ row.expiry ≤ s.now) :
    Sound lifetime { s with rows := s.rows.filter p } :=
  { h with
    keys := h.keys.sublist (List.filter_sublist.map _)
    tokens := h.tokens.sublist (List.filter_sublist.map _)
    issued := fun row hrow => h.issued row (List.mem_of_mem_filter hrow)
    current := fun row hrow => h.current row (List.mem_of_mem_filter hrow)
    unused := fun row hrow => h.unused row (List.mem_of_mem_filter hrow)
    completed := fun row hrow => h.completed row (List.mem_of_mem_filter hrow)
    kept := by
      intro c hc hlive
      obtain ⟨row, hrow, hkey, hresponse, hexpiry⟩ := h.kept c hc hlive
      refine ⟨row, List.mem_filter.mpr ⟨hrow, ?_⟩, hkey, hresponse, hexpiry⟩
      by_contra hdropped
      rcases hp row hrow (Bool.eq_false_of_not_eq_true hdropped) with hopen | hexpired
      · rw [hopen] at hresponse
        cases hresponse
      · rw [hexpiry] at hexpired
        exact absurd hlive (not_lt.mpr hexpired) }

/-- The row of a key is the only one. -/
theorem row_eq (h : Sound lifetime s) {row row' : Row κ τ ρ} (hrow : row ∈ s.rows)
    (hrow' : row' ∈ s.rows) (hkey : row.key = row'.key) : row = row' :=
  List.inj_on_of_nodup_map h.keys hrow hrow' hkey

/-- The completions of a key lie a lifetime apart: the row of the last one is still there. -/
theorem apart_of_open (h : Sound lifetime s) {held : Row κ τ ρ} (hheld : held ∈ s.rows)
    (hopen : held.response = none) {c : Commit κ τ ρ} (hc : c ∈ s.commits)
    (hkey : held.key = c.key) : c.time + lifetime ≤ s.now := by
  by_contra hlive
  obtain ⟨row, hrow, hrowKey, hresponse, -⟩ := h.kept c hc (not_le.mp hlive)
  rw [h.row_eq hrow hheld (hrowKey.trans hkey.symm), hopen] at hresponse
  cases hresponse

/-- Of the completions of a key at most one is alive at any time. -/
theorem commit_unique (h : Sound lifetime s) {c c' : Commit κ τ ρ} (hc : c ∈ s.commits)
    (hc' : c' ∈ s.commits) (hkey : c.key = c'.key) {time : ℤ} (hpast : c.time ≤ time)
    (hpast' : c'.time ≤ time) (hlive : time < c.time + lifetime)
    (hlive' : time < c'.time + lifetime) : c = c' := by
  have hpairs : s.commits.Pairwise fun c c' =>
      c.key = c'.key → c.time + lifetime ≤ c'.time ∨ c'.time + lifetime ≤ c.time :=
    h.apart.imp fun hcc' hkey => .inr (hcc' hkey)
  have hsymm : Std.Symm fun c c' : Commit κ τ ρ =>
      c.key = c'.key → c.time + lifetime ≤ c'.time ∨ c'.time + lifetime ≤ c.time :=
    ⟨fun c c' hcc' hkey => (hcc' hkey.symm).symm⟩
  by_contra hne
  rcases hpairs.forall hc hc' hne hkey with hle | hle
  · exact absurd hlive (not_lt.mpr (hle.trans hpast'))
  · exact absurd hlive' (not_lt.mpr (hle.trans hpast))

end Sound

end Table

section Operations

variable {κ τ ρ : Type*} [DecidableEq κ] {lease lifetime : ℤ} {key : κ} {token : τ} {now : ℤ}
  {rows rows' : List (Row κ τ ρ)} {s : State κ τ ρ}

/-- A reservation inserts a row, or takes over the open row of its key. -/
theorem reserve_cases (h : reserve lease lifetime key token now rows = some rows') :
    let reserved : Row κ τ ρ := ⟨key, token, now + lease, none, now + lifetime⟩
    (∀ row ∈ rows, row.key ≠ key) ∧ rows' = rows ++ [reserved] ∨
      ∃ row ∈ rows, row.key = key ∧ row.response = none ∧ row.leaseEnd ≤ now ∧
        rows' = rows.map fun other => if other.key = key then reserved else other := by
  unfold reserve at h
  split at h
  case h_1 hnone =>
    refine .inl ⟨fun row hrow hkey => ?_, (Option.some.inj h).symm⟩
    exact List.find?_eq_none.mp hnone row hrow (decide_eq_true hkey)
  case h_2 row hfound =>
    split at h
    case isFalse => cases h
    case isTrue hopen =>
      have hkey : row.key = key := by simpa using List.find?_some hfound
      exact .inr ⟨row, List.mem_of_find?_eq_some hfound, hkey,
        Option.isNone_iff_eq_none.mp hopen.1, hopen.2, (Option.some.inj h).symm⟩

theorem mem_holders {t : τ} : t ∈ holders key rows ↔ ∃ row ∈ rows, row.key = key ∧ row.token = t := by
  simp [holders, and_assoc]

/-- After a reservation the key has the new row, and the other keys keep theirs. -/
theorem mem_reserve (h : reserve lease lifetime key token now rows = some rows')
    {row : Row κ τ ρ} :
    row ∈ rows' ↔ row = ⟨key, token, now + lease, none, now + lifetime⟩ ∨
      row ∈ rows ∧ row.key ≠ key := by
  rcases reserve_cases h with ⟨hnone, rfl⟩ | ⟨held, hheld, hkey, -, -, rfl⟩
  · rw [List.mem_append, List.mem_singleton, or_comm]
    apply or_congr_right
    exact ⟨fun hrow => ⟨hrow, hnone row hrow⟩, And.left⟩
  · rw [List.mem_map]
    constructor
    · rintro ⟨other, hother, rfl⟩
      by_cases hsame : other.key = key
      · exact .inl (if_pos hsame)
      · rw [if_neg hsame]
        exact .inr ⟨hother, hsame⟩
    · rintro (rfl | ⟨hrow, hne⟩)
      · exact ⟨held, hheld, if_pos hkey⟩
      · exact ⟨row, hrow, if_neg hne⟩

theorem nodup_keys_reserve (hnd : (rows.map Row.key).Nodup)
    (h : reserve lease lifetime key token now rows = some rows') : (rows'.map Row.key).Nodup := by
  rcases reserve_cases h with ⟨hnone, rfl⟩ | ⟨held, hheld, hkey, -, -, rfl⟩
  · rw [List.map_append, List.map_singleton, ← List.concat_eq_append]
    apply List.Nodup.concat _ hnd
    intro hmem
    obtain ⟨row, hrow, hsame⟩ := List.mem_map.mp hmem
    exact hnone row hrow hsame
  · rw [List.map_map]
    convert hnd using 1
    apply List.map_congr_left
    intro row _
    rw [Function.comp_apply]
    split
    case isTrue hsame => exact hsame.symm
    case isFalse => rfl

theorem nodup_tokens_reserve (hkeys : (rows.map Row.key).Nodup)
    (htokens : (rows.map Row.token).Nodup) (hfresh : ∀ row ∈ rows, row.token ≠ token)
    (h : reserve lease lifetime key token now rows = some rows') :
    (rows'.map Row.token).Nodup := by
  rcases reserve_cases h with ⟨-, rfl⟩ | ⟨held, hheld, hkey, -, -, rfl⟩
  · rw [List.map_append, List.map_singleton, ← List.concat_eq_append]
    apply List.Nodup.concat _ htokens
    intro hmem
    obtain ⟨row, hrow, hsame⟩ := List.mem_map.mp hmem
    exact hfresh row hrow hsame
  · rw [List.map_map]
    apply List.Nodup.map_on _ hkeys.of_map
    intro row hrow other hother heq
    rw [Function.comp_apply, Function.comp_apply] at heq
    by_cases hsame : row.key = key <;> by_cases hsame' : other.key = key
    · exact List.inj_on_of_nodup_map hkeys hrow hother (hsame.trans hsame'.symm)
    · rw [if_pos hsame, if_neg hsame'] at heq
      exact absurd heq.symm (hfresh other hother)
    · rw [if_neg hsame, if_pos hsame'] at heq
      exact absurd heq (hfresh row hrow)
    · rw [if_neg hsame, if_neg hsame'] at heq
      exact List.inj_on_of_nodup_map htokens hrow hother heq

/-- A reservation finds its key open. -/
theorem response_eq_none_of_reserve (hnd : (rows.map Row.key).Nodup)
    (h : reserve lease lifetime key token now rows = some rows') {row : Row κ τ ρ}
    (hrow : row ∈ rows) (hkey : row.key = key) : row.response = none := by
  rcases reserve_cases h with ⟨hnone, -⟩ | ⟨held, hheld, hheldKey, hopen, -, -⟩
  · exact absurd hkey (hnone row hrow)
  · rw [List.inj_on_of_nodup_map hnd hrow hheld (hkey.trans hheldKey.symm)]
    exact hopen

/-- What is read is the response of a row that has not expired. -/
theorem exists_of_read {response : ρ} (h : read key now rows = some response) :
    ∃ row ∈ rows, row.key = key ∧ row.response = some response ∧ now < row.expiry := by
  obtain ⟨row, hfound, hresponse⟩ := Option.bind_eq_some_iff.mp h
  have hcheck := List.find?_some hfound
  simp only [Bool.and_eq_true, decide_eq_true_iff] at hcheck
  exact ⟨row, List.mem_of_find?_eq_some hfound, hcheck.1.1, hresponse, hcheck.2⟩

namespace Sound

theorem purge (h : Sound lifetime s) (doomed : List κ) :
    Sound lifetime { s with rows := LeaseTable.purge doomed s.now s.rows } := by
  apply h.filter
  intro row _ hdropped
  rw [Bool.not_eq_false', Bool.and_eq_true, decide_eq_true_iff, decide_eq_true_iff] at hdropped
  exact .inr hdropped.2

theorem reserve (h : Sound lifetime s) {rows : List (Row κ τ ρ)} (fresh : token ∉ s.issued)
    (reserved : LeaseTable.reserve lease lifetime key token s.now s.rows = some rows) :
    Sound lifetime
      { s with
        rows := rows
        issued := token :: s.issued
        superseded := holders key s.rows ++ s.superseded } where
  keys := nodup_keys_reserve h.keys reserved
  tokens := by
    apply nodup_tokens_reserve h.keys h.tokens _ reserved
    rintro row hrow rfl
    exact fresh (h.issued row hrow)
  issued := by
    intro row hrow
    rcases (mem_reserve reserved).mp hrow with rfl | ⟨hrow, -⟩
    · exact List.mem_cons_self
    · exact List.mem_cons_of_mem _ (h.issued row hrow)
  supersededIssued := by
    intro t ht
    apply List.mem_cons_of_mem
    rcases List.mem_append.mp ht with ht | ht
    · obtain ⟨row, hrow, -, rfl⟩ := mem_holders.mp ht
      exact h.issued row hrow
    · exact h.supersededIssued t ht
  commitsIssued := fun c hc => List.mem_cons_of_mem _ (h.commitsIssued c hc)
  current := by
    intro row hrow hmem
    rcases (mem_reserve reserved).mp hrow with rfl | ⟨hrow, hne⟩ <;>
      rcases List.mem_append.mp hmem with hmem | hmem
    · obtain ⟨held, hheld, -, htoken⟩ := mem_holders.mp hmem
      have htoken : held.token = token := htoken
      exact fresh (htoken ▸ h.issued held hheld)
    · exact fresh (h.supersededIssued token hmem)
    · obtain ⟨held, hheld, hkey, htoken⟩ := mem_holders.mp hmem
      rw [List.inj_on_of_nodup_map h.tokens hheld hrow htoken] at hkey
      exact hne hkey
    · exact h.current row hrow hmem
  unused := by
    intro row hrow hopen c hc
    rcases (mem_reserve reserved).mp hrow with rfl | ⟨hrow, -⟩
    · intro htoken
      have htoken : c.token = token := htoken
      exact fresh (htoken ▸ h.commitsIssued c hc)
    · exact h.unused row hrow hopen c hc
  completed := by
    intro row hrow response hresponse
    rcases (mem_reserve reserved).mp hrow with rfl | ⟨hrow, -⟩
    · cases hresponse
    · exact h.completed row hrow response hresponse
  kept := by
    intro c hc hlive
    obtain ⟨row, hrow, hkey, hresponse, hexpiry⟩ := h.kept c hc hlive
    refine ⟨row, (mem_reserve reserved).mpr (.inr ⟨hrow, ?_⟩), hkey, hresponse, hexpiry⟩
    intro hsame
    rw [response_eq_none_of_reserve h.keys reserved hrow hsame] at hresponse
    cases hresponse
  past := h.past
  apart := h.apart
  fenced := by
    intro c hc hmem
    rcases List.mem_append.mp hmem with hmem | hmem
    · obtain ⟨row, hrow, hkey, htoken⟩ := mem_holders.mp hmem
      have hopen := response_eq_none_of_reserve h.keys reserved hrow hkey
      exact h.unused row hrow hopen c hc htoken.symm
    · exact h.fenced c hc hmem
  served := h.served

theorem serve (h : Sound lifetime s) {response : ρ}
    (found : LeaseTable.read key s.now s.rows = some response) :
    Sound lifetime { s with served := ⟨key, response, s.now⟩ :: s.served } :=
  { h with
    served := by
      intro r hr
      rcases List.mem_cons.mp hr with rfl | hr
      · obtain ⟨row, hrow, hkey, hresponse, hlive⟩ := exists_of_read found
        obtain ⟨c, hc, hcommit, hsame, hexpiry⟩ := h.completed row hrow response hresponse
        exact ⟨c, hc, hcommit.trans hkey, hsame, h.past c hc, hexpiry ▸ hlive⟩
      · exact h.served r hr }

end Sound

end Operations

section Steps

variable {κ τ ρ : Type*} [DecidableEq κ] [DecidableEq τ] {lease lifetime : ℤ} {key : κ}
  {token : τ} {s : State κ τ ρ}

section Complete

variable {response : ρ} {now : ℤ} {rows rows' : List (Row κ τ ρ)} {row : Row κ τ ρ}

theorem heldBy_iff : row.heldBy key token = true ↔
    row.key = key ∧ row.token = token ∧ row.response = none := by
  simp [Row.heldBy, and_assoc]

/-- The row that a completion writes. -/
def Row.finish (lifetime : ℤ) (response : ρ) (now : ℤ) (row : Row κ τ ρ) : Row κ τ ρ :=
  { row with response := some response, expiry := now + lifetime }

/-- A completion finishes the row its token holds and leaves the others. -/
theorem complete_cases (hkeys : (rows.map Row.key).Nodup)
    (h : complete lifetime key token response now rows = some rows') :
    ∃ held ∈ rows, held.key = key ∧ held.token = token ∧ held.response = none ∧
      rows'.map Row.key = rows.map Row.key ∧ rows'.map Row.token = rows.map Row.token ∧
      ∀ row, row ∈ rows' ↔ row = held.finish lifetime response now ∨
        row ∈ rows ∧ row.key ≠ key := by
  unfold complete at h
  split at h
  case isFalse => cases h
  case isTrue hany =>
    obtain ⟨held, hheld, hholds⟩ := List.any_eq_true.mp hany
    obtain ⟨hkey, htoken, hopen⟩ := heldBy_iff.mp hholds
    obtain rfl := Option.some.inj h
    refine ⟨held, hheld, hkey, htoken, hopen, ?_, ?_, fun row => ?_⟩
    · rw [List.map_map]
      apply List.map_congr_left
      intro row _
      rw [Function.comp_apply]
      split <;> rfl
    · rw [List.map_map]
      apply List.map_congr_left
      intro row _
      rw [Function.comp_apply]
      split <;> rfl
    · rw [List.mem_map]
      constructor
      · rintro ⟨other, hother, rfl⟩
        by_cases hsame : other.key = key
        · rw [List.inj_on_of_nodup_map hkeys hother hheld (hsame.trans hkey.symm), if_pos hholds]
          exact .inl rfl
        · have hnot : ¬other.heldBy key token = true := fun hother =>
            hsame (heldBy_iff.mp hother).1
          rw [if_neg hnot]
          exact .inr ⟨hother, hsame⟩
      · rintro (rfl | ⟨hrow, hne⟩)
        · exact ⟨held, hheld, if_pos hholds⟩
        · exact ⟨row, hrow, if_neg fun hother => hne (heldBy_iff.mp hother).1⟩

end Complete

namespace Sound

theorem release (h : Sound lifetime s) (key : κ) (token : τ) :
    Sound lifetime { s with rows := LeaseTable.release key token s.rows } := by
  apply h.filter
  intro row _ hdropped
  rw [Bool.not_eq_false'] at hdropped
  exact .inl (heldBy_iff.mp hdropped).2.2

theorem complete (h : Sound lifetime s) (positive : 0 < lifetime) {response : ρ}
    {rows : List (Row κ τ ρ)}
    (completed : LeaseTable.complete lifetime key token response s.now s.rows = some rows)
    (delivered : Bool) :
    Sound lifetime
      { s with
        rows := rows
        commits := ⟨key, token, response, s.now⟩ :: s.commits
        served := if delivered then ⟨key, response, s.now⟩ :: s.served else s.served } := by
  obtain ⟨held, hheld, rfl, rfl, hopen, hkeys, htokens, hmem⟩ := complete_cases h.keys completed
  constructor
  case keys => exact hkeys ▸ h.keys
  case tokens => exact htokens ▸ h.tokens
  case supersededIssued => exact h.supersededIssued
  case issued =>
    intro row hrow
    rcases (hmem row).mp hrow with rfl | ⟨hrow, -⟩
    · exact h.issued held hheld
    · exact h.issued row hrow
  case commitsIssued =>
    intro c hc
    rcases List.mem_cons.mp hc with rfl | hc
    · exact h.issued held hheld
    · exact h.commitsIssued c hc
  case current =>
    intro row hrow
    rcases (hmem row).mp hrow with rfl | ⟨hrow, -⟩
    · exact h.current held hheld
    · exact h.current row hrow
  case unused =>
    intro row hrow hrowOpen c hc
    rcases (hmem row).mp hrow with rfl | ⟨hrow, hne⟩
    · cases hrowOpen
    · rcases List.mem_cons.mp hc with rfl | hc
      · intro htoken
        exact hne (congrArg Row.key (List.inj_on_of_nodup_map h.tokens hrow hheld htoken.symm))
      · exact h.unused row hrow hrowOpen c hc
  case completed =>
    intro row hrow found hfound
    rcases (hmem row).mp hrow with rfl | ⟨hrow, -⟩
    · exact ⟨_, List.mem_cons_self, rfl, Option.some.inj hfound, rfl⟩
    · obtain ⟨c, hc, hcommit⟩ := h.completed row hrow found hfound
      exact ⟨c, List.mem_cons_of_mem _ hc, hcommit⟩
  case kept =>
    intro c hc hlive
    rcases List.mem_cons.mp hc with rfl | hc
    · exact ⟨_, (hmem _).mpr (.inl rfl), rfl, rfl, rfl⟩
    · obtain ⟨row, hrow, hkey, hresponse, hexpiry⟩ := h.kept c hc hlive
      refine ⟨row, (hmem row).mpr (.inr ⟨hrow, ?_⟩), hkey, hresponse, hexpiry⟩
      intro hsame
      exact absurd hlive (not_lt.mpr (h.apart_of_open hheld hopen hc (hsame.symm.trans hkey)))
  case past =>
    intro c hc
    rcases List.mem_cons.mp hc with rfl | hc
    · exact le_rfl
    · exact h.past c hc
  case apart =>
    exact List.pairwise_cons.mpr
      ⟨fun c hc hkey => h.apart_of_open hheld hopen hc hkey, h.apart⟩
  case fenced =>
    intro c hc
    rcases List.mem_cons.mp hc with rfl | hc
    · exact h.current held hheld
    · exact h.fenced c hc
  case served =>
    have hold : ∀ r ∈ s.served, ∃ c ∈ ⟨held.key, held.token, response, s.now⟩ :: s.commits,
        c.key = r.key ∧ c.response = r.response ∧ c.time ≤ r.time ∧
          r.time < c.time + lifetime := by
      intro r hr
      obtain ⟨c, hc, hserved⟩ := h.served r hr
      exact ⟨c, List.mem_cons_of_mem _ hc, hserved⟩
    cases delivered with
    | false => exact hold
    | true =>
        intro r hr
        rcases List.mem_cons.mp hr with rfl | hr
        · exact ⟨_, List.mem_cons_self, rfl, rfl, le_rfl, lt_add_of_pos_right _ positive⟩
        · exact hold r hr

end Sound

/-- The steps of the callers and of the clock, in any order. -/
inductive Step (lease lifetime : ℤ) : State κ τ ρ → State κ τ ρ → Prop
  | tick {s : State κ τ ρ} {later : ℤ} (forward : s.now ≤ later) :
      Step lease lifetime s { s with now := later }
  | purge {s : State κ τ ρ} (doomed : List κ) :
      Step lease lifetime s { s with rows := purge doomed s.now s.rows }
  | reserve {s : State κ τ ρ} {key : κ} {token : τ} {rows : List (Row κ τ ρ)}
      (fresh : token ∉ s.issued)
      (reserved : reserve lease lifetime key token s.now s.rows = some rows) :
      Step lease lifetime s
        { s with
          rows := rows
          issued := token :: s.issued
          superseded := holders key s.rows ++ s.superseded }
  | complete {s : State κ τ ρ} {key : κ} {token : τ} {response : ρ} {rows : List (Row κ τ ρ)}
      (completed : complete lifetime key token response s.now s.rows = some rows)
      (delivered : Bool) :
      Step lease lifetime s
        { s with
          rows := rows
          commits := ⟨key, token, response, s.now⟩ :: s.commits
          served := if delivered then ⟨key, response, s.now⟩ :: s.served else s.served }
  | release {s : State κ τ ρ} (key : κ) (token : τ) :
      Step lease lifetime s { s with rows := release key token s.rows }
  | serve {s : State κ τ ρ} {key : κ} {response : ρ} (found : read key s.now s.rows = some response) :
      Step lease lifetime s { s with served := ⟨key, response, s.now⟩ :: s.served }

/-- The tables that the steps lead to from an empty one. -/
inductive Run (lease lifetime : ℤ) : State κ τ ρ → Prop
  | start (now : ℤ) : Run lease lifetime ⟨now, [], [], [], [], []⟩
  | step {s s' : State κ τ ρ} (run : Run lease lifetime s) (next : Step lease lifetime s s') :
      Run lease lifetime s'

theorem Step.sound {s' : State κ τ ρ} (positive : 0 < lifetime) (h : Sound lifetime s)
    (next : Step lease lifetime s s') : Sound lifetime s' := by
  cases next with
  | tick forward => exact h.tick forward
  | purge doomed => exact h.purge doomed
  | reserve fresh reserved => exact h.reserve fresh reserved
  | complete completed delivered => exact h.complete positive completed delivered
  | release key token => exact h.release key token
  | serve found => exact h.serve found

theorem Run.sound (positive : 0 < lifetime) (run : Run lease lifetime s) : Sound lifetime s := by
  induction run with
  | start now => constructor <;> simp
  | step _ next ih => exact next.sound positive ih

end Steps

end LeaseTable
