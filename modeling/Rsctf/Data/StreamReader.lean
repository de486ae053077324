import Mathlib.Data.List.Basic

/-!
# Readers of a stream

A reader asks for some symbols of a stream, and goes on by what they are, until it is done.
The symbols arrive in chunks; what is not used yet waits.  How a stream is cut into chunks
makes no difference.  A reader is bounded when it never asks for too many symbols at a time.
-/

universe u v w

/-- A reader which is done, or asks for a number of symbols. -/
inductive Reader (γ : Type u) (α : Type v)
  | done (a : α)
  | take (n : ℕ) (next : List γ → Reader γ α)

namespace Reader

variable {γ : Type u} {α β : Type v}

/-- Go on as long as there are symbols enough; what is left waits. -/
def feed : Reader γ α → List γ → Reader γ α × List γ
  | done a, rest => (done a, rest)
  | take n next, buffer =>
    if n ≤ buffer.length then (next (buffer.take n)).feed (buffer.drop n) else (take n next, buffer)

def bind : Reader γ α → (α → Reader γ β) → Reader γ β
  | done a, f => f a
  | take n next, f => take n fun symbols => (next symbols).bind f

/-- The chunks of a stream, one after the other. -/
def feedChunks (reader : Reader γ α) (chunks : List (List γ)) : Reader γ α × List γ :=
  chunks.foldl (fun state chunk => state.1.feed (state.2 ++ chunk)) (reader, [])

/-- No request is for more than a number of symbols. -/
def Bounded (bound : ℕ) : Reader γ α → Prop
  | done _ => True
  | take n next => n ≤ bound ∧ ∀ symbols, symbols.length = n → Bounded bound (next symbols)

variable {reader : Reader γ α} {buffer more : List γ} {bound : ℕ}

/-- What was read stays read when more arrives. -/
theorem feed_append (reader : Reader γ α) (buffer more : List γ) :
    reader.feed (buffer ++ more) =
      (reader.feed buffer).1.feed ((reader.feed buffer).2 ++ more) := by
  induction reader generalizing buffer with
  | done a => rfl
  | take n next ih =>
    by_cases hn : n ≤ buffer.length
    · have hlong : n ≤ (buffer ++ more).length := by
        rw [List.length_append]
        exact Nat.le_add_right_of_le hn
      rw [feed, if_pos hlong, feed, if_pos hn, List.take_append_of_le_length hn,
        List.drop_append_of_le_length hn, ih]
    · rw [show (take n next).feed buffer = (take n next, buffer) from if_neg hn]

theorem foldl_feed (chunks : List (List γ)) (reader : Reader γ α) (buffer : List γ) :
    chunks.foldl (fun state chunk => state.1.feed (state.2 ++ chunk)) (reader.feed buffer) =
      reader.feed (buffer ++ chunks.flatten) := by
  induction chunks generalizing buffer with
  | nil => rw [List.flatten_nil, List.append_nil, List.foldl_nil]
  | cons chunk chunks ih =>
    rw [List.foldl_cons, ← feed_append, ih, List.flatten_cons, List.append_assoc]

/-- A stream is read the same however it is cut, once there is a chunk. -/
theorem feedChunks_cons (reader : Reader γ α) (chunk : List γ) (chunks : List (List γ)) :
    reader.feedChunks (chunk :: chunks) = reader.feed ((chunk :: chunks).flatten) := by
  rw [feedChunks, List.foldl_cons, List.nil_append, foldl_feed, List.flatten_cons]

theorem feed_bind (reader : Reader γ α) (f : α → Reader γ β) {buffer rest : List γ} {a : α}
    (h : reader.feed buffer = (done a, rest)) :
    (reader.bind f).feed buffer = (f a).feed rest := by
  induction reader generalizing buffer with
  | done b =>
    obtain ⟨hdone, rfl⟩ := Prod.mk.inj h
    obtain rfl := Reader.done.inj hdone
    rfl
  | take n next ih =>
    by_cases hn : n ≤ buffer.length
    · rw [feed, if_pos hn] at h
      rw [bind, feed, if_pos hn]
      exact ih _ h
    · rw [feed, if_neg hn] at h
      cases h

/-- A request which can be met. -/
theorem feed_take {n : ℕ} {next : List γ → Reader γ α} (h : buffer.length = n) (rest : List γ) :
    (take n next).feed (buffer ++ rest) = (next buffer).feed rest := by
  have hle : n ≤ (buffer ++ rest).length := by
    rw [List.length_append, h]
    exact Nat.le_add_right _ _
  rw [feed, if_pos hle, List.take_left' h, List.drop_left' h]

/-- A reader which was done has got what it had asked for. -/
theorem feed_take_eq_done {n : ℕ} {next : List γ → Reader γ α} {a : α} {rest : List γ}
    (h : (take n next).feed buffer = (done a, rest)) :
    ∃ symbols left, buffer = symbols ++ left ∧ symbols.length = n ∧
      (next symbols).feed left = (done a, rest) := by
  by_cases hn : n ≤ buffer.length
  · rw [feed, if_pos hn] at h
    exact ⟨buffer.take n, buffer.drop n, (List.take_append_drop n buffer).symm,
      List.length_take_of_le hn, h⟩
  · rw [feed, if_neg hn] at h
    cases h

theorem feed_done_eq {a b : α} {rest : List γ} (h : (done a).feed buffer = (done b, rest)) :
    a = b ∧ buffer = rest :=
  ⟨Reader.done.inj (Prod.mk.inj h).1, (Prod.mk.inj h).2⟩

/-- Whatever arrives, a bounded reader stays bounded. -/
theorem Bounded.feed (h : reader.Bounded bound) (buffer : List γ) :
    (reader.feed buffer).1.Bounded bound := by
  induction reader generalizing buffer with
  | done a => exact h
  | take n next ih =>
    by_cases hn : n ≤ buffer.length
    · rw [Reader.feed, if_pos hn]
      exact ih _ (h.2 _ (List.length_take_of_le hn)) _
    · rw [Reader.feed, if_neg hn]
      exact h

theorem Bounded.feedChunks (h : reader.Bounded bound) (chunks : List (List γ)) :
    (reader.feedChunks chunks).1.Bounded bound := by
  cases chunks with
  | nil => exact h
  | cons chunk chunks =>
    rw [feedChunks_cons]
    exact h.feed _

theorem Bounded.bind {f : α → Reader γ β} (h : reader.Bounded bound)
    (hf : ∀ a, (f a).Bounded bound) : (reader.bind f).Bounded bound := by
  induction reader with
  | done a => exact hf a
  | take n next ih => exact ⟨h.1, fun symbols hsymbols => ih symbols (h.2 symbols hsymbols)⟩

end Reader
