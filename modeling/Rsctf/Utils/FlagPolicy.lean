import Rsctf.Data.Placeholders

/-!
# The policy of flags

A normal flag is a text of bounded length without whitespace at its ends.  A template of a
flag must have a placeholder, and its expansion must be a normal flag; its length is counted
from the placeholders, without expanding it.
-/

namespace Rsctf

namespace FlagPolicy

open Placeholder

def normalFlagMaxBytes : ℕ := 127

def guidToken : String := "[GUID]"

def uuidToken : String := "[UUID]"

def teamHashToken : String := "[TEAM_HASH]"

def uuidExpandedBytes : ℕ := 36

def teamHashExpandedBytes : ℕ := 16

/-- The whitespace which a flag may not have at its ends. -/
def isFlagWhitespace (character : Char) : Bool :=
  [0x0009, 0x000A, 0x000B, 0x000C, 0x000D, 0x0020, 0x0085, 0x00A0, 0x1680, 0x2028, 0x2029,
    0x202F, 0x205F, 0x3000, 0xFEFF].contains character.toNat ||
    (0x2000 ≤ character.toNat && character.toNat ≤ 0x200A)

def hasBoundaryWhitespace (value : String) : Bool :=
  value.toList.head?.any isFlagWhitespace || value.toList.getLast?.any isFlagWhitespace

def isBlank (value : String) : Bool := value.toList.all isFlagWhitespace

inductive FlagPolicyError
  | empty
  | surroundingWhitespace
  | tooLong (actual maximum : ℕ)
  | templateTooTrivial
  | invalidAdGrammar
deriving DecidableEq, Repr

def validateNormal (value : String) : Except FlagPolicyError Unit :=
  if value = "" then .error .empty
  else if value.utf8ByteSize > normalFlagMaxBytes then
    .error (.tooLong value.utf8ByteSize normalFlagMaxBytes)
  else if hasBoundaryWhitespace value then .error .surroundingWhitespace
  else .ok ()

/-- The needle occurs in the text. -/
def contains (value needle : String) : Bool := decide (needle.toList <:+: value.toList)

def occurrenceCount (value needle : String) : ℕ := occurrences needle.toList value.toList

/-- `usize::MAX` -/
def usizeMax : ℕ := 18446744073709551615

def checkedAdd (a b : ℕ) : Option ℕ := if a + b ≤ usizeMax then some (a + b) else none

def checkedMul (a b : ℕ) : Option ℕ := if a * b ≤ usizeMax then some (a * b) else none

/-- The length of the expansion, counted on the template. -/
def expandedTemplateBytes (template : String) : Option ℕ := do
  let guids ← checkedMul (occurrenceCount template guidToken)
    (uuidExpandedBytes - guidToken.utf8ByteSize)
  let bytes ← checkedAdd template.utf8ByteSize guids
  let uuids ← checkedMul (occurrenceCount template uuidToken)
    (uuidExpandedBytes - uuidToken.utf8ByteSize)
  let bytes ← checkedAdd bytes uuids
  let hashes ← checkedMul (occurrenceCount template teamHashToken)
    (teamHashExpandedBytes - teamHashToken.utf8ByteSize)
  checkedAdd bytes hashes

def validateDynamicTemplate (template : String) : Except FlagPolicyError Unit :=
  if template = "" then .error .empty
  else if template.utf8ByteSize > normalFlagMaxBytes then
    .error (.tooLong template.utf8ByteSize normalFlagMaxBytes)
  else if hasBoundaryWhitespace template then .error .surroundingWhitespace
  else if !(contains template guidToken || contains template uuidToken ||
      contains template teamHashToken) then .error .templateTooTrivial
  else
    let actual := (expandedTemplateBytes template).getD usizeMax
    if actual > normalFlagMaxBytes then .error (.tooLong actual normalFlagMaxBytes)
    else .ok ()

section Lengths

theorem utf8ByteSize_ofList (l : List Char) :
    (String.ofList l).utf8ByteSize = (l.map Char.utf8Size).sum := by
  induction l with
  | nil => rfl
  | cons c l ih =>
      rw [← List.singleton_append, String.ofList_append, String.utf8ByteSize_append, ih,
        ← String.singleton_eq_ofList, String.utf8ByteSize_singleton, List.map_append,
        List.sum_append]
      rfl

theorem utf8ByteSize_eq (text : String) :
    text.utf8ByteSize = (text.toList.map Char.utf8Size).sum := by
  rw [← utf8ByteSize_ofList, String.ofList_toList]

end Lengths

section Tokens

/-- The placeholders of a template. -/
inductive Token
  | guid
  | uuid
  | teamHash
deriving DecidableEq, Repr

def Token.text : Token → List Char
  | .guid => guidToken.toList
  | .uuid => uuidToken.toList
  | .teamHash => teamHashToken.toList

theorem bracketed_tokens : Bracketed '[' ']' Token.text where
  distinct := by decide
  injective := by
    intro i j h
    cases i <;> cases j <;> first | rfl | exact absurd h (by decide)
  shape := by
    intro i
    cases i with
    | guid => exact ⟨"GUID".toList, by decide⟩
    | uuid => exact ⟨"UUID".toList, by decide⟩
    | teamHash => exact ⟨"TEAM_HASH".toList, by decide⟩

/-- Characters of values: digits of hexadecimal numbers, and dashes. -/
def isPlain (c : Char) : Prop :=
  48 ≤ c.toNat ∧ c.toNat ≤ 57 ∨ 97 ≤ c.toNat ∧ c.toNat ≤ 102 ∨
    65 ≤ c.toNat ∧ c.toNat ≤ 70 ∨ c.toNat = 45

instance : DecidablePred isPlain := fun _ => inferInstanceAs (Decidable (_ ∨ _))

def Plain (text : List Char) : Prop := ∀ c ∈ text, isPlain c

theorem isPlain_utf8Size {c : Char} (h : isPlain c) : c.utf8Size = 1 := by
  have hle : c.val ≤ 0x7F := by
    rw [UInt32.le_iff_toNat_le]
    have hval : c.val.toNat = c.toNat := rfl
    have hmax : (0x7F : UInt32).toNat = 127 := rfl
    unfold isPlain at h
    omega
  exact if_pos hle

theorem isPlain_not_whitespace {c : Char} (h : isPlain c) : isFlagWhitespace c = false := by
  unfold isPlain at h
  simp [isFlagWhitespace]
  omega

theorem not_mem_of_plain {text : List Char} (h : Plain text) {c : Char} (hc : ¬isPlain c) :
    c ∉ text := fun hmem => hc (h c hmem)

theorem Plain.utf8Size {text : List Char} (h : Plain text) :
    (text.map Char.utf8Size).sum = text.length := by
  induction text with
  | nil => rfl
  | cons c text ih =>
      have hc := isPlain_utf8Size (h c List.mem_cons_self)
      rw [List.map_cons, List.sum_cons, hc, ih fun d hd => h d (List.mem_cons_of_mem c hd),
        List.length_cons, Nat.add_comm]

theorem Plain.settled {text : List Char} (h : Plain text) (hlength : 11 ≤ text.length) :
    '[' ∉ text ∧ ']' ∉ text ∧ ∀ i : Token, i.text.length ≤ text.length := by
  refine ⟨not_mem_of_plain h (by decide), not_mem_of_plain h (by decide), fun i => ?_⟩
  have htoken : i.text.length ≤ 11 := by cases i <;> decide
  exact htoken.trans hlength

end Tokens

end FlagPolicy

end Rsctf
