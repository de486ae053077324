import Rsctf.Utils.FlagPolicy

/-!
# Dynamic flags

A flag is generated from a template by three replacements, one for each placeholder.  The
values are two identifiers, random or derived from the operation, and the start of the hash of
the team.  What would panic gives no result here.
-/

namespace Rsctf

namespace FlagGenerator

open Placeholder FlagPolicy

def hexEncode (bytes : List UInt8) : List Char :=
  bytes.flatMap fun byte => [Nat.digitChar (byte.toNat / 16), Nat.digitChar (byte.toNat % 16)]

def hexValue (c : Char) : Option ℕ :=
  if '0' ≤ c ∧ c ≤ '9' then some (c.toNat - '0'.toNat)
  else if 'a' ≤ c ∧ c ≤ 'f' then some (c.toNat - 'a'.toNat + 10)
  else if 'A' ≤ c ∧ c ≤ 'F' then some (c.toNat - 'A'.toNat + 10)
  else none

def hexDecode : List Char → Option (List UInt8)
  | [] => some []
  | [_] => none
  | high :: low :: rest => do
      let high ← hexValue high
      let low ← hexValue low
      let bytes ← hexDecode rest
      return UInt8.ofNat (16 * high + low) :: bytes

/-- The decoded bytes have to fill the slice. -/
def decodeToSlice (text : List Char) (length : ℕ) : Option (Vector UInt8 length) := do
  let bytes ← hexDecode text
  if h : bytes.length = length then return ⟨bytes.toArray, by simpa using h⟩ else none

/-- The first bytes of a text, which have to end where a character ends. -/
def sliceTo : ℕ → List Char → Option (List Char)
  | bytes, [] => if bytes = 0 then some [] else none
  | bytes, c :: rest =>
      if bytes = 0 then some []
      else if c.utf8Size ≤ bytes then (sliceTo (bytes - c.utf8Size) rest).map (c :: ·)
      else none

abbrev Uuid := Vector UInt8 16

/-- The digits of an identifier in groups. -/
def Uuid.toText (uuid : Uuid) : String :=
  let digits := hexEncode uuid.toList
  String.ofList (digits.take 8 ++ ('-' :: (digits.drop 8).take 4) ++
    ('-' :: (digits.drop 12).take 4) ++ ('-' :: (digits.drop 16).take 4) ++
    ('-' :: digits.drop 20))

def replace (text token value : String) : String :=
  String.ofList (replaceAll token.toList value.toList text.toList)

/-- The three replacements. -/
def expand (template guid uuid teamHash : String) : Option String := do
  let seed ← sliceTo (min teamHash.utf8ByteSize 16) teamHash.toList
  return replace (replace (replace template guidToken guid) uuidToken uuid) teamHashToken
    (String.ofList seed)

/-- The random values which one generation may draw. -/
structure Entropy where
  random : Vector UInt8 16
  guid : Uuid
  uuid : Uuid

def generateFlag (entropy : Entropy) (template : Option String) (teamHash : String) :
    Option String :=
  match template.filter fun template => !isBlank template with
  | none => some ("flag\x7b" ++ String.ofList (hexEncode entropy.random.toList) ++ "\x7d")
  | some template => expand template entropy.guid.toText entropy.uuid.toText teamHash

section Retryable

variable (sha256 : ByteArray → Vector UInt8 32)

def sha256Str (input : String) : String :=
  String.ofList (hexEncode (sha256 input.toByteArray).toList)

def deterministicUuid (digest : String) : Option Uuid := do
  let digits ← sliceTo 32 digest.toList
  let bytes ← decodeToSlice digits 16
  let bytes := bytes.set 6 ((bytes.get 6 &&& 0x0f) ||| 0x40)
  return bytes.set 8 ((bytes.get 8 &&& 0x3f) ||| 0x80)

def generateRetryableFlag (template : Option String) (teamHash operationId : String) :
    Option String := do
  let derive := fun domain : String => sha256Str sha256
    ("rsctf:retryable-flag:v1\x00" ++ domain ++ "\x00" ++ teamHash ++ "\x00" ++ operationId)
  let guid ← deterministicUuid (derive "guid")
  let uuid ← deterministicUuid (derive "uuid")
  match template.filter fun template => !isBlank template with
  | none =>
      let digits ← sliceTo 32 (derive "empty").toList
      return "flag\x7b" ++ String.ofList digits ++ "\x7d"
  | some template => expand template guid.toText uuid.toText teamHash

end Retryable

inductive AppError
  | unavailable (message : String)
deriving DecidableEq, Repr

def validateTemplateIfPresent (template : Option String) : Except AppError Unit :=
  match template.filter fun template => !isBlank template with
  | none => .ok ()
  | some template =>
    match validateDynamicTemplate template with
    | .ok () => .ok ()
    | .error _ => .error (.unavailable
        "Challenge flag definition is invalid; ask an administrator to repair it")

def validateGeneratedNormal (flag : String) : Except AppError String :=
  match validateNormal flag with
  | .ok () => .ok flag
  | .error _ => .error (.unavailable
      "Challenge generated an invalid flag; ask an administrator to repair it")

/-- No result of the outer option is a panic. -/
def checked (template : Option String) (generated : Option String) :
    Option (Except AppError String) :=
  match validateTemplateIfPresent template with
  | .error error => some (.error error)
  | .ok () => generated.map validateGeneratedNormal

def generateFlagChecked (entropy : Entropy) (template : Option String) (teamHash : String) :
    Option (Except AppError String) :=
  checked template (generateFlag entropy template teamHash)

def generateRetryableFlagChecked (sha256 : ByteArray → Vector UInt8 32)
    (template : Option String) (teamHash operationId : String) :
    Option (Except AppError String) :=
  checked template (generateRetryableFlag sha256 template teamHash operationId)

section Values

theorem digitChar_spec : ∀ n < 16,
    isPlain (Nat.digitChar n) ∧ hexValue (Nat.digitChar n) = some n := by
  decide

theorem byte_halves (byte : UInt8) : byte.toNat / 16 < 16 ∧ byte.toNat % 16 < 16 := by
  have hlt := byte.toNat_lt
  omega

theorem plain_hexEncode (bytes : List UInt8) : Plain (hexEncode bytes) := by
  intro c hc
  obtain ⟨byte, -, hmem⟩ := List.mem_flatMap.mp hc
  obtain ⟨hhigh, hlow⟩ := byte_halves byte
  rcases List.mem_cons.mp hmem with rfl | hmem
  · exact (digitChar_spec _ hhigh).1
  · rw [List.mem_singleton.mp hmem]
    exact (digitChar_spec _ hlow).1

theorem length_hexEncode (bytes : List UInt8) : (hexEncode bytes).length = 2 * bytes.length := by
  induction bytes with
  | nil => rfl
  | cons byte bytes ih =>
      rw [hexEncode, List.flatMap_cons, List.length_append, ← hexEncode, ih, List.length_cons]
      simp only [List.length_cons, List.length_nil]
      omega

theorem hexDecode_hexEncode (bytes : List UInt8) : hexDecode (hexEncode bytes) = some bytes := by
  induction bytes with
  | nil => rfl
  | cons byte bytes ih =>
      obtain ⟨hhigh, hlow⟩ := byte_halves byte
      have hbyte : UInt8.ofNat (16 * (byte.toNat / 16) + byte.toNat % 16) = byte := by
        rw [Nat.div_add_mod, UInt8.ofNat_toNat]
      have hcons : hexEncode (byte :: bytes) = Nat.digitChar (byte.toNat / 16) ::
          Nat.digitChar (byte.toNat % 16) :: hexEncode bytes := rfl
      rw [hcons, hexDecode, (digitChar_spec _ hhigh).2, (digitChar_spec _ hlow).2, ih]
      exact congrArg (fun first => some (first :: bytes)) hbyte

/-- A slice of plain characters. -/
theorem sliceTo_plain {text : List Char} (h : Plain text) {n : ℕ} (hn : n ≤ text.length) :
    sliceTo n text = some (text.take n) := by
  induction text generalizing n with
  | nil =>
      obtain rfl : n = 0 := Nat.le_zero.mp hn
      rfl
  | cons c text ih =>
      cases n with
      | zero => rfl
      | succ n =>
          have hc := isPlain_utf8Size (h c List.mem_cons_self)
          have hrest := ih (fun d hd => h d (List.mem_cons_of_mem c hd)) (Nat.le_of_succ_le_succ hn)
          rw [sliceTo, if_neg (Nat.succ_ne_zero n), hc, if_pos (Nat.le_add_left ..),
            Nat.add_sub_cancel, hrest]
          rfl

theorem Uuid.toText_spec (uuid : Uuid) :
    Plain uuid.toText.toList ∧ uuid.toText.toList.length = 36 := by
  have hplain := plain_hexEncode uuid.toList
  have hlength : (hexEncode uuid.toList).length = 32 := by
    rw [length_hexEncode, Vector.length_toList]
  have hdash : isPlain '-' := by decide
  rw [Uuid.toText, String.toList_ofList]
  constructor
  · intro c hc
    simp only [List.mem_append, List.mem_cons] at hc
    rcases hc with (((hc | rfl | hc) | rfl | hc) | rfl | hc) | rfl | hc
    · exact hplain c (List.mem_of_mem_take hc)
    · exact hdash
    · exact hplain c (List.mem_of_mem_drop (List.mem_of_mem_take hc))
    · exact hdash
    · exact hplain c (List.mem_of_mem_drop (List.mem_of_mem_take hc))
    · exact hdash
    · exact hplain c (List.mem_of_mem_drop (List.mem_of_mem_take hc))
    · exact hdash
    · exact hplain c (List.mem_of_mem_drop hc)
  · simp [hlength]

end Values

section Expansion

variable {template : String} {t : List (Char ⊕ Token)} {guid uuid seed : List Char}

/-- What a valid template guarantees. -/
theorem of_validateDynamicTemplate (h : validateDynamicTemplate template = .ok ()) :
    template.utf8ByteSize ≤ normalFlagMaxBytes ∧ hasBoundaryWhitespace template = false ∧
      (∃ i : Token, i.text <:+: template.toList) ∧
      (expandedTemplateBytes template).getD usizeMax ≤ normalFlagMaxBytes := by
  unfold validateDynamicTemplate at h
  split at h
  · cases h
  split at h
  · cases h
  next hlong =>
  split at h
  · cases h
  next hwhitespace =>
  split at h
  · cases h
  next htrivial =>
  dsimp only at h
  split at h
  · cases h
  next hactual =>
  refine ⟨not_lt.mp hlong, by simpa using hwhitespace, ?_, not_lt.mp hactual⟩
  simp only [Bool.not_eq_true', Bool.or_eq_false_iff, not_and_or, Bool.not_eq_false,
    contains, decide_eq_true_eq] at htrivial
  rcases htrivial with (hguid | huuid) | hhash
  · exact ⟨.guid, hguid⟩
  · exact ⟨.uuid, huuid⟩
  · exact ⟨.teamHash, hhash⟩

theorem size_token (i : Token) :
    (i.text.map Char.utf8Size).sum = if i = .teamHash then 11 else 6 := by
  cases i <;> decide

/-- The tokens of a text are no longer than the text. -/
theorem places_mul_le (i : Token) (t : List (Char ⊕ Token)) :
    places i t * (i.text.map Char.utf8Size).sum ≤
      ((render Token.text t).map Char.utf8Size).sum := by
  have hempty := sum_render_update (f := Token.text) (i := i) Char.utf8Size [] t
  rw [List.map_nil, List.sum_nil, Nat.mul_zero, Nat.add_zero] at hempty
  omega

theorem expandedTemplateBytes_eq (htext : render Token.text t = template.toList)
    (ht : Tight Token.text t) (hlength : template.utf8ByteSize ≤ normalFlagMaxBytes) :
    expandedTemplateBytes template = some (template.utf8ByteSize + 30 * places .guid t +
      30 * places .uuid t + 5 * places .teamHash t) := by
  have hsettled : Settled '[' ']' Token.text Token.text := fun j => .inl rfl
  have hcount (i : Token) : occurrences i.text template.toList = places i t := by
    rw [← htext]
    exact occurrences_render bracketed_tokens hsettled ht rfl
  have hplaces (i : Token) : places i t ≤ 127 := by
    have hle := places_mul_le i t
    rw [htext, ← utf8ByteSize_eq, size_token] at hle
    unfold normalFlagMaxBytes at hlength
    split at hle <;> omega
  have hguid := hplaces .guid
  have huuid := hplaces .uuid
  have hhash := hplaces .teamHash
  have hguids : occurrenceCount template guidToken = places .guid t := hcount .guid
  have huuids : occurrenceCount template uuidToken = places .uuid t := hcount .uuid
  have hhashes : occurrenceCount template teamHashToken = places .teamHash t := hcount .teamHash
  have hthirty : uuidExpandedBytes - guidToken.utf8ByteSize = 30 := by decide
  have hthirty' : uuidExpandedBytes - uuidToken.utf8ByteSize = 30 := by decide
  have hfive : teamHashExpandedBytes - teamHashToken.utf8ByteSize = 5 := by decide
  have hadd (a b : ℕ) (h : a + b ≤ usizeMax) : checkedAdd a b = some (a + b) := if_pos h
  have hmul (a b : ℕ) (h : a * b ≤ usizeMax) : checkedMul a b = some (a * b) := if_pos h
  unfold normalFlagMaxBytes at hlength
  unfold usizeMax at hadd hmul
  rw [expandedTemplateBytes, hguids, huuids, hhashes, hthirty, hthirty', hfive,
    hmul _ _ (by omega), hmul _ _ (by omega), hmul _ _ (by omega)]
  simp only [Option.bind_eq_bind, Option.bind_some]
  rw [hadd _ _ (by omega), Option.bind_some, hadd _ _ (by omega), Option.bind_some,
    hadd _ _ (by omega)]
  congr 1
  omega

theorem settled_update {f : Token → List Char} (hf : Settled '[' ']' Token.text f) (i : Token)
    {value : List Char} (hvalue : Plain value) (hlength : 11 ≤ value.length) :
    Settled '[' ']' Token.text (Function.update f i value) := by
  intro j
  by_cases hj : j = i
  · rw [hj, Function.update_self]
    exact .inr (hvalue.settled hlength)
  · rw [Function.update_of_ne hj]
    exact hf j

/-- The values of the three placeholders. -/
def filled (guid uuid seed : List Char) : Token → List Char :=
  Function.update (Function.update (Function.update Token.text .guid guid) .uuid uuid)
    .teamHash seed

/-- Values of the lengths which the count takes them to have. -/
structure Values (guid uuid seed : List Char) : Prop where
  guid : Plain guid ∧ guid.length = 36
  uuid : Plain uuid ∧ uuid.length = 36
  seed : Plain seed ∧ seed.length = 16

theorem Values.plain (h : Values guid uuid seed) (j : Token) :
    Plain (filled guid uuid seed j) ∧ filled guid uuid seed j ≠ [] := by
  cases j with
  | guid => exact ⟨h.guid.1, List.ne_nil_of_length_eq_add_one h.guid.2⟩
  | uuid => exact ⟨h.uuid.1, List.ne_nil_of_length_eq_add_one h.uuid.2⟩
  | teamHash => exact ⟨h.seed.1, List.ne_nil_of_length_eq_add_one h.seed.2⟩

theorem settled_text : Settled '[' ']' Token.text Token.text := fun _ => .inl rfl

theorem Values.settled_guid (h : Values guid uuid seed) :
    Settled '[' ']' Token.text (Function.update Token.text .guid guid) :=
  settled_update settled_text .guid h.guid.1 (by rw [h.guid.2]; decide)

theorem Values.settled_uuid (h : Values guid uuid seed) : Settled '[' ']' Token.text
    (Function.update (Function.update Token.text .guid guid) .uuid uuid) :=
  settled_update h.settled_guid .uuid h.uuid.1 (by rw [h.uuid.2]; decide)

theorem Values.settled (h : Values guid uuid seed) :
    Settled '[' ']' Token.text (filled guid uuid seed) :=
  settled_update h.settled_uuid .teamHash h.seed.1 (by rw [h.seed.2]; decide)

/-- The three replacements fill in the placeholders. -/
theorem replace_render (h : Values guid uuid seed)
    (htext : render Token.text t = template.toList) (ht : Tight Token.text t) :
    (replace (replace (replace template guidToken (String.ofList guid)) uuidToken
      (String.ofList uuid)) teamHashToken (String.ofList seed)).toList =
      render (filled guid uuid seed) t := by
  simp only [replace, String.toList_ofList]
  change replaceAll (Token.text .teamHash) seed (replaceAll (Token.text .uuid) uuid
    (replaceAll (Token.text .guid) guid template.toList)) = _
  rw [← htext, replaceAll_render bracketed_tokens settled_text ht rfl,
    replaceAll_render bracketed_tokens h.settled_guid ht rfl,
    replaceAll_render bracketed_tokens h.settled_uuid ht rfl]
  rfl

/-- The length of the expansion is the counted one. -/
theorem sum_render_filled (h : Values guid uuid seed) (t : List (Char ⊕ Token)) :
    ((render (filled guid uuid seed) t).map Char.utf8Size).sum =
      ((render Token.text t).map Char.utf8Size).sum + 30 * places .guid t +
        30 * places .uuid t + 5 * places .teamHash t := by
  have hguid := sum_render_update (f := Token.text) (i := .guid) Char.utf8Size guid t
  have huuid := sum_render_update (f := Function.update Token.text .guid guid) (i := .uuid)
    Char.utf8Size uuid t
  have hseed := sum_render_update (f := Function.update (Function.update Token.text .guid guid)
    .uuid uuid) (i := .teamHash) Char.utf8Size seed t
  rw [size_token, h.guid.1.utf8Size, h.guid.2, if_neg (by decide)] at hguid
  rw [Function.update_of_ne (by decide), size_token, h.uuid.1.utf8Size, h.uuid.2,
    if_neg (by decide)] at huuid
  rw [Function.update_of_ne (by decide), Function.update_of_ne (by decide), size_token,
    h.seed.1.utf8Size, h.seed.2, if_pos rfl] at hseed
  unfold filled
  omega

/-- A flag of the counted length without placeholders, which is a normal one. -/
structure Generated (template flag : String) : Prop where
  bytes : expandedTemplateBytes template = some flag.utf8ByteSize
  no_placeholder : ∀ token ∈ [guidToken, uuidToken, teamHashToken], contains flag token = false
  normal : validateNormal flag = .ok ()

theorem expand_generated (h : Values guid uuid seed)
    (hvalid : validateDynamicTemplate template = .ok ()) :
    Generated template (replace (replace (replace template guidToken (String.ofList guid))
      uuidToken (String.ofList uuid)) teamHashToken (String.ofList seed)) := by
  obtain ⟨t, htext, ht⟩ := bracketed_tokens.exists_tight template.toList
  obtain ⟨hlength, hwhitespace, ⟨i, hi⟩, hbound⟩ := of_validateDynamicTemplate hvalid
  have hrender := replace_render h htext ht
  set flag := replace (replace (replace template guidToken (String.ofList guid)) uuidToken
    (String.ofList uuid)) teamHashToken (String.ofList seed)
  have hsize : flag.utf8ByteSize = template.utf8ByteSize + 30 * places .guid t +
      30 * places .uuid t + 5 * places .teamHash t := by
    rw [utf8ByteSize_eq, hrender, sum_render_filled h, htext, ← utf8ByteSize_eq]
  have hbytes : expandedTemplateBytes template = some flag.utf8ByteSize := by
    rw [expandedTemplateBytes_eq htext ht hlength, hsize]
  have hnone (i : Token) : ¬i.text <:+: flag.toList := by
    rw [hrender]
    exact not_infix_render bracketed_tokens h.settled ht
      (fun j => not_mem_of_plain (h.plain j).1 (by decide)) i
  refine ⟨hbytes, ?_, ?_⟩
  · intro token htoken
    rw [contains, decide_eq_false_iff_not]
    simp only [List.mem_cons, List.not_mem_nil, or_false] at htoken
    rcases htoken with rfl | rfl | rfl
    · exact hnone .guid
    · exact hnone .uuid
    · exact hnone .teamHash
  · have hnonempty : template ≠ "" := by
      rintro rfl
      exact bracketed_tokens.ne_nil i (List.infix_nil.mp hi)
    have hpositive : 0 < template.utf8ByteSize :=
      Nat.pos_of_ne_zero fun hzero => hnonempty (String.utf8ByteSize_eq_zero_iff.mp hzero)
    have hne : flag ≠ "" := by
      intro hempty
      have hzero : flag.utf8ByteSize = 0 := String.utf8ByteSize_eq_zero_iff.mpr hempty
      omega
    have hle : flag.utf8ByteSize ≤ normalFlagMaxBytes := by
      rw [hbytes, Option.getD_some] at hbound
      exact hbound
    have hplain : ∀ j, ∀ c ∈ filled guid uuid seed j, isFlagWhitespace c = false := fun j c hc =>
      isPlain_not_whitespace ((h.plain j).1 c hc)
    have hends : hasBoundaryWhitespace flag = false := by
      rw [hasBoundaryWhitespace, Bool.or_eq_false_iff, ← htext] at hwhitespace
      rw [hasBoundaryWhitespace, Bool.or_eq_false_iff, hrender]
      have hnot (o : Option Char) :
          o.any isFlagWhitespace = false ↔ ∀ c ∈ o, isFlagWhitespace c = false := by
        cases o <;> simp
      rw [hnot, hnot] at hwhitespace ⊢
      exact ⟨forall_head?_render (fun j => (h.plain j).2) hplain hwhitespace.1,
        forall_getLast?_render (fun j => (h.plain j).2) hplain hwhitespace.2⟩
    rw [validateNormal, if_neg hne, if_neg (not_lt.mpr hle), hends]
    rfl

end Expansion

section Results

variable {template teamHash : String} {sha256 : ByteArray → Vector UInt8 32}

/-- A hash in hexadecimal digits. -/
def IsHexHash (text : String) : Prop :=
  (∀ c ∈ text.toList, (hexValue c).isSome = true) ∧ 16 ≤ text.length

theorem isPlain_of_hexValue {c : Char} (h : (hexValue c).isSome = true) : isPlain c := by
  have hle (a b : Char) : a ≤ b ↔ a.toNat ≤ b.toNat := Iff.rfl
  unfold hexValue at h
  simp only [hle] at h
  unfold isPlain
  have hzero : '0'.toNat = 48 := rfl
  have hnine : '9'.toNat = 57 := rfl
  have ha : 'a'.toNat = 97 := rfl
  have hf : 'f'.toNat = 102 := rfl
  have hA : 'A'.toNat = 65 := rfl
  have hF : 'F'.toNat = 70 := rfl
  split at h
  · omega
  split at h
  · omega
  split at h
  · omega
  · cases h

theorem isBlank_eq_false (h : validateDynamicTemplate template = .ok ()) :
    isBlank template = false := by
  obtain ⟨-, -, ⟨i, hi⟩, -⟩ := of_validateDynamicTemplate h
  obtain ⟨body, hbody, -⟩ := bracketed_tokens.shape i
  have hmem : '[' ∈ template.toList := hi.subset (by rw [hbody]; exact List.mem_cons_self)
  rw [isBlank, List.all_eq_false]
  exact ⟨'[', hmem, by decide⟩

/-- Expansion of a valid template. -/
theorem expand_eq_some (hvalid : validateDynamicTemplate template = .ok ())
    (hhash : IsHexHash teamHash) (guid uuid : Uuid) :
    ∃ flag, expand template guid.toText uuid.toText teamHash = some flag ∧
      Generated template flag := by
  have hplain : Plain teamHash.toList := fun c hc => isPlain_of_hexValue (hhash.1 c hc)
  have hlength : 16 ≤ teamHash.toList.length := hhash.2
  have hmin : min teamHash.utf8ByteSize 16 = 16 := by
    rw [utf8ByteSize_eq, hplain.utf8Size]
    exact min_eq_right hlength
  have hvalues : Values guid.toText.toList uuid.toText.toList (teamHash.toList.take 16) :=
    ⟨guid.toText_spec, uuid.toText_spec, fun c hc => hplain c (List.mem_of_mem_take hc),
      by rw [List.length_take, min_eq_left hlength]⟩
  refine ⟨_, ?_, expand_generated hvalues hvalid⟩
  rw [expand, hmin, sliceTo_plain hplain hlength, String.ofList_toList, String.ofList_toList]
  rfl

/-- A digest always holds an identifier. -/
theorem deterministicUuid_sha256Str (sha256 : ByteArray → Vector UInt8 32) (input : String) :
    ∃ uuid, deterministicUuid (sha256Str sha256 input) = some uuid := by
  set bytes := (sha256 input.toByteArray).toList
  have hbytes : bytes.length = 32 := Vector.length_toList
  have hlength : 32 ≤ (hexEncode bytes).length := by
    rw [length_hexEncode, hbytes]
    decide
  have htake : (hexEncode bytes).take 32 = hexEncode (bytes.take 16) := by
    have hsplit : hexEncode bytes = hexEncode (bytes.take 16) ++ hexEncode (bytes.drop 16) := by
      rw [hexEncode, hexEncode, hexEncode, ← List.flatMap_append, List.take_append_drop]
    rw [hsplit, List.take_left']
    rw [length_hexEncode, List.length_take, hbytes]
    rfl
  have hdecode : hexDecode ((hexEncode bytes).take 32) = some (bytes.take 16) := by
    rw [htake, hexDecode_hexEncode]
  have hsixteen : (bytes.take 16).length = 16 := by
    rw [List.length_take, hbytes]
    rfl
  rw [deterministicUuid, sha256Str, String.toList_ofList,
    sliceTo_plain (plain_hexEncode bytes) hlength]
  simp only [Option.bind_eq_bind, Option.bind_some, decodeToSlice, hdecode, hsixteen]
  exact ⟨_, rfl⟩

theorem checked_eq_ok (hvalid : validateDynamicTemplate template = .ok ()) {flag : String}
    (hflag : Generated template flag) : checked (some template) (some flag) = some (.ok flag) := by
  have hfilter : (some template).filter (fun template => !isBlank template) = some template := by
    simp [Option.filter, isBlank_eq_false hvalid]
  rw [checked, validateTemplateIfPresent, hfilter]
  simp only [hvalid, Option.map_some, validateGeneratedNormal, hflag.normal]

/-- A valid template is expanded to a flag of the counted length which is a normal one, and the
checked generators return it. -/
theorem generated_of_template (sha256 : ByteArray → Vector UInt8 32) (entropy : Entropy)
    (template teamHash operationId : String)
    (hvalid : validateDynamicTemplate template = .ok ()) (hhash : IsHexHash teamHash) :
    (∃ flag, generateFlag entropy (some template) teamHash = some flag ∧
        Generated template flag ∧
        generateFlagChecked entropy (some template) teamHash = some (.ok flag)) ∧
      ∃ flag, generateRetryableFlag sha256 (some template) teamHash operationId = some flag ∧
        Generated template flag ∧
        generateRetryableFlagChecked sha256 (some template) teamHash operationId =
          some (.ok flag) := by
  have hfilter : (some template).filter (fun template => !isBlank template) = some template := by
    simp [Option.filter, isBlank_eq_false hvalid]
  constructor
  · obtain ⟨flag, hflag, hgenerated⟩ := expand_eq_some hvalid hhash entropy.guid entropy.uuid
    have hresult : generateFlag entropy (some template) teamHash = some flag := by
      rw [generateFlag, hfilter]
      exact hflag
    refine ⟨flag, hresult, hgenerated, ?_⟩
    rw [generateFlagChecked, hresult, checked_eq_ok hvalid hgenerated]
  · have hresult : ∃ flag,
        generateRetryableFlag sha256 (some template) teamHash operationId = some flag ∧
          Generated template flag := by
      unfold generateRetryableFlag
      obtain ⟨guid, hguid⟩ := deterministicUuid_sha256Str sha256
        ("rsctf:retryable-flag:v1\x00" ++ "guid" ++ "\x00" ++ teamHash ++ "\x00" ++ operationId)
      obtain ⟨uuid, huuid⟩ := deterministicUuid_sha256Str sha256
        ("rsctf:retryable-flag:v1\x00" ++ "uuid" ++ "\x00" ++ teamHash ++ "\x00" ++ operationId)
      obtain ⟨flag, hflag, hgenerated⟩ := expand_eq_some hvalid hhash guid uuid
      refine ⟨flag, ?_, hgenerated⟩
      simp only [hguid, huuid, hfilter, Option.bind_eq_bind, Option.bind_some, hflag]
    obtain ⟨flag, hflag, hgenerated⟩ := hresult
    refine ⟨flag, hflag, hgenerated, ?_⟩
    rw [generateRetryableFlagChecked, hflag, checked_eq_ok hvalid hgenerated]

/-- Placeholders next to each other and inside of what looks like others. -/
theorem generated_of_template_nested :
    ∃ flag, generateRetryableFlag (fun _ => Vector.replicate 32 0)
      (some "flag\x7b[GUID][TEAM_[TEAM_HASH]]\x7d") "0123456789abcdef" "operation-1" = some flag ∧
      Generated "flag\x7b[GUID][TEAM_[TEAM_HASH]]\x7d" flag ∧
      generateRetryableFlagChecked (fun _ => Vector.replicate 32 0)
        (some "flag\x7b[GUID][TEAM_[TEAM_HASH]]\x7d") "0123456789abcdef" "operation-1" =
          some (.ok flag) :=
  (generated_of_template (fun _ => Vector.replicate 32 0)
    ⟨Vector.replicate 16 0, Vector.replicate 16 0, Vector.replicate 16 0⟩
    "flag\x7b[GUID][TEAM_[TEAM_HASH]]\x7d" "0123456789abcdef" "operation-1"
    (by decide +kernel) ⟨List.all_eq_true.mp (by decide +kernel), by decide⟩).2

end Results

end FlagGenerator

end Rsctf
