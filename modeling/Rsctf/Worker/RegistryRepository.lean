import Rsctf.Vpn.AddressText

/-!
# Repositories of images

A worker pulls an image by the repository part of its reference.  The check takes the text
apart at its slashes, tells a domain from a first path component by a few characters, and scans
every component with its separators.
-/

namespace Rsctf

namespace RegistryRepository

def maxRegistryRepositoryBytes : ℕ := 255

def isAscii (text : List Char) : Bool := text.all fun c => c.toNat < 128

/-- The texts before and after the first occurrence. -/
def splitOnce (c : Char) (text : List Char) : Option (List Char × List Char) :=
  if c ∈ text then some (text.takeWhile (· ≠ c), (text.dropWhile (· ≠ c)).tail) else none

/-- The texts before and after the last occurrence. -/
def rsplitOnce (c : Char) (text : List Char) : Option (List Char × List Char) :=
  (splitOnce c text.reverse).map fun (after, before) => (before.reverse, after.reverse)

def stripPrefix (c : Char) : List Char → Option (List Char)
  | [] => none
  | first :: rest => if first = c then some rest else none

section Ipv6

def isHexDigit (c : Char) : Bool :=
  ('0' ≤ c && c ≤ '9') || ('a' ≤ c && c ≤ 'f') || ('A' ≤ c && c ≤ 'F')

/-- Up to four digits of an address. -/
def isHexGroup (text : List Char) : Bool :=
  1 ≤ text.length && text.length ≤ 4 && text.all isHexDigit

def isIpv4Addr (text : List Char) : Bool := (Vpn.parseIpv4 (String.ofList text)).isSome

/-- How many groups of sixteen bits a text has; at its end there may be an IPv4 address. -/
def groupCount (text : List Char) (embedded : Bool) : Option ℕ :=
  if text = [] then some 0
  else
    let groups := text.splitOn ':'
    if groups.all isHexGroup then some groups.length
    else if embedded && groups.dropLast.all isHexGroup && groups.getLast?.any isIpv4Addr then
      some (groups.length + 1)
    else none

/-- The texts before and after the first two colons in a row. -/
def splitCompressed : List Char → Option (List Char × List Char)
  | [] => none
  | c :: rest =>
      if c = ':' ∧ rest.head? = some ':' then some ([], rest.tail)
      else (splitCompressed rest).map fun (head, tail) => (c :: head, tail)

/-- A text which is read as an IPv6 address: eight groups, or at most seven around two colons
which stand for the others. -/
def isIpv6Addr (text : List Char) : Bool :=
  match splitCompressed text with
  | none => groupCount text true = some 8
  | some (head, tail) =>
    match groupCount head false, groupCount tail true with
    | some front, some back => front + back ≤ 7
    | _, _ => false

end Ipv6

/-- The value of decimal digits. -/
def decimalValue (digits : List Char) : ℕ :=
  digits.foldl (fun value digit => 10 * value + (digit.toNat - '0'.toNat)) 0

def parseU16 (digits : List Char) : Option ℕ :=
  if decimalValue digits ≤ 65535 then some (decimalValue digits) else none

def validRegistryPort (port : Option (List Char)) : Bool :=
  port.any fun port => port ≠ [] && port.all Char.isDigit && (parseU16 port).any (· ≠ 0)

def validLabel (label : List Char) : Bool :=
  label ≠ [] && label.length ≤ 63 && (label.all fun c => c.isAlphanum || c = '-') &&
    label.head?.any Char.isAlphanum && label.getLast?.any Char.isAlphanum

def validRegistryDomain (value : List Char) : Bool :=
  match stripPrefix '[' value with
  | some rest =>
    match splitOnce ']' rest with
    | none => false
    | some (address, suffix) =>
      isIpv6Addr address && (suffix = [] || validRegistryPort (stripPrefix ':' suffix))
  | none =>
    let (host, port) := match rsplitOnce ':' value with
      | none => (value, none)
      | some (host, port) => (host, some port)
    if ':' ∈ host || port.any fun port => !validRegistryPort (some port) then false
    else host ≠ [] && (host.splitOn '.').all validLabel

def isLowerOrDigit (c : Char) : Bool := c.isLower || c.isDigit

/-- What follows a separator. -/
def afterSeparator : List Char → Option (List Char)
  | [] => none
  | c :: rest =>
      if c = '.' then some rest
      else if c = '_' then some (if rest.head? = some '_' then rest.tail else rest)
      else if c = '-' then some (rest.dropWhile (· = '-'))
      else none

theorem length_afterSeparator_lt {text next : List Char} (h : afterSeparator text = some next) :
    next.length < text.length := by
  cases text with
  | nil => cases h
  | cons c rest =>
      have hdrop : (rest.dropWhile (· = '-')).length ≤ rest.length :=
        (List.dropWhile_sublist _).length_le
      rw [afterSeparator] at h
      split at h
      · obtain rfl := Option.some.inj h
        simp
      split at h
      · obtain rfl := Option.some.inj h
        rw [List.length_cons]
        split
        · rw [List.length_tail]
          omega
        · omega
      split at h
      · obtain rfl := Option.some.inj h
        rw [List.length_cons]
        omega
      · cases h

/-- The loop over the words of a component. -/
def scanComponent (value : List Char) : Bool :=
  let rest := value.dropWhile isLowerOrDigit
  if rest = [] then true
  else
    match _h : afterSeparator rest with
    | none => false
    | some next => if next.head?.any isLowerOrDigit then scanComponent next else false
termination_by value.length
decreasing_by
  exact (length_afterSeparator_lt _h).trans_le (List.dropWhile_sublist _).length_le

def validRepositoryComponent (value : List Char) : Bool :=
  value.head?.any isLowerOrDigit && scanComponent value

/-- What a first component has to look like to be a domain. -/
def looksLikeDomain (component : List Char) : Bool :=
  component = "localhost".toList || component.contains '.' || component.contains ':' ||
    component.head? = some '['

def isValidRegistryRepository (value : String) : Bool :=
  let text := value.toList
  if value = "" || value.utf8ByteSize > maxRegistryRepositoryBytes || !isAscii text ||
      text.contains '@' then false
  else
    let components := text.splitOn '/'
    if components.any (· = []) then false
    else
      let pathStart := components.length > 1 && components.head?.any looksLikeDomain
      if pathStart && !components.head?.any validRegistryDomain then false
      else (components.drop (if pathStart then 1 else 0)).all validRepositoryComponent

end RegistryRepository

end Rsctf
