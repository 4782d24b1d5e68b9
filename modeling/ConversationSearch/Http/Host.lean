import ConversationSearch.Text.Cutting
import ConversationSearch.Text.Encoding
import ConversationSearch.Text.LowerCase

/-!
# Hosts

The host of an address is an IPv6 address in brackets, an IPv4 address, or a name. A host whose last
label is a number has to be an IPv4 address. Percent escapes in a name are resolved, and its letters
become small. Names with characters beyond ASCII are kept as they are.
-/

namespace ConversationSearch

/-- Why a host cannot be used. -/
inductive HostFault
  | empty
  | invalidName
  | invalidAddress4
  | invalidAddress6
  deriving DecidableEq, Repr

namespace HostFault

/-- The wording of a fault. -/
def message : HostFault → String
  | .empty => "empty host"
  | .invalidName => "invalid international domain name"
  | .invalidAddress4 => "invalid IPv4 address"
  | .invalidAddress6 => "invalid IPv6 address"

end HostFault

namespace Host

open Text (splitChars hexValue? hexNumber? isDigit)

/-- Whether a character may not stand in a name. -/
def isForbidden (c : Char) : Bool :=
  c.toNat ≤ 32 || c.toNat = 127 || c.toNat = 0xFFFD || "#/:<>?@[\\]^|%".toList.contains c

/-- The number that a label of an IPv4 address stands for: hexadecimal behind `0x`, octal behind
`0`, decimal otherwise. -/
def labelNumber? : List Char → Option Nat
  | [] => none
  | ['0'] => some 0
  | '0' :: x :: ds =>
    if x = 'x' ∨ x = 'X' then hexNumber? ds
    else if (x :: ds).all fun c => '0' ≤ c && c ≤ '7' then
      some ((x :: ds).foldl (fun n c => 8 * n + (c.toNat - '0'.toNat)) 0)
    else none
  | ds => if ds.all isDigit then some (Text.number ds) else none

/-- The labels of a name, without an empty one at the end. -/
def labels (cs : List Char) : List (List Char) :=
  let all := splitChars '.' cs
  if 1 < all.length ∧ all.getLast? = some [] then all.dropLast else all

/-- Whether a host has to be an IPv4 address. -/
def endsInNumber (cs : List Char) : Bool :=
  match (labels cs).getLast? with
  | none | some [] => false
  | some label => label.all isDigit || (labelNumber? label).isSome

/-- Whether numbers make up an IPv4 address: all but the last are octets, and the last fills what is
left of thirty-two bits. -/
def isAddress4 (ns : List Nat) : Bool :=
  1 ≤ ns.length && ns.length ≤ 4 && ns.dropLast.all (· ≤ 255) &&
    ns.getLast?.any fun n => n < Nat.pow 256 (5 - ns.length)

/-- Whether digits are a decimal octet without zeros in front. -/
def isOctet (ds : List Char) : Bool :=
  !ds.isEmpty && ds.all isDigit && Text.number ds ≤ 255 &&
    (ds.length == 1 || ds.head? != some '0')

/-- Whether a text is an IPv4 address of four decimal octets without zeros in front. -/
def isDottedQuad (cs : List Char) : Bool :=
  let octets := splitChars '.' cs
  octets.length == 4 && octets.all isOctet

/-- Whether a text is a group of sixteen bits: one to four hexadecimal digits. -/
def isGroup (cs : List Char) : Bool :=
  1 ≤ cs.length && cs.length ≤ 4 && cs.all fun c => (hexValue? c).isSome

/-- How many groups of sixteen bits the parts of an IPv6 address between colons hold. -/
def groups? : List (List Char) → Option Nat
  | [] => some 0
  | [part] =>
    if isDottedQuad part then some 2 else if isGroup part then some 1 else none
  | part :: rest => if isGroup part then (groups? rest).map (1 + ·) else none

/-- The parts of a text before and behind the first two colons in a row. -/
def splitGap : List Char → Option (List Char × List Char)
  | ':' :: ':' :: rest => some ([], rest)
  | c :: rest => (splitGap rest).map fun parts => (c :: parts.1, parts.2)
  | [] => none

/-- How many groups a part of an IPv6 address holds; an empty part holds none. -/
def partGroups? (cs : List Char) : Option Nat :=
  if cs.isEmpty then some 0 else groups? (splitChars ':' cs)

/-- Whether a text is an IPv6 address: eight groups, or fewer and two colons for those that are left
out. -/
def isAddress6 (cs : List Char) : Bool :=
  match splitGap cs with
  | none => groups? (splitChars ':' cs) == some 8
  | some (before, behind) =>
    !before.contains '.' &&
      match partGroups? before, partGroups? behind with
      | some m, some n => m + n ≤ 7
      | _, _ => false

/-- Reads a host between brackets, the first of them being taken already. -/
def ofBrackets (cs : List Char) : Except HostFault String :=
  if cs.getLast? = some ']' ∧ isAddress6 cs.dropLast then
    .ok (Text.lower (String.ofList ('[' :: cs)))
  else .error .invalidAddress6

/-- Reads a name or an IPv4 address. -/
def ofName (cs : List Char) : Except HostFault String :=
  match String.fromUTF8? ⟨(Text.Percent.decode cs).toArray⟩ with
  | none => .error .invalidName
  | some decoded =>
    let name := Text.lower decoded
    if name.toList.any isForbidden then .error .invalidName
    else if endsInNumber name.toList then
      match (labels name.toList).mapM labelNumber? with
      | some ns => if isAddress4 ns then .ok name else .error .invalidAddress4
      | none => .error .invalidAddress4
    else .ok name

/-- Reads a host. -/
def parse : List Char → Except HostFault String
  | [] => .error .empty
  | '[' :: cs => ofBrackets cs
  | cs => ofName cs

end Host
end ConversationSearch
