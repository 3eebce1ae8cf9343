import Mathlib.Data.List.Basic

/-!
# Internet addresses as text

IPv4 addresses in dotted decimal and IPv6 addresses with their `::`.  An
address is its sixteen bytes; an IPv4 address is mapped into them.
-/

namespace InternetAddresses

/-- A decimal number from 0 to 255 without leading zeros. -/
def readOctet (text : List Char) : Option Nat :=
  if text = [] ∨ !text.all Char.isDigit ∨
      (text.head? = some '0' ∧ text.length ≠ 1) ∨ 3 < text.length then
    none
  else
    let value := Nat.ofDigitChars 10 text 0
    if value ≤ 255 then some value else none

def readIPv4 (text : List Char) : Option (List Nat) :=
  let parts := text.splitOn '.'
  if parts.length = 4 then parts.mapM readOctet else none

/-- The value of a hexadecimal digit. -/
def hexValue (char : Char) : Option Nat :=
  if '0' ≤ char ∧ char ≤ '9' then some (char.toNat - '0'.toNat)
  else if 'a' ≤ char ∧ char ≤ 'f' then some (char.toNat - 'a'.toNat + 10)
  else if 'A' ≤ char ∧ char ≤ 'F' then some (char.toNat - 'A'.toNat + 10)
  else none

def isHexDigit (char : Char) : Bool := (hexValue char).isSome

/-- The number of hexadecimal digits. -/
def hexNumber (digits : List Char) : Nat :=
  digits.foldl (fun value digit => 16 * value + (hexValue digit).getD 0) 0

/-- What the groups of an IPv6 address leave: the bytes, the number of
bytes in front of the `::`, and the text behind. -/
structure IPv6Parts where
  bytes : List Nat := []
  ellipsis : Option Nat := none
  rest : List Char
  deriving DecidableEq, Repr

/-- What follows a group of digits. -/
inductive AfterGroup where
  | done (parts : IPv6Parts)
  | more (parts : IPv6Parts)
  deriving DecidableEq, Repr

/-- One group of up to four digits, or an IPv4 address at the end. -/
def readGroup (parts : IPv6Parts) : Option AfterGroup :=
  let digits := parts.rest.takeWhile isHexDigit
  let behind := parts.rest.dropWhile isHexDigit
  if digits = [] ∨ 4 < digits.length then none
  else
    let number := hexNumber digits
    let bytes := parts.bytes ++ [number / 256, number % 256]
    match behind with
    | [] => some (.done { parts with bytes := bytes, rest := [] })
    | '.' :: _ =>
        if (parts.ellipsis = none ∧ parts.bytes.length ≠ 12) ∨
            12 < parts.bytes.length then none
        else
          (readIPv4 parts.rest).map fun address =>
            .done { parts with bytes := parts.bytes ++ address, rest := [] }
    | ':' :: ':' :: rest =>
        if parts.ellipsis.isSome then none
        else if rest = [] then
          some (.done {
            bytes := bytes, ellipsis := some bytes.length, rest := [] })
        else
          some (.more {
            bytes := bytes, ellipsis := some bytes.length, rest := rest })
    | ':' :: rest =>
        if rest = [] then none
        else some (.more { parts with bytes := bytes, rest := rest })
    | _ => none

/-- At most so many groups. -/
def readGroups : Nat → IPv6Parts → Option IPv6Parts
  | 0, parts => some parts
  | groups + 1, parts =>
      match readGroup parts with
      | none => none
      | some (.done parts) => some parts
      | some (.more parts) => readGroups groups parts

/-- The sixteen bytes of the parts. -/
def IPv6Parts.expand (parts : IPv6Parts) : Option (List Nat) :=
  if parts.rest ≠ [] then none
  else
    match parts.ellipsis with
    | none => if parts.bytes.length = 16 then some parts.bytes else none
    | some front =>
        if parts.bytes.length < 16 then
          some (parts.bytes.take front ++
            List.replicate (16 - parts.bytes.length) 0 ++
              parts.bytes.drop front)
        else none

/-- An address without a zone. -/
def readIPv6 (text : List Char) : Option (List Nat) :=
  match text with
  | [':', ':'] => some (List.replicate 16 0)
  | ':' :: ':' :: rest =>
      (readGroups 8 { ellipsis := some 0, rest := rest }).bind
        IPv6Parts.expand
  | _ => (readGroups 8 { rest := text }).bind IPv6Parts.expand

/-- The bytes in front of those of a mapped IPv4 address. -/
def mappedPrefix : List Nat := List.replicate 10 0 ++ [255, 255]

/-- Either kind of address, by its first punctuation; zones are
refused. -/
def readAddress (text : List Char) : Option (List Nat) :=
  match text.find? fun char => char = '.' || char = ':' || char = '%' with
  | some '.' => (readIPv4 text).map fun address => mappedPrefix ++ address
  | some ':' => readIPv6 text
  | _ => none

/-- The addresses of the host itself: `127.0.0.0/8` and `::1`. -/
def isLoopback (address : List Nat) : Bool :=
  if address.take 12 = mappedPrefix then address[12]? = some 127
  else address = List.replicate 15 0 ++ [1]

example : (readAddress "127.0.0.1".toList).map isLoopback = some true := by
  decide

example : (readAddress "::1".toList).map isLoopback = some true := by decide

example : (readAddress "::ffff:127.0.0.1".toList).map isLoopback =
    some true := by
  decide

example : (readAddress "2001:db8::7".toList).map isLoopback = some false := by
  decide

end InternetAddresses
