import Mathlib.Algebra.Group.Int.Defs
import Mathlib.Algebra.Group.Nat.Defs
import Mathlib.Data.List.Basic
import Mathlib.Tactic.SplitIfs
import Xoxproxy.Library.TextFields

/-!
# Text and errors as the Go sources handle them

Strings are sequences of Unicode scalar values.  Errors carry their text
and the sentinel errors they wrap, so `errors.Is` is membership.
-/

namespace Xoxproxy

/-- What is fixed when the binary is built: the version banner of
`internal/buildinfo` and the parts of `unicode.IsPrint` and
`unicode.ToLower` above Latin-1, whose tables come with the Go
release. -/
class Build where
  version : String
  gitCommit : String
  goVersion : String
  wideIsPrint : Char → Bool
  wideToLower : Char → Char
  singleLine :
    '\n' ∉ version.toList ∧ '\n' ∉ gitCommit.toList ∧
      '\n' ∉ goVersion.toList

/-- The values of an untagged development build; text above Latin-1 is
escaped and has no lower case. -/
@[reducible] def Build.dev : Build where
  version := "dev"
  gitCommit := "unknown"
  goVersion := "unknown"
  wideIsPrint := fun _ => false
  wideToLower := id
  singleLine := by decide

/-- `errors.New` values that callers test for with `errors.Is`. -/
inductive Sentinel where
  | osNotExist
  | contextCanceled
  | storeNotFound
  | storeConflict
  | engineNotRunning
  | invalidInput
  | usernameTaken
  | versionConflict
  | weakPassword
  | userExpired
  | invalidCredentials
  | ipBlocked
  | sessionInvalid
  deriving DecidableEq, Repr

/-- An error value: its text and the sentinels in its chain. -/
structure GoError where
  text : String
  wraps : List Sentinel
  deriving DecidableEq, Repr

namespace GoError

/-- `errors.New` or `fmt.Errorf` without a wrapped error. -/
def plain (text : String) : GoError := ⟨text, []⟩

/-- `errors.Is`. -/
def is (error : GoError) (sentinel : Sentinel) : Bool :=
  decide (sentinel ∈ error.wraps)

/-- `fmt.Errorf("<before>%w<behind>", error)`. -/
def wrap (before : String) (error : GoError) (behind : String) : GoError :=
  ⟨before ++ error.text ++ behind, error.wraps⟩

@[simp]
theorem plain_wraps (text : String) : (plain text).wraps = [] := rfl

@[simp]
theorem plain_is (text : String) (sentinel : Sentinel) :
    (plain text).is sentinel = false := by
  simp [is]

@[simp]
theorem wrap_is
    (before behind : String) (error : GoError) (sentinel : Sentinel) :
    (wrap before error behind).is sentinel = error.is sentinel := rfl

end GoError

/-- A sequence of fallible steps succeeds when each of them does. -/
theorem bind_eq_ok_iff {Failure First Second : Type}
    {outcome : Except Failure First}
    {next : First → Except Failure Second} {value : Second} :
    (outcome >>= next) = .ok value ↔
      ∃ first, outcome = .ok first ∧ next first = .ok value := by
  cases outcome <;> simp [bind, Except.bind]

/-- Byte slices. -/
abbrev Bytes := List UInt8

/-- `[]byte(text)`. -/
def bytesOf (text : String) : Bytes := text.toUTF8.data.toList

theorem bytesOf_injective {first second : String}
    (same : bytesOf first = bytesOf second) : first = second := by
  have data : first.toUTF8 = second.toUTF8 :=
    ByteArray.ext (Array.toList_inj.mp same)
  exact String.toByteArray_inj.mp data

/-- The `%d` verb writes digits, after a minus sign where needed. -/
theorem toString_int_digits (value : Int) :
    ∀ char ∈ (toString value).toList,
      char.isDigit = true ∨ char = '-' := by
  intro char member
  rw [Int.toString_eq_repr] at member
  cases value with
  | ofNat magnitude =>
      have digits : char ∈ magnitude.repr.toList := member
      rw [Nat.toList_repr] at digits
      exact Or.inl
        (Nat.isDigit_of_mem_toDigits (by decide) (by decide) digits)
  | negSucc magnitude =>
      have signed :
          char ∈ ("-" ++ (magnitude + 1).repr).toList := member
      rw [String.toList_append, List.mem_append, Nat.toList_repr]
        at signed
      rcases signed with sign | digits
      · exact Or.inr (by simpa using sign)
      · exact Or.inl
          (Nat.isDigit_of_mem_toDigits (by decide) (by decide) digits)

/-- A nonempty run of decimal digits. -/
def decimal (digits : List Char) : Option Nat :=
  if digits ≠ [] ∧ digits.all Char.isDigit then
    some (digits.foldl
      (fun value digit => 10 * value + (digit.toNat - '0'.toNat)) 0)
  else none

theorem decimal_eq_some {digits : List Char} {value : Nat}
    (read : decimal digits = some value) :
    digits ≠ [] ∧ (∀ digit ∈ digits, digit.isDigit = true) ∧
      value = Nat.ofDigitChars 10 digits 0 := by
  rw [decimal] at read
  split at read
  · rename_i numeric
    refine ⟨numeric.1, List.all_eq_true.mp numeric.2, ?_⟩
    rw [Nat.ofDigitChars_eq_foldl]
    exact (Option.some.inj read).symm
  · cases read

theorem decimal_of_digits {digits : List Char} (present : digits ≠ [])
    (numeric : ∀ digit ∈ digits, digit.isDigit = true) :
    decimal digits = some (Nat.ofDigitChars 10 digits 0) := by
  rw [decimal, if_pos ⟨present, List.all_eq_true.mpr numeric⟩,
    Nat.ofDigitChars_eq_foldl]

/-- The sign and the rest of a number. -/
def signed : List Char → Bool × List Char
  | '-' :: rest => (true, rest)
  | '+' :: rest => (false, rest)
  | rest => (false, rest)

/-- `strconv.ParseInt(text, 10, 64)`, also `strconv.Atoi` on a 64-bit
machine. -/
def atoi (text : String) : Option Int :=
  match decimal (signed text.toList).2 with
  | none => none
  | some magnitude =>
      let value : Int :=
        if (signed text.toList).1 then -magnitude else magnitude
      if -2 ^ 63 ≤ value ∧ value < 2 ^ 63 then some value else none

/-- A number reads back from its digits. -/
theorem decimal_natText (value : Nat) :
    decimal (toString value).toList = some value := by
  have text : (toString value).toList = Nat.toDigits 10 value :=
    Nat.toList_repr
  have someDigits : Nat.toDigits 10 value ≠ [] := Nat.toDigits_ne_nil
  have digits : (Nat.toDigits 10 value).all Char.isDigit = true := by
    rw [List.all_eq_true]
    intro char member
    exact Nat.isDigit_of_mem_toDigits (by decide) (by decide) member
  rw [text, decimal, if_pos ⟨someDigits, digits⟩]
  have h := @Nat.ofDigitChars_ten_toDigits value
  rw [Nat.ofDigitChars_eq_foldl] at h
  exact congrArg some h

theorem signed_of_digits {digits : List Char}
    (numeric : ∀ char ∈ digits, char.isDigit = true) :
    signed digits = (false, digits) := by
  unfold signed
  split
  · exact absurd (numeric '-' List.mem_cons_self) (by decide)
  · exact absurd (numeric '+' List.mem_cons_self) (by decide)
  · rfl

theorem signed_natText (value : Nat) :
    signed (toString value).toList = (false, (toString value).toList) := by
  have text : (toString value).toList = Nat.toDigits 10 value :=
    Nat.toList_repr
  rw [text]
  exact signed_of_digits fun char member =>
    Nat.isDigit_of_mem_toDigits (by decide) (by decide) member

theorem atoi_natText {value : Nat} (fits : value < 2 ^ 63) :
    atoi (toString value) = some (value : Int) := by
  rw [atoi, signed_natText, decimal_natText]
  have range : -2 ^ 63 ≤ (value : Int) ∧ (value : Int) < 2 ^ 63 := by
    omega
  exact if_pos range

/-- A text with a character other than digits and signs is no number. -/
theorem atoi_eq_none {text : String} {char : Char}
    (member : char ∈ text.toList) (letter : char.isDigit = false)
    (unsigned : char ≠ '-' ∧ char ≠ '+') : atoi text = none := by
  have kept : char ∈ (signed text.toList).2 := by
    unfold signed
    split
    · rename_i rest same
      rw [same] at member
      simpa [unsigned.1] using member
    · rename_i rest same
      rw [same] at member
      simpa [unsigned.2] using member
    · exact member
  have rejected : decimal (signed text.toList).2 = none := by
    apply if_neg
    intro digits
    have digit := List.all_eq_true.mp digits.2 char kept
    rw [letter] at digit
    exact Bool.false_ne_true digit
  rw [atoi, rejected]

/-- `unicode.IsSpace`. -/
def isSpace (char : Char) : Bool :=
  let code := char.toNat
  (9 ≤ code && code ≤ 13) || code == 0x20 || code == 0x85 ||
    code == 0xa0 || code == 0x1680 ||
    (0x2000 ≤ code && code ≤ 0x200a) || code == 0x2028 ||
    code == 0x2029 || code == 0x202f || code == 0x205f || code == 0x3000

theorem isSpace_of_isDigit {char : Char} (digit : char.isDigit = true) :
    isSpace char = false := by
  obtain ⟨low, high⟩ := Char.isDigit_iff_toNat.mp digit
  simp only [isSpace]
  grind

/-- `strings.TrimSpace`. -/
def trimSpace (text : String) : String :=
  String.ofList
    ((text.toList.dropWhile isSpace).reverse.dropWhile isSpace).reverse

example : atoi (trimSpace " 4711\n") = some 4711 := by decide

/-- `strings.Contains`. -/
def contains (text part : String) : Bool :=
  text.toList.tails.any fun tail => part.toList.isPrefixOf tail

/-- `strings.Fields`. -/
def fields (text : String) : List String :=
  (TextFields.fields isSpace text.toList).map String.ofList

/-- `strings.Join`. -/
def join (parts : List String) (separator : String) : String :=
  String.ofList
    (separator.toList.intercalate (parts.map String.toList))

/-- `strings.Split` at a single character. -/
def splitAt (text : String) (separator : Char) : List String :=
  (text.toList.splitOn separator).map String.ofList

theorem join_splitAt (text : String) (separator : Char) :
    join (splitAt text separator) (String.ofList [separator]) = text := by
  have same : (splitAt text separator).map String.toList =
      text.toList.splitOn separator := by
    simp [splitAt, Function.comp_def]
  rw [join, same, String.toList_ofList, List.intercalate_splitOn,
    String.ofList_toList]

theorem splitAt_join
    {parts : List String} {separator : Char} (nonempty : parts ≠ [])
    (free : ∀ part ∈ parts, separator ∉ part.toList) :
    splitAt (join parts (String.ofList [separator])) separator =
      parts := by
  have freeText : ∀ text ∈ parts.map String.toList,
      separator ∉ text := by
    intro text member
    obtain ⟨part, listed, rfl⟩ := List.mem_map.mp member
    exact free part listed
  have someText : parts.map String.toList ≠ [] := by simpa using nonempty
  simp only [splitAt, join, String.toList_ofList]
  rw [List.splitOn_intercalate separator freeText someText]
  simp [Function.comp_def]

/-- `unicode.ToLower`. -/
def lowerChar [Build] (char : Char) : Char :=
  let code := char.toNat
  if code ≤ 0xff then
    if (0x41 ≤ code ∧ code ≤ 0x5a) ∨
        (0xc0 ≤ code ∧ code ≤ 0xde ∧ code ≠ 0xd7) then
      Char.ofNat (code + 32)
    else char
  else Build.wideToLower char

/-- `strings.ToLower`. -/
def toLower [Build] (text : String) : String :=
  String.ofList (text.toList.map lowerChar)

/-- The one-letter escapes of control characters. -/
def controlEscape : Nat → Option Char
  | 7 => some 'a'
  | 8 => some 'b'
  | 9 => some 't'
  | 10 => some 'n'
  | 11 => some 'v'
  | 12 => some 'f'
  | 13 => some 'r'
  | _ => none

/-- The last `width` lower-case hexadecimal digits of a number. -/
def hexDigits (width value : Nat) : List Char :=
  (List.range width).reverse.map fun index =>
    Nat.digitChar (value / 16 ^ index % 16)

/-- The numeric escapes, without their backslash. -/
def hexEscape (code : Nat) : List Char :=
  if code < 0x20 ∨ code = 0x7f then 'x' :: hexDigits 2 code
  else if code < 0x10000 then 'u' :: hexDigits 4 code
  else 'U' :: hexDigits 8 code

theorem hexDigits_newline_free (width value : Nat) :
    '\n' ∉ hexDigits width value := by
  intro member
  obtain ⟨index, _, equal⟩ := List.mem_map.mp member
  have digits : ∀ digit < 16, Nat.digitChar digit ≠ '\n' := by decide
  exact digits _ (Nat.mod_lt _ (by decide)) equal

theorem hexEscape_newline_free (code : Nat) :
    '\n' ∉ hexEscape code := by
  unfold hexEscape
  split
  · simp [hexDigits_newline_free]
  · split <;> simp [hexDigits_newline_free]

theorem controlEscape_ne_newline
    {code : Nat} {letter : Char}
    (escaped : controlEscape code = some letter) : letter ≠ '\n' := by
  unfold controlEscape at escaped
  split at escaped <;> simp_all <;> subst escaped <;> decide

section Quoting

variable [Build]

/-- `strconv.IsPrint`. -/
def isPrint (char : Char) : Bool :=
  if char.toNat ≤ 0xff then
    (0x20 ≤ char.toNat && char.toNat < 0x7f) ||
      (0xa1 ≤ char.toNat && char.toNat != 0xad)
  else
    Build.wideIsPrint char

/-- The escaped form of one character inside double quotes. -/
def quoteChar (char : Char) : List Char :=
  if char = '"' ∨ char = '\\' then ['\\', char]
  else if isPrint char then [char]
  else
    match controlEscape char.toNat with
    | some letter => ['\\', letter]
    | none => '\\' :: hexEscape char.toNat

/-- `strconv.Quote`, also the `%q` verb. -/
def quote (text : String) : String :=
  String.ofList ('"' :: text.toList.flatMap quoteChar ++ ['"'])

theorem quoteChar_newline_free (char : Char) :
    '\n' ∉ quoteChar char := by
  unfold quoteChar
  split
  · rename_i special
    rcases special with rfl | rfl <;> simp
  · split
    · rename_i printable
      intro member
      obtain rfl := List.mem_singleton.mp member
      exact absurd printable (by simp [isPrint])
    · split
      · rename_i letter escaped
        have different := controlEscape_ne_newline escaped
        simp [different.symm]
      · simp [hexEscape_newline_free]

/-- Quoted text stays on its line. -/
theorem quote_newline_free (text : String) :
    '\n' ∉ (quote text).toList := by
  simp [quote, quoteChar_newline_free]

end Quoting

end Xoxproxy
