import Mathlib.Data.List.Basic

/-!
# Flat JSON objects

Objects whose values are literals, strings and arrays of strings: their
texts as `JSON.stringify` writes them, and the strict decoding of
`encoding/json`, which refuses an object with an unknown field.
-/

namespace JsonObjects

inductive Value where
  | null
  | truth (value : Bool)
  | number (literal : String)
  | text (value : String)
  | texts (values : List String)
  deriving DecidableEq, Repr

/-- The entries in the order of the text. -/
abbrev Object := List (String × Value)

def hexFour (code : Nat) : List Char :=
  [4096, 256, 16, 1].map fun place => Nat.digitChar (code / place % 16)

/-- A character of a string. -/
def escape (char : Char) : List Char :=
  match char.toNat with
  | 8 => ['\\', 'b']
  | 9 => ['\\', 't']
  | 10 => ['\\', 'n']
  | 12 => ['\\', 'f']
  | 13 => ['\\', 'r']
  | code =>
      if char = '"' ∨ char = '\\' then ['\\', char]
      else if code < 0x20 then '\\' :: 'u' :: hexFour code
      else [char]

def quoted (text : String) : List Char :=
  '"' :: (text.toList.flatMap escape ++ ['"'])

def Value.written : Value → List Char
  | .null => "null".toList
  | .truth true => "true".toList
  | .truth false => "false".toList
  | .number literal => literal.toList
  | .text value => quoted value
  | .texts values => '[' :: ([','].intercalate (values.map quoted) ++ [']'])

def written (object : Object) : List Char :=
  '{' :: ([','].intercalate (object.map fun entry =>
    quoted entry.1 ++ ':' :: entry.2.written) ++ ['}'])

/-- The bytes of the text. -/
def size (object : Object) : Nat :=
  (String.ofList (written object)).utf8ByteSize

example : String.ofList (written [("a", .null), ("b", .texts ["\n", "ü"])]) =
    "\x7b\"a\":null,\"b\":[\"\\n\",\"ü\"]\x7d" := by decide +kernel

/-- A field of a record: what the value of its entry changes, if it has the
type of the field. -/
structure RecordField (Record : Type) where
  name : String
  read : Value → Option (Record → Record)

/-- The lower-case letter of a character, for the comparison with a name of
ASCII characters. -/
def foldChar (char : Char) : Char :=
  if char = '\u017f' then 's'
  else if char = '\u212a' then 'k'
  else char.toLower

def foldName (name : String) : List Char := name.toList.map foldChar

section Decoding

variable {Record : Type} {fields : List (RecordField Record)}

/-- The field of an entry: the one with the name of the entry, or the first
one whose name differs from it in the case of letters only. -/
def fieldOf (fields : List (RecordField Record)) (name : String) :
    Option (RecordField Record) :=
  match fields.find? fun field => field.name == name with
  | some field => some field
  | none => fields.find? fun field => foldName field.name == foldName name

/-- Decoding without unknown fields. -/
def decode (fields : List (RecordField Record)) (record : Record) :
    Object → Option Record
  | [] => some record
  | (name, value) :: rest =>
      match (fieldOf fields name).bind fun field => field.read value with
      | none => none
      | some change => decode fields (change record) rest

/-- An entry that its field can read. -/
def Reads (fields : List (RecordField Record)) (entry : String × Value) :
    Prop :=
  ((fieldOf fields entry.1).bind fun field => field.read entry.2).isSome = true

/-- An object is decoded when every entry is read. -/
theorem decode_isSome_iff (record : Record) (object : Object) :
    (decode fields record object).isSome = true ↔
      ∀ entry ∈ object, Reads fields entry := by
  induction object generalizing record with
  | nil => simp [decode]
  | cons entry rest induction =>
      obtain ⟨name, value⟩ := entry
      rw [decode, List.forall_mem_cons, Reads]
      cases read : (fieldOf fields name).bind fun field =>
          field.read value with
      | none => simp
      | some change => simp [induction]

/-- What every entry keeps is kept. -/
theorem decode_keeps {Kept : Record → Prop} {object : Object}
    (keeps : ∀ entry ∈ object, ∀ change,
      ((fieldOf fields entry.1).bind fun field => field.read entry.2) =
          some change →
        ∀ record, Kept record → Kept (change record))
    {record result : Record} (kept : Kept record)
    (decoded : decode fields record object = some result) : Kept result := by
  induction object generalizing record with
  | nil =>
      cases decoded
      exact kept
  | cons entry rest induction =>
      rw [List.forall_mem_cons] at keeps
      rw [decode] at decoded
      split at decoded
      case h_1 => cases decoded
      case h_2 change read =>
        exact induction keeps.2 (keeps.1 change read record kept) decoded

end Decoding

end JsonObjects
