import Xoxproxy.Engine.LogInjection
import Xoxproxy.Library.LosslessTexts
import Xoxproxy.Store.Records

/-!
# From the traffic log to monitoring records

The tailer reads the log as bytes, cuts it at newlines and turns every
line that parses into a record (`internal/analytics/record.go`,
`tailer.go`).
-/

namespace Xoxproxy.Analytics

open Xoxproxy.Engine (UsageRecord parseLogLine)

/-- One observed proxy request. -/
structure Record where
  unixMillis : Int
  username : String
  protocol : String
  host : String
  port : Int
  clientIP : String
  blocked : Bool
  bytesIn : Int
  bytesOut : Int
  deriving DecidableEq, Repr

def statHTTP : String := "http"
def statHTTPS : String := "https"
def statSOCKS : String := "socks5"

/-- `strings.ToUpper` as far as a comparison with ASCII capitals can tell:
no character outside ASCII has an upper case among the letters of
`CONNECT`. -/
def upperChar (char : Char) : Char :=
  if 'a' ≤ char ∧ char ≤ 'z' then Char.ofNat (char.toNat - 32) else char

/-- `ClassifyProtocol`. -/
def classifyProtocol (service requestText : String) : String :=
  if service = "socks" then statSOCKS
  else if "CONNECT".toList.isPrefixOf
      ((trimSpace requestText).toList.map upperChar) then statHTTPS
  else statHTTP

/-- `FromUsage`. -/
def fromUsage (record : UsageRecord) : Record where
  unixMillis := record.unixMillis
  username := record.username
  protocol := classifyProtocol record.service record.requestText
  host := record.targetIP
  port := record.targetPort
  clientIP := record.clientIP
  blocked := record.errCode != 0
  bytesIn := record.bytesFromTarget
  bytesOut := record.bytesToTarget

/-- `string(bytes)`.  Bytes that are no UTF-8 stay apart, as they do in
Go. -/
def textOf (bytes : Bytes) : String :=
  String.ofList (LosslessTexts.decode bytes)

example : textOf (bytesOf "abc → ü€𝄞") = "abc → ü€𝄞" := by decide +kernel

/-- Texts are equal only if their bytes are. -/
theorem textOf_injective {first second : Bytes}
    (same : textOf first = textOf second) : first = second :=
  LosslessTexts.decode_injective (String.ofList_injective same)

def newline : UInt8 := 10

/-- The lines that a newline ends, each with its newline. -/
def completeLines : Bytes → List Bytes
  | [] => []
  | byte :: rest =>
      if byte = newline then [byte] :: completeLines rest
      else
        match completeLines rest with
        | [] => []
        | line :: lines => (byte :: line) :: lines

/-- `trimEOL`. -/
def trimEOL (line : Bytes) : Bytes :=
  let line := if line.getLast? = some newline then line.dropLast else line
  if line.getLast? = some 13 then line.dropLast else line

/-- A record with the place of its line: the position in the log behind
its newline. -/
structure Entry where
  record : Record
  line : Nat
  deriving DecidableEq, Repr

section Reading

variable [Build]

def readRecord (line : Bytes) : Option Record :=
  match parseLogLine (textOf (trimEOL line)) with
  | .ok parsed => some (fromUsage parsed)
  | .error _ => none

omit [Build] in
theorem trimEOL_begins (line : Bytes) : trimEOL line <+: line := by
  have cut : ∀ (bytes : Bytes) (ending : UInt8),
      (if bytes.getLast? = some ending then bytes.dropLast else bytes) <+:
        bytes := by
    intro bytes ending
    split_ifs
    · exact List.dropLast_prefix bytes
    · exact List.prefix_refl bytes
  exact (cut _ 13).trans (cut line newline)

/-- The host of a record stands in its line, byte for byte. -/
theorem host_spelled {line : Bytes} {record : Record}
    (read : readRecord line = some record) :
    LosslessTexts.encode record.host.toList <:+: line := by
  unfold readRecord at read
  cases parsed : parseLogLine (textOf (trimEOL line)) with
  | error error =>
      rw [parsed] at read
      cases read
  | ok usage =>
      rw [parsed] at read
      rw [← Option.some.inj read]
      obtain ⟨⟨target, listed, split⟩, -⟩ := Engine.accepted_parts parsed
      obtain ⟨part, member, rfl⟩ := List.mem_map.mp listed
      have ahead := (Engine.parseHostPort_prefix split).isInfix
      rw [String.toList_ofList] at ahead
      have inside := ahead.trans (TextFields.infix_of_mem_fields member)
      rw [textOf, String.toList_ofList] at inside
      have bytes := LosslessTexts.encode_infix inside
      rw [LosslessTexts.encode_decode] at bytes
      exact bytes.trans (trimEOL_begins line).isInfix

/-- The counts of a record are not negative. -/
theorem counts_nonneg {line : Bytes} {record : Record}
    (read : readRecord line = some record) :
    0 ≤ record.bytesIn ∧ 0 ≤ record.bytesOut := by
  unfold readRecord at read
  cases parsed : parseLogLine (textOf (trimEOL line)) with
  | error error =>
      rw [parsed] at read
      cases read
  | ok usage =>
      rw [parsed] at read
      rw [← Option.some.inj read]
      obtain ⟨-, ⟨out, sent⟩, into, received⟩ := Engine.accepted_parts parsed
      exact ⟨(Engine.parseByteCount_eq_ok_iff.mp received).2,
        (Engine.parseByteCount_eq_ok_iff.mp sent).2⟩

/-- The records of consecutive lines, the first of which starts at the
given position. -/
def entriesOf : Nat → List Bytes → List Entry
  | _, [] => []
  | start, line :: lines =>
      match readRecord line with
      | some record =>
          ⟨record, start + line.length⟩ ::
            entriesOf (start + line.length) lines
      | none => entriesOf (start + line.length) lines

/-- The lines that are skipped. -/
def malformedCount (lines : List Bytes) : Nat :=
  lines.countP fun line => (readRecord line).isNone

end Reading

/-- What follows the complete lines. -/
def unfinished (bytes : Bytes) : Bytes :=
  bytes.drop (completeLines bytes).flatten.length

theorem completeLines_cons_newline (rest : Bytes) :
    completeLines (newline :: rest) = [newline] :: completeLines rest := by
  rw [completeLines, if_pos rfl]

theorem completeLines_cons_of_ne
    {byte : UInt8} (rest : Bytes) (different : byte ≠ newline) :
    completeLines (byte :: rest) =
      match completeLines rest with
      | [] => []
      | line :: lines => (byte :: line) :: lines := by
  rw [completeLines, if_neg different]

/-- The complete lines are the beginning of the text. -/
theorem flatten_completeLines_append (bytes : Bytes) :
    (completeLines bytes).flatten ++ unfinished bytes = bytes := by
  have initial : (completeLines bytes).flatten <+: bytes := by
    induction bytes with
    | nil => exact List.prefix_refl _
    | cons byte rest inductionHypothesis =>
        by_cases ends : byte = newline
        · subst ends
          rw [completeLines_cons_newline]
          exact (List.prefix_cons_inj newline).mpr inductionHypothesis
        · rw [completeLines_cons_of_ne _ ends]
          cases lines : completeLines rest with
          | nil => exact List.nil_prefix
          | cons line later =>
              rw [lines] at inductionHypothesis
              exact (List.prefix_cons_inj byte).mpr inductionHypothesis
  exact (List.prefix_iff_eq_append.mp initial)

/-- Appended bytes complete the unfinished line and add others. -/
theorem completeLines_append (bytes more : Bytes) :
    completeLines (bytes ++ more) =
      completeLines bytes ++ completeLines (unfinished bytes ++ more) := by
  induction bytes with
  | nil => rfl
  | cons byte rest inductionHypothesis =>
      rw [List.cons_append]
      by_cases ends : byte = newline
      · subst ends
        have tail : unfinished (newline :: rest) = unfinished rest := by
          simp [unfinished, completeLines_cons_newline]
        rw [completeLines_cons_newline, completeLines_cons_newline, tail,
          inductionHypothesis]
        rfl
      · rw [completeLines_cons_of_ne _ ends, inductionHypothesis]
        cases lines : completeLines rest with
        | nil =>
            have whole : unfinished rest = rest := by
              simp [unfinished, lines]
            have tail : unfinished (byte :: rest) = byte :: rest := by
              simp [unfinished, completeLines_cons_of_ne _ ends, lines]
            have empty : completeLines (byte :: rest) = [] := by
              rw [completeLines_cons_of_ne _ ends, lines]
            rw [whole, tail, empty, List.nil_append, List.nil_append,
              List.cons_append, completeLines_cons_of_ne _ ends]
        | cons line later =>
            have shape : completeLines (byte :: rest) =
                (byte :: line) :: later := by
              rw [completeLines_cons_of_ne _ ends, lines]
            have tail : unfinished (byte :: rest) = unfinished rest := by
              simp [unfinished, shape, lines]
            rw [shape, tail]
            rfl

/-- Complete lines are split as they are joined. -/
theorem completeLines_take (bytes : Bytes) (count : Nat) :
    completeLines ((completeLines bytes).take count).flatten =
      (completeLines bytes).take count := by
  induction bytes generalizing count with
  | nil => simp [completeLines]
  | cons byte rest inductionHypothesis =>
      cases count with
      | zero => rfl
      | succ count =>
          by_cases ends : byte = newline
          · subst ends
            rw [completeLines_cons_newline, List.take_succ_cons,
              List.flatten_cons, List.singleton_append,
              completeLines_cons_newline, inductionHypothesis]
          · rw [completeLines_cons_of_ne _ ends]
            cases lines : completeLines rest with
            | nil => rfl
            | cons line later =>
                have shorter := inductionHypothesis (count + 1)
                rw [lines, List.take_succ_cons, List.flatten_cons]
                  at shorter
                rw [List.take_succ_cons, List.flatten_cons,
                  List.cons_append, completeLines_cons_of_ne _ ends,
                  shorter]

theorem completeLines_nonempty (bytes : Bytes) :
    ∀ line ∈ completeLines bytes, line ≠ [] := by
  induction bytes with
  | nil => simp [completeLines]
  | cons byte rest inductionHypothesis =>
      intro line member
      by_cases ends : byte = newline
      · subst ends
        rw [completeLines_cons_newline] at member
        rcases List.mem_cons.mp member with rfl | later
        · exact List.cons_ne_nil _ _
        · exact inductionHypothesis line later
      · rw [completeLines_cons_of_ne _ ends] at member
        cases lines : completeLines rest with
        | nil =>
            rw [lines] at member
            cases member
        | cons first later =>
            rw [lines] at member
            rcases List.mem_cons.mp member with rfl | inLater
            · exact List.cons_ne_nil _ _
            · apply inductionHypothesis
              rw [lines]
              exact List.mem_cons_of_mem first inLater

section Entries

variable [Build]

theorem entriesOf_append (start : Nat) (lines more : List Bytes) :
    entriesOf start (lines ++ more) =
      entriesOf start lines ++
        entriesOf (start + lines.flatten.length) more := by
  induction lines generalizing start with
  | nil => rfl
  | cons line lines inductionHypothesis =>
      have length : start + (line :: lines).flatten.length =
          start + line.length + lines.flatten.length := by
        rw [List.flatten_cons, List.length_append, Nat.add_assoc]
      rw [List.cons_append, entriesOf, entriesOf, inductionHypothesis,
        length]
      cases readRecord line <;> rfl

/-- Every entry lies behind the start, within the lines. -/
theorem entriesOf_bounds
    {start : Nat} {lines : List Bytes}
    (full : ∀ line ∈ lines, line ≠ []) :
    ∀ entry ∈ entriesOf start lines,
      start < entry.line ∧
        entry.line ≤ start + lines.flatten.length := by
  induction lines generalizing start with
  | nil => simp [entriesOf]
  | cons line lines inductionHypothesis =>
      have positive : 0 < line.length :=
        List.length_pos_of_ne_nil (full line List.mem_cons_self)
      have later := @inductionHypothesis (start + line.length)
        fun other member => full other (List.mem_cons_of_mem line member)
      have length : (line :: lines).flatten.length =
          line.length + lines.flatten.length := by
        rw [List.flatten_cons, List.length_append]
      intro entry member
      have cases : entry.line = start + line.length ∨
          entry ∈ entriesOf (start + line.length) lines := by
        rw [entriesOf] at member
        cases record : readRecord line with
        | none =>
            rw [record] at member
            exact Or.inr member
        | some found =>
            rw [record] at member
            rcases List.mem_cons.mp member with rfl | rest
            · exact Or.inl rfl
            · exact Or.inr rest
      rcases cases with here | rest
      · omega
      · have bounds := later entry rest
        omega

/-- Entries come in the order of their lines. -/
theorem entriesOf_sorted
    {start : Nat} {lines : List Bytes}
    (full : ∀ line ∈ lines, line ≠ []) :
    (entriesOf start lines).Pairwise fun first second =>
      first.line < second.line := by
  induction lines generalizing start with
  | nil => exact List.Pairwise.nil
  | cons line lines inductionHypothesis =>
      have restFull : ∀ other ∈ lines, other ≠ [] :=
        fun other member => full other (List.mem_cons_of_mem line member)
      have later := @inductionHypothesis (start + line.length) restFull
      rw [entriesOf]
      cases record : readRecord line with
      | none => exact later
      | some found =>
          refine List.Pairwise.cons ?_ later
          intro entry member
          exact (entriesOf_bounds restFull entry member).1

end Entries

end Xoxproxy.Analytics
