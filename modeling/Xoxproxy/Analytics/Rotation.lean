import Xoxproxy.Analytics.Moves
import Xoxproxy.Library.Runs

/-!
# Tailing a log that is rotated

The file under the path of the traffic log may grow, shrink or be another
one at every poll.  The tailer knows its position only, and takes a file
that is shorter than that for a new one.
-/

namespace Xoxproxy.Analytics

/-- A position where a line starts: the beginning of the file, or right
behind a newline. -/
def LineStart (file : Bytes) (position : Nat) : Prop :=
  position = 0 ∨
    ∃ before rest, file = before ++ newline :: rest ∧
      position = before.length + 1

/-- A complete line of a file, with its newline. -/
structure CompleteLineAt (file : Bytes) (position : Nat) (line : Bytes) :
    Prop where
  starts : LineStart file position
  ends : ∃ text, newline ∉ text ∧ line = text ++ [newline]
  inside : line <+: file.drop position

/-- A record that was handed to the sink, with the line that it was parsed
from and where the line lies in the file that was read. -/
structure Emission where
  file : Bytes
  position : Nat
  line : Bytes
  record : Record
  deriving DecidableEq

theorem completeLines_ends (bytes : Bytes) :
    ∀ line ∈ completeLines bytes,
      ∃ text, newline ∉ text ∧ line = text ++ [newline] := by
  induction bytes with
  | nil => simp [completeLines]
  | cons byte rest inductionHypothesis =>
      intro line member
      by_cases ends : byte = newline
      · subst ends
        rw [completeLines_cons_newline] at member
        rcases List.mem_cons.mp member with rfl | later
        · exact ⟨[], by simp, rfl⟩
        · exact inductionHypothesis line later
      · rw [completeLines_cons_of_ne _ ends] at member
        cases lines : completeLines rest with
        | nil =>
            rw [lines] at member
            cases member
        | cons first later =>
            rw [lines] at member inductionHypothesis
            rcases List.mem_cons.mp member with rfl | inLater
            · obtain ⟨text, free, rfl⟩ :=
                inductionHypothesis first List.mem_cons_self
              exact ⟨byte :: text, by simp [free, Ne.symm ends], rfl⟩
            · exact inductionHypothesis line
                (List.mem_cons_of_mem first inLater)

section Splitting

variable {file before rest : Bytes} {line : Bytes} {lines : List Bytes}

/-- Behind a line that is read, a line starts. -/
theorem lineStart_behind
    (split : file = before ++ (line :: lines).flatten ++ rest)
    (ends : ∃ text, newline ∉ text ∧ line = text ++ [newline]) :
    LineStart file (before.length + line.length) ∧
      file = (before ++ line) ++ lines.flatten ++ rest := by
  obtain ⟨text, -, rfl⟩ := ends
  refine ⟨.inr ⟨before ++ text, lines.flatten ++ rest, ?_, ?_⟩, ?_⟩
  · simp [split]
  · simp [Nat.add_assoc]
  · simp [split]

theorem completeLineAt_head
    (split : file = before ++ (line :: lines).flatten ++ rest)
    (ends : ∃ text, newline ∉ text ∧ line = text ++ [newline])
    (starts : LineStart file before.length) :
    CompleteLineAt file before.length line := by
  refine ⟨starts, ends, lines.flatten ++ rest, ?_⟩
  simp [split]

end Splitting

section Emissions

variable [Build]

/-- The records of the lines that are read from a position on. -/
def emissions (file : Bytes) : Nat → List Bytes → List Emission
  | _, [] => []
  | position, line :: lines =>
      match readRecord line with
      | some record =>
          ⟨file, position, line, record⟩ ::
            emissions file (position + line.length) lines
      | none => emissions file (position + line.length) lines

/-- What the sink is handed are the entries of the lines. -/
theorem entriesOf_eq_emissions (file : Bytes) (position : Nat)
    (lines : List Bytes) :
    entriesOf position lines =
      (emissions file position lines).map fun emission =>
        ⟨emission.record, emission.position + emission.line.length⟩ := by
  induction lines generalizing position with
  | nil => rfl
  | cons line lines inductionHypothesis =>
      unfold entriesOf emissions
      cases readRecord line with
      | none => exact inductionHypothesis _
      | some record =>
          rw [List.map_cons, ← inductionHypothesis]

/-- The record was parsed from a complete line. -/
structure FromCompleteLine (emission : Emission) : Prop where
  line : CompleteLineAt emission.file emission.position emission.line
  parsed : readRecord emission.line = some emission.record

theorem emissions_cons_record {line : Bytes} {record : Record}
    (parsed : readRecord line = some record) (file : Bytes)
    (position : Nat) (lines : List Bytes) :
    emissions file position (line :: lines) =
      ⟨file, position, line, record⟩ ::
        emissions file (position + line.length) lines := by
  rw [emissions, parsed]

theorem emissions_cons_skipped {line : Bytes}
    (skipped : readRecord line = none) (file : Bytes) (position : Nat)
    (lines : List Bytes) :
    emissions file position (line :: lines) =
      emissions file (position + line.length) lines := by
  rw [emissions, skipped]

section Reads

variable {file before rest : Bytes} {line : Bytes} {lines : List Bytes}

/-- Lines that are read from the start of a line are complete. -/
theorem emissions_complete
    (split : file = before ++ lines.flatten ++ rest)
    (ends : ∀ line ∈ lines, ∃ text, newline ∉ text ∧
      line = text ++ [newline])
    (starts : LineStart file before.length) :
    ∀ emission ∈ emissions file before.length lines,
      FromCompleteLine emission := by
  induction lines generalizing before with
  | nil => simp [emissions]
  | cons line lines inductionHypothesis =>
      have lineEnds := ends line List.mem_cons_self
      obtain ⟨behind, shifted⟩ := lineStart_behind split lineEnds
      rw [← List.length_append] at behind
      have later := inductionHypothesis shifted
        (fun other listed => ends other (List.mem_cons_of_mem line listed))
        behind
      rw [List.length_append] at later
      cases parsed : readRecord line with
      | none =>
          rw [emissions_cons_skipped parsed]
          exact later
      | some record =>
          rw [emissions_cons_record parsed]
          intro emission member
          rcases List.mem_cons.mp member with rfl | inLater
          · exact ⟨completeLineAt_head split lineEnds starts, parsed⟩
          · exact later emission inLater

/-- Only the first of the lines can be the rest of a line. -/
theorem emissions_complete_iff
    (split : file = before ++ lines.flatten ++ rest)
    (ends : ∀ line ∈ lines, ∃ text, newline ∉ text ∧
      line = text ++ [newline]) :
    (∀ emission ∈ emissions file before.length lines,
        FromCompleteLine emission) ↔
      LineStart file before.length ∨
        ∀ line ∈ lines.head?, readRecord line = none := by
  cases lines with
  | nil => simp [emissions]
  | cons line lines =>
      have lineEnds := ends line List.mem_cons_self
      obtain ⟨behind, shifted⟩ := lineStart_behind split lineEnds
      rw [← List.length_append] at behind
      have later := emissions_complete shifted
        (fun other listed => ends other (List.mem_cons_of_mem line listed))
        behind
      rw [List.length_append] at later
      cases parsed : readRecord line with
      | none =>
          rw [emissions_cons_skipped parsed]
          constructor
          · intro _
            exact .inr fun first listed => Option.some.inj listed ▸ parsed
          · intro _
            exact later
      | some record =>
          rw [emissions_cons_record parsed]
          constructor
          · intro complete
            exact .inl (complete _ List.mem_cons_self).line.starts
          · rintro (starts | skipped)
            · intro emission member
              rcases List.mem_cons.mp member with rfl | inLater
              · exact ⟨completeLineAt_head split lineEnds starts, parsed⟩
              · exact later emission inLater
            · have none := skipped line rfl
              rw [parsed] at none
              cases none

end Reads

end Emissions

/-! ## Polls and files -/

/-- The file under the path and the tailer.  A poll looks at the size
first and opens the file then. -/
structure Rotation where
  file : Option Bytes
  offset : Int
  malformed : Nat := 0
  sighted : Option Nat := none
  emitted : List Emission := []

/-- `NewTailer`, with the file that lies under its path. -/
def newTailer (path : String) (resume : LogCursor) (file : Option Bytes) :
    Rotation where
  file := file
  offset := if resume.path = path then resume.offset else 0

inductive RotationEvent where
  | append (bytes : Bytes)
  | truncate (length : Nat)
  | replace (file : Bytes)
  | remove
  | stat
  | read (opens : Bool) (limit : Option Nat)

/-- The complete lines behind a position, up to a read error. -/
def linesFrom (file : Bytes) (position : Nat) (limit : Option Nat) :
    List Bytes :=
  let lines := completeLines (file.drop position)
  match limit with
  | none => lines
  | some count => lines.take count

namespace Rotation

/-- Where a poll reads: a file that is shorter than the offset is read from
its beginning. -/
def start (s : Rotation) (size : Nat) : Int :=
  if 0 < s.offset ∧ (size : Int) < s.offset then 0 else s.offset

section Steps

variable [Build]

/-- The part of `poll` behind a successful `Seek`. -/
def readFrom (s : Rotation) (file : Bytes) (position : Nat)
    (limit : Option Nat) : Rotation :=
  let lines := linesFrom file position limit
  { s with
    sighted := none
    malformed := s.malformed + malformedCount lines
    offset := (position + lines.flatten.length : Nat)
    emitted := s.emitted ++ emissions file position lines }

/-- The part of `poll` behind `Stat`; a negative position cannot be
sought. -/
def read (s : Rotation) (opens : Bool) (limit : Option Nat) : Rotation :=
  match s.sighted, s.file with
  | some size, some file =>
      if opens ∧ 0 ≤ s.start size then
        s.readFrom file (s.start size).toNat limit
      else { s with sighted := none }
  | _, _ => { s with sighted := none }

def step : RotationEvent → Rotation → Rotation
  | .append bytes, s => { s with file := some (s.file.getD [] ++ bytes) }
  | .truncate length, s => { s with file := s.file.map (List.take length) }
  | .replace file, s => { s with file := some file }
  | .remove, s => { s with file := none }
  | .stat, s => { s with sighted := s.file.map List.length }
  | .read opens limit, s => s.read opens limit

/-- A read does not begin with the rest of a line that parses. -/
def ReadsLines (s : Rotation) : RotationEvent → Prop
  | .read opens limit =>
      ∀ size file, s.sighted = some size → s.file = some file →
        opens = true → 0 ≤ s.start size →
          LineStart file (s.start size).toNat ∨
            ∀ line ∈ (linesFrom file (s.start size).toNat limit).head?,
              readRecord line = none
  | _ => True

end Steps

end Rotation

section Runs

variable [Build]

theorem emissions_linesFrom_iff (file : Bytes) (position : Nat)
    (limit : Option Nat) :
    (∀ emission ∈ emissions file position (linesFrom file position limit),
        FromCompleteLine emission) ↔
      LineStart file position ∨
        ∀ line ∈ (linesFrom file position limit).head?,
          readRecord line = none := by
  obtain ⟨count, lines⟩ : ∃ count, linesFrom file position limit =
      (completeLines (file.drop position)).take count := by
    cases limit with
    | some count => exact ⟨count, rfl⟩
    | none =>
        exact ⟨(completeLines (file.drop position)).length,
          List.take_length.symm⟩
  by_cases inside : position ≤ file.length
  · have length : (file.take position).length = position :=
      List.length_take_of_le inside
    have parts := flatten_completeLines_append (file.drop position)
    rw [← List.take_append_drop count (completeLines (file.drop position)),
      List.flatten_append, List.append_assoc, ← lines] at parts
    have split := congrArg (file.take position ++ ·) parts
    simp only [List.take_append_drop, ← List.append_assoc] at split
    have read := @emissions_complete_iff _ file (file.take position) _
      (linesFrom file position limit)
      (by rw [List.append_assoc] at split; exact split.symm) (by
        intro line listed
        rw [lines] at listed
        exact completeLines_ends _ line (List.mem_of_mem_take listed))
    rw [length] at read
    exact read
  · have nothing : linesFrom file position limit = [] := by
      rw [lines, List.drop_of_length_le (by omega)]
      simp [completeLines]
    simp [nothing, emissions]

theorem readFrom_emitted_iff (s : Rotation) (file : Bytes)
    (position : Nat) (limit : Option Nat) :
    (∀ emission ∈ (s.readFrom file position limit).emitted,
        FromCompleteLine emission) ↔
      (∀ emission ∈ s.emitted, FromCompleteLine emission) ∧
        (LineStart file position ∨
          ∀ line ∈ (linesFrom file position limit).head?,
            readRecord line = none) := by
  rw [Rotation.readFrom, ← emissions_linesFrom_iff]
  exact List.forall_mem_append

/-- A read that is not carried out hands nothing on. -/
theorem read_emitted_iff (s : Rotation) (opens : Bool)
    (limit : Option Nat) :
    (∀ emission ∈ (s.read opens limit).emitted,
        FromCompleteLine emission) ↔
      (∀ emission ∈ s.emitted, FromCompleteLine emission) ∧
        s.ReadsLines (.read opens limit) := by
  unfold Rotation.read Rotation.ReadsLines
  cases sighted : s.sighted with
  | none => simp
  | some size =>
      cases file : s.file with
      | none => simp
      | some bytes =>
          dsimp only
          by_cases carried : opens = true ∧ 0 ≤ s.start size
          · rw [if_pos carried, readFrom_emitted_iff]
            simp [carried]
          · rw [if_neg carried]
            constructor
            · intro whole
              refine ⟨whole, ?_⟩
              intro _ _ same _ opened sought
              obtain rfl := Option.some.inj same
              exact absurd ⟨opened, sought⟩ carried
            · exact fun both => both.1

/-- What one step hands to the sink. -/
theorem step_emitted_iff (s : Rotation) (event : RotationEvent) :
    (∀ emission ∈ (Rotation.step event s).emitted,
        FromCompleteLine emission) ↔
      (∀ emission ∈ s.emitted, FromCompleteLine emission) ∧
        s.ReadsLines event := by
  cases event with
  | read opens limit => exact read_emitted_iff s opens limit
  | _ => exact (and_iff_left trivial).symm

theorem run_emitted_iff (events : List RotationEvent) (s : Rotation) :
    (∀ emission ∈ (Runs.run Rotation.step events s).emitted,
        FromCompleteLine emission) ↔
      (∀ emission ∈ s.emitted, FromCompleteLine emission) ∧
        Runs.Meets Rotation.step Rotation.ReadsLines events s := by
  induction events generalizing s with
  | nil => exact (and_iff_left trivial).symm
  | cons event events inductionHypothesis =>
      rw [Runs.run_cons, inductionHypothesis, step_emitted_iff, and_assoc]
      rfl

/-- Whatever happens to the log, every record handed to the sink comes
from a complete line of the file that was read if and only if no read
begins with the rest of a line that parses. -/
theorem emitted_complete_iff (path : String) (resume : LogCursor)
    (file : Option Bytes) (events : List RotationEvent) :
    (∀ emission ∈ (Runs.run Rotation.step events
        (newTailer path resume file)).emitted, FromCompleteLine emission) ↔
      Runs.Meets Rotation.step Rotation.ReadsLines events
        (newTailer path resume file) := by
  rw [run_emitted_iff]
  exact and_iff_right (by simp [newTailer])

end Runs

/-- The poll of the pipeline, whose log only grows, reads in the same
way. -/
theorem poll_batch [Build] (s : Pipeline) (limit : Option Nat) :
    let start :=
      if s.log.length < s.tailer.offset then 0 else s.tailer.offset
    let lines := linesFrom s.log start limit
    (s.poll limit).tailer.phase =
      .publishing ((emissions s.log start lines).map fun emission =>
        ⟨emission.record, emission.position + emission.line.length⟩)
        (start + lines.flatten.length) := by
  intro start lines
  rw [← entriesOf_eq_emissions]
  rfl

/-- The request of eve names a line of bob's. -/
def forgedLine : String :=
  "1760380800.123 proxy.3128 0 eve 10.0.0.1:40000 a.example:80 " ++
    "10 20 0 GET /?q " ++ connectionLine "bob" "b.example"

/-- The log of alice's connection is read and replaced by that of eve's. -/
def replacedLog : List RotationEvent :=
  [.append (bytesOf (connectionLine "alice" "a.example")),
    .stat, .read true none,
    .replace (bytesOf forgedLine),
    .stat, .read true none]

theorem lineStart_newline {file : Bytes} {position : Nat}
    (starts : LineStart file (position + 1)) :
    file[position]? = some newline := by
  rcases starts with zero | ⟨before, rest, split, length⟩
  · cases zero
  · obtain rfl : position = before.length := by omega
    simp [split]

/-- The state in which the longer log is read. -/
def beforeFragment : Rotation :=
  Runs.run (@Rotation.step Build.dev) (replacedLog.take 5)
    (newTailer "traffic.log" ⟨"", 0⟩ none)

theorem beforeFragment_start :
    beforeFragment.start (bytesOf forgedLine).length = 76 := by
  decide +kernel

theorem fragment_parses :
    ∃ line ∈ (linesFrom (bytesOf forgedLine) 76 none).head?,
      (@readRecord Build.dev line).isSome = true := by
  refine ⟨bytesOf (connectionLine "bob" "b.example"), ?_, ?_⟩
  · decide +kernel
  · decide +kernel

/-- The tailer goes on in the middle of eve's line, and hands on a record
of bob's. -/
theorem replacedLog_fragment :
    ¬ ∀ emission ∈ (Runs.run (@Rotation.step Build.dev) replacedLog
        (newTailer "traffic.log" ⟨"", 0⟩ none)).emitted,
      @FromCompleteLine Build.dev emission := by
  intro complete
  obtain ⟨-, -, -, -, -, -, reads, -⟩ :=
    (@run_emitted_iff Build.dev replacedLog _).mp complete
  have start := beforeFragment_start
  have here := reads _ (bytesOf forgedLine) rfl rfl rfl
    (by change 0 ≤ beforeFragment.start _; rw [start]; decide)
  change LineStart _ (beforeFragment.start _).toNat ∨
    ∀ line ∈ (linesFrom _ (beforeFragment.start _).toNat _).head?, _ at here
  rw [start] at here
  rcases here with starts | skipped
  · exact absurd (lineStart_newline starts) (by decide +kernel)
  · obtain ⟨line, first, parses⟩ := fragment_parses
    have none := skipped line first
    rw [none] at parses
    cases parses

end Xoxproxy.Analytics
