import Xoxproxy.Analytics.Moves

/-!
# Tailing a growing log

However the log grows and whenever the tailer polls, what it has handed on
is what one parse of the log behind the start gives.
-/

namespace Xoxproxy.Analytics

/-- Nothing but complete lines. -/
def WholeLines (bytes : Bytes) : Prop :=
  (completeLines bytes).flatten = bytes

/-- A position in the log before which there are complete lines only. -/
structure LineBoundary (log : Bytes) (position : Nat) : Prop where
  inside : position ≤ log.length
  whole : WholeLines (log.take position)

/-- The complete lines between two positions. -/
def linesBetween (log : Bytes) (start stop : Nat) : List Bytes :=
  completeLines ((log.take stop).drop start)

theorem wholeLines_nil : WholeLines [] := rfl

theorem unfinished_of_whole {bytes : Bytes} (whole : WholeLines bytes) :
    unfinished bytes = [] := by
  rw [unfinished, whole, List.drop_length]

theorem whole_of_unfinished {bytes : Bytes}
    (none : unfinished bytes = []) : WholeLines bytes := by
  have parts := flatten_completeLines_append bytes
  rw [none, List.append_nil] at parts
  exact parts

/-- Lines are read one after the other. -/
theorem completeLines_whole_append {bytes : Bytes}
    (whole : WholeLines bytes) (more : Bytes) :
    completeLines (bytes ++ more) =
      completeLines bytes ++ completeLines more := by
  rw [completeLines_append, unfinished_of_whole whole, List.nil_append]

theorem wholeLines_append {first second : Bytes}
    (firstWhole : WholeLines first) (secondWhole : WholeLines second) :
    WholeLines (first ++ second) := by
  rw [WholeLines, completeLines_whole_append firstWhole,
    List.flatten_append, firstWhole, secondWhole]

/-- What follows complete lines consists of complete lines when the whole
does. -/
theorem wholeLines_of_append {first second : Bytes}
    (firstWhole : WholeLines first)
    (bothWhole : WholeLines (first ++ second)) : WholeLines second := by
  rw [WholeLines, completeLines_whole_append firstWhole,
    List.flatten_append, firstWhole] at bothWhole
  exact List.append_cancel_left bothWhole

theorem wholeLines_take (bytes : Bytes) (count : Nat) :
    WholeLines ((completeLines bytes).take count).flatten := by
  rw [WholeLines, completeLines_take]

variable {log : Bytes} {start middle stop position : Nat}

theorem boundary_zero (log : Bytes) : LineBoundary log 0 where
  inside := Nat.zero_le _
  whole := wholeLines_nil

theorem LineBoundary.append (boundary : LineBoundary log position)
    (more : Bytes) : LineBoundary (log ++ more) position := by
  have inside := boundary.inside
  refine ⟨?_, ?_⟩
  · rw [List.length_append]
    omega
  · rw [List.take_append_of_le_length inside]
    exact boundary.whole

theorem linesBetween_append (inside : stop ≤ log.length) (more : Bytes) :
    linesBetween (log ++ more) start stop =
      linesBetween log start stop := by
  rw [linesBetween, List.take_append_of_le_length inside, linesBetween]

/-- The part between two boundaries. -/
theorem whole_between (startBoundary : LineBoundary log start)
    (stopBoundary : LineBoundary log stop) (ordered : start ≤ stop) :
    WholeLines ((log.take stop).drop start) := by
  apply wholeLines_of_append startBoundary.whole
  have earlier : log.take start = (log.take stop).take start := by
    rw [List.take_take, Nat.min_eq_left ordered]
  rw [earlier, List.take_append_drop]
  exact stopBoundary.whole

theorem length_linesBetween (startBoundary : LineBoundary log start)
    (stopBoundary : LineBoundary log stop) (ordered : start ≤ stop) :
    start + (linesBetween log start stop).flatten.length = stop := by
  have inside := stopBoundary.inside
  rw [linesBetween, whole_between startBoundary stopBoundary ordered,
    List.length_drop, List.length_take]
  omega

/-- The lines up to a boundary and those behind it. -/
theorem linesBetween_trans (startBoundary : LineBoundary log start)
    (middleBoundary : LineBoundary log middle)
    (early : start ≤ middle) (late : middle ≤ stop) :
    linesBetween log start stop =
      linesBetween log start middle ++ linesBetween log middle stop := by
  have whole := whole_between startBoundary middleBoundary early
  rw [linesBetween, linesBetween, linesBetween,
    ← completeLines_whole_append whole]
  congr 1
  have earlier : log.take middle = (log.take stop).take middle := by
    rw [List.take_take, Nat.min_eq_left late]
  have inside : start ≤ ((log.take stop).take middle).length := by
    have bound := middleBoundary.inside
    rw [← earlier, List.length_take]
    omega
  rw [earlier, ← List.drop_append_of_le_length inside,
    List.take_append_drop]

/-- Some of the complete lines behind a boundary lead to another one. -/
theorem LineBoundary.advance (boundary : LineBoundary log position)
    (count : Nat) :
    let lines := (completeLines (log.drop position)).take count
    LineBoundary log (position + lines.flatten.length) ∧
      linesBetween log position (position + lines.flatten.length) =
        lines := by
  intro lines
  have inside := boundary.inside
  have prefixed : lines.flatten <+: log.drop position := by
    have parts := flatten_completeLines_append (log.drop position)
    rw [← List.take_append_drop count (completeLines (log.drop position)),
      List.flatten_append, List.append_assoc] at parts
    exact ⟨_, parts⟩
  have read : (log.take (position + lines.flatten.length)).drop position =
      lines.flatten := by
    rw [List.drop_take, Nat.add_sub_cancel_left]
    exact (List.prefix_iff_eq_take.mp prefixed).symm
  have short := prefixed.length_le
  rw [List.length_drop] at short
  refine ⟨⟨by omega, ?_⟩, ?_⟩
  · have before : (log.take (position + lines.flatten.length)).take
        position = log.take position := by
      rw [List.take_take, Nat.min_eq_left (Nat.le_add_right _ _)]
    rw [← List.take_append_drop position
      (log.take (position + lines.flatten.length)), before, read]
    exact wholeLines_append boundary.whole (wholeLines_take _ count)
  · rw [linesBetween, read]
    exact completeLines_take _ count

/-- Behind the last complete line there is none. -/
theorem LineBoundary.last (boundary : LineBoundary log position) :
    position + (completeLines (log.drop position)).flatten.length =
      (completeLines log).flatten.length := by
  have split : completeLines log =
      completeLines (log.take position) ++
        completeLines (log.drop position) := by
    rw [← completeLines_whole_append boundary.whole,
      List.take_append_drop]
  have length : (completeLines (log.take position)).flatten.length =
      position := by
    rw [boundary.whole, List.length_take]
    exact Nat.min_eq_left boundary.inside
  rw [split, List.flatten_append, List.length_append, length]

/-- The position up to which lines have been read. -/
def Tailer.readEnd (tailer : Tailer) : Nat :=
  match tailer.phase with
  | .publishing _ offset => offset
  | _ => tailer.offset

/-- The lines behind the offset, as many as a poll reads. -/
theorem linesBehind_eq_take (s : Pipeline) (offset : Nat)
    (limit : Option Nat) :
    ∃ count, s.linesBehind offset limit =
      (completeLines (s.log.drop offset)).take count := by
  cases limit with
  | some count => exact ⟨count, rfl⟩
  | none =>
      exact ⟨(completeLines (s.log.drop offset)).length,
        List.take_length.symm⟩

theorem add_enqueued (trace : Trace) (entry : Entry) (slot : DestKey) :
    (trace.add entry slot).enqueued = trace.enqueued := by
  rw [Trace.add]
  by_cases nobody : entry.record.unattributable = true
  · rw [if_pos nobody]
  · rw [if_neg nobody]

section Tailing

variable [Build]

/-- What the tailer of a process that started at a position has read and
handed on. -/
structure Tailed (start : Nat) (s : Pipeline) : Prop where
  started : LineBoundary s.log start
  published : LineBoundary s.log s.tailer.offset
  read : LineBoundary s.log s.tailer.readEnd
  behind : start ≤ s.tailer.offset
  forward : s.tailer.offset ≤ s.tailer.readEnd
  handed : s.trace.enqueued =
    entriesOf start (linesBetween s.log start s.tailer.offset)
  reading : ∀ batch offset, s.tailer.phase = .publishing batch offset →
    batch = entriesOf s.tailer.offset
      (linesBetween s.log s.tailer.offset offset)
  malformed : s.tailer.malformed =
    malformedCount (linesBetween s.log start s.tailer.readEnd)

variable {start : Nat} {options : Options} {s after : Pipeline}
variable {action : PipelineAction}

theorem Tailed.of_same (tailed : Tailed start s)
    (log : after.log = s.log) (offset : after.tailer.offset = s.tailer.offset)
    (malformed : after.tailer.malformed = s.tailer.malformed)
    (idle : ∀ batch offset, s.tailer.phase ≠ .publishing batch offset)
    (stillIdle : ∀ batch offset,
      after.tailer.phase ≠ .publishing batch offset)
    (enqueued : after.trace.enqueued = s.trace.enqueued) :
    Tailed start after := by
  have oldEnd : s.tailer.readEnd = s.tailer.offset := by
    unfold Tailer.readEnd
    split
    · exact absurd ‹_› (idle _ _)
    · rfl
  have newEnd : after.tailer.readEnd = s.tailer.offset := by
    unfold Tailer.readEnd
    split
    · exact absurd ‹_› (stillIdle _ _)
    · exact offset
  refine ⟨?_, ?_, ?_, ?_, ?_, ?_, ?_, ?_⟩
  · rw [log]
    exact tailed.started
  · rw [log, offset]
    exact tailed.published
  · rw [log, newEnd]
    exact tailed.published
  · rw [offset]
    exact tailed.behind
  · rw [offset, newEnd]
  · rw [enqueued, log, offset]
    exact tailed.handed
  · exact fun batch offset phase => absurd phase (stillIdle batch offset)
  · rw [malformed, log, newEnd, tailed.malformed, oldEnd]

/-- Neither the log nor the tailer is touched. -/
theorem Tailed.of_untouched (tailed : Tailed start s)
    (log : after.log = s.log) (tailer : after.tailer = s.tailer)
    (enqueued : after.trace.enqueued = s.trace.enqueued) :
    Tailed start after := by
  refine ⟨?_, ?_, ?_, ?_, ?_, ?_, ?_, ?_⟩
  · rw [log]
    exact tailed.started
  · rw [log, tailer]
    exact tailed.published
  · rw [log, tailer]
    exact tailed.read
  · rw [tailer]
    exact tailed.behind
  · rw [tailer]
    exact tailed.forward
  · rw [enqueued, log, tailer]
    exact tailed.handed
  · rw [log, tailer]
    exact tailed.reading
  · rw [log, tailer]
    exact tailed.malformed

theorem Tailed.grow (tailed : Tailed start s) (bytes : Bytes)
    (log : after.log = s.log ++ bytes) (tailer : after.tailer = s.tailer)
    (enqueued : after.trace.enqueued = s.trace.enqueued) :
    Tailed start after := by
  have inside := tailed.read.inside
  have shorter := tailed.published.inside
  refine ⟨?_, ?_, ?_, ?_, ?_, ?_, ?_, ?_⟩
  · rw [log]
    exact tailed.started.append bytes
  · rw [log, tailer]
    exact tailed.published.append bytes
  · rw [log, tailer]
    exact tailed.read.append bytes
  · rw [tailer]
    exact tailed.behind
  · rw [tailer]
    exact tailed.forward
  · rw [enqueued, log, tailer, linesBetween_append shorter]
    exact tailed.handed
  · intro batch offset phase
    rw [tailer] at phase
    have within : offset ≤ s.log.length := by
      have read := tailed.read.inside
      rw [Tailer.readEnd, phase] at read
      exact read
    rw [log, tailer, linesBetween_append within]
    exact tailed.reading batch offset phase
  · rw [log, tailer, linesBetween_append inside]
    exact tailed.malformed

theorem malformedCount_append (first second : List Bytes) :
    malformedCount (first ++ second) =
      malformedCount first + malformedCount second :=
  List.countP_append

theorem Tailed.poll (tailed : Tailed start s)
    (idle : s.tailer.phase = .waiting) (limit : Option Nat) :
    Tailed start (s.poll limit) := by
  have inside := tailed.published.inside
  have fromOffset :
      (if s.log.length < s.tailer.offset then 0 else s.tailer.offset) =
        s.tailer.offset := if_neg (by omega)
  obtain ⟨count, lines⟩ := linesBehind_eq_take s s.tailer.offset limit
  obtain ⟨boundary, between⟩ := tailed.published.advance count
  rw [← lines] at boundary between
  have readEnd : (s.poll limit).tailer.readEnd = s.tailer.offset +
      (s.linesBehind s.tailer.offset limit).flatten.length := by
    simp only [Pipeline.poll, fromOffset, Tailer.readEnd]
  have oldEnd : s.tailer.readEnd = s.tailer.offset := by
    rw [Tailer.readEnd, idle]
  refine ⟨tailed.started, tailed.published, ?_, tailed.behind, ?_,
    tailed.handed, ?_, ?_⟩
  · rw [readEnd]
    exact boundary
  · rw [readEnd]
    exact Nat.le_add_right _ _
  · intro batch offset phase
    simp only [Pipeline.poll, fromOffset] at phase
    obtain ⟨rfl, rfl⟩ := TailerPhase.publishing.inj phase
    exact congrArg _ between.symm
  · have counted : (s.poll limit).tailer.malformed = s.tailer.malformed +
        malformedCount (s.linesBehind s.tailer.offset limit) := by
      simp only [Pipeline.poll, fromOffset]
    have whole := linesBetween_trans tailed.started tailed.published
      tailed.behind (Nat.le_add_right _
        (s.linesBehind s.tailer.offset limit).flatten.length)
    rw [readEnd, counted, tailed.malformed, oldEnd]
    change _ = malformedCount (linesBetween s.log start _)
    rw [whole, malformedCount_append, between]

theorem Tailed.publish (tailed : Tailed start s)
    {batch : List Entry} {offset : Nat}
    (ready : s.tailer.phase = .publishing batch offset) :
    Tailed start (s.publish batch offset) := by
  have read := tailed.read
  have forward := tailed.forward
  have counted := tailed.malformed
  rw [Tailer.readEnd, ready] at read forward counted
  have newEnd : (s.publish batch offset).tailer.readEnd = offset := by
    unfold Pipeline.publish Tailer.readEnd
    by_cases empty : batch = []
    · simp [empty]
    · simp [empty]
  have whole := linesBetween_trans tailed.started tailed.published
    tailed.behind forward
  have length := length_linesBetween tailed.started tailed.published
    tailed.behind
  refine ⟨tailed.started, read, ?_, Nat.le_trans tailed.behind forward, ?_,
    ?_, ?_, ?_⟩
  · rw [newEnd]
    exact read
  · rw [newEnd]
    exact Nat.le_refl _
  · change s.trace.enqueued ++ batch =
      entriesOf start (linesBetween s.log start offset)
    rw [whole, entriesOf_append, length, ← tailed.handed,
      ← tailed.reading batch offset ready]
  · intro other position phase
    unfold Pipeline.publish at phase
    by_cases empty : batch = []
    · simp [empty] at phase
    · simp [empty] at phase
  · rw [newEnd]
    exact counted

theorem Tailed.move (tailed : Tailed start s)
    (running : action ≠ .restart)
    (move : Move options s action after) : Tailed start after := by
  cases move with
  | append bytes => exact tailed.grow bytes rfl rfl rfl
  | poll choice idle => exact tailed.poll idle choice.lines
  | publish choice batch offset ready => exact tailed.publish ready
  | handed choice empty =>
      refine tailed.of_same rfl rfl rfl ?_ ?_ rfl
      · rw [empty]
        exact fun _ _ wrong => (by cases wrong)
      · exact fun _ _ wrong => (by cases wrong)
  | enqueue choice entry rest handing room =>
      refine tailed.of_same rfl rfl rfl ?_ ?_ rfl
      · rw [handing]
        exact fun _ _ wrong => (by cases wrong)
      · exact fun _ _ wrong => (by cases wrong)
  | direct choice entry rest handing waiting unbuffered =>
      refine tailed.of_same rfl rfl rfl ?_ ?_ (add_enqueued _ _ _)
      · rw [handing]
        exact fun _ _ wrong => (by cases wrong)
      · exact fun _ _ wrong => (by cases wrong)
  | drop choice entry rest handing =>
      refine tailed.of_same rfl rfl rfl ?_ ?_ rfl
      · rw [handing]
        exact fun _ _ wrong => (by cases wrong)
      · exact fun _ _ wrong => (by cases wrong)
  | receive choice entry rest ready queued =>
      exact tailed.of_untouched rfl rfl (add_enqueued _ _ _)
  | restart => exact absurd rfl running
  | _ => exact tailed.of_untouched rfl rfl rfl

/-- A process that has just started has read nothing. -/
theorem tailed_restart
    (boundary : LineBoundary s.log
      (Pipeline.resumeOffset options s.host.database)) :
    Tailed (Pipeline.resumeOffset options s.host.database)
      (s.restart options) := by
  have none : linesBetween s.log
      (Pipeline.resumeOffset options s.host.database)
      (Pipeline.resumeOffset options s.host.database) = [] := by
    rw [linesBetween, List.drop_eq_nil_of_le]
    · rfl
    · rw [List.length_take]
      exact Nat.min_le_left _ _
  refine ⟨boundary, boundary, boundary, Nat.le_refl _, Nat.le_refl _, ?_,
    fun _ _ wrong => (by cases wrong), ?_⟩
  · exact (congrArg (entriesOf _) none).symm
  · exact (congrArg malformedCount none).symm

/-! ## Every schedule of polls -/

/-- The records of consecutive lines, wherever they start. -/
theorem map_record_entriesOf (start : Nat) (lines : List Bytes) :
    (entriesOf start lines).map Entry.record =
      lines.filterMap readRecord := by
  induction lines generalizing start with
  | nil => rfl
  | cons line rest inductionHypothesis =>
      rw [entriesOf, List.filterMap_cons]
      cases readRecord line with
      | none => exact inductionHypothesis _
      | some record =>
          rw [List.map_cons, inductionHypothesis]

/-- The batch with which a step calls the sink: the tailer is about to
publish an offset before the step, and inside the sink behind it. -/
def sinkCall (before after : Pipeline) : List (List Entry) :=
  match before.tailer.phase, after.tailer.phase with
  | .publishing _ _, .handing batch => [batch]
  | _, _ => []

/-- The batches that a run gives to the sink, in order. -/
def sinkCalls (options : Options) :
    List PipelineAction → Pipeline → List (List Entry)
  | [], _ => []
  | action :: rest, s =>
      let after := Pipeline.step options action s
      sinkCall s after ++ sinkCalls options rest after

omit [Build] in
theorem sinkCall_of_ne
    (idle : ∀ batch offset, s.tailer.phase ≠ .publishing batch offset) :
    sinkCall s after = [] := by
  unfold sinkCall
  cases phase : s.tailer.phase with
  | publishing batch offset => exact absurd phase (idle batch offset)
  | _ => rfl

omit [Build] in
theorem sinkCall_of_same (tailer : after.tailer = s.tailer) :
    sinkCall s after = [] := by
  rw [sinkCall, tailer]
  cases s.tailer.phase <;> rfl

omit [Build] in
theorem sinkCall_publish {batch : List Entry} {offset : Nat}
    (ready : s.tailer.phase = .publishing batch offset) :
    (sinkCall s (s.publish batch offset)).flatten = batch := by
  rw [sinkCall, ready, Pipeline.publish]
  by_cases empty : batch = []
  · simp [empty]
  · simp [empty]

/-- What a step passes to `enqueue` is the batch of its call. -/
theorem enqueued_of_move (running : action ≠ .restart)
    (move : Move options s action after) :
    after.trace.enqueued =
      s.trace.enqueued ++ (sinkCall s after).flatten := by
  have quiet : sinkCall s after = [] →
      after.trace.enqueued = s.trace.enqueued →
        after.trace.enqueued =
          s.trace.enqueued ++ (sinkCall s after).flatten := by
    intro none same
    rw [none, same]
    exact (List.append_nil _).symm
  cases move with
  | publish choice batch offset ready =>
      rw [sinkCall_publish ready]
      rfl
  | poll choice idle =>
      refine quiet (sinkCall_of_ne ?_) rfl
      rw [idle]
      exact fun _ _ wrong => (by cases wrong)
  | handed choice handing =>
      refine quiet (sinkCall_of_ne ?_) rfl
      rw [handing]
      exact fun _ _ wrong => (by cases wrong)
  | enqueue choice entry rest handing | drop choice entry rest handing =>
      refine quiet (sinkCall_of_ne ?_) rfl
      rw [handing]
      exact fun _ _ wrong => (by cases wrong)
  | direct choice entry rest handing =>
      refine quiet (sinkCall_of_ne ?_) (add_enqueued _ _ _)
      rw [handing]
      exact fun _ _ wrong => (by cases wrong)
  | receive => exact quiet (sinkCall_of_same rfl) (add_enqueued _ _ _)
  | restart => exact absurd rfl running
  | _ => exact quiet (sinkCall_of_same rfl) rfl

theorem enqueued_run {actions : List PipelineAction}
    (running : ∀ action ∈ actions, action ≠ .restart) :
    (Runs.run (Pipeline.step options) actions s).trace.enqueued =
      s.trace.enqueued ++ (sinkCalls options actions s).flatten := by
  induction actions generalizing s with
  | nil => exact (List.append_nil _).symm
  | cons action rest inductionHypothesis =>
      obtain ⟨here, later⟩ := List.forall_mem_cons.mp running
      have made : Move options s action (s.act options action) :=
        move_act action
      have first : (Pipeline.step options action s).trace.enqueued =
          s.trace.enqueued ++
            (sinkCall s (Pipeline.step options action s)).flatten :=
        (enqueued_of_move here made :)
      rw [Runs.run_cons, inductionHypothesis later, first, sinkCalls,
        List.flatten_append, List.append_assoc]

/-- What the tailer has done is what one parse of the lines behind the
start gives: the batches that the sink has got hold the records of the
lines up to the offset, the offset is just behind the last of them, and the
lines read that do not parse are counted. -/
structure TailedExactly (start : Nat) (calls : List (List Entry))
    (s : Pipeline) : Prop where
  records : calls.flatten.map Entry.record =
    (linesBetween s.log start s.tailer.offset).filterMap readRecord
  offset : s.tailer.offset =
    start + (linesBetween s.log start s.tailer.offset).flatten.length
  malformed : s.tailer.malformed =
    (linesBetween s.log start s.tailer.readEnd).countP fun line =>
      (readRecord line).isNone

/-- Tailing does not depend on how the log grows and when it is polled.
Here a process starts on any log at a position behind a complete line, and
appends, polls and other steps follow in any order.  A poll that meets no
read error reaches the end of the last complete line. -/
theorem tailing_exact (options : Options) (installation : Pipeline)
    (boundary : LineBoundary installation.log
      (Pipeline.resumeOffset options installation.host.database))
    (actions : List PipelineAction)
    (running : ∀ action ∈ actions, action ≠ .restart) :
    let start :=
      Pipeline.resumeOffset options installation.host.database
    let s := Runs.run (Pipeline.step options) actions
      (installation.restart options)
    TailedExactly start
        (sinkCalls options actions (installation.restart options)) s ∧
      (s.tailer.phase = .waiting →
        (Pipeline.step options (.tailer {}) s).tailer.readEnd =
          (completeLines s.log).flatten.length) := by
  intro start s
  have tailed : Tailed start s := by
    apply @Runs.invariant_of_meets _ _ _ (fun _ action => action ≠ .restart)
      (Tailed start)
    · intro s action tailed running
      have made : Move options s action (s.act options action) :=
        move_act action
      have moved := tailed.move running made
      exact moved.of_untouched rfl rfl rfl
    · exact tailed_restart boundary
    · exact Runs.meets_of_forall running _
  have handed : s.trace.enqueued =
      (sinkCalls options actions (installation.restart options)).flatten :=
    enqueued_run running
  refine ⟨⟨?_, ?_, tailed.malformed⟩, ?_⟩
  · rw [← handed, tailed.handed, map_record_entriesOf]
  · exact (length_linesBetween tailed.started tailed.published
      tailed.behind).symm
  · intro idle
    have inside := tailed.published.inside
    have polled : Pipeline.act options s (.tailer {}) = s.poll none := by
      change s.stepTailer options {} = _
      rw [Pipeline.stepTailer, idle]
      rfl
    have readEnd : (s.poll none).tailer.readEnd = s.tailer.offset +
        (completeLines (s.log.drop s.tailer.offset)).flatten.length := by
      have fromOffset : (if s.log.length < s.tailer.offset then 0
          else s.tailer.offset) = s.tailer.offset := if_neg (by omega)
      simp only [Pipeline.poll, fromOffset, Tailer.readEnd,
        Pipeline.linesBehind]
    have stepped : (Pipeline.step options (.tailer {}) s).tailer =
        (s.poll none).tailer := by
      rw [← polled]
      rfl
    rw [stepped, readEnd]
    exact tailed.published.last

end Tailing

/-- A cursor behind the first line, and a second line that arrives in two
parts between polls, with one behind it that does not parse. -/
def resumedInstallation : Pipeline :=
  let first := bytesOf (connectionLine "alice" "a.example")
  { log := first
    host := { database := {
      logCursor := some ⟨sampleOptions.logPath, first.length⟩ } }
    tailer := { offset := 0 }
    aggregator := newAggregator 1 0 }

def partedActions : List PipelineAction :=
  let second := bytesOf (connectionLine "bob" "b.example" ++ "third\r\n")
  [.append (second.take 20), .tailer {}, .tailer {},
    .append (second.drop 20), .tailer {}, .tailer {}, .tailer {}]

theorem tailing_exact_parted :
    let start := (bytesOf (connectionLine "alice" "a.example")).length
    let calls := @sinkCalls Build.dev sampleOptions partedActions
      (resumedInstallation.restart sampleOptions)
    let s := Runs.run (@Pipeline.step Build.dev sampleOptions)
      partedActions (resumedInstallation.restart sampleOptions)
    LineBoundary resumedInstallation.log start ∧
      (calls.map fun batch => batch.map fun entry => entry.record.username) =
        [["bob"]] ∧
      s.tailer.malformed = 1 ∧
      @TailedExactly Build.dev start calls s ∧
        (s.tailer.phase = .waiting →
          (@Pipeline.step Build.dev sampleOptions (.tailer {})
            s).tailer.readEnd = (completeLines s.log).flatten.length) := by
  have boundary : LineBoundary resumedInstallation.log
      (bytesOf (connectionLine "alice" "a.example")).length :=
    ⟨by decide +kernel, by unfold WholeLines; decide +kernel⟩
  have running : ∀ action ∈ partedActions, action ≠ .restart := by
    intro action member
    simp only [partedActions, List.mem_cons, List.not_mem_nil,
      or_false] at member
    rcases member with rfl | rfl | rfl | rfl | rfl | rfl | rfl <;> simp
  exact ⟨boundary, by decide +kernel, by decide +kernel,
    @tailing_exact Build.dev sampleOptions resumedInstallation boundary
      partedActions running⟩

end Xoxproxy.Analytics
