import Mathlib.Data.List.Basic
import Mathlib.Data.List.Pairwise

/-!
# Routing by method and path

A pattern names the methods it serves and describes paths by literals,
wildcards for single segments, and an ending.  In a table of separate
patterns a request has one route at most, whatever the order of the table.
-/

namespace RoutePatterns

/-- A path: its segments, and whether a slash ends it. -/
structure Path (Text : Type*) where
  segments : List Text
  slash : Bool
  deriving DecidableEq, Repr

/-- One segment of a pattern. -/
inductive Piece (Text : Type*) where
  | literal (text : Text)
  | wildcard
  deriving DecidableEq, Repr

/-- What follows the pieces: nothing, a slash, or a slash and whatever
comes behind it. -/
inductive Ending where
  | exact
  | slash
  | subtree
  deriving DecidableEq, Repr

structure Pattern (Method Text : Type*) where
  methods : List Method
  pieces : List (Piece Text)
  ending : Ending
  deriving DecidableEq, Repr

/-- What a request is answered with. -/
inductive Answer (Method Text Route : Type*) where
  | found (route : Route)
  | redirect (path : Path Text)
  | methodNotAllowed (allowed : List Method)
  | notFound
  deriving DecidableEq, Repr

section Matching

variable {Method Text Route : Type*} [DecidableEq Method] [DecidableEq Text]

def Piece.accepts : Piece Text → Text → Bool
  | .literal text, segment => text = segment
  | .wildcard, _ => true

/-- The segments behind those that the pieces accept. -/
def remainder : List (Piece Text) → List Text → Option (List Text)
  | [], rest => some rest
  | _ :: _, [] => none
  | piece :: pieces, segment :: rest =>
      if piece.accepts segment then remainder pieces rest else none

def Ending.accepts : Ending → List Text → Bool → Bool
  | .exact, rest, closed => rest.isEmpty && !closed
  | .slash, rest, closed => rest.isEmpty && closed
  | .subtree, rest, closed => !rest.isEmpty || closed

namespace Pattern

variable (pattern : Pattern Method Text) (path : Path Text)

def onPath : Bool :=
  match remainder pattern.pieces path.segments with
  | none => false
  | some rest => pattern.ending.accepts rest path.slash

/-- The pieces use up the segments. -/
def exactly : Bool :=
  decide (remainder pattern.pieces path.segments = some [])

def serves (method : Method) : Bool :=
  pattern.methods.contains method && pattern.onPath path

end Pattern

/-- No rest of a path goes with both endings. -/
def Ending.apart : Ending → Ending → Bool
  | .exact, .slash | .slash, .exact | .exact, .subtree
  | .subtree, .exact => true
  | _, _ => false

def Piece.apart : Piece Text → Piece Text → Bool
  | .literal first, .literal second => decide (first ≠ second)
  | _, _ => false

/-- No path is described by both. -/
def apart : List (Piece Text) → Ending → List (Piece Text) → Ending → Bool
  | [], ending, [], other => ending.apart other
  | [], ending, _ :: _, _ => decide (ending ≠ .subtree)
  | _ :: _, _, [], other => decide (other ≠ .subtree)
  | piece :: pieces, ending, front :: others, other =>
      piece.apart front || apart pieces ending others other

/-- No request is served by both. -/
def Pattern.separate (first second : Pattern Method Text) : Bool :=
  first.methods.all (fun method => !second.methods.contains method) ||
    apart first.pieces first.ending second.pieces second.ending

variable (table : List (Pattern Method Text × Route))

/-- A table in which the order does not matter. -/
def Separate : Prop :=
  table.Pairwise fun first second => first.1.separate second.1 = true

def lookup (method : Method) (path : Path Text) :
    Option (Pattern Method Text × Route) :=
  table.find? fun entry => entry.1.serves path method

/-- The path with a slash behind it. -/
def Path.slashed (path : Path Text) : Path Text :=
  { path with slash := true }

/-- The methods with which a path, or the path with a slash behind it, is
served. -/
def allowedMethods (path : Path Text) : List Method :=
  (table.filter fun entry =>
    entry.1.onPath path || entry.1.onPath path.slashed).flatMap
      fun entry => entry.1.methods

/-- The route of a request.  A path that is not served as it is, but is
with a slash behind it, is sent there. -/
def dispatch (method : Method) (path : Path Text) :
    Answer Method Text Route :=
  let hit := lookup table method path
  let other := lookup table method path.slashed
  if !path.slash && !(hit.any fun entry => entry.1.exactly path) &&
      other.any (fun entry => entry.1.exactly path) then
    .redirect path.slashed
  else
    match hit with
    | some entry => .found entry.2
    | none =>
        let allowed := allowedMethods table path
        if allowed.isEmpty then .notFound else .methodNotAllowed allowed

theorem Piece.apart_sound {first second : Piece Text} {segment : Text}
    (separate : first.apart second = true)
    (accepts : first.accepts segment = true) :
    second.accepts segment = false := by
  cases first with
  | wildcard => cases separate
  | literal text =>
      cases second with
      | wildcard => cases separate
      | literal other =>
          have differs : text ≠ other := of_decide_eq_true separate
          have same : text = segment := of_decide_eq_true accepts
          rw [Piece.accepts, ← same]
          exact decide_eq_false differs.symm

omit [DecidableEq Text] in
theorem Ending.apart_sound {first second : Ending} {closed : Bool}
    (separate : first.apart second = true)
    (accepts : first.accepts ([] : List Text) closed = true) :
    second.accepts ([] : List Text) closed = false := by
  cases first with
  | subtree =>
      cases second with
      | exact =>
          rw [show closed = true from accepts]
          rfl
      | slash | subtree => cases separate
  | slash =>
      cases second with
      | exact =>
          rw [show closed = true from accepts]
          rfl
      | slash | subtree => cases separate
  | exact =>
      have unclosed : closed = false := Bool.not_eq_true' _ ▸ accepts
      rw [unclosed]
      cases second with
      | exact => cases separate
      | slash | subtree => rfl

omit [DecidableEq Text] in
theorem Ending.accepts_cons {ending : Ending} {segment : Text}
    {rest : List Text} {closed : Bool}
    (accepts : ending.accepts (segment :: rest) closed = true) :
    ending = .subtree := by
  cases ending with
  | subtree => rfl
  | exact | slash => cases accepts

/-- Pieces and an ending describe the segments of a path. -/
def Describes (pieces : List (Piece Text)) (ending : Ending)
    (segments : List Text) (closed : Bool) : Prop :=
  ∃ rest, remainder pieces segments = some rest ∧
    ending.accepts rest closed = true

theorem describes_cons {piece : Piece Text} {pieces : List (Piece Text)}
    {ending : Ending} {segments : List Text} {closed : Bool} :
    Describes (piece :: pieces) ending segments closed ↔
      ∃ segment rest, segments = segment :: rest ∧
        piece.accepts segment = true ∧
        Describes pieces ending rest closed := by
  constructor
  · rintro ⟨left, found, accepts⟩
    cases segments with
    | nil => cases found
    | cons segment rest =>
        by_cases fits : piece.accepts segment = true
        · rw [remainder, if_pos fits] at found
          exact ⟨segment, rest, rfl, fits, left, found, accepts⟩
        · rw [remainder, if_neg fits] at found
          cases found
  · rintro ⟨segment, rest, rfl, fits, left, found, accepts⟩
    refine ⟨left, ?_, accepts⟩
    rw [remainder, if_pos fits]
    exact found

theorem describes_nil {ending : Ending} {segments : List Text}
    {closed : Bool} :
    Describes [] ending segments closed ↔
      ending.accepts segments closed = true := by
  constructor
  · rintro ⟨rest, found, accepts⟩
    obtain rfl := Option.some.inj found
    exact accepts
  · exact fun accepts => ⟨segments, rfl, accepts⟩

theorem apart_sound {first second : List (Piece Text)}
    {ending other : Ending} {segments : List Text} {closed : Bool}
    (separate : apart first ending second other = true)
    (describes : Describes first ending segments closed) :
    ¬Describes second other segments closed := by
  induction first generalizing second segments with
  | nil =>
      have accepts := describes_nil.mp describes
      cases second with
      | nil =>
          intro also
          have both := describes_nil.mp also
          cases segments with
          | nil =>
              rw [Ending.apart_sound separate accepts] at both
              cases both
          | cons segment rest =>
              have left := Ending.accepts_cons accepts
              have right := Ending.accepts_cons both
              rw [apart, left, right] at separate
              cases separate
      | cons piece pieces =>
          intro also
          obtain ⟨segment, rest, rfl, -⟩ := describes_cons.mp also
          exact of_decide_eq_true separate (Ending.accepts_cons accepts)
  | cons piece pieces inductionHypothesis =>
      obtain ⟨segment, rest, rfl, fits, behind⟩ :=
        describes_cons.mp describes
      cases second with
      | nil =>
          intro also
          exact of_decide_eq_true separate
            (Ending.accepts_cons (describes_nil.mp also))
      | cons front others =>
          intro also
          obtain ⟨same, later, equal, also, further⟩ :=
            describes_cons.mp also
          obtain ⟨rfl, rfl⟩ := List.cons.inj equal
          rw [apart, Bool.or_eq_true] at separate
          rcases separate with differs | apart
          · rw [Piece.apart_sound differs fits] at also
            cases also
          · exact inductionHypothesis apart behind further

omit [DecidableEq Method] in
theorem Pattern.onPath_iff {pattern : Pattern Method Text}
    {path : Path Text} :
    pattern.onPath path = true ↔
      Describes pattern.pieces pattern.ending path.segments path.slash := by
  rw [Pattern.onPath, Describes]
  cases remainder pattern.pieces path.segments <;> simp

theorem Pattern.serves_iff {pattern : Pattern Method Text}
    {path : Path Text} {method : Method} :
    pattern.serves path method = true ↔
      method ∈ pattern.methods ∧ pattern.onPath path = true := by
  rw [Pattern.serves, Bool.and_eq_true, List.contains_iff_mem]

theorem Pattern.separate_sound {first second : Pattern Method Text}
    (separate : first.separate second = true) {path : Path Text}
    {method : Method} (serves : first.serves path method = true) :
    ¬second.serves path method = true := by
  obtain ⟨listed, onPath⟩ := serves_iff.mp serves
  intro also
  obtain ⟨other, both⟩ := serves_iff.mp also
  rw [Pattern.separate, Bool.or_eq_true] at separate
  rcases separate with methods | paths
  · have absent := List.all_eq_true.mp methods method listed
    rw [List.contains_iff_mem.mpr other] at absent
    cases absent
  · exact apart_sound paths (onPath_iff.mp onPath) (onPath_iff.mp both)

/-! ## Answers -/

variable {table} {method : Method} {path : Path Text}

/-- A request has one route at most. -/
theorem Separate.unique (separate : Separate table)
    {first second : Pattern Method Text × Route}
    (firstListed : first ∈ table) (secondListed : second ∈ table)
    (firstServes : first.1.serves path method = true)
    (secondServes : second.1.serves path method = true) :
    first = second := by
  let differ := fun one two : Pattern Method Text × Route =>
    ¬(one.1.serves path method = true ∧ two.1.serves path method = true)
  have symmetric : Std.Symm differ := ⟨fun _ _ not both => not both.symm⟩
  have apart : table.Pairwise differ := by
    refine List.Pairwise.imp ?_ separate
    intro one two pair both
    exact Pattern.separate_sound pair both.1 both.2
  by_contra different
  exact apart.forall firstListed secondListed different
    ⟨firstServes, secondServes⟩

theorem lookup_eq_some {entry : Pattern Method Text × Route}
    (found : lookup table method path = some entry) :
    entry ∈ table ∧ entry.1.serves path method = true := by
  rw [lookup] at found
  have serves := List.find?_some found
  exact ⟨List.mem_of_find?_eq_some found, serves⟩

omit [DecidableEq Method] in
theorem mem_allowedMethods :
    method ∈ allowedMethods table path ↔
      ∃ entry ∈ table, method ∈ entry.1.methods ∧
        (entry.1.onPath path = true ∨
          entry.1.onPath path.slashed = true) := by
  simp only [allowedMethods, List.mem_flatMap, List.mem_filter,
    Bool.or_eq_true, and_assoc]
  exact exists_congr fun entry => and_congr_right fun _ => and_comm

/-- What is known of each answer. -/
inductive Dispatched (table : List (Pattern Method Text × Route))
    (method : Method) (path : Path Text) :
    Answer Method Text Route → Prop where
  | found (pattern : Pattern Method Text) (route : Route)
      (listed : (pattern, route) ∈ table)
      (serves : pattern.serves path method = true) :
      Dispatched table method path (.found route)
  | redirect (pattern : Pattern Method Text) (route : Route)
      (listed : (pattern, route) ∈ table) (unclosed : path.slash = false)
      (serves : pattern.serves path.slashed method = true) :
      Dispatched table method path (.redirect path.slashed)
  | methodNotAllowed (others : allowedMethods table path ≠ [])
      (unserved : method ∉ allowedMethods table path) :
      Dispatched table method path
        (.methodNotAllowed (allowedMethods table path))
  | notFound (none : allowedMethods table path = []) :
      Dispatched table method path .notFound

omit [DecidableEq Method] in
/-- A path that is described only with a slash behind it is described
exactly. -/
theorem Pattern.exactly_of_slashed {pattern : Pattern Method Text}
    (slashed : pattern.onPath path.slashed = true)
    (plain : ¬pattern.onPath path = true) :
    pattern.exactly path = true := by
  obtain ⟨rest, found, accepts⟩ := onPath_iff.mp slashed
  rw [Pattern.exactly, decide_eq_true_iff]
  cases rest with
  | nil => exact found
  | cons segment rest =>
      have subtree := Ending.accepts_cons accepts
      have onPath : pattern.onPath path = true :=
        onPath_iff.mpr ⟨segment :: rest, found, by rw [subtree]; rfl⟩
      exact absurd onPath plain

theorem not_allowed_of_lookup
    (missed : lookup table method path = none)
    (stays : path.slash = true ∨
      (lookup table method path.slashed).any
        (fun entry => entry.1.exactly path) = false) :
    method ∉ allowedMethods table path := by
  have unserved : ∀ entry ∈ table, method ∈ entry.1.methods →
      ¬entry.1.onPath path = true := by
    intro entry listed serves onPath
    exact List.find?_eq_none.mp missed entry listed
      (Pattern.serves_iff.mpr ⟨serves, onPath⟩)
  intro allowed
  obtain ⟨entry, listed, serves, onPath | slashed⟩ :=
    mem_allowedMethods.mp allowed
  · exact unserved entry listed serves onPath
  · rcases stays with closed | stays
    · have same : path.slashed = path := by rw [Path.slashed, ← closed]
      rw [same] at slashed
      exact unserved entry listed serves slashed
    · cases found : lookup table method path.slashed with
      | none =>
          exact List.find?_eq_none.mp found entry listed
            (Pattern.serves_iff.mpr ⟨serves, slashed⟩)
      | some other =>
          obtain ⟨otherListed, otherServes⟩ := lookup_eq_some found
          obtain ⟨otherMethod, onSlashed⟩ := Pattern.serves_iff.mp otherServes
          have exactly := Pattern.exactly_of_slashed onSlashed
            (unserved other otherListed otherMethod)
          rw [found, Option.any_some, exactly] at stays
          cases stays

theorem dispatched (table : List (Pattern Method Text × Route))
    (method : Method) (path : Path Text) :
    Dispatched table method path (dispatch table method path) := by
  rw [dispatch]
  split
  · rename_i sent
    simp only [Bool.and_eq_true, Bool.not_eq_true', Option.any_eq_true]
      at sent
    obtain ⟨⟨unclosed, -⟩, entry, found, -⟩ := sent
    obtain ⟨listed, serves⟩ := lookup_eq_some found
    exact .redirect entry.1 entry.2 listed unclosed serves
  · rename_i stays
    cases found : lookup table method path with
    | some entry =>
        obtain ⟨listed, serves⟩ := lookup_eq_some found
        exact .found entry.1 entry.2 listed serves
    | none =>
        have unserved : method ∉ allowedMethods table path := by
          apply not_allowed_of_lookup found
          simpa [found, or_iff_not_imp_left] using stays
        dsimp only
        by_cases none : allowedMethods table path = []
        · rw [if_pos (List.isEmpty_iff.mpr none)]
          exact .notFound none
        · rw [if_neg fun empty => none (List.isEmpty_iff.mp empty)]
          exact .methodNotAllowed none unserved

end Matching

end RoutePatterns
