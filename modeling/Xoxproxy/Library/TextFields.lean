import Mathlib.Data.List.Basic
import Mathlib.Data.List.Infix

/-!
# Fields of a text

A text is cut at its blanks into fields: the longest stretches without
blanks, none of them empty.
-/

namespace TextFields

section Fields

variable (blank : Char → Bool)

/-- The field that has been read so far, when it is one. -/
def pending : List Char → List (List Char)
  | [] => []
  | char :: rest => [char :: rest]

/-- The fields of a text; `field` holds what has been read of the
current one. -/
def fieldsFrom : List Char → List Char → List (List Char)
  | field, [] => pending field
  | field, char :: rest =>
      if blank char then pending field ++ fieldsFrom [] rest
      else fieldsFrom (field ++ [char]) rest

def fields (text : List Char) : List (List Char) :=
  fieldsFrom blank [] text

/-- A field-like text: not empty and without blanks. -/
structure Token (text : List Char) : Prop where
  nonempty : text ≠ []
  solid : ∀ char ∈ text, blank char = false

variable {blank}

theorem pending_of_ne {field : List Char} (nonempty : field ≠ []) :
    pending field = [field] := by
  cases field with
  | nil => exact absurd rfl nonempty
  | cons char rest => rfl

@[simp]
theorem fields_nil : fields blank [] = [] := rfl

theorem fieldsFrom_blank
    {char : Char} (field rest : List Char) (cut : blank char = true) :
    fieldsFrom blank field (char :: rest) =
      pending field ++ fields blank rest := by
  simp [fieldsFrom, fields, cut]

theorem fieldsFrom_solid
    {char : Char} (field rest : List Char) (solid : blank char = false) :
    fieldsFrom blank field (char :: rest) =
      fieldsFrom blank (field ++ [char]) rest := by
  simp [fieldsFrom, solid]

/-- A blank separates the fields before it from those behind it. -/
theorem fieldsFrom_append
    {char : Char} (field text rest : List Char)
    (cut : blank char = true) :
    fieldsFrom blank field (text ++ char :: rest) =
      fieldsFrom blank field text ++ fields blank rest := by
  induction text generalizing field with
  | nil => rw [List.nil_append, fieldsFrom_blank _ _ cut]; rfl
  | cons head text inductionHypothesis =>
      rw [List.cons_append]
      by_cases headCut : blank head = true
      · rw [fieldsFrom_blank _ _ headCut, fieldsFrom_blank _ _ headCut,
          List.append_assoc]
        exact congrArg (pending field ++ ·) (inductionHypothesis [])
      · have headSolid : blank head = false := by simpa using headCut
        rw [fieldsFrom_solid _ _ headSolid,
          fieldsFrom_solid _ _ headSolid, inductionHypothesis]

theorem fields_append
    {char : Char} (text rest : List Char) (cut : blank char = true) :
    fields blank (text ++ char :: rest) =
      fields blank text ++ fields blank rest :=
  fieldsFrom_append [] text rest cut

theorem fieldsFrom_of_solid
    {text : List Char} (field : List Char)
    (solid : ∀ char ∈ text, blank char = false) :
    fieldsFrom blank field text = pending (field ++ text) := by
  induction text generalizing field with
  | nil => simp [fieldsFrom]
  | cons head text inductionHypothesis =>
      have textSolid : ∀ char ∈ text, blank char = false :=
        fun char member => solid char (List.mem_cons_of_mem head member)
      rw [fieldsFrom_solid _ _ (solid head List.mem_cons_self),
        inductionHypothesis _ textSolid, List.append_assoc]
      rfl

/-- A token is its own only field. -/
theorem fields_token {text : List Char} (token : Token blank text) :
    fields blank text = [text] := by
  rw [fields, fieldsFrom_of_solid _ token.solid, List.nil_append,
    pending_of_ne token.nonempty]

theorem infix_of_mem_fieldsFrom {field text part : List Char}
    (listed : part ∈ fieldsFrom blank field text) :
    part <:+: field ++ text := by
  induction text generalizing field with
  | nil =>
      cases field with
      | nil => cases listed
      | cons char field =>
          rw [fieldsFrom, pending, List.mem_singleton] at listed
          rw [listed, List.append_nil]
  | cons char text inductionHypothesis =>
      by_cases cut : blank char = true
      · rw [fieldsFrom_blank _ _ cut] at listed
        rcases List.mem_append.mp listed with here | later
        · cases field with
          | nil => cases here
          | cons head field =>
              rw [pending, List.mem_singleton] at here
              rw [here]
              exact (List.prefix_append _ _).isInfix
        · have inside := inductionHypothesis later
          exact inside.trans ((List.suffix_cons char text).trans
            (List.suffix_append field _)).isInfix
      · have solid : blank char = false := by simpa using cut
        rw [fieldsFrom_solid _ _ solid] at listed
        have inside := inductionHypothesis listed
        rwa [List.append_assoc] at inside

/-- A field is part of its text. -/
theorem infix_of_mem_fields {text part : List Char}
    (listed : part ∈ fields blank text) : part <:+: text :=
  infix_of_mem_fieldsFrom listed

theorem fieldsFrom_ended
    {ending : List Char} (field text : List Char)
    (token : Token blank ending) :
    ∃ initial start, fieldsFrom blank field (text ++ ending) =
      initial ++ [start ++ ending] := by
  induction text generalizing field with
  | nil =>
      have some : field ++ ending ≠ [] := by simp [token.nonempty]
      refine ⟨[], field, ?_⟩
      rw [List.nil_append, fieldsFrom_of_solid _ token.solid,
        pending_of_ne some]
      rfl
  | cons head text inductionHypothesis =>
      rw [List.cons_append]
      by_cases headCut : blank head = true
      · obtain ⟨initial, start, same⟩ := inductionHypothesis []
        refine ⟨pending field ++ initial, start, ?_⟩
        rw [fieldsFrom_blank _ _ headCut, fields, same,
          List.append_assoc]
      · have headSolid : blank head = false := by simpa using headCut
        rw [fieldsFrom_solid _ _ headSolid]
        exact inductionHypothesis _

/-- The last field of a text keeps the token that ends the text. -/
theorem fields_ended
    {ending : List Char} (text : List Char)
    (token : Token blank ending) :
    ∃ initial start, fields blank (text ++ ending) =
      initial ++ [start ++ ending] :=
  fieldsFrom_ended [] text token

variable (blank) in
/-- A text with every run of blanks as one `gap` and none at its ends.
`started` tells whether something has been written, `owed` what goes in
front of the next character that is not blank. -/
def squeezeFrom (gap : Char) : Bool → List Char → List Char → List Char
  | _, _, [] => []
  | started, owed, char :: rest =>
      if blank char then
        squeezeFrom gap started (if started then [gap] else []) rest
      else owed ++ char :: squeezeFrom gap true [] rest

variable (blank) in
def squeeze (gap : Char) (text : List Char) : List Char :=
  squeezeFrom blank gap false [] text

theorem squeezeFrom_blank
    {gap char : Char} (started : Bool) (owed rest : List Char)
    (cut : blank char = true) :
    squeezeFrom blank gap started owed (char :: rest) =
      squeezeFrom blank gap started (if started then [gap] else []) rest := by
  simp [squeezeFrom, cut]

theorem squeezeFrom_solid
    {gap char : Char} (started : Bool) (owed rest : List Char)
    (solid : blank char = false) :
    squeezeFrom blank gap started owed (char :: rest) =
      owed ++ char :: squeezeFrom blank gap true [] rest := by
  simp [squeezeFrom, solid]

theorem fieldsFrom_ne_nil
    {field : List Char} (nonempty : field ≠ []) (text : List Char) :
    fieldsFrom blank field text ≠ [] := by
  induction text generalizing field with
  | nil =>
      rw [fieldsFrom, pending_of_ne nonempty]
      exact List.cons_ne_nil _ _
  | cons char text inductionHypothesis =>
      by_cases cut : blank char = true
      · rw [fieldsFrom_blank _ _ cut, pending_of_ne nonempty]
        exact List.cons_ne_nil _ _
      · have solid : blank char = false := by simpa using cut
        rw [fieldsFrom_solid _ _ solid]
        exact inductionHypothesis (by simp)

variable (blank) in
/-- How the fields of a text, joined, are squeezed from it: at the
beginning, behind a field that a blank has ended, and inside a field. -/
structure Squeezes (gap : Char) (text : List Char) : Prop where
  fresh : [gap].intercalate (fields blank text) =
    squeezeFrom blank gap false [] text
  behind : ∀ field, [gap].intercalate (field :: fields blank text) =
    field ++ squeezeFrom blank gap true [gap] text
  inside : ∀ field, field ≠ [] →
    [gap].intercalate (fieldsFrom blank field text) =
      field ++ squeezeFrom blank gap true [] text

theorem squeezes_nil (gap : Char) : Squeezes blank gap [] where
  fresh := rfl
  behind := by
    intro field
    rw [fields_nil, List.intercalate_singleton, squeezeFrom,
      List.append_nil]
  inside := by
    intro field nonempty
    rw [fieldsFrom, pending_of_ne nonempty, List.intercalate_singleton,
      squeezeFrom, List.append_nil]

theorem Squeezes.cons_blank
    {gap char : Char} {text : List Char} (squeezes : Squeezes blank gap text)
    (cut : blank char = true) : Squeezes blank gap (char :: text) where
  fresh := by
    rw [fields, fieldsFrom_blank _ _ cut, squeezeFrom_blank _ _ _ cut]
    exact squeezes.fresh
  behind := by
    intro field
    rw [fields, fieldsFrom_blank _ _ cut, squeezeFrom_blank _ _ _ cut]
    exact squeezes.behind field
  inside := by
    intro field nonempty
    rw [fieldsFrom_blank _ _ cut, pending_of_ne nonempty,
      squeezeFrom_blank _ _ _ cut]
    exact squeezes.behind field

theorem Squeezes.cons_solid
    {gap char : Char} {text : List Char} (squeezes : Squeezes blank gap text)
    (solid : blank char = false) : Squeezes blank gap (char :: text) where
  fresh := by
    rw [fields, fieldsFrom_solid _ _ solid, squeezeFrom_solid _ _ _ solid]
    exact squeezes.inside [char] (by simp)
  behind := by
    intro field
    have word := squeezes.inside [char] (by simp)
    rw [fields, fieldsFrom_solid _ _ solid, List.nil_append,
      List.intercalate_cons_of_ne_nil (fieldsFrom_ne_nil (by simp) _), word,
      squeezeFrom_solid _ _ _ solid]
    simp
  inside := by
    intro field nonempty
    rw [fieldsFrom_solid _ _ solid, squeezes.inside _ (by simp),
      squeezeFrom_solid _ _ _ solid]
    simp

theorem squeezes (gap : Char) (text : List Char) :
    Squeezes blank gap text := by
  induction text with
  | nil => exact squeezes_nil gap
  | cons char text inductionHypothesis =>
      by_cases cut : blank char = true
      · exact inductionHypothesis.cons_blank cut
      · exact inductionHypothesis.cons_solid (by simpa using cut)

/-- The fields of a text, joined, are the text with normal blanks. -/
theorem intercalate_fields (gap : Char) (text : List Char) :
    [gap].intercalate (fields blank text) = squeeze blank gap text :=
  (squeezes gap text).fresh

end Fields

end TextFields
