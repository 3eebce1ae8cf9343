import Mathlib.Algebra.Order.BigOperators.Group.List
import Mathlib.Data.Finsupp.Basic
import Mathlib.Tactic.Abel
import Xoxproxy.Library.AssociationMaps

/-!
# Tallies

Amounts that are booked under keys, summed up for every key.  A tally
does not depend on the order of the bookings, nor on how bookings under
one key were merged.
-/

namespace Tallies

section Spreading

variable {Key Other Amount : Type}

/-- Book every amount again under each of some other keys. -/
def spread (expand : Key → List Other)
    (bookings : List (Key × Amount)) : List (Other × Amount) :=
  bookings.flatMap fun booking =>
    (expand booking.1).map fun key => (key, booking.2)

@[simp]
theorem spread_nil (expand : Key → List Other) :
    spread expand ([] : List (Key × Amount)) = [] := rfl

@[simp]
theorem spread_append
    (expand : Key → List Other) (bookings others : List (Key × Amount)) :
    spread expand (bookings ++ others) =
      spread expand bookings ++ spread expand others :=
  List.flatMap_append

end Spreading

section Leading

variable {Item : Type} (kind : Item → Bool)

theorem takeWhile_sublist_filter (items : List Item) :
    (items.takeWhile kind).Sublist (items.filter kind) := by
  induction items with
  | nil => exact .slnil
  | cons item items inductionHypothesis =>
      by_cases inside : kind item = true
      · rw [List.takeWhile_cons_of_pos inside, List.filter_cons_of_pos inside]
        exact inductionHypothesis.cons_cons item
      · rw [List.takeWhile_cons_of_neg inside]
        exact List.nil_sublist _

/-- The leading items of a kind are all of its kind when they are as many. -/
theorem filter_eq_takeWhile_of_length (items : List Item)
    (length : (items.takeWhile kind).length = (items.filter kind).length) :
    items.filter kind = items.takeWhile kind :=
  ((takeWhile_sublist_filter kind items).eq_of_length length).symm

/-- The leading items of a kind are all of its kind when only items of
this kind stand before one. -/
theorem filter_eq_takeWhile_iff (items : List Item) :
    items.filter kind = items.takeWhile kind ↔
      ∀ before item after, items = before ++ item :: after →
        kind item = true → ∀ other ∈ before, kind other = true := by
  induction items with
  | nil => simp
  | cons first items inductionHypothesis =>
      by_cases inside : kind first = true
      · rw [List.takeWhile_cons_of_pos inside,
          List.filter_cons_of_pos inside, List.cons_inj_right,
          inductionHypothesis]
        constructor
        · intro leading before item after split isKind other listed
          cases before with
          | nil => cases listed
          | cons head before =>
              obtain ⟨rfl, rest⟩ := List.cons.inj split
              rcases List.mem_cons.mp listed with rfl | later
              · exact inside
              · exact leading before item after rest isKind other later
        · intro leading before item after split isKind other listed
          exact leading (first :: before) item after (by rw [split]; rfl)
            isKind other (List.mem_cons_of_mem first listed)
      · rw [List.takeWhile_cons_of_neg inside,
          List.filter_cons_of_neg inside, List.filter_eq_nil_iff]
        constructor
        · intro none before item after split isKind
          cases before with
          | nil =>
              obtain ⟨rfl, rest⟩ := List.cons.inj split
              exact absurd isKind inside
          | cons head before =>
              obtain ⟨rfl, rest⟩ := List.cons.inj split
              have listed : item ∈ items := by simp [rest]
              exact absurd isKind (none item listed)
        · intro leading item listed isKind
          obtain ⟨before, after, split⟩ := List.append_of_mem listed
          exact inside (leading (first :: before) item after
            (by rw [split]; rfl) isKind first List.mem_cons_self)

end Leading

section Tallies

variable {Key Amount : Type} [AddCommMonoid Amount]

/-- The sum of the amounts under every key. -/
noncomputable def tally (bookings : List (Key × Amount)) :
    Key →₀ Amount :=
  (bookings.map fun booking => Finsupp.single booking.1 booking.2).sum

variable {bookings others : List (Key × Amount)}

@[simp]
theorem tally_nil : tally ([] : List (Key × Amount)) = 0 := rfl

@[simp]
theorem tally_cons (booking : Key × Amount) :
    tally (booking :: bookings) =
      Finsupp.single booking.1 booking.2 + tally bookings := by
  simp [tally]

@[simp]
theorem tally_append :
    tally (bookings ++ others) = tally bookings + tally others := by
  simp [tally]

theorem tally_perm (reordered : bookings.Perm others) :
    tally bookings = tally others :=
  (reordered.map _).sum_eq

theorem tally_flatMap {Item : Type}
    (content : Item → List (Key × Amount)) (items : List Item) :
    tally (items.flatMap content) =
      (items.map fun item => tally (content item)).sum := by
  induction items with
  | nil => rfl
  | cons item rest inductionHypothesis =>
      rw [List.flatMap_cons, tally_append, inductionHypothesis,
        List.map_cons, List.sum_cons]

/-- Two sorts of bookings may be made in one pass. -/
theorem tally_map_append_flatMap {Item : Type}
    (head : Item → Key × Amount) (tail : Item → List (Key × Amount))
    (items : List Item) :
    tally (items.map head ++ items.flatMap tail) =
      tally (items.flatMap fun item => head item :: tail item) := by
  induction items with
  | nil => rfl
  | cons item rest inductionHypothesis =>
      rw [tally_append] at inductionHypothesis
      rw [List.map_cons, List.flatMap_cons, List.flatMap_cons,
        tally_append, tally_append, tally_append, tally_cons, tally_cons,
        ← inductionHypothesis]
      abel

/-- Equal tallies have equal totals. -/
theorem total_eq (same : tally bookings = tally others) :
    (bookings.map Prod.snd).sum = (others.map Prod.snd).sum := by
  have total : ∀ list : List (Key × Amount),
      Finsupp.liftAddHom (fun _ => AddMonoidHom.id Amount) (tally list) =
        (list.map Prod.snd).sum := by
    intro list
    induction list with
    | nil => simp
    | cons booking rest inductionHypothesis =>
        rw [tally_cons, map_add, inductionHypothesis]
        simp
  rw [← total, ← total, same]

theorem tally_map_add {Other : Type} (keys : List Other)
    (first second : Amount) :
    tally (keys.map fun key => (key, first + second)) =
      tally (keys.map fun key => (key, first)) +
        tally (keys.map fun key => (key, second)) := by
  induction keys with
  | nil => simp
  | cons key rest inductionHypothesis =>
      simp only [List.map_cons, tally_cons, inductionHypothesis,
        Finsupp.single_add]
      abel

theorem tally_map_zero {Other : Type} (keys : List Other) :
    tally (keys.map fun key => (key, (0 : Amount))) = 0 := by
  induction keys with
  | nil => rfl
  | cons key rest inductionHypothesis =>
      simp [inductionHypothesis]

/-- Equal tallies stay equal under other keys. -/
theorem tally_spread_eq {Other : Type} (expand : Key → List Other)
    (same : tally bookings = tally others) :
    tally (spread expand bookings) = tally (spread expand others) := by
  let image : Key → Amount →+ (Other →₀ Amount) := fun key => {
    toFun := fun amount =>
      tally ((expand key).map fun other => (other, amount))
    map_zero' := tally_map_zero _
    map_add' := tally_map_add _ }
  have spreads : ∀ list : List (Key × Amount),
      Finsupp.liftAddHom image (tally list) = tally (spread expand list) := by
    intro list
    induction list with
    | nil => simp
    | cons booking rest inductionHypothesis =>
        have split : spread expand (booking :: rest) =
            (expand booking.1).map (fun key => (key, booking.2)) ++
              spread expand rest := rfl
        rw [tally_cons, map_add, inductionHypothesis, split, tally_append,
          Finsupp.liftAddHom_apply_single]
        rfl
  rw [← spreads, ← spreads, same]

variable [DecidableEq Key]

/-- What is booked under one key. -/
theorem tally_apply (key : Key) :
    tally bookings key =
      ((bookings.filter fun booking => booking.1 = key).map
        Prod.snd).sum := by
  induction bookings with
  | nil => rfl
  | cons booking rest inductionHypothesis =>
      rw [tally_cons, Finsupp.add_apply, inductionHypothesis,
        Finsupp.single_apply]
      by_cases same : booking.1 = key
      · simp [same]
      · simp [same]

/-- Nothing is booked under a key without bookings. -/
theorem tally_apply_eq_zero {key : Key}
    (absent : ∀ booking ∈ bookings, booking.1 ≠ key) :
    tally bookings key = 0 := by
  have none : bookings.filter (fun booking => booking.1 = key) = [] := by
    simpa [List.filter_eq_nil_iff] using absent
  rw [tally_apply, none]
  rfl

/-- Removing keys leaves the others alone. -/
theorem tally_filter_apply (keep : Key → Bool) (key : Key) :
    tally (bookings.filter fun booking => keep booking.1) key =
      if keep key then tally bookings key else 0 := by
  rw [tally_apply, tally_apply, List.filter_filter]
  by_cases kept : keep key = true
  · rw [if_pos kept]
    congr 2
    apply List.filter_congr
    intro booking _
    by_cases same : booking.1 = key
    · simp [same, kept]
    · simp [same]
  · rw [if_neg kept]
    have none : bookings.filter (fun booking =>
        decide (booking.1 = key) && keep booking.1) = [] := by
      rw [List.filter_eq_nil_iff]
      intro booking _
      by_cases same : booking.1 = key
      · simp [same, kept]
      · simp [same]
    rw [none]
    rfl

end Tallies

section Totals

variable {Key Amount : Type} [AddCommMonoid Amount]
variable {keep : Key → Bool} {bookings others : List (Key × Amount)}

/-- What is booked under some keys. -/
def total (keep : Key → Bool) (bookings : List (Key × Amount)) : Amount :=
  ((bookings.filter fun booking => keep booking.1).map Prod.snd).sum

theorem total_append :
    total keep (bookings ++ others) =
      total keep bookings + total keep others := by
  simp [total]

/-- Totals of bookings that come in groups. -/
theorem total_flatMap {Item : Type} {content : Item → List (Key × Amount)}
    {amount : Item → Amount}
    (each : ∀ item, total keep (content item) = amount item)
    (items : List Item) :
    total keep (items.flatMap content) = (items.map amount).sum := by
  induction items with
  | nil => rfl
  | cons item rest inductionHypothesis =>
      rw [List.flatMap_cons, total_append, each, inductionHypothesis,
        List.map_cons, List.sum_cons]

/-- Equal tallies have equal totals over any keys. -/
theorem total_congr [DecidableEq Key] (same : tally bookings = tally others)
    (keep : Key → Bool) : total keep bookings = total keep others := by
  apply total_eq
  ext key
  rw [tally_filter_apply, tally_filter_apply, same]

theorem tally_eq_total [DecidableEq Key] (key : Key) :
    tally bookings key = total (fun other => decide (other = key)) bookings :=
  tally_apply key

variable [PartialOrder Amount] [IsOrderedAddMonoid Amount]

/-- Fewer bookings amount to less. -/
theorem total_le_of_sublist (fewer : bookings.Sublist others)
    (nonneg : ∀ booking ∈ others, 0 ≤ booking.2) :
    total keep bookings ≤ total keep others := by
  refine ((fewer.filter _).map Prod.snd).sum_le_sum fun amount listed => ?_
  obtain ⟨booking, kept, rfl⟩ := List.mem_map.mp listed
  exact nonneg booking (List.mem_filter.mp kept).1

theorem total_nonneg (nonneg : ∀ booking ∈ bookings, 0 ≤ booking.2) :
    0 ≤ total keep bookings :=
  total_le_of_sublist (List.nil_sublist bookings) nonneg

theorem total_flatMap_le {Item : Type}
    {content : Item → List (Key × Amount)} {amount : Item → Amount}
    {items : List Item}
    (each : ∀ item ∈ items, total keep (content item) ≤ amount item) :
    total keep (items.flatMap content) ≤ (items.map amount).sum := by
  induction items with
  | nil => exact le_refl 0
  | cons item rest inductionHypothesis =>
      have here := each item List.mem_cons_self
      have later := inductionHypothesis fun other listed =>
        each other (List.mem_cons_of_mem item listed)
      rw [List.flatMap_cons, total_append, List.map_cons, List.sum_cons]
      exact add_le_add here later

end Totals

open AssociationMaps

section Maps

variable {Key Value Other Amount : Type} [DecidableEq Key]
variable [AddCommMonoid Amount]

/-- A map whose values contain bookings: changing one value adds what the
value gains. -/
theorem tally_adjust
    (content : Key → Value → List (Other × Amount))
    {key : Key} {change : Option Value → Value}
    {gain : Other →₀ Amount} {entries : List (Key × Value)}
    (grows :
      tally (content key (change (find? key entries))) =
        tally ((find? key entries).elim [] (content key)) + gain) :
    tally ((adjust key change entries).flatMap
        fun entry => content entry.1 entry.2) =
      tally (entries.flatMap fun entry => content entry.1 entry.2) +
        gain := by
  induction entries with
  | nil => simpa [adjust, find?] using grows
  | cons entry rest inductionHypothesis =>
      obtain ⟨other, value⟩ := entry
      by_cases same : other = key
      · subst same
        rw [find?, if_pos rfl, Option.elim_some] at grows
        rw [adjust, if_pos rfl, List.flatMap_cons, List.flatMap_cons,
          tally_append, tally_append, grows]
        abel
      · rw [find?, if_neg same] at grows
        rw [adjust, if_neg same, List.flatMap_cons, List.flatMap_cons,
          tally_append, tally_append, inductionHypothesis grows]
        abel

end Maps

end Tallies
