import Mathlib.Data.List.Basic
import Mathlib.Order.Lattice

/-!
# Pages behind a cursor

A list with descending keys is read page by page.  A full page ends with
the cursor of the next one, and every page is read from the list of its
moment, which may have grown at its head since.
-/

namespace CursorPages

variable {Item Key : Type} [LinearOrder Key] {key : Item → Key}

/-- Some items and, behind a full page, the cursor of the next. -/
structure Page (Item Key : Type) where
  items : List Item
  next : Option Key

/-- The items behind a cursor. -/
def behind (key : Item → Key) (cursor : Option Key) (items : List Item) :
    List Item :=
  items.filter fun item =>
    match cursor with
    | none => true
    | some bound => decide (key item < bound)

def page (key : Item → Key) (limit : Nat) (cursor : Option Key)
    (items : List Item) : Page Item Key :=
  let kept := (behind key cursor items).take limit
  { items := kept
    next := if kept.length = limit then kept.getLast?.map key else none }

/-- The pages from some request on; `none` if these requests do not
suffice. -/
def follow (key : Item → Key) (limit : Nat) (lists : Nat → List Item) :
    Nat → Nat → Option Key → Option (List (List Item))
  | 0, _, _ => none
  | requests + 1, moment, cursor =>
      let answer := page key limit cursor (lists moment)
      match answer.next with
      | none => some [answer.items]
      | some next =>
          (follow key limit lists requests (moment + 1) (some next)).map
            fun pages => answer.items :: pages

/-- Keys that descend strictly. -/
def Descending (key : Item → Key) (items : List Item) : Prop :=
  items.Pairwise fun first second => key second < key first

@[simp]
theorem behind_none (items : List Item) : behind key none items = items :=
  List.filter_true items

theorem behind_some (bound : Key) (items : List Item) :
    behind key (some bound) items =
      items.filter fun item => decide (key item < bound) :=
  rfl

/-- A lower cursor leaves nothing of a higher one. -/
theorem behind_behind {lower upper : Key} (below : lower ≤ upper)
    (items : List Item) :
    behind key (some lower) (behind key (some upper) items) =
      behind key (some lower) items := by
  rw [behind_some, behind_some, behind_some, List.filter_filter]
  congr 1
  funext item
  by_cases inside : key item < lower
  · simp [inside, inside.trans_le below]
  · simp [inside]

/-- Behind the last item of a page lies the rest of the list. -/
theorem behind_split {front back : List Item} {last : Item}
    (descending : Descending key (front ++ last :: back)) :
    behind key (some (key last)) (front ++ last :: back) = back := by
  obtain ⟨_, tail, across⟩ := List.pairwise_append.mp descending
  obtain ⟨lower, _⟩ := List.pairwise_cons.mp tail
  have above : front.filter (fun item => decide (key item < key last)) = [] := by
    rw [List.filter_eq_nil_iff]
    intro item member
    have higher := across item member last List.mem_cons_self
    simpa using higher.le
  have below : back.filter (fun item => decide (key item < key last)) = back := by
    rw [List.filter_eq_self]
    intro item member
    simpa using lower item member
  rw [behind_some, List.filter_append, above, List.filter_cons_of_neg (by simp),
    below, List.nil_append]

/-- A full page splits the list at its last item. -/
theorem split_at_page {items : List Item} {limit : Nat} (positive : 0 < limit)
    (full : (items.take limit).length = limit) :
    ∃ front last, (items.take limit).getLast? = some last ∧
      items = front ++ last :: items.drop limit ∧
      items.take limit = front ++ [last] := by
  have nonempty : items.take limit ≠ [] := by
    intro empty
    rw [empty, List.length_nil] at full
    omega
  refine ⟨(items.take limit).dropLast, (items.take limit).getLast nonempty,
    List.getLast?_eq_getLast_of_ne_nil nonempty, ?_, ?_⟩
  · rw [List.append_cons, List.dropLast_concat_getLast, List.take_append_drop]
  · rw [List.dropLast_concat_getLast]

variable {limit : Nat} {lists : Nat → List Item}

theorem page_items (cursor : Option Key) (items : List Item) :
    (page key limit cursor items).items =
      (behind key cursor items).take limit :=
  rfl

/-- A page that is not full is the last one. -/
theorem page_next_none {cursor : Option Key} {items : List Item}
    (partly : ((behind key cursor items).take limit).length ≠ limit) :
    (page key limit cursor items).next = none :=
  if_neg partly

theorem page_next_some {cursor : Option Key} {items : List Item} {last : Item}
    (full : ((behind key cursor items).take limit).length = limit)
    (ends : ((behind key cursor items).take limit).getLast? = some last) :
    (page key limit cursor items).next = some (key last) := by
  simp only [page, full, if_true, ends, Option.map_some]

/-- From any cursor on the pages are what lies behind it, if later lists
have nothing more behind the later cursors. -/
theorem follow_remaining (positive : 0 < limit) (remaining : List Item)
    (moment : Nat) (cursor : Option Key)
    (descending : Descending key remaining)
    (here : behind key cursor (lists moment) = remaining)
    (settled : ∀ item ∈ remaining, ∀ later, moment ≤ later →
      behind key (some (key item)) (lists later) =
        behind key (some (key item)) remaining) :
    ∃ requests pages,
      follow key limit lists requests moment cursor = some pages ∧
        pages.flatten = remaining := by
  -- Every full page leaves fewer items.
  induction count : remaining.length using Nat.strongRecOn
    generalizing remaining moment cursor with
  | ind size inductionHypothesis =>
      by_cases full : (remaining.take limit).length = limit
      · obtain ⟨front, last, ends, split, kept⟩ := split_at_page positive full
        have listed : last ∈ remaining := by
          rw [split]
          exact List.mem_append_right front List.mem_cons_self
        have rest : behind key (some (key last)) remaining =
            remaining.drop limit := by
          have whole : Descending key (front ++ last :: remaining.drop limit) :=
            split ▸ descending
          have behindLast := behind_split whole
          rwa [← split] at behindLast
        have fewer : (remaining.drop limit).length < size := by
          rw [List.length_take] at full
          rw [List.length_drop]
          omega
        have lower : ∀ item ∈ remaining.drop limit, key item ≤ key last := by
          intro item member
          rw [← rest, behind_some, List.mem_filter] at member
          exact (of_decide_eq_true member.2).le
        obtain ⟨requests, pages, followed, whole⟩ :=
          inductionHypothesis _ fewer (remaining.drop limit) (moment + 1)
            (some (key last)) (descending.sublist (List.drop_sublist _ _))
            ((settled last listed (moment + 1) (by omega)).trans rest)
            (fun item member later after => by
              rw [settled item (List.mem_of_mem_drop member) later (by omega),
                ← rest, behind_behind (lower item member)])
            rfl
        refine ⟨requests + 1, remaining.take limit :: pages, ?_, ?_⟩
        · have next : (page key limit cursor (lists moment)).next =
              some (key last) :=
            page_next_some (by rw [here]; exact full) (by rw [here]; exact ends)
          simp only [follow, next, followed, Option.map_some, page_items, here]
        · rw [List.flatten_cons, whole, List.take_append_drop]
      · have short : remaining.length ≤ limit := by
          rw [List.length_take] at full
          omega
        refine ⟨1, [remaining], ?_, by simp⟩
        rw [follow, page_next_none (by rw [here]; exact full), page_items, here, List.take_of_length_le short]

/-- The list of every later moment has more at its head. -/
theorem grown_of_step (grows : ∀ moment, ∃ fresh,
      lists (moment + 1) = fresh ++ lists moment) (moment : Nat) :
    ∃ fresh, lists moment = fresh ++ lists 0 := by
  induction moment with
  | zero => exact ⟨[], rfl⟩
  | succ moment inductionHypothesis =>
      obtain ⟨earlier, before⟩ := inductionHypothesis
      obtain ⟨fresh, grown⟩ := grows moment
      exact ⟨fresh ++ earlier, by rw [grown, before, List.append_assoc]⟩

/-- Following the cursors from the start ends, and visits the first list. -/
theorem follow_complete (positive : 0 < limit)
    (descending : ∀ moment, Descending key (lists moment))
    (grows : ∀ moment, ∃ fresh,
      lists (moment + 1) = fresh ++ lists moment) :
    ∃ requests pages, follow key limit lists requests 0 none = some pages ∧
      pages.flatten = lists 0 := by
  refine follow_remaining positive (lists 0) 0 none (descending 0)
    (behind_none _) ?_
  intro item member later _
  obtain ⟨fresh, grown⟩ := grown_of_step grows later
  have across := (List.pairwise_append.mp (grown ▸ descending later)).2.2
  have above : fresh.filter (fun other => decide (key other < key item)) = [] := by
    rw [List.filter_eq_nil_iff]
    intro other newer
    have higher := across other newer item member
    simpa using higher.le
  rw [grown, behind_some, behind_some, List.filter_append, above,
    List.nil_append]

/-! ## Lists that change in any way -/

/-- A page is the whole rest, or ends with the cursor of the next. -/
theorem page_cases (positive : 0 < limit) (cursor : Option Key)
    (items : List Item) :
    ((page key limit cursor items).next = none ∧
        (page key limit cursor items).items = behind key cursor items) ∨
      ∃ front last rest,
        behind key cursor items = front ++ last :: rest ∧
        (page key limit cursor items).items = front ++ [last] ∧
        (page key limit cursor items).next = some (key last) := by
  by_cases full : ((behind key cursor items).take limit).length = limit
  · obtain ⟨front, last, ends, split, kept⟩ := split_at_page positive full
    exact .inr ⟨front, last, _, split, kept, page_next_some full ends⟩
  · left
    refine ⟨page_next_none full, ?_⟩
    rw [List.length_take] at full
    rw [page_items]
    exact List.take_of_length_le (by omega)

theorem mem_behind {cursor : Option Key} {items : List Item} {item : Item} :
    item ∈ behind key cursor items ↔
      item ∈ items ∧ ∀ bound ∈ cursor, key item < bound := by
  cases cursor with
  | none => simp
  | some bound => simp [behind_some]

/-- The pages show every item once at most, in descending order, and as it
was listed at the moment of its page; and they show what is listed at the moment
of every page. -/
structure Stable (key : Item → Key) (lists : Nat → List Item)
    (moment : Nat) (cursor : Option Key) (pages : List (List Item)) :
    Prop where
  once : Descending key pages.flatten
  below : ∀ item ∈ pages.flatten, ∀ bound ∈ cursor, key item < bound
  listed : ∀ index items, pages[index]? = some items →
    ∀ item ∈ items, item ∈ lists (moment + index)
  found : ∀ wanted, (∀ bound ∈ cursor, wanted < bound) →
    (∀ index < pages.length,
      ∃ item ∈ lists (moment + index), key item = wanted) →
        ∃ item ∈ pages.flatten, key item = wanted

/-- The last page. -/
theorem stable_single {moment : Nat} {cursor : Option Key}
    (descending : Descending key (lists moment)) :
    Stable key lists moment cursor [behind key cursor (lists moment)] := by
  have whole : [behind key cursor (lists moment)].flatten =
      behind key cursor (lists moment) := by simp
  refine ⟨?_, ?_, ?_, ?_⟩
  · rw [whole]
    exact descending.sublist List.filter_sublist
  · rw [whole]
    exact fun item listed => (mem_behind.mp listed).2
  · intro index items present item listed
    cases index with
    | zero =>
        obtain rfl := Option.some.inj present
        exact (mem_behind.mp listed).1
    | succ index => cases present
  · intro wanted within stays
    obtain ⟨item, listed, rfl⟩ := stays 0 Nat.zero_lt_one
    rw [whole]
    exact ⟨item, mem_behind.mpr ⟨listed, within⟩, rfl⟩

/-- A page in front of those behind its last item. -/
theorem Stable.cons {moment : Nat} {cursor : Option Key} {front : List Item}
    {last : Item} {rest : List Item} {pages : List (List Item)}
    (stable : Stable key lists (moment + 1) (some (key last)) pages)
    (descending : Descending key (lists moment))
    (split : behind key cursor (lists moment) = front ++ last :: rest) :
    Stable key lists moment cursor ((front ++ [last]) :: pages) := by
  have ordered : Descending key (front ++ last :: rest) := by
    rw [← split]
    exact descending.sublist List.filter_sublist
  obtain ⟨frontOrdered, tail, across⟩ := List.pairwise_append.mp ordered
  have member : ∀ item ∈ front ++ [last],
      item ∈ behind key cursor (lists moment) := by
    intro item listed
    rw [split, List.append_cons]
    exact List.mem_append_left rest listed
  have least : ∀ item ∈ front ++ [last], key last ≤ key item := by
    intro item listed
    rcases List.mem_append.mp listed with early | final
    · exact (across item early last List.mem_cons_self).le
    · rw [List.mem_singleton.mp final]
  have lower : ∀ item ∈ pages.flatten, key item < key last :=
    fun item listed => stable.below item listed _ rfl
  have lastWithin := (mem_behind.mp (member last (by simp))).2
  refine ⟨?_, ?_, ?_, ?_⟩
  · rw [List.flatten_cons]
    refine List.pairwise_append.mpr ⟨?_, stable.once, ?_⟩
    · refine List.pairwise_append.mpr
        ⟨frontOrdered, List.pairwise_singleton _ _, ?_⟩
      intro item listed other final
      rw [List.mem_singleton.mp final]
      exact across item listed last List.mem_cons_self
    · intro item listed other later
      exact (lower other later).trans_le (least item listed)
  · intro item listed
    rw [List.flatten_cons, List.mem_append] at listed
    rcases listed with here | later
    · exact (mem_behind.mp (member item here)).2
    · exact fun bound within =>
        (lower item later).trans (lastWithin bound within)
  · intro index items present item listed
    cases index with
    | zero =>
        obtain rfl := Option.some.inj present
        exact (mem_behind.mp (member item listed)).1
    | succ index =>
        have there := stable.listed index items present item listed
        rwa [Nat.add_right_comm] at there
  · intro wanted within stays
    rw [List.flatten_cons]
    by_cases behindLast : wanted < key last
    · obtain ⟨item, listed, same⟩ := stable.found wanted
        (fun bound final => Option.mem_some_iff.mp final ▸ behindLast)
        (fun index inside => by
          have there := stays (index + 1) (Nat.succ_lt_succ inside)
          rwa [Nat.add_right_comm])
      exact ⟨item, List.mem_append_right _ listed, same⟩
    · obtain ⟨item, listed, rfl⟩ := stays 0 (Nat.zero_lt_succ _)
      have here := mem_behind.mpr ⟨listed, within⟩
      rw [Nat.add_zero, split, List.mem_append] at here
      refine ⟨item, List.mem_append_left _ ?_, rfl⟩
      rcases here with early | later
      · exact List.mem_append_left _ early
      · rcases List.mem_cons.mp later with rfl | later
        · exact List.mem_append_right _ List.mem_cons_self
        · exact absurd ((List.pairwise_cons.mp tail).1 item later) behindLast

/-- However the lists change between the requests, what is seen is
stable. -/
theorem follow_stable (positive : 0 < limit)
    (descending : ∀ moment, Descending key (lists moment))
    {requests moment : Nat} {cursor : Option Key} {pages : List (List Item)}
    (done : follow key limit lists requests moment cursor = some pages) :
    Stable key lists moment cursor pages := by
  induction requests generalizing moment cursor pages with
  | zero => cases done
  | succ requests inductionHypothesis =>
      rw [follow] at done
      rcases @page_cases _ _ _ key limit positive cursor (lists moment) with
        ⟨next, whole⟩ | ⟨front, last, rest, split, kept, next⟩
      · simp only [next, whole, Option.some.injEq] at done
        rw [← done]
        exact stable_single (descending moment)
      · simp only [next, kept] at done
        obtain ⟨later, followed, rfl⟩ := Option.map_eq_some_iff.mp done
        exact (inductionHypothesis followed).cons (descending moment) split

/-- Following the cursors ends when every key has finitely many below it. -/
theorem follow_ends (positive : 0 < limit) (rank : Key → Nat)
    (lowers : ∀ moment, ∀ item ∈ lists moment, ∀ bound,
      key item < bound → rank (key item) < rank bound)
    (moment : Nat) (cursor : Option Key) :
    ∃ requests pages,
      follow key limit lists requests moment cursor = some pages := by
  have fromBound : ∀ size bound moment, rank bound = size →
      ∃ requests pages,
        follow key limit lists requests moment (some bound) =
          some pages := by
    intro size
    induction size using Nat.strongRecOn with
    | ind size inductionHypothesis =>
        intro bound moment measured
        rcases @page_cases _ _ _ key limit positive (some bound)
            (lists moment) with
          ⟨next, whole⟩ | ⟨front, last, rest, split, kept, next⟩
        · refine ⟨1, [behind key (some bound) (lists moment)], ?_⟩
          simp only [follow, next, whole]
        · have listed : last ∈ behind key (some bound) (lists moment) := by
            rw [split]
            exact List.mem_append_right _ List.mem_cons_self
          obtain ⟨member, within⟩ := mem_behind.mp listed
          have fewer := lowers moment last member bound (within bound rfl)
          obtain ⟨requests, pages, followed⟩ :=
            inductionHypothesis _ (measured ▸ fewer) (key last) (moment + 1)
              rfl
          refine ⟨requests + 1, (front ++ [last]) :: pages, ?_⟩
          simp only [follow, next, kept, followed, Option.map_some]
  rcases @page_cases _ _ _ key limit positive cursor (lists moment) with
    ⟨next, whole⟩ | ⟨front, last, rest, split, kept, next⟩
  · refine ⟨1, [behind key cursor (lists moment)], ?_⟩
    simp only [follow, next, whole]
  · obtain ⟨requests, pages, followed⟩ :=
      fromBound _ (key last) (moment + 1) rfl
    refine ⟨requests + 1, (front ++ [last]) :: pages, ?_⟩
    simp only [follow, next, kept, followed, Option.map_some]

/-- Only one order of a list descends. -/
theorem Descending.eq_of_perm {first second : List Item}
    (descends : Descending key first) (also : Descending key second)
    (same : first.Perm second) : first = second := by
  refine List.Perm.eq_of_pairwise ?_ descends also same
  intro item other _ _ below above
  exact absurd (below.trans above) (lt_irrefl _)

/-- Sorting by keys that differ makes them descend. -/
theorem descending_mergeSort {items : List Item}
    (distinct : (items.map key).Nodup) :
    Descending key
      (items.mergeSort fun first second =>
        decide (key second ≤ key first)) := by
  have sorted := @List.pairwise_mergeSort Item
    (fun first second => decide (key second ≤ key first))
    (fun first second third lower upper => by
      have below := of_decide_eq_true lower
      have above := of_decide_eq_true upper
      exact decide_eq_true (above.trans below))
    (fun first second => by
      rcases le_total (key second) (key first) with below | above
      · simp [below]
      · simp [above]) items
  have differs : (items.mergeSort fun first second =>
      decide (key second ≤ key first)).Pairwise
        fun first second => key first ≠ key second := by
    have kept := (List.mergeSort_perm items fun first second =>
      decide (key second ≤ key first)).map key
    exact List.pairwise_map.mp (kept.nodup_iff.mpr distinct)
  refine (sorted.and differs).imp fun pair => ?_
  exact lt_of_le_of_ne (of_decide_eq_true pair.1) (Ne.symm pair.2)

/-- What is left out before sorting might be left out behind it. -/
theorem mergeSort_filter {items : List Item}
    (distinct : (items.map key).Nodup) (keep : Item → Bool) :
    ((items.filter keep).mergeSort fun first second =>
        decide (key second ≤ key first)) =
      (items.mergeSort fun first second =>
        decide (key second ≤ key first)).filter keep := by
  have fewer : ((items.filter keep).map key).Nodup :=
    distinct.sublist (List.filter_sublist.map key)
  refine (descending_mergeSort fewer).eq_of_perm
    ((descending_mergeSort distinct).sublist List.filter_sublist) ?_
  have sorted := List.mergeSort_perm (items.filter keep)
    fun first second => decide (key second ≤ key first)
  have whole := List.mergeSort_perm items
    fun first second => decide (key second ≤ key first)
  exact sorted.trans (whole.filter keep).symm

end CursorPages
