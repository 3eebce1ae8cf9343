import Mathlib.Algebra.Order.Field.Basic
import Mathlib.Tactic.Linarith
import Mathlib.Tactic.Ring

/-!
# Token buckets

A bucket fills at a constant rate up to its burst, and every admitted
request takes one token out of it.
-/

namespace TokenBuckets

variable {Amount : Type} [Field Amount] [LinearOrder Amount]

/-- The tokens that were left at some time. -/
@[ext]
structure TokenBucket (Amount : Type) where
  tokens : Amount
  last : Amount

variable (rate burst : Amount)

namespace TokenBucket

variable (bucket : TokenBucket Amount) (now : Amount)

/-- The tokens at a later time. -/
def level : Amount :=
  min burst (bucket.tokens + (now - bucket.last) * rate)

/-- A request takes a token if there is one. -/
def take : Bool × TokenBucket Amount :=
  if bucket.level rate burst now < 1 then
    (false, ⟨bucket.level rate burst now, now⟩)
  else (true, ⟨bucket.level rate burst now - 1, now⟩)

/-- The admitted ones of requests at some times, in order. -/
def admitted : TokenBucket Amount → List Amount → List Amount
  | _, [] => []
  | bucket, now :: later =>
      let (allowed, next) := bucket.take rate burst now
      if allowed then now :: admitted next later else admitted next later

/-- A bucket that holds no debt at any time from `now` on. -/
structure Sound : Prop where
  tokens : 0 ≤ bucket.tokens
  last : bucket.last ≤ now

end TokenBucket

variable {rate burst}

theorem level_le {bucket : TokenBucket Amount} {now : Amount} :
    bucket.level rate burst now ≤ burst :=
  min_le_left _ _

theorem level_at_last (tokens now : Amount) :
    (TokenBucket.mk tokens now).level rate burst now ≤ tokens := by
  unfold TokenBucket.level
  rw [sub_self, zero_mul, add_zero]
  exact min_le_right _ _

theorem TokenBucket.Sound.mono {bucket : TokenBucket Amount}
    {now later : Amount} (sound : bucket.Sound now) (wait : now ≤ later) :
    bucket.Sound later :=
  ⟨sound.tokens, sound.last.trans wait⟩

/-- Only requests are admitted, in their order. -/
theorem admitted_sublist (bucket : TokenBucket Amount)
    (times : List Amount) :
    (bucket.admitted rate burst times).Sublist times := by
  induction times generalizing bucket with
  | nil => exact .slnil
  | cons time times inductionHypothesis =>
      rw [TokenBucket.admitted]
      dsimp only
      split
      · exact (inductionHypothesis _).cons_cons time
      · exact (inductionHypothesis _).cons time

/-- Behind a time nothing is admitted before it. -/
theorem countP_admitted_late {bucket : TokenBucket Amount}
    {times : List Amount} {bound : Amount}
    (ordered : times.Pairwise (· ≤ ·))
    (late : ∀ time, times.head? = some time → ¬ time ≤ bound) :
    (bucket.admitted rate burst times).countP
      (fun time => decide (time ≤ bound)) = 0 := by
  rw [List.countP_eq_zero]
  intro time member
  have listed := (admitted_sublist _ _).mem member
  cases times with
  | nil => cases listed
  | cons first times =>
      have behind : first ≤ time := by
        rcases List.mem_cons.mp listed with rfl | other
        · exact le_refl _
        · exact List.rel_of_pairwise_cons ordered other
      simpa using fun early => late first rfl (behind.trans early)

section Bounds

variable [IsStrictOrderedRing Amount]
variable {bucket : TokenBucket Amount} {now later : Amount}

theorem level_nonneg (rates : 0 ≤ rate) (bursts : 0 ≤ burst)
    (sound : bucket.Sound now) : 0 ≤ bucket.level rate burst now := by
  have waited : 0 ≤ (now - bucket.last) * rate :=
    mul_nonneg (sub_nonneg.mpr sound.last) rates
  exact le_min bursts (add_nonneg sound.tokens waited)

/-- What a wait adds. -/
theorem level_le_add (rates : 0 ≤ rate) (wait : now ≤ later) :
    bucket.level rate burst later ≤
      bucket.level rate burst now + (later - now) * rate := by
  have added : 0 ≤ (later - now) * rate :=
    mul_nonneg (sub_nonneg.mpr wait) rates
  have split : (later - bucket.last) * rate =
      (now - bucket.last) * rate + (later - now) * rate := by
    ring
  unfold TokenBucket.level
  rw [split]
  rcases min_choice burst (bucket.tokens + (now - bucket.last) * rate) with
    full | partly
  · rw [full]
    exact (min_le_left _ _).trans (le_add_of_nonneg_right added)
  · rw [partly]
    exact (min_le_right _ _).trans_eq (add_assoc _ _ _).symm

theorem sound_take (rates : 0 ≤ rate) (bursts : 0 ≤ burst)
    (sound : bucket.Sound now) :
    (bucket.take rate burst now).2.Sound now := by
  unfold TokenBucket.take
  split
  · exact ⟨level_nonneg rates bursts sound, le_refl now⟩
  · rename_i enough
    exact ⟨sub_nonneg.mpr (not_lt.mp enough), le_refl now⟩

/-- No more are admitted than there are tokens, now and until then. -/
theorem admitted_until_le (rates : 0 ≤ rate) (bursts : 0 ≤ burst)
    {times : List Amount} {bound : Amount}
    (sound : bucket.Sound now) (ordered : (now :: times).Pairwise (· ≤ ·))
    (within : now ≤ bound) :
    (((bucket.admitted rate burst times).countP
        fun time => decide (time ≤ bound) : Nat) : Amount) ≤
      bucket.level rate burst now + (bound - now) * rate := by
  induction times generalizing bucket now with
  | nil =>
      have rest : 0 ≤ (bound - now) * rate :=
        mul_nonneg (sub_nonneg.mpr within) rates
      have positive := level_nonneg rates bursts sound
      simpa [TokenBucket.admitted] using add_nonneg positive rest
  | cons time times inductionHypothesis =>
      obtain ⟨first, others⟩ := List.pairwise_cons.mp ordered
      have wait : now ≤ time := first time List.mem_cons_self
      by_cases inside : time ≤ bound
      · have next := inductionHypothesis
          (sound_take rates bursts (sound.mono wait)) others inside
        have gained : bucket.level rate burst time ≤
            bucket.level rate burst now + (time - now) * rate :=
          level_le_add rates wait
        have split : (bound - now) * rate =
            (time - now) * rate + (bound - time) * rate := by
          ring
        rw [TokenBucket.admitted]
        unfold TokenBucket.take at next ⊢
        by_cases empty : bucket.level rate burst time < 1
        · rw [if_pos empty] at next ⊢
          have left : (TokenBucket.mk (bucket.level rate burst time)
              time).level rate burst time ≤ bucket.level rate burst time :=
            level_at_last _ _
          dsimp only at next ⊢
          rw [if_neg Bool.false_ne_true]
          linarith
        · rw [if_neg empty] at next ⊢
          have left : (TokenBucket.mk (bucket.level rate burst time - 1)
              time).level rate burst time ≤
                bucket.level rate burst time - 1 :=
            level_at_last _ _
          dsimp only at next ⊢
          rw [if_pos rfl, List.countP_cons_of_pos (by simpa using inside),
            Nat.cast_add, Nat.cast_one]
          linarith
      · have rest : 0 ≤ (bound - now) * rate :=
          mul_nonneg (sub_nonneg.mpr within) rates
        have positive := level_nonneg rates bursts sound
        have none : (bucket.admitted rate burst (time :: times)).countP
            (fun other => decide (other ≤ bound)) = 0 :=
          countP_admitted_late others fun _ same =>
            Option.some.inj same ▸ inside
        rw [none, Nat.cast_zero]
        exact add_nonneg positive rest

/-- In no interval more are admitted than the burst and what the rate
gives. -/
theorem admitted_within_le (rates : 0 ≤ rate) (bursts : 0 ≤ burst)
    {times : List Amount} {start length : Amount} (lasts : 0 ≤ length)
    (sound : bucket.Sound now) (ordered : (now :: times).Pairwise (· ≤ ·)) :
    (((bucket.admitted rate burst times).countP
        fun time => decide (start ≤ time ∧ time ≤ start + length) : Nat) :
          Amount) ≤ burst + length * rate := by
  have whole : 0 ≤ burst + length * rate :=
    add_nonneg bursts (mul_nonneg lasts rates)
  induction times generalizing bucket now with
  | nil => simpa [TokenBucket.admitted] using whole
  | cons time times inductionHypothesis =>
      obtain ⟨first, others⟩ := List.pairwise_cons.mp ordered
      have wait : now ≤ time := first time List.mem_cons_self
      by_cases begun : start ≤ time
      · have behind : (bucket.admitted rate burst (time :: times)).countP
            (fun other => decide (start ≤ other ∧ other ≤ start + length)) =
            (bucket.admitted rate burst (time :: times)).countP
              fun other => decide (other ≤ start + length) := by
          apply List.countP_congr
          intro other member
          have listed := (admitted_sublist _ _).mem member
          have after : start ≤ other := by
            rcases List.mem_cons.mp listed with rfl | later
            · exact begun
            · exact begun.trans (List.rel_of_pairwise_cons others later)
          simp [after]
        rw [behind]
        by_cases inside : time ≤ start + length
        · have counted := admitted_until_le rates bursts (sound.mono wait)
            (List.pairwise_cons.mpr ⟨by
              intro other member
              rcases List.mem_cons.mp member with rfl | later
              · exact le_refl _
              · exact List.rel_of_pairwise_cons others later, others⟩) inside
          have full : bucket.level rate burst time ≤ burst := level_le
          have shorter : (start + length - time) * rate ≤ length * rate :=
            mul_le_mul_of_nonneg_right (by linarith) rates
          linarith
        · rw [countP_admitted_late others fun _ same =>
            Option.some.inj same ▸ inside, Nat.cast_zero]
          exact whole
      · have next := inductionHypothesis
          (sound_take rates bursts (sound.mono wait)) others
        rw [TokenBucket.admitted]
        dsimp only
        split
        · rw [List.countP_cons_of_neg (by simp [begun])]
          exact next
        · exact next

end Bounds

end TokenBuckets
