import Mathlib.Algebra.Order.Field.Rat
import Mathlib.Tactic.FieldSimp
import Mathlib.Tactic.Linarith
import Mathlib.Tactic.NormNum
import Xoxproxy.Library.AssociationMaps
import Xoxproxy.Library.TokenBuckets
import Xoxproxy.Store.Records

/-!
# The rate limit of the HTTP surface

`rateLimiter` of `internal/api/middleware.go`, with exact tokens.  Every
address has a token bucket, and dropping idle buckets changes no answer.
-/

namespace Xoxproxy.Api

open AssociationMaps TokenBuckets

def rateLimitRate : Int := 5

def rateLimitBurst : Int := 30

def rateLimitMaxIPs : Nat := 8192

structure Bucket where
  tokens : ℚ
  last : Time

structure RateLimiter where
  buckets : List (String × Bucket) := []
  rate : ℚ
  burst : ℚ

/-- `newRateLimiter`. -/
def newRateLimiter (rate burst : Int) : RateLimiter where
  rate := rate
  burst := burst

/-- `Duration.Seconds`. -/
def seconds (duration : Int) : ℚ := duration / 1000000000

/-- A number of nanoseconds as a `time.Duration`, rounded towards zero. -/
def durationOf (nanos : ℚ) : Int := nanos.num.tdiv nanos.den

/-- What `allow` answers. -/
structure RateAnswer where
  allowed : Bool
  retry : Int := 0
  deriving DecidableEq, Repr

/-- Whether a bucket was not used for more than a minute. -/
def idle (now : Time) (bucket : Bucket) : Bool :=
  decide (60000000000 < now - bucket.last)

namespace RateLimiter

variable (limiter : RateLimiter) (ip : String) (now : Time)

/-- The loop of `allow` over the buckets of a full table. -/
def dropIdle : RateLimiter :=
  if limiter.buckets.length < rateLimitMaxIPs then limiter
  else { limiter with
    buckets := limiter.buckets.filter fun entry => !idle now entry.2 }

def put (bucket : Bucket) : RateLimiter :=
  { limiter with
    buckets := adjust ip (fun _ => bucket) limiter.buckets }

/-- `allow`. -/
def allow : RateAnswer × RateLimiter :=
  let limiter := limiter.dropIdle now
  let bucket := (find? ip limiter.buckets).getD ⟨limiter.burst, now⟩
  let elapsed := seconds (now - bucket.last)
  let filled := bucket.tokens + elapsed * limiter.rate
  let tokens := if limiter.burst < filled then limiter.burst else filled
  if tokens < 1 then
    (⟨false, durationOf ((1 - tokens) / limiter.rate * 1000000000)⟩,
      limiter.put ip ⟨tokens, now⟩)
  else (⟨true, 0⟩, limiter.put ip ⟨tokens - 1, now⟩)

end RateLimiter

/-- A call of `allow`. -/
structure RateCall where
  ip : String
  time : Time
  deriving DecidableEq, Repr

/-- The limiter after some calls. -/
def RateLimiter.after (limiter : RateLimiter) :
    List RateCall → RateLimiter
  | [] => limiter
  | call :: later => RateLimiter.after (limiter.allow call.ip call.time).2 later

/-- The calls with their answers. -/
def RateLimiter.answers (limiter : RateLimiter) :
    List RateCall → List (RateCall × RateAnswer)
  | [] => []
  | call :: later =>
      (call, (limiter.allow call.ip call.time).1) ::
        RateLimiter.answers (limiter.allow call.ip call.time).2 later

/-- A bucket as a token bucket over seconds. -/
def Bucket.inSeconds (bucket : Bucket) : TokenBucket ℚ where
  tokens := bucket.tokens
  last := seconds bucket.last

theorem seconds_sub (later earlier : Int) :
    seconds (later - earlier) = seconds later - seconds earlier := by
  unfold seconds
  rw [Int.cast_sub, sub_div]

theorem seconds_le {earlier later : Int} (before : earlier ≤ later) :
    seconds earlier ≤ seconds later := by
  unfold seconds
  have cast : (earlier : ℚ) ≤ later := Int.cast_le.mpr before
  linarith

/-- The tokens of an address; an unknown one has the burst. -/
def RateLimiter.level (limiter : RateLimiter) (ip : String) (now : Time) :
    ℚ :=
  match find? ip limiter.buckets with
  | none => limiter.burst
  | some bucket =>
      bucket.inSeconds.level limiter.rate limiter.burst (seconds now)

/-- A limiter whose buckets fill up within a minute, at some time. -/
structure Sound (limiter : RateLimiter) (now : Time) : Prop where
  rate : 0 < limiter.rate
  burst : 0 ≤ limiter.burst
  fills : limiter.burst ≤ 60 * limiter.rate
  unique : (keys limiter.buckets).Nodup
  buckets : ∀ entry ∈ limiter.buckets, 0 ≤ entry.2.tokens ∧
    entry.2.last ≤ now

theorem sound_newRateLimiter (now : Time) :
    Sound (newRateLimiter rateLimitRate rateLimitBurst) now where
  rate := by norm_num [newRateLimiter, rateLimitRate]
  burst := by norm_num [newRateLimiter, rateLimitBurst]
  fills := by norm_num [newRateLimiter, rateLimitRate, rateLimitBurst]
  unique := List.nodup_nil
  buckets := fun _ member => by cases member

section Levels

variable {limiter : RateLimiter} {ip other : String} {now later : Time}

theorem Sound.mono (sound : Sound limiter now) (wait : now ≤ later) :
    Sound limiter later where
  rate := sound.rate
  burst := sound.burst
  fills := sound.fills
  unique := sound.unique
  buckets := fun entry member =>
    ⟨(sound.buckets entry member).1, (sound.buckets entry member).2.trans wait⟩

/-- An idle bucket is full. -/
theorem level_of_idle (sound : Sound limiter now) (wait : now ≤ later)
    {bucket : Bucket} (listed : (ip, bucket) ∈ limiter.buckets)
    (unused : idle now bucket = true) :
    bucket.inSeconds.level limiter.rate limiter.burst (seconds later) =
      limiter.burst := by
  have tokens := (sound.buckets _ listed).1
  have gap : (60000000000 : Int) ≤ later - bucket.last := by
    have minute := of_decide_eq_true unused
    have earlier : bucket.last + 60000000000 < now := by
      have shifted := Int.add_lt_of_lt_sub_left minute
      exact shifted
    exact Int.le_sub_left_of_add_le (earlier.le.trans wait)
  have minute : 60 ≤ seconds later - seconds bucket.last := by
    rw [← seconds_sub]
    unfold seconds
    have cast : ((60000000000 : Int) : ℚ) ≤ ((later - bucket.last : Int) : ℚ) :=
      Int.cast_le.mpr gap
    norm_num at cast ⊢
    linarith
  have gained : 60 * limiter.rate ≤
      (seconds later - seconds bucket.last) * limiter.rate :=
    mul_le_mul_of_nonneg_right minute sound.rate.le
  apply min_eq_left
  have fills := sound.fills
  dsimp only [Bucket.inSeconds]
  linarith

/-- Dropping idle buckets changes no address's tokens. -/
theorem level_dropIdle (sound : Sound limiter now) (wait : now ≤ later)
    (ip : String) :
    (limiter.dropIdle now).level ip later = limiter.level ip later := by
  unfold RateLimiter.dropIdle
  split
  · rfl
  · unfold RateLimiter.level
    dsimp only
    rw [find?_filter_value sound.unique fun bucket => !idle now bucket]
    cases found : find? ip limiter.buckets with
    | none => rfl
    | some bucket =>
        by_cases unused : idle now bucket = true
        · rw [Option.filter_some_neg (by simpa using unused)]
          exact (level_of_idle sound wait (find?_mem found) unused).symm
        · rw [Option.filter_some_pos (by simpa using unused)]

theorem sound_dropIdle (sound : Sound limiter now) :
    Sound (limiter.dropIdle now) now := by
  unfold RateLimiter.dropIdle
  split
  · exact sound
  · exact {
      rate := sound.rate
      burst := sound.burst
      fills := sound.fills
      unique := keys_filter_nodup sound.unique _
      buckets := fun entry member =>
        sound.buckets entry (List.mem_of_mem_filter member) }

@[simp]
theorem dropIdle_rate : (limiter.dropIdle now).rate = limiter.rate := by
  unfold RateLimiter.dropIdle
  split <;> rfl

@[simp]
theorem dropIdle_burst : (limiter.dropIdle now).burst = limiter.burst := by
  unfold RateLimiter.dropIdle
  split <;> rfl

theorem sound_put (sound : Sound limiter now) (ip : String) {tokens : ℚ}
    (positive : 0 ≤ tokens) :
    Sound (limiter.put ip ⟨tokens, now⟩) now where
  rate := sound.rate
  burst := sound.burst
  fills := sound.fills
  unique := keys_adjust_nodup sound.unique
  buckets := by
    have keeps := @forall_adjust _ _ _ ip (fun _ => ⟨tokens, now⟩)
      limiter.buckets (fun _ bucket => 0 ≤ bucket.tokens ∧ bucket.last ≤ now)
    exact keeps sound.buckets ⟨positive, le_refl now⟩

theorem level_put (bucket : Bucket) :
    (limiter.put ip bucket).level other later =
      if other = ip then
        bucket.inSeconds.level limiter.rate limiter.burst (seconds later)
      else limiter.level other later := by
  unfold RateLimiter.put RateLimiter.level
  dsimp only
  rw [find?_adjust]
  by_cases same : other = ip
  · rw [if_pos same, if_pos same]
  · rw [if_neg same, if_neg same]

/-- The tokens that `allow` computes for a bucket or a new one. -/
theorem filled_eq_level (limiter : RateLimiter) (ip : String) (now : Time) :
    (if limiter.burst <
        ((find? ip limiter.buckets).getD ⟨limiter.burst, now⟩).tokens +
          seconds (now -
            ((find? ip limiter.buckets).getD ⟨limiter.burst, now⟩).last) *
            limiter.rate
      then limiter.burst
      else ((find? ip limiter.buckets).getD ⟨limiter.burst, now⟩).tokens +
          seconds (now -
            ((find? ip limiter.buckets).getD ⟨limiter.burst, now⟩).last) *
            limiter.rate) =
      limiter.level ip now := by
  have capped : ∀ filled : ℚ,
      (if limiter.burst < filled then limiter.burst else filled) =
        min limiter.burst filled := by
    intro filled
    rw [min_def_lt]
  rw [capped]
  unfold RateLimiter.level
  cases find? ip limiter.buckets with
  | none =>
      have instant : seconds (now - now) = 0 := by
        rw [seconds_sub, sub_self]
      rw [Option.getD_none, instant, zero_mul, add_zero, min_self]
  | some bucket =>
      rw [Option.getD_some, seconds_sub]
      rfl

/-- An address is refused when it has less than one token. -/
theorem allow_eq (sound : Sound limiter now) (ip : String) :
    limiter.allow ip now =
      if limiter.level ip now < 1 then
        (⟨false, durationOf
            ((1 - limiter.level ip now) / limiter.rate * 1000000000)⟩,
          (limiter.dropIdle now).put ip ⟨limiter.level ip now, now⟩)
      else
        (⟨true, 0⟩,
          (limiter.dropIdle now).put ip ⟨limiter.level ip now - 1, now⟩) := by
  have tokens := filled_eq_level (limiter.dropIdle now) ip now
  rw [level_dropIdle sound (le_refl now)] at tokens
  unfold RateLimiter.allow
  dsimp only
  rw [tokens, dropIdle_rate]

theorem level_nonneg (sound : Sound limiter now) (ip : String) :
    0 ≤ limiter.level ip now := by
  unfold RateLimiter.level
  cases found : find? ip limiter.buckets with
  | none => exact sound.burst
  | some bucket =>
      have entry := sound.buckets _ (find?_mem found)
      exact TokenBuckets.level_nonneg sound.rate.le sound.burst
        ⟨entry.1, seconds_le entry.2⟩

theorem sound_allow (sound : Sound limiter now) (ip : String) :
    Sound (limiter.allow ip now).2 now := by
  rw [allow_eq sound]
  split
  · exact sound_put (sound_dropIdle sound) ip (level_nonneg sound ip)
  · rename_i enough
    exact sound_put (sound_dropIdle sound) ip
      (sub_nonneg.mpr (not_lt.mp enough))

/-- A call changes no other address's tokens. -/
theorem level_allow_other (sound : Sound limiter now) (wait : now ≤ later)
    (apart : other ≠ ip) :
    (limiter.allow ip now).2.level other later =
      limiter.level other later := by
  rw [allow_eq sound]
  split
  · rw [level_put, if_neg apart, level_dropIdle sound wait]
  · rw [level_put, if_neg apart, level_dropIdle sound wait]

@[simp]
theorem allow_rate (sound : Sound limiter now) (ip : String) :
    (limiter.allow ip now).2.rate = limiter.rate := by
  rw [allow_eq sound]
  split <;> exact dropIdle_rate

@[simp]
theorem allow_burst (sound : Sound limiter now) (ip : String) :
    (limiter.allow ip now).2.burst = limiter.burst := by
  rw [allow_eq sound]
  split <;> exact dropIdle_burst

/-- The tokens of an address are those of a token bucket from a time on. -/
def Matches (limiter : RateLimiter) (ip : String)
    (bucket : TokenBucket ℚ) (now : Time) : Prop :=
  ∀ later, now ≤ later → limiter.level ip later =
    bucket.level limiter.rate limiter.burst (seconds later)

/-- A call of the address takes a token, as from the token bucket. -/
theorem Matches.allow {bucket : TokenBucket ℚ} {start : Time}
    (same : Matches limiter ip bucket start) (sound : Sound limiter now)
    (began : start ≤ now) :
    (limiter.allow ip now).1.allowed =
        (bucket.take limiter.rate limiter.burst (seconds now)).1 ∧
      Matches (limiter.allow ip now).2 ip
        (bucket.take limiter.rate limiter.burst (seconds now)).2 now := by
  have level := same now began
  unfold Matches
  rw [allow_rate sound, allow_burst sound, allow_eq sound, TokenBucket.take,
    ← level]
  by_cases empty : limiter.level ip now < 1
  · rw [if_pos empty, if_pos empty]
    refine ⟨rfl, fun later wait => ?_⟩
    rw [level_put, if_pos rfl, dropIdle_rate, dropIdle_burst]
    rfl
  · rw [if_neg empty, if_neg empty]
    refine ⟨rfl, fun later wait => ?_⟩
    rw [level_put, if_pos rfl, dropIdle_rate, dropIdle_burst]
    rfl

end Levels

/-- Calls whose times do not decrease, from a time on. -/
def Timely (start : Time) (calls : List RateCall) : Prop :=
  (∀ call ∈ calls, start ≤ call.time) ∧
    calls.Pairwise fun first second => first.time ≤ second.time

theorem Timely.head {start : Time} {call : RateCall} {calls : List RateCall}
    (timely : Timely start (call :: calls)) :
    start ≤ call.time ∧ Timely call.time calls :=
  ⟨timely.1 call List.mem_cons_self, (List.pairwise_cons.mp timely.2).1,
    (List.pairwise_cons.mp timely.2).2⟩

/-- The calls of an address. -/
def callsOf (ip : String) (calls : List RateCall) : List ℚ :=
  (calls.filter fun call => decide (call.ip = ip)).map fun call =>
    seconds call.time

/-- The calls of an address that were allowed. -/
def allowedOf (ip : String) (answers : List (RateCall × RateAnswer)) :
    List ℚ :=
  (answers.filter fun answer =>
    decide (answer.1.ip = ip) && answer.2.allowed).map fun answer =>
      seconds answer.1.time

/-- Among the calls of an address, a token bucket admits the same. -/
theorem allowedOf_answers {limiter : RateLimiter} {ip : String}
    {bucket : TokenBucket ℚ} {calls : List RateCall} {start : Time}
    (sound : Sound limiter start) (timely : Timely start calls)
    (same : Matches limiter ip bucket start) :
    allowedOf ip (limiter.answers calls) =
      bucket.admitted limiter.rate limiter.burst (callsOf ip calls) := by
  induction calls generalizing limiter bucket start with
  | nil => rfl
  | cons call calls inductionHypothesis =>
      obtain ⟨began, later⟩ := timely.head
      have now := sound.mono began
      have next := sound_allow now call.ip
      rw [RateLimiter.answers]
      by_cases own : call.ip = ip
      · subst own
        obtain ⟨answered, matched⟩ := same.allow now began
        have rest := inductionHypothesis next later matched
        rw [allow_rate now, allow_burst now] at rest
        have listed : callsOf call.ip (call :: calls) =
            seconds call.time :: callsOf call.ip calls := by
          simp [callsOf]
        rw [listed, TokenBucket.admitted]
        dsimp only
        rw [← answered, ← rest]
        cases allowed : (limiter.allow call.ip call.time).1.allowed with
        | true => simp [allowedOf, allowed]
        | false => simp [allowedOf, allowed]
      · have matched : Matches (limiter.allow call.ip call.time).2 ip bucket
            call.time := by
          intro moment wait
          rw [level_allow_other now wait fun equal => own equal.symm,
            allow_rate now, allow_burst now]
          exact same moment (began.trans wait)
        have rest := inductionHypothesis next later matched
        rw [allow_rate now, allow_burst now] at rest
        have passed : callsOf ip (call :: calls) = callsOf ip calls := by
          simp [callsOf, own]
        rw [passed, ← rest]
        simp [allowedOf, own]

/-- A new limiter's address has a full bucket. -/
theorem matches_new (ip : String) (start : Time) :
    Matches (newRateLimiter rateLimitRate rateLimitBurst) ip
      ⟨rateLimitBurst, seconds start⟩ start := by
  intro later wait
  have waited := seconds_le wait
  have added : (0 : ℚ) ≤ (seconds later - seconds start) * rateLimitRate :=
    mul_nonneg (by linarith) (by norm_num [rateLimitRate])
  symm
  apply min_eq_left
  exact le_add_of_nonneg_right added

theorem pairwise_callsOf (ip : String) {calls : List RateCall} {start : Time}
    (timely : Timely start calls) :
    (seconds start :: callsOf ip calls).Pairwise (· ≤ ·) := by
  refine List.pairwise_cons.mpr ⟨?_, ?_⟩
  · intro time member
    obtain ⟨call, listed, rfl⟩ := List.mem_map.mp member
    exact seconds_le (timely.1 call (List.mem_of_mem_filter listed))
  · exact List.pairwise_map.mpr
      ((timely.2.filter _).imp fun before => seconds_le before)

/-- In no interval more calls of an address are allowed than the burst and
what the rate gives. -/
theorem allowedOf_within_le {calls : List RateCall} {began : Time}
    (timely : Timely began calls) (ip : String) (start : ℚ) {length : ℚ}
    (lasts : 0 ≤ length) :
    (((allowedOf ip ((newRateLimiter rateLimitRate rateLimitBurst).answers
        calls)).countP fun time =>
          decide (start ≤ time ∧ time ≤ start + length) : Nat) : ℚ) ≤
      rateLimitBurst + length * rateLimitRate := by
  have sound := sound_newRateLimiter began
  rw [allowedOf_answers sound timely (matches_new ip began)]
  exact admitted_within_le sound.rate.le sound.burst lasts
    ⟨sound.burst, le_refl (seconds began)⟩ (pairwise_callsOf ip timely)

/-! ## The delay of a refusal -/

/-- Tokens come in nanoseconds of the rate. -/
def Granular (tokens : ℚ) : Prop := ∃ units : Int, tokens = units / 200000000

/-- The limiter of the server, at some time. -/
structure Serving (limiter : RateLimiter) (now : Time) : Prop where
  sound : Sound limiter now
  rate : limiter.rate = 5
  burst : limiter.burst = 30
  granular : ∀ entry ∈ limiter.buckets, Granular entry.2.tokens

section Delays

variable {limiter : RateLimiter} {ip : String} {now later : Time}

theorem serving_new (now : Time) :
    Serving (newRateLimiter rateLimitRate rateLimitBurst) now where
  sound := sound_newRateLimiter now
  rate := by norm_num [newRateLimiter, rateLimitRate]
  burst := by norm_num [newRateLimiter, rateLimitBurst]
  granular := fun _ member => by cases member

theorem Serving.level_granular (serving : Serving limiter now) (ip : String)
    (later : Time) : Granular (limiter.level ip later) := by
  have whole : Granular 30 := ⟨6000000000, by norm_num⟩
  unfold RateLimiter.level
  cases found : find? ip limiter.buckets with
  | none => exact serving.burst ▸ whole
  | some bucket =>
      dsimp only [TokenBucket.level, Bucket.inSeconds]
      rw [serving.burst, serving.rate]
      rcases min_choice 30 (bucket.tokens +
          (seconds later - seconds bucket.last) * 5) with full | partly
      · rw [full]
        exact whole
      · obtain ⟨units, tokens⟩ := serving.granular _ (find?_mem found)
        rw [partly]
        refine ⟨units + (later - bucket.last), ?_⟩
        rw [tokens]
        unfold seconds
        push_cast
        ring

theorem Serving.dropIdle_granular (serving : Serving limiter now) :
    ∀ entry ∈ (limiter.dropIdle now).buckets, Granular entry.2.tokens := by
  unfold RateLimiter.dropIdle
  split
  · exact serving.granular
  · intro entry member
    exact serving.granular entry (List.mem_of_mem_filter member)

theorem granular_put {tokens : ℚ} (new : Granular tokens)
    (granular : ∀ entry ∈ limiter.buckets, Granular entry.2.tokens) :
    ∀ entry ∈ (limiter.put ip ⟨tokens, now⟩).buckets,
      Granular entry.2.tokens := by
  have keeps := @forall_adjust _ _ _ ip (fun _ => ⟨tokens, now⟩)
    limiter.buckets (fun _ bucket => Granular bucket.tokens)
  exact keeps granular new

theorem Serving.allow (serving : Serving limiter now) (ip : String) :
    Serving (limiter.allow ip now).2 now where
  sound := sound_allow serving.sound ip
  rate := (allow_rate serving.sound ip).trans serving.rate
  burst := (allow_burst serving.sound ip).trans serving.burst
  granular := by
    have tokens := serving.level_granular ip now
    rw [allow_eq serving.sound]
    split
    · exact granular_put tokens serving.dropIdle_granular
    · refine granular_put ?_ serving.dropIdle_granular
      obtain ⟨units, level⟩ := tokens
      refine ⟨units - 200000000, ?_⟩
      rw [level]
      push_cast
      ring

theorem Serving.mono (serving : Serving limiter now) (wait : now ≤ later) :
    Serving limiter later where
  sound := serving.sound.mono wait
  rate := serving.rate
  burst := serving.burst
  granular := serving.granular

theorem Serving.after {calls : List RateCall}
    (serving : Serving limiter now) (timely : Timely now calls)
    (ended : ∀ call ∈ calls, call.time ≤ later) (wait : now ≤ later) :
    Serving (limiter.after calls) later := by
  induction calls generalizing limiter now with
  | nil => exact serving.mono wait
  | cons call calls inductionHypothesis =>
      obtain ⟨began, rest⟩ := timely.head
      exact inductionHypothesis ((serving.mono began).allow call.ip) rest
        (fun other member => ended other (List.mem_cons_of_mem _ member))
        (ended call List.mem_cons_self)

/-- Calls of other addresses leave the tokens alone. -/
theorem level_after_others {calls : List RateCall}
    (sound : Sound limiter now) (timely : Timely now calls)
    (others : ∀ call ∈ calls, call.ip ≠ ip)
    (ended : ∀ call ∈ calls, call.time ≤ later) :
    (limiter.after calls).level ip later = limiter.level ip later := by
  induction calls generalizing limiter now with
  | nil => rfl
  | cons call calls inductionHypothesis =>
      obtain ⟨began, rest⟩ := timely.head
      have here := sound.mono began
      have apart : ip ≠ call.ip :=
        fun same => others call List.mem_cons_self same.symm
      have step := level_allow_other here (ended call List.mem_cons_self) apart
      have settled := inductionHypothesis (sound_allow here call.ip) rest
        (fun other member => others other (List.mem_cons_of_mem _ member))
        (fun other member => ended other (List.mem_cons_of_mem _ member))
      exact settled.trans step

theorem allowed_iff (sound : Sound limiter now) (ip : String) :
    (limiter.allow ip now).1.allowed = true ↔ 1 ≤ limiter.level ip now := by
  rw [allow_eq sound]
  by_cases empty : limiter.level ip now < 1
  · rw [if_pos empty]
    simpa using empty
  · rw [if_neg empty]
    simpa using empty

theorem durationOf_intCast (nanos : Int) : durationOf nanos = nanos := by
  rw [durationOf, Rat.num_intCast, Rat.den_intCast, Nat.cast_one,
    Int.tdiv_one]

theorem one_le_tokens_iff (units waited : Int) :
    (1 : ℚ) ≤ units / 200000000 + seconds waited * 5 ↔
      200000000 ≤ units + waited := by
  have total : (units : ℚ) / 200000000 + seconds waited * 5 =
      ((units + waited : Int) : ℚ) / 200000000 := by
    unfold seconds
    push_cast
    ring
  rw [total, le_div_iff₀ (by norm_num), one_mul]
  exact_mod_cast Iff.rfl

/-- After a refusal the address has a token again when the delay is
over. -/
theorem refused_level (serving : Serving limiter now)
    (refused : (limiter.allow ip now).1.allowed = false) :
    1 ≤ (limiter.allow ip now).2.level ip later ↔
      (limiter.allow ip now).1.retry ≤ later - now := by
  have empty : limiter.level ip now < 1 := by
    by_contra enough
    rw [(allowed_iff serving.sound ip).mpr (not_lt.mp enough)] at refused
    cases refused
  obtain ⟨units, tokens⟩ := serving.level_granular ip now
  have delay : (1 - (units : ℚ) / 200000000) / 5 * 1000000000 =
      ((200000000 - units : Int) : ℚ) := by
    push_cast
    ring
  rw [allow_eq serving.sound, if_pos empty]
  dsimp only
  rw [level_put, if_pos rfl, dropIdle_rate, dropIdle_burst, serving.rate,
    serving.burst, tokens, delay, durationOf_intCast]
  dsimp only [TokenBucket.level, Bucket.inSeconds]
  rw [le_min_iff, ← seconds_sub, one_le_tokens_iff]
  exact ⟨fun enough => Int.sub_left_le_of_le_add enough.2,
    fun above => ⟨by norm_num, Int.le_add_of_sub_left_le above⟩⟩

end Delays

/-- The parts of a history around a call and a later one. -/
theorem Timely.split {start : Time} {before others : List RateCall}
    {call later : RateCall}
    (timely : Timely start (before ++ call :: (others ++ [later]))) :
    (Timely start before ∧ (∀ other ∈ before, other.time ≤ call.time) ∧
        start ≤ call.time) ∧
      Timely call.time others ∧ (∀ other ∈ others, other.time ≤ later.time) ∧
        call.time ≤ later.time := by
  obtain ⟨after, ordered⟩ := timely
  obtain ⟨early, tail, across⟩ := List.pairwise_append.mp ordered
  obtain ⟨behind, rest⟩ := List.pairwise_cons.mp tail
  obtain ⟨between, _, ends⟩ := List.pairwise_append.mp rest
  refine ⟨⟨⟨?_, early⟩, ?_, ?_⟩, ⟨?_, between⟩, ?_, ?_⟩
  · exact fun other member => after other (List.mem_append_left _ member)
  · exact fun other member => across other member call List.mem_cons_self
  · exact after call (List.mem_append_right _ List.mem_cons_self)
  · exact fun other member => behind other (List.mem_append_left _ member)
  · exact fun other member => ends other member later (List.mem_singleton_self _)
  · exact behind later (List.mem_append_right _ (List.mem_singleton_self _))

/-- Of every address no more calls are allowed in an interval than the
burst and what the rate gives, and the delay of a refusal is the least
wait. -/
theorem rateLimit_holds (calls : List RateCall)
    (timely : calls.Pairwise fun first second => first.time ≤ second.time)
    (ip : String) :
    (∀ start length : ℚ, 0 ≤ length →
      (((allowedOf ip ((newRateLimiter rateLimitRate rateLimitBurst).answers
          calls)).countP fun time =>
            decide (start ≤ time ∧ time ≤ start + length) : Nat) : ℚ) ≤
        rateLimitBurst + length * rateLimitRate) ∧
    ∀ before others now wait,
      calls = before ++ ⟨ip, now⟩ :: (others ++ [⟨ip, now + wait⟩]) →
        (∀ call ∈ others, call.ip ≠ ip) →
          let limiter :=
            (newRateLimiter rateLimitRate rateLimitBurst).after before
          let later := (limiter.allow ip now).2.after others
          (limiter.allow ip now).1.allowed = false →
            ((later.allow ip (now + wait)).1.allowed = true ↔
              (limiter.allow ip now).1.retry ≤ wait) := by
  obtain ⟨start, first⟩ : ∃ start, Timely start calls := by
    cases calls with
    | nil => exact ⟨0, by simp [Timely]⟩
    | cons call calls =>
        refine ⟨call.time, ?_, timely⟩
        intro other member
        rcases List.mem_cons.mp member with rfl | later
        · exact le_refl _
        · exact List.rel_of_pairwise_cons timely later
  refine ⟨fun interval length lasts => allowedOf_within_le first ip interval lasts,
    ?_⟩
  rintro before others now wait rfl apart
  obtain ⟨⟨early, ended, began⟩, between, closed, waited⟩ := first.split
  have serving := (serving_new start).after early ended began
  intro limiter later refused
  have next : Serving later (now + wait) :=
    (serving.allow ip).after between closed waited
  have settled : later.level ip (now + wait) =
      (limiter.allow ip now).2.level ip (now + wait) :=
    level_after_others (serving.allow ip).sound between apart closed
  have delay : now + wait - now = wait := add_sub_cancel_left now wait
  rw [allowed_iff next.sound, settled, refused_level serving refused, delay]

/-- The calls that use up the burst of an address. -/
def burstCalls : List RateCall :=
  List.replicate 30 ⟨"192.0.2.1", 0⟩

/-- A call more, one of another address, and one after the delay. -/
def exhaustingCalls : List RateCall :=
  burstCalls ++ ⟨"192.0.2.1", 0⟩ ::
    ([⟨"198.51.100.7", 1⟩] ++ [⟨"192.0.2.1", 0 + 200000000⟩])

/-- The call behind the burst is refused for 200 milliseconds, after which
one is allowed; those of the first second are within the bound. -/
theorem rateLimit_holds_exhausted :
    (((allowedOf "192.0.2.1" ((newRateLimiter rateLimitRate
        rateLimitBurst).answers exhaustingCalls)).countP fun time =>
          decide (0 ≤ time ∧ time ≤ 0 + 1) : Nat) : ℚ) ≤
        rateLimitBurst + 1 * rateLimitRate ∧
      (((newRateLimiter rateLimitRate rateLimitBurst).after
        burstCalls).allow "192.0.2.1" 0).1 = ⟨false, 200000000⟩ ∧
      (((((newRateLimiter rateLimitRate rateLimitBurst).after
        burstCalls).allow "192.0.2.1" 0).2.after
          [⟨"198.51.100.7", 1⟩]).allow "192.0.2.1"
            (0 + 200000000)).1.allowed = true := by
  have refused : (((newRateLimiter rateLimitRate rateLimitBurst).after
      burstCalls).allow "192.0.2.1" 0).1 = ⟨false, 200000000⟩ := by
    decide +kernel
  have timely : exhaustingCalls.Pairwise fun first second =>
      first.time ≤ second.time := by
    decide +kernel
  have apart : ∀ call ∈ [(⟨"198.51.100.7", 1⟩ : RateCall)],
      call.ip ≠ "192.0.2.1" := by
    decide
  obtain ⟨bounded, delayed⟩ :=
    rateLimit_holds exhaustingCalls timely "192.0.2.1"
  have waits := delayed burstCalls [⟨"198.51.100.7", 1⟩] 0 200000000 rfl
    apart
  dsimp only at waits
  rw [refused] at waits
  exact ⟨bounded 0 1 zero_le_one, refused, (waits rfl).mpr le_rfl⟩

end Xoxproxy.Api
