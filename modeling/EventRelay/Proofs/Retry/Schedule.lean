import EventRelay.Proofs.Retry
import EventRelay.Settings.Basic
import Mathlib.Algebra.Order.Ring.GeomSum

/-!
# The delays before retries

Delays are computed with care for overflow, each for itself and all together.  A sum
of delays is computed just when the whole sum fits, since no partial sum is longer
and no single delay is.  It has a closed form, as delays double up to a point and stay
the same from then on.  So there are two numbers that decide whether delays
overflow: how often is retried, and how long the first delay is.  Settings without a
violation bound only the first of them.
-/

namespace EventRelay
namespace Retry

/-! ## What a duration holds -/

/-- A number of nanoseconds that fits in a duration. -/
def IsDuration (nanoseconds : Nat) : Prop :=
  nanoseconds / second < secondsBound

instance (nanoseconds : Nat) : Decidable (IsDuration nanoseconds) :=
  inferInstanceAs (Decidable (nanoseconds / second < secondsBound))

theorem IsDuration.mono
    {shorter longer : Nat}
    (le : shorter ≤ longer)
    (isDuration : IsDuration longer) :
    IsDuration shorter :=
  Nat.lt_of_le_of_lt (Nat.div_le_div_right le) isDuration

/-- The number of different counts of whole microseconds. -/
def microsecondsBound : Nat := secondsBound * 1000000

/-- A number of whole microseconds fits if it is less than `2 ^ 64` seconds. -/
theorem isDuration_mul_thousand (microseconds : Nat) :
    IsDuration (microseconds * 1000) ↔ microseconds < microsecondsBound := by
  rw [IsDuration, Nat.div_lt_iff_lt_mul (by decide)]
  unfold second microsecondsBound
  omega

/-! ## Single delays and sums of delays -/

/-- The delay before a retry, however long. -/
def Policy.delay (policy : Policy) (retry : Nat) : Nat :=
  policy.initialBackoff * 2 ^ min retry 30

theorem Policy.backoff_eq (policy : Policy) (retry : Nat) :
    policy.backoff retry =
      if IsDuration (policy.delay retry) then .ok (policy.delay retry) else .error .product := by
  rw [backoff, Nat.shiftLeft_eq]
  rfl

/-- A duration that is checked before it is given is given just when it fits. -/
theorem ite_ok_eq_ok_iff {nanoseconds duration : Nat} {overflow : Overflow} :
    (if IsDuration nanoseconds then Except.ok nanoseconds else .error overflow) = .ok duration ↔
      duration = nanoseconds ∧ IsDuration duration := by
  constructor
  · intro computed
    split at computed
    · cases computed
      exact ⟨rfl, ‹_›⟩
    · cases computed
  · rintro ⟨rfl, isDuration⟩
    exact if_pos isDuration

theorem Policy.backoff_eq_ok_iff {policy : Policy} {retry delay : Nat} :
    policy.backoff retry = .ok delay ↔
      delay = policy.delay retry ∧ IsDuration delay := by
  rw [backoff_eq, ite_ok_eq_ok_iff]

/-- The sum of the delays before a number of retries from one on, however long. -/
def Policy.delaysFrom (policy : Policy) (retry count : Nat) : Nat :=
  ∑ later ∈ Finset.range count, policy.delay (retry + later)

@[simp]
theorem Policy.delaysFrom_zero (policy : Policy) (retry : Nat) :
    policy.delaysFrom retry 0 = 0 := rfl

theorem Policy.delaysFrom_succ (policy : Policy) (retry count : Nat) :
    policy.delaysFrom retry (count + 1) =
      policy.delay retry + policy.delaysFrom (retry + 1) count := by
  rw [delaysFrom, Finset.sum_range_succ', Nat.add_comm, delaysFrom]
  congr 1
  apply Finset.sum_congr rfl
  intro later _
  rw [Nat.add_right_comm, Nat.add_assoc]

/-- No single delay is longer than the sum. -/
theorem Policy.delay_le_delaysFrom
    (policy : Policy)
    {retry count : Nat}
    (isRetry : retry < count) :
    policy.delay retry ≤ policy.delaysFrom 0 count := by
  have among : policy.delay (0 + retry) ≤ policy.delaysFrom 0 count :=
    Finset.single_le_sum (f := fun later => policy.delay (0 + later))
      (fun _ _ => Nat.zero_le _) (Finset.mem_range.mpr isRetry)
  rwa [Nat.zero_add] at among

/-- As long as the whole seconds fit, a delay is added and the next one is due. -/
theorem Policy.sumFrom_succ
    {policy : Policy}
    {retry seconds : Nat}
    (fits : seconds + policy.delay retry / second < secondsBound)
    (count nanoseconds : Nat) :
    policy.sumFrom (count + 1) retry seconds nanoseconds =
      policy.sumFrom count (retry + 1) (seconds + policy.delay retry / second)
        (nanoseconds + policy.delay retry % second) := by
  have computed : policy.backoff retry = .ok (policy.delay retry) :=
    backoff_eq_ok_iff.mpr ⟨rfl, Nat.lt_of_le_of_lt (Nat.le_add_left _ _) fits⟩
  rw [sumFrom, computed]
  exact if_pos fits

/-- When they do not fit, the sum fails, in the delay itself or in adding it. -/
theorem Policy.sumFrom_succ_ne_ok
    {policy : Policy}
    {retry seconds : Nat}
    (tooLong : secondsBound ≤ seconds + policy.delay retry / second)
    (count nanoseconds total : Nat) :
    policy.sumFrom (count + 1) retry seconds nanoseconds ≠ .ok total := by
  intro added
  rw [sumFrom] at added
  cases computed : policy.backoff retry with
  | ok delay =>
      obtain ⟨rfl, -⟩ := backoff_eq_ok_iff.mp computed
      rw [computed] at added
      dsimp only at added
      rw [if_neg (Nat.not_lt.mpr tooLong)] at added
      cases added
  | error overflow =>
      rw [computed] at added
      cases added

/-- The whole seconds of a delay and the nanoseconds that are left make up the delay. -/
theorem whole_add_rest (seconds nanoseconds delay later : Nat) :
    (seconds + delay / second) * second + (nanoseconds + delay % second) + later =
      seconds * second + nanoseconds + (delay + later) := by
  have delay_eq := Nat.div_add_mod' delay second
  rw [Nat.add_mul]
  omega

/-- Adding delays to what has been added gives the sum just when it fits: neither a
single delay nor the whole seconds of a partial sum overflow on their own. -/
theorem Policy.sumFrom_eq_ok_iff
    {policy : Policy}
    {count retry seconds nanoseconds total : Nat} :
    policy.sumFrom count retry seconds nanoseconds = .ok total ↔
      total = seconds * second + nanoseconds + policy.delaysFrom retry count ∧
        IsDuration total := by
  induction count generalizing retry seconds nanoseconds with
  | zero =>
      have whole : (seconds * second + nanoseconds) / second = seconds + nanoseconds / second := by
        rw [Nat.mul_comm, Nat.mul_add_div (by decide)]
      rw [sumFrom, delaysFrom_zero, Nat.add_zero, ← whole]
      exact ite_ok_eq_ok_iff
  | succ count inductionHypothesis =>
      rw [delaysFrom_succ, ← whole_add_rest]
      by_cases fits : seconds + policy.delay retry / second < secondsBound
      · rw [sumFrom_succ fits, inductionHypothesis]
      · have tooLong := Nat.not_lt.mp fits
        refine iff_of_false (sumFrom_succ_ne_ok tooLong _ _ _) ?_
        rintro ⟨rfl, isDuration⟩
        -- The whole seconds alone are too long.
        have whole : IsDuration ((seconds + policy.delay retry / second) * second) :=
          isDuration.mono (by omega)
        rw [IsDuration, Nat.mul_div_cancel _ (by decide)] at whole
        exact fits whole

/-- The sum of all delays is computed just when it fits. -/
theorem Policy.totalBackoff_eq_ok_iff {policy : Policy} {total : Nat} :
    policy.totalBackoff = .ok total ↔
      total = policy.delaysFrom 0 policy.maxRetries ∧ IsDuration total := by
  rw [totalBackoff, sumFrom_eq_ok_iff, Nat.zero_mul, Nat.zero_add]

/-- As long as delays double, their sum is one initial delay short of the next. -/
theorem Policy.delaysFrom_eq_of_le
    (policy : Policy)
    {count : Nat}
    (doubles : count ≤ 31) :
    policy.delaysFrom 0 count = policy.initialBackoff * (2 ^ count - 1) := by
  have delay_eq : ∀ retry ∈ Finset.range count,
      policy.delay (0 + retry) = policy.initialBackoff * 2 ^ retry := by
    intro retry isRetry
    have before := Finset.mem_range.mp isRetry
    rw [Nat.zero_add, delay, Nat.min_eq_left (by omega)]
  rw [delaysFrom, Finset.sum_congr rfl delay_eq, ← Finset.mul_sum,
    Nat.geomSum_eq (Nat.le_refl 2), Nat.div_one]

/-- Each retry adds its delay to those before it. -/
theorem Policy.delaysFrom_zero_succ (policy : Policy) (count : Nat) :
    policy.delaysFrom 0 (count + 1) = policy.delaysFrom 0 count + policy.delay count := by
  rw [delaysFrom, Finset.sum_range_succ, Nat.zero_add, delaysFrom]

/-- How many initial delays a number of retries takes: delays double up to the
thirty-first and stay the same from then on. -/
def initialDelays (retries : Nat) : Nat :=
  if retries ≤ 31 then 2 ^ retries - 1 else 2 ^ 31 - 1 + (retries - 31) * 2 ^ 30

theorem initialDelays_add (further : Nat) :
    initialDelays (31 + further) = 2 ^ 31 - 1 + further * 2 ^ 30 := by
  rw [initialDelays]
  split
  · obtain rfl : further = 0 := by omega
    rfl
  · rw [Nat.add_sub_cancel_left]

theorem Policy.delaysFrom_eq (policy : Policy) (count : Nat) :
    policy.delaysFrom 0 count = policy.initialBackoff * initialDelays count := by
  by_cases doubles : count ≤ 31
  · rw [delaysFrom_eq_of_le policy doubles, initialDelays, if_pos doubles]
  · obtain ⟨further, rfl⟩ := Nat.exists_eq_add_of_le (Nat.le_of_not_le doubles)
    clear doubles
    rw [initialDelays_add]
    induction further with
    | zero => exact delaysFrom_eq_of_le policy (Nat.le_refl 31)
    | succ further inductionHypothesis =>
        have saturated : policy.delay (31 + further) = policy.initialBackoff * 2 ^ 30 := by
          rw [delay, Nat.min_eq_right (by omega)]
        rw [← Nat.add_assoc, delaysFrom_zero_succ, inductionHypothesis, saturated, ← Nat.mul_add,
          Nat.add_one_mul, Nat.add_assoc]

/-- A duration has less than `2 ^ 64` seconds. -/
theorem isDuration_iff (nanoseconds : Nat) :
    IsDuration nanoseconds ↔ nanoseconds < secondsBound * second := by
  rw [IsDuration, Nat.div_lt_iff_lt_mul (by decide)]

/-! ## Delays until all retries are used up -/

theorem outcome_eq_exhausted_iff {answer : Offer} {last retries : Nat} :
    outcome answer last = .error (.exhausted retries) ↔
      answer.isTransient = true ∧ last = retries := by
  cases answer <;> simp [outcome, Offer.isTransient]

/-- A refusal for the time being ends offering only after the last retry. -/
theorem Policy.EndsAt.eq_maxRetries
    {policy : Policy}
    {answers : Nat → Offer}
    {last : Nat}
    (endsAt : policy.EndsAt answers last)
    (refused : (answers last).isTransient = true) :
    last = policy.maxRetries := by
  refine endsAt.ends.resolve_left fun settled => ?_
  rw [refused] at settled
  cases settled

/-- Retries are used up just when all offers are refused for the time being. -/
theorem Policy.diaryOf_eq_exhausted_iff
    {policy : Policy}
    {answers : Nat → Offer}
    {message : Bytes}
    {retries : Nat} :
    (policy.diaryOf answers message).1 = .error (.exhausted retries) ↔
      retries = policy.maxRetries ∧
        ∀ earlier ≤ policy.maxRetries, (answers earlier).isTransient = true := by
  obtain ⟨last, endsAt⟩ := policy.exists_endsAt answers
  rw [endsAt.diaryOf_eq_diary message, outcome_eq_exhausted_iff]
  constructor
  · rintro ⟨refusedLast, rfl⟩
    refine ⟨endsAt.eq_maxRetries refusedLast, fun earlier le => ?_⟩
    rw [← endsAt.eq_maxRetries refusedLast] at le
    rcases Nat.lt_or_eq_of_le le with before | rfl
    · exact endsAt.refused earlier before
    · exact refusedLast
  · rintro ⟨rfl, refused⟩
    have refusedLast := refused last endsAt.le
    exact ⟨refusedLast, endsAt.eq_maxRetries refusedLast⟩

/-- The delays that are waited for until all retries are used up: they add up to a total.
If one of them cannot be computed, the total is too long as well. -/
structure Policy.Waits (policy : Policy) (total : Nat) (delays : List (Except Overflow Nat)) :
    Prop where
  waited : policy.Fits → ∃ waits : List Nat, delays = waits.map .ok ∧ waits.sum = total
  overflows : ¬policy.Fits → .error .product ∈ delays ∧ secondsBound * second ≤ total

theorem Policy.waits_diaryOf
    {policy : Policy}
    {answers : Nat → Offer}
    {message : Bytes}
    {retries : Nat}
    (exhausted : (policy.diaryOf answers message).1 = .error (.exhausted retries)) :
    policy.Waits (policy.delaysFrom 0 policy.maxRetries)
      (policy.diaryOf answers message).2.delays := by
  obtain ⟨rfl, refused⟩ := diaryOf_eq_exhausted_iff.mp exhausted
  have endsAt : policy.EndsAt answers policy.maxRetries :=
    ⟨Nat.le_refl _, fun earlier before => refused earlier (Nat.le_of_lt before), Or.inr rfl⟩
  rw [endsAt.diaryOf_eq_diary message]
  dsimp only
  constructor
  · intro fits
    refine ⟨(List.range policy.maxRetries).map policy.delay, ?_, ?_⟩
    · rw [List.map_map]
      apply List.map_congr_left
      intro retry isRetry
      exact fits.backoff_eq (List.mem_range.mp isRetry)
    · simp only [delaysFrom, Nat.zero_add]
      rfl
  · intro notFits
    simp only [Fits, not_forall, not_not] at notFits
    obtain ⟨retry, isRetry, tooLong⟩ := notFits
    refine ⟨List.mem_map.mpr ⟨retry, List.mem_range.mpr isRetry, tooLong⟩, ?_⟩
    rw [← Nat.not_lt, ← isDuration_iff]
    intro isDuration
    have single := isDuration.mono (policy.delay_le_delaysFrom isRetry)
    rw [backoff_eq, if_pos single] at tooLong
    cases tooLong

/-- The delays before all retries have a closed form.  It is computed as their sum just
when it is less than `2 ^ 64` seconds, and fails to be otherwise; and it is what is waited
for until all retries are used up. -/
theorem totals_initialDelays (policy : Policy) (message : Bytes) :
    let total := policy.initialBackoff * initialDelays policy.maxRetries
    (total < secondsBound * second → policy.totalBackoff = .ok total) ∧
      (secondsBound * second ≤ total → ∃ overflow, policy.totalBackoff = .error overflow) ∧
      ∀ answers retries, (policy.diaryOf answers message).1 = .error (.exhausted retries) →
        retries = policy.maxRetries ∧
          policy.Waits total (policy.diaryOf answers message).2.delays := by
  intro total
  have total_eq : policy.delaysFrom 0 policy.maxRetries = total := policy.delaysFrom_eq _
  refine ⟨?_, ?_, ?_⟩
  · intro fits
    exact Policy.totalBackoff_eq_ok_iff.mpr ⟨total_eq.symm, (isDuration_iff total).mpr fits⟩
  · intro tooLong
    cases computed : policy.totalBackoff with
    | error overflow => exact ⟨overflow, rfl⟩
    | ok nanoseconds =>
        obtain ⟨rfl, isDuration⟩ := Policy.totalBackoff_eq_ok_iff.mp computed
        rw [total_eq, isDuration_iff] at isDuration
        exact absurd isDuration (Nat.not_lt.mpr tooLong)
  · intro answers retries exhausted
    exact ⟨(Policy.diaryOf_eq_exhausted_iff.mp exhausted).1,
      total_eq ▸ Policy.waits_diaryOf exhausted⟩

/-- Forty retries from one nanosecond on, of a message that nobody accepts. -/
theorem totals_initialDelays_forty :
    (⟨40, 1⟩ : Policy).totalBackoff = .ok 11811160063 ∧
      ((⟨40, 1⟩ : Policy).diaryOf (fun _ => .backPressured) [7]).1 = .error (.exhausted 40) ∧
      ∃ waits : List Nat,
        ((⟨40, 1⟩ : Policy).diaryOf (fun _ => .backPressured) [7]).2.delays = waits.map .ok ∧
          waits.sum = 11811160063 := by
  have exhausted : ((⟨40, 1⟩ : Policy).diaryOf (fun _ => .backPressured) [7]).1 =
      .error (.exhausted 40) :=
    Policy.diaryOf_eq_exhausted_iff.mpr ⟨rfl, fun _ _ => rfl⟩
  obtain ⟨computed, -, waited⟩ := totals_initialDelays ⟨40, 1⟩ [7]
  obtain ⟨-, waits⟩ := waited (fun _ => .backPressured) 40 exhausted
  exact ⟨computed (by decide), exhausted, waits.waited (by decide +kernel)⟩

/-! ## Delays that do not overflow -/

/-- Nothing that is computed of the delays overflows: neither the delay before a retry,
nor one that is waited for while a message is offered, whatever the publisher answers,
nor the sum of all delays. -/
structure Policy.NeverOverflows (policy : Policy) : Prop where
  backoff : ∀ retry < policy.maxRetries, ∃ delay, policy.backoff retry = .ok delay
  waits : ∀ answers message, ∀ wait ∈ (policy.diaryOf answers message).2.delays,
    ∃ delay, wait = .ok delay
  total : ∃ total, policy.totalBackoff = .ok total

/-- If the sum of the delays fits, nothing overflows. -/
theorem Policy.neverOverflows_iff_isDuration {policy : Policy} :
    policy.NeverOverflows ↔ IsDuration (policy.delaysFrom 0 policy.maxRetries) := by
  constructor
  · intro never
    obtain ⟨total, computed⟩ := never.total
    obtain ⟨rfl, isDuration⟩ := totalBackoff_eq_ok_iff.mp computed
    exact isDuration
  · intro isDuration
    have single : ∀ retry < policy.maxRetries, ∃ delay, policy.backoff retry = .ok delay :=
      fun retry isRetry => ⟨policy.delay retry,
        backoff_eq_ok_iff.mpr ⟨rfl, isDuration.mono (policy.delay_le_delaysFrom isRetry)⟩⟩
    refine ⟨single, ?_, _, totalBackoff_eq_ok_iff.mpr ⟨rfl, isDuration⟩⟩
    intro answers message wait waited
    obtain ⟨last, endsAt⟩ := policy.exists_endsAt answers
    rw [endsAt.diaryOf_eq_diary message] at waited
    obtain ⟨retry, before, rfl⟩ := List.mem_map.mp waited
    exact single retry (Nat.lt_of_lt_of_le (List.mem_range.mp before) endsAt.le)

end Retry

/-! ## Settings without a violation -/

namespace Settings

open Retry (microsecondsBound)

/-- In settings without a violation there are at most thirty retries. -/
theorem maxRetries_le
    {settings : Settings}
    (valid : settings.violation? = none) :
    settings.retryPolicy.maxRetries ≤ 30 := by
  -- The number of retries is judged last, when every other rule is kept.
  simp only [violation?, ite_eq_iff, reduceCtorEq, and_false, false_or, and_true] at valid
  obtain ⟨-, -, -, -, -, -, -, -, -, few⟩ := valid
  exact UInt32.le_iff_toNat_le.mp (UInt32.not_lt.mp few)

theorem delay_retryPolicy (settings : Settings) {retry : Nat} (doubles : retry ≤ 30) :
    settings.retryPolicy.delay retry =
      settings.retry.initialBackoff.toNat * 2 ^ retry * 1000 := by
  have initial_eq : settings.retryPolicy.initialBackoff =
      settings.retry.initialBackoff.toNat * 1000 := rfl
  rw [Retry.Policy.delay, initial_eq, Nat.min_eq_left doubles, Nat.mul_right_comm]

theorem delaysFrom_retryPolicy
    {settings : Settings}
    (few : settings.retryPolicy.maxRetries ≤ 30) :
    settings.retryPolicy.delaysFrom 0 settings.retryPolicy.maxRetries =
      settings.retry.initialBackoff.toNat * (2 ^ settings.retryPolicy.maxRetries - 1) * 1000 := by
  have initial_eq : settings.retryPolicy.initialBackoff =
      settings.retry.initialBackoff.toNat * 1000 := rfl
  rw [settings.retryPolicy.delaysFrom_eq_of_le (Nat.le_succ_of_le few), initial_eq,
    Nat.mul_right_comm]

/-- An initial delay of at most `2 ^ 34` seconds is short enough for thirty retries. -/
theorem mul_lt_microsecondsBound
    {initial retries : Nat}
    (few : retries ≤ 30)
    (short : initial ≤ 2 ^ 34 * 1000000) :
    initial * (2 ^ retries - 1) < microsecondsBound := by
  have powers : 2 ^ retries - 1 < 2 ^ 30 :=
    Nat.lt_of_lt_of_le (Nat.sub_lt (Nat.two_pow_pos _) Nat.one_pos)
      (Nat.pow_le_pow_right Nat.two_pos few)
  calc initial * (2 ^ retries - 1) ≤ 2 ^ 34 * 1000000 * (2 ^ retries - 1) :=
        Nat.mul_le_mul_right _ short
    _ < 2 ^ 34 * 1000000 * 2 ^ 30 := Nat.mul_lt_mul_of_pos_left powers (by decide)
    _ = microsecondsBound := by decide

/-- What settings without a violation say about delays.  There are at most thirty
retries, each delay is twice the one before, and their sum is one initial delay short of
the next.  A delay overflows from `2 ^ 64` seconds on, and so does the sum; nothing
overflows if the sum does not.  Since nothing bounds the initial delay, the sum may, but
it does not if the initial delay is at most `2 ^ 34` seconds. -/
theorem neverOverflows_iff
    {settings : Settings}
    (valid : settings.violation? = none) :
    let policy := settings.retryPolicy
    let initial := settings.retry.initialBackoff.toNat
    let total := initial * (2 ^ policy.maxRetries - 1)
    policy.maxRetries ≤ 30 ∧
      (∀ retry < policy.maxRetries,
        policy.backoff retry =
          if initial * 2 ^ retry < microsecondsBound then .ok (initial * 2 ^ retry * 1000)
          else .error .product) ∧
      (total < microsecondsBound → policy.totalBackoff = .ok (total * 1000)) ∧
      (microsecondsBound ≤ total → ∃ overflow, policy.totalBackoff = .error overflow) ∧
      (policy.NeverOverflows ↔ total < microsecondsBound) ∧
      (initial ≤ 2 ^ 34 * 1000000 → policy.NeverOverflows) := by
  intro policy initial total
  have few : policy.maxRetries ≤ 30 := maxRetries_le valid
  have total_eq : policy.delaysFrom 0 policy.maxRetries = total * 1000 :=
    delaysFrom_retryPolicy few
  have never : policy.NeverOverflows ↔ total < microsecondsBound := by
    rw [Retry.Policy.neverOverflows_iff_isDuration, total_eq, Retry.isDuration_mul_thousand]
  refine ⟨few, ?_, ?_, ?_, never, fun short => never.mpr (mul_lt_microsecondsBound few short)⟩
  · intro retry isRetry
    have delay_eq : policy.delay retry = initial * 2 ^ retry * 1000 :=
      delay_retryPolicy settings (Nat.le_trans (Nat.le_of_lt isRetry) few)
    simp only [policy.backoff_eq, delay_eq, Retry.isDuration_mul_thousand]
  · intro fits
    exact Retry.Policy.totalBackoff_eq_ok_iff.mpr
      ⟨total_eq.symm, (Retry.isDuration_mul_thousand total).mpr fits⟩
  · intro tooLong
    cases computed : policy.totalBackoff with
    | error overflow => exact ⟨overflow, rfl⟩
    | ok nanoseconds =>
        obtain ⟨rfl, isDuration⟩ := Retry.Policy.totalBackoff_eq_ok_iff.mp computed
        rw [total_eq, Retry.isDuration_mul_thousand] at isDuration
        exact absurd isDuration (Nat.not_lt.mpr tooLong)

/-- Settings with thirty retries after an initial delay in microseconds. -/
def thirtyRetries (initial : UInt64) : Settings :=
  { standard with retry := ⟨30, initial⟩ }

/-- With an initial delay of `2 ^ 34` seconds, thirty retries do not overflow. -/
theorem neverOverflows_iff_thirtyRetries :
    (thirtyRetries 17179869184000000).violation? = none ∧
      (thirtyRetries 17179869184000000).retryPolicy.NeverOverflows := by
  have valid : (thirtyRetries 17179869184000000).violation? = none := by decide +kernel
  obtain ⟨-, -, -, -, -, short⟩ := neverOverflows_iff valid
  exact ⟨valid, short (by decide +kernel)⟩

/-- Settings without a violation do not keep the delays from overflowing: of thirty
delays the sum may be too long, and the last ones themselves. -/
theorem not_neverOverflows_thirtyRetries :
    ((thirtyRetries 18446744073709551).violation? = none ∧
      (thirtyRetries 18446744073709551).retryPolicy.totalBackoff = .error .sum ∧
      ¬(thirtyRetries 18446744073709551).retryPolicy.NeverOverflows) ∧
    (thirtyRetries 18446744073709551615).violation? = none ∧
      (thirtyRetries 18446744073709551615).retryPolicy.backoff 29 = .error .product := by
  have sum_eq : (thirtyRetries 18446744073709551).retryPolicy.totalBackoff = .error .sum := by
    decide +kernel
  refine ⟨⟨by decide +kernel, sum_eq, ?_⟩, by decide +kernel, by decide +kernel⟩
  intro never
  obtain ⟨total, computed⟩ := never.total
  rw [sum_eq] at computed
  cases computed

end Settings
end EventRelay
