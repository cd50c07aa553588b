import EventRelay.Metrics.Latency
import Mathlib.Algebra.Group.Action.Defs
import Mathlib.Algebra.Order.BigOperators.Group.List
import Mathlib.Algebra.Order.Ring.Nat
import Mathlib.Data.List.DropRight

/-!
# What a window tells of latencies

However many samples are recorded, a window holds the latest ones, in order.  Each
percentile is one of them.  Samples are added up in a word of 64 bits: the average is
their mean, rounded down, just when the sum fits in such a word, and otherwise there is
none.
-/

namespace EventRelay
namespace Word

/-! ## Sums of words -/

/-- Words are added up just if their whole sum is a word: no sum on the way is greater. -/
theorem foldlM_add (words : List UInt64) (start : UInt64) :
    words.foldlM add start = ofSum (start.toNat + (words.map UInt64.toNat).sum) := by
  induction words generalizing start with
  | nil => exact (ofSum_toNat start).symm
  | cons word rest inductionHypothesis =>
      rw [List.foldlM_cons, List.map_cons, List.sum_cons, ← Nat.add_assoc]
      by_cases fits : start.toNat + word.toNat < UInt64.size
      · have added : add start word = .ok (.ofNat (start.toNat + word.toNat)) := if_pos fits
        rw [added]
        refine (inductionHypothesis _).trans ?_
        rw [UInt64.toNat_ofNat_of_lt' fits]
      · have overflows : add start word = .error .sum := if_neg fits
        rw [overflows, ofSum, if_neg (by omega)]
        rfl

theorem sum_eq_ofSum (words : List UInt64) :
    sum words = ofSum (words.map UInt64.toNat).sum := by
  rw [sum, foldlM_add, UInt64.toNat_zero, Nat.zero_add]

end Word

namespace LatencyWindow

/-! ## The samples that are held -/

/-- Record samples one after the other. -/
def recordAll (window : LatencyWindow) (samples : List UInt64) : LatencyWindow :=
  samples.foldl record window

theorem recordAll_concat (window : LatencyWindow) (front : List UInt64) (sample : UInt64) :
    window.recordAll (front ++ [sample]) = (window.recordAll front).record sample :=
  List.foldl_concat record window sample front

@[simp]
theorem maxSamples_recordAll (window : LatencyWindow) (samples : List UInt64) :
    (window.recordAll samples).maxSamples = window.maxSamples := by
  induction samples using List.reverseRecOn with
  | nil => rfl
  | append_singleton front sample inductionHypothesis =>
      rw [recordAll_concat, record, inductionHypothesis]

/-- A window that is not empty holds the latest samples. -/
theorem samples_recordAll
    {maxSamples : Nat}
    (keeps : 0 < maxSamples)
    (samples : List UInt64) :
    ((initial maxSamples).recordAll samples).samples = samples.rtake maxSamples := by
  obtain ⟨others, rfl⟩ := Nat.exists_eq_add_of_lt keeps
  rw [Nat.zero_add]
  induction samples using List.reverseRecOn with
  | nil => simp [recordAll, initial]
  | append_singleton front sample inductionHypothesis =>
      -- The latest sample takes one place; what stays are the others.
      have kept : (if others + 1 ≤ (front.rtake (others + 1)).length
          then (front.rtake (others + 1)).drop 1 else front.rtake (others + 1)) =
            front.rtake others := by
        simp only [List.rtake, List.length_drop, List.drop_drop]
        split
        · congr 1
          omega
        · congr 1
          omega
      rw [recordAll_concat, List.rtake_concat_succ, record, inductionHypothesis,
        maxSamples_recordAll]
      exact congrArg (· ++ [sample]) kept

theorem length_rtake (samples : List UInt64) (count : Nat) :
    (samples.rtake count).length = min samples.length count := by
  rw [List.rtake, List.length_drop]
  omega

/-! ## Percentiles -/

theorem place_le (percent last : Nat) : place percent last ≤ last :=
  Nat.min_le_right _ _

/-- A percentile is one of the samples, and there is one if there are samples. -/
theorem percentile_eq_none_iff {window : LatencyWindow} {percent : Nat} :
    window.percentile percent = none ↔ window.samples = [] := by
  have place_le := place_le percent (window.samples.length - 1)
  rw [percentile, List.getElem?_eq_none_iff, List.length_mergeSort, ← List.length_eq_zero_iff]
  omega

theorem mem_samples_of_percentile
    {window : LatencyWindow}
    {percent : Nat}
    {sample : UInt64}
    (told : window.percentile percent = some sample) :
    sample ∈ window.samples :=
  (List.mergeSort_perm window.samples _).mem_iff.mp (List.mem_of_getElem? told)

/-! ## Averages -/

/-- The sum of the samples, however large. -/
def sum (window : LatencyWindow) : Nat :=
  (window.samples.map UInt64.toNat).sum

theorem sum_of_samples_eq_nil {window : LatencyWindow} (empty : window.samples = []) :
    window.sum = 0 := by
  rw [sum, empty, List.map_nil, List.sum_nil]

/-- The mean of the samples, rounded down. -/
def mean (window : LatencyWindow) : Nat :=
  window.sum / window.count

/-- The mean is a word if the sum is one. -/
theorem toNat_ofNat_mean {window : LatencyWindow} (fits : window.sum < UInt64.size) :
    (UInt64.ofNat window.mean).toNat = window.mean :=
  UInt64.toNat_ofNat_of_lt' (Nat.lt_of_le_of_lt (Nat.div_le_self _ _) fits)

/-- The total is the sum, if that is a word. -/
theorem total_eq_ofSum (window : LatencyWindow) : window.total = Word.ofSum window.sum :=
  Word.sum_eq_ofSum window.samples

/-- The average is the mean, if the sum is a word. -/
theorem average_eq
    {window : LatencyWindow}
    (few : window.count < UInt64.size) :
    window.average =
      if window.samples = [] then .ok none
      else if window.sum < UInt64.size then .ok (some (.ofNat window.mean))
      else .error .sum := by
  simp only [average, List.isEmpty_iff]
  split
  · rfl
  rw [total_eq_ofSum, Word.ofSum]
  split
  · rename_i fits
    have quotient : UInt64.ofNat window.sum / UInt64.ofNat window.samples.length =
        UInt64.ofNat window.mean := by
      rw [mean, UInt64.ofNat_div fits few, count]
    exact congrArg (fun average => Except.ok (some average)) quotient
  · rfl

/-- The mean lies between bounds of the samples. -/
theorem mean_between
    {window : LatencyWindow}
    (notEmpty : window.samples ≠ [])
    {low high : Nat}
    (bounds : ∀ sample ∈ window.samples, low ≤ sample.toNat ∧ sample.toNat ≤ high) :
    low ≤ window.mean ∧ window.mean ≤ high := by
  have count_pos : 0 < window.count := List.length_pos_iff.mpr notEmpty
  have length_eq : (window.samples.map UInt64.toNat).length = window.count := List.length_map _
  have above : (window.samples.map UInt64.toNat).length • low ≤ window.sum :=
    List.card_nsmul_le_sum _ _ (List.forall_mem_map.mpr fun sample held => (bounds sample held).1)
  have below : window.sum ≤ (window.samples.map UInt64.toNat).length • high :=
    List.sum_le_card_nsmul _ _ (List.forall_mem_map.mpr fun sample held => (bounds sample held).2)
  rw [length_eq, smul_eq_mul] at above below
  exact ⟨(Nat.le_div_iff_mul_le count_pos).mpr (Nat.mul_comm low _ ▸ above),
    Nat.div_le_of_le_mul below⟩

theorem average_eq_none_iff
    {window : LatencyWindow}
    (few : window.count < UInt64.size) :
    window.average = .ok none ↔ window.samples = [] := by
  rw [average_eq few]
  split
  · rename_i empty
    exact iff_of_true rfl empty
  · rename_i notEmpty
    refine iff_of_false ?_ notEmpty
    split <;> simp

theorem average_eq_some_iff
    {window : LatencyWindow}
    (few : window.count < UInt64.size)
    {average : UInt64} :
    window.average = .ok (some average) ↔
      window.samples ≠ [] ∧ window.sum < UInt64.size ∧ average.toNat = window.mean := by
  rw [average_eq few]
  split
  · rename_i empty
    simp [empty]
  rename_i notEmpty
  split
  · rename_i fits
    rw [Except.ok.injEq, Option.some_inj, ← UInt64.toNat_inj, toNat_ofNat_mean fits]
    constructor
    · exact fun same => ⟨notEmpty, fits, same.symm⟩
    · exact fun exact => exact.2.2.symm
  · rename_i large
    simp [large]

/-- There is no average just if the sum is not a word. -/
theorem average_eq_error_iff
    {window : LatencyWindow}
    (few : window.count < UInt64.size) :
    window.average = .error .sum ↔ UInt64.size ≤ window.sum := by
  rw [average_eq few, ← Nat.not_lt]
  split
  · rename_i empty
    rw [sum_of_samples_eq_nil empty]
    simp
  · split
    · rename_i fits
      simp [fits]
    · rename_i large
      simp [large]

/-- There is an average as soon as there are samples, and it is their mean, rounded down. -/
def AveragesExactly (window : LatencyWindow) : Prop :=
  window.samples ≠ [] →
    ∃ average, window.average = .ok (some average) ∧ average.toNat = window.mean

/-- The average is exact just when the sum fits in a word. -/
theorem averagesExactly_iff
    {window : LatencyWindow}
    (few : window.count < UInt64.size) :
    window.AveragesExactly ↔ window.sum < UInt64.size := by
  constructor
  · intro averages
    by_cases empty : window.samples = []
    · rw [sum_of_samples_eq_nil empty]
      decide
    · obtain ⟨average, told, _⟩ := averages empty
      exact ((average_eq_some_iff few).mp told).2.1
  · intro fits notEmpty
    have exact_mean := toNat_ofNat_mean fits
    exact ⟨_, (average_eq_some_iff few).mpr ⟨notEmpty, fits, exact_mean⟩, exact_mean⟩

/-! ## All of a window -/

/-- What a window tells of the samples that were recorded in it. -/
structure Tells (window : LatencyWindow) (recorded : List UInt64) : Prop where
  samples_eq : window.samples = recorded.rtake window.maxSamples
  count_eq : window.count = min recorded.length window.maxSamples
  percentile_eq_none_iff : ∀ percent, window.percentile percent = none ↔ recorded = []
  mem_samples : ∀ percent sample,
    window.percentile percent = some sample → sample ∈ window.samples
  average_eq_none_iff : window.average = .ok none ↔ recorded = []
  average_eq_some_iff : ∀ average, window.average = .ok (some average) ↔
    recorded ≠ [] ∧ window.sum < UInt64.size ∧ average.toNat = window.mean
  average_eq_error_iff : window.average = .error .sum ↔ UInt64.size ≤ window.sum
  averagesExactly_iff : window.AveragesExactly ↔ window.sum < UInt64.size
  between : ∀ average, window.average = .ok (some average) →
    ∀ low high, (∀ sample ∈ window.samples, low ≤ sample ∧ sample ≤ high) →
      low ≤ average ∧ average ≤ high

/-- Whatever is recorded, a window holds the latest samples and tells percentiles among
them, as soon as there are samples.  The average is the mean, rounded down, and so between
all bounds of the samples, just when their sum is a word; otherwise the sum overflows
and there is no average. -/
theorem tells_recordAll
    {maxSamples : Nat}
    (keeps : 0 < maxSamples)
    (few : maxSamples < UInt64.size)
    (recorded : List UInt64) :
    ((initial maxSamples).recordAll recorded).Tells recorded := by
  have maxSamples_eq : ((initial maxSamples).recordAll recorded).maxSamples = maxSamples :=
    maxSamples_recordAll _ _
  have samples_eq := samples_recordAll keeps recorded
  generalize (initial maxSamples).recordAll recorded = window at *
  subst maxSamples_eq
  have count_eq : window.count = min recorded.length window.maxSamples := by
    rw [count, samples_eq, length_rtake]
  have fewHeld : window.count < UInt64.size :=
    Nat.lt_of_le_of_lt (count_eq ▸ Nat.min_le_right _ _) few
  have isEmpty_iff : window.samples = [] ↔ recorded = [] := by
    rw [← List.length_eq_zero_iff, ← List.length_eq_zero_iff, ← count, count_eq]
    omega
  have some_iff (average : UInt64) : window.average = .ok (some average) ↔
      window.samples ≠ [] ∧ window.sum < UInt64.size ∧ average.toNat = window.mean :=
    average_eq_some_iff fewHeld
  refine ⟨samples_eq, count_eq, fun _ => percentile_eq_none_iff.trans isEmpty_iff,
    fun _ _ => mem_samples_of_percentile, (average_eq_none_iff fewHeld).trans isEmpty_iff,
    fun average => (some_iff average).trans (and_congr_left' (not_congr isEmpty_iff)),
    average_eq_error_iff fewHeld, averagesExactly_iff fewHeld, ?_⟩
  intro average told low high bounds
  obtain ⟨notEmpty, _, average_eq⟩ := (some_iff average).mp told
  have between := mean_between notEmpty bounds
  rw [← average_eq] at between
  exact between

/-- Of four samples, a window of three holds the latest and averages them. -/
theorem tells_recordAll_three :
    ((initial 3).recordAll [10, 20, 30, 40]).samples = [20, 30, 40] ∧
      ((initial 3).recordAll [10, 20, 30, 40]).average = .ok (some 30) ∧
      ((initial 3).recordAll [10, 20, 30, 40]).Tells [10, 20, 30, 40] :=
  ⟨rfl, by decide, tells_recordAll (by decide) (by decide) _⟩

/-- Two samples of `2 ^ 63` have a mean, but there is no average of them. -/
theorem not_averagesExactly_halves :
    ((initial 2).recordAll [0x8000000000000000, 0x8000000000000000]).average = .error .sum ∧
      ((initial 2).recordAll [0x8000000000000000, 0x8000000000000000]).mean = 2 ^ 63 ∧
      ¬((initial 2).recordAll [0x8000000000000000, 0x8000000000000000]).AveragesExactly := by
  have overflows : ((initial 2).recordAll
      [0x8000000000000000, 0x8000000000000000]).average = .error .sum := by
    decide
  refine ⟨overflows, by decide, fun averages => ?_⟩
  obtain ⟨average, told, _⟩ := averages (by decide)
  rw [overflows] at told
  cases told

end LatencyWindow
end EventRelay
