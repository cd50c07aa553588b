import EventRelay.Proofs.Channel.Sessions

/-!
# The sizes of messages that are put together

An assembler measures a message when it goes on, not when it begins.  A message of
more than one fragment is therefore never given out above the greatest size, while
a message of one fragment may be, and so may the first fragment of a message that
has begun.  All sizes are kept exactly when every first fragment keeps to them.
-/

namespace EventRelay
namespace Assembler

/-! ## One fragment -/

section Effects

variable {maxSize : Nat} {held : Option Bytes} {fragment : Fragment} {message : Bytes}

theorem effect_of_isBegin (isBegin : fragment.isBegin = true) :
    (effect maxSize held fragment).message =
        (if fragment.isEnd then some fragment.payload else none) ∧
      (effect maxSize held fragment).held =
        (if fragment.isEnd then none else some fragment.payload) := by
  unfold effect
  rw [if_pos isBegin]
  cases fragment.isEnd <;> exact ⟨rfl, rfl⟩

/-- What comes of a message that goes on keeps to the greatest size. -/
theorem length_le_of_effect
    (isBegin : fragment.isBegin = false)
    (result : (effect maxSize held fragment).message = some message ∨
      (effect maxSize held fragment).held = some message) :
    message.length ≤ maxSize := by
  unfold effect at result
  rw [if_neg (by simp [isBegin])] at result
  cases held with
  | none => rcases result with impossible | impossible <;> cases impossible
  | some begun =>
      dsimp only at result
      by_cases large : maxSize < begun.length + fragment.payload.length
      · rw [if_pos large] at result
        rcases result with impossible | impossible <;> cases impossible
      · rw [if_neg large] at result
        have grown : message = begun ++ fragment.payload := by
          cases isEnd : fragment.isEnd <;> simpa [isEnd, eq_comm] using result
        rw [grown, List.length_append]
        exact Nat.not_lt.mp large

/-- A message that is completed above the greatest size is one fragment. -/
theorem isWhole_of_effect
    (completed : (effect maxSize held fragment).message = some message)
    (large : maxSize < message.length) :
    fragment.isBegin = true ∧ fragment.isEnd = true ∧ message = fragment.payload := by
  cases isBegin : fragment.isBegin with
  | false => exact absurd (length_le_of_effect isBegin (Or.inl completed)) (Nat.not_le.mpr large)
  | true =>
      rw [(effect_of_isBegin isBegin).1] at completed
      cases isEnd : fragment.isEnd with
      | false => simp [isEnd] at completed
      | true => simpa [isEnd, eq_comm] using completed

/-- A message that has begun above the greatest size is its first fragment. -/
theorem isFirst_of_effect
    (begun : (effect maxSize held fragment).held = some message)
    (large : maxSize < message.length) :
    fragment.isBegin = true ∧ fragment.isEnd = false ∧ message = fragment.payload := by
  cases isBegin : fragment.isBegin with
  | false => exact absurd (length_le_of_effect isBegin (Or.inr begun)) (Nat.not_le.mpr large)
  | true =>
      rw [(effect_of_isBegin isBegin).2] at begun
      cases isEnd : fragment.isEnd with
      | false => simpa [isEnd, eq_comm] using begun
      | true => simp [isEnd] at begun

end Effects

/-! ## Many fragments -/

@[simp] theorem maxSize_feedAll (assembler : Assembler) (fragments : List Fragment) :
    (assembler.feedAll fragments).2.maxSize = assembler.maxSize := by
  induction fragments generalizing assembler with
  | nil => rfl
  | cons fragment rest inductionHypothesis =>
      rw [feedAll_cons, inductionHypothesis, (feeds_feed assembler fragment).maxSize_eq]

theorem feedAll_concat_snd (assembler : Assembler) (front : List Fragment) (fragment : Fragment) :
    (assembler.feedAll (front ++ [fragment])).2 =
      ((assembler.feedAll front).2.feed fragment).2 := by
  rw [feedAll_append]
  rfl

/-- What a fragment completes depends on the fragments before it. -/
theorem mem_replies_iff
    (assembler : Assembler)
    (fragments : List Fragment)
    (reply : Fragment × Option Bytes) :
    reply ∈ assembler.replies fragments ↔
      ∃ front, front ++ [reply.1] <+: fragments ∧
        reply.2 = ((assembler.feedAll front).2.feed reply.1).1 := by
  induction fragments generalizing assembler with
  | nil => simp [replies]
  | cons fragment rest inductionHypothesis =>
      rw [replies, List.mem_cons, inductionHypothesis]
      constructor
      · rintro (rfl | ⟨front, isFront, same⟩)
        · exact ⟨[], by simp, rfl⟩
        · refine ⟨fragment :: front, ?_, same⟩
          rw [List.cons_append, List.cons_prefix_cons]
          exact ⟨rfl, isFront⟩
      · rintro ⟨front, isFront, same⟩
        cases front with
        | nil =>
            rw [List.nil_append, List.cons_prefix_cons] at isFront
            obtain ⟨rfl, _⟩ := isFront
            exact Or.inl (Prod.ext rfl same)
        | cons first front =>
            rw [List.cons_append, List.cons_prefix_cons] at isFront
            obtain ⟨rfl, isFront⟩ := isFront
            exact Or.inr ⟨front, isFront, same⟩

theorem mem_partials_of_partial?_eq_some
    {assembler : Assembler}
    {session : UInt32}
    {message : Bytes}
    (begun : assembler.partial? session = some message) :
    (session, message) ∈ assembler.partials := by
  obtain ⟨entry, found, rfl⟩ := Option.map_eq_some_iff.mp begun
  obtain rfl : entry.1 = session := by simpa using List.find?_some found
  exact List.mem_of_find?_eq_some found

theorem Distinct.partial?_eq_some
    {assembler : Assembler}
    (distinct : assembler.Distinct)
    {entry : UInt32 × Bytes}
    (present : entry ∈ assembler.partials) :
    assembler.partial? entry.1 = some entry.2 := by
  obtain ⟨message, begun⟩ := Option.isSome_iff_exists.mp
    ((isSome_partial?_iff assembler entry.1).mpr (List.mem_map_of_mem present))
  have other := mem_partials_of_partial?_eq_some begun
  have same : (entry.1, message) = entry := List.inj_on_of_nodup_map distinct other present rfl
  rw [begun, ← same]

/-! ## All sizes -/

/-- Neither a message that is given out nor one that has begun at any time is
larger than the assembler allows. -/
structure KeepsSizes (maxSize : Nat) (fragments : List Fragment) : Prop where
  given : ∀ message ∈ ((initial maxSize).feedAll fragments).1, message.length ≤ maxSize
  begun : ∀ front, front <+: fragments →
    ∀ entry ∈ ((initial maxSize).feedAll front).2.partials, entry.2.length ≤ maxSize

variable {maxSize : Nat} {fragments : List Fragment}

theorem isWhole_of_mem_replies
    {reply : Fragment × Option Bytes}
    (present : reply ∈ (initial maxSize).replies fragments)
    {message : Bytes}
    (completed : reply.2 = some message)
    (large : maxSize < message.length) :
    reply.1.isBegin = true ∧ reply.1.isEnd = true ∧ message = reply.1.payload := by
  obtain ⟨front, _, same⟩ := (mem_replies_iff _ _ _).mp present
  have feeds := feeds_feed ((initial maxSize).feedAll front).2 reply.1
  rw [maxSize_feedAll] at feeds
  exact isWhole_of_effect (feeds.message_eq.symm.trans (same.symm.trans completed)) large

theorem exists_first_of_mem_partials
    {entry : UInt32 × Bytes}
    (present : entry ∈ ((initial maxSize).feedAll fragments).2.partials)
    (large : maxSize < entry.2.length) :
    ∃ fragment ∈ fragments, fragment.session = entry.1 ∧ fragment.isBegin = true ∧
      fragment.isEnd = false ∧ entry.2 = fragment.payload := by
  have begun := ((distinct_initial maxSize).feedAll fragments).partial?_eq_some present
  clear present
  induction fragments using List.reverseRecOn with
  | nil => cases begun
  | append_singleton front fragment inductionHypothesis =>
      have feeds := feeds_feed ((initial maxSize).feedAll front).2 fragment
      rw [maxSize_feedAll] at feeds
      rw [feedAll_concat_snd, feeds.partial?_eq] at begun
      by_cases own : entry.1 = fragment.session
      · rw [if_pos own] at begun
        exact ⟨fragment, by simp, own.symm, isFirst_of_effect begun large⟩
      · rw [if_neg own] at begun
        obtain ⟨other, isEarlier, isFirst⟩ := inductionHypothesis begun
        exact ⟨other, List.mem_append_left _ isEarlier, isFirst⟩

/-- A first fragment is given out or held as it is. -/
theorem KeepsSizes.length_payload_le
    (keeps : KeepsSizes maxSize fragments)
    {fragment : Fragment}
    (present : fragment ∈ fragments)
    (isBegin : fragment.isBegin = true) :
    fragment.payload.length ≤ maxSize := by
  obtain ⟨front, back, rfl⟩ := List.append_of_mem present
  have isFront : front ++ [fragment] <+: front ++ fragment :: back := ⟨back, by simp⟩
  have feeds := feeds_feed ((initial maxSize).feedAll front).2 fragment
  cases isEnd : fragment.isEnd with
  | true =>
      apply keeps.given
      rw [feedAll_fst, List.mem_filterMap]
      refine ⟨_, (mem_replies_iff _ _ (fragment, some fragment.payload)).mpr
        ⟨front, isFront, ?_⟩, rfl⟩
      rw [feeds.message_eq, (effect_of_isBegin isBegin).1, if_pos isEnd]
  | false =>
      refine keeps.begun _ isFront (fragment.session, fragment.payload)
        (mem_partials_of_partial?_eq_some ?_)
      rw [feedAll_concat_snd, feeds.partial?_eq, if_pos rfl, (effect_of_isBegin isBegin).2,
        if_neg (by simp [isEnd])]

/-- A message is given out above the greatest size only if it is one fragment, and
has begun above it only with its first fragment; so all sizes are kept exactly when
the fragments that begin messages keep to them. -/
theorem keepsSizes_iff (maxSize : Nat) (fragments : List Fragment) :
    (∀ reply ∈ (initial maxSize).replies fragments, ∀ message ∈ reply.2,
        maxSize < message.length →
          reply.1.isBegin = true ∧ reply.1.isEnd = true ∧ message = reply.1.payload) ∧
      (∀ front, front <+: fragments →
        ∀ entry ∈ ((initial maxSize).feedAll front).2.partials, maxSize < entry.2.length →
          ∃ fragment ∈ front, fragment.session = entry.1 ∧ fragment.isBegin = true ∧
            fragment.isEnd = false ∧ entry.2 = fragment.payload) ∧
      (KeepsSizes maxSize fragments ↔
        ∀ fragment ∈ fragments, fragment.isBegin = true → fragment.payload.length ≤ maxSize) := by
  refine ⟨fun reply present message => isWhole_of_mem_replies present,
    fun front _ entry => exists_first_of_mem_partials,
    fun keeps fragment present => keeps.length_payload_le present, fun small => ⟨?_, ?_⟩⟩
  · intro message given
    rw [feedAll_fst, List.mem_filterMap] at given
    obtain ⟨reply, present, completed⟩ := given
    by_contra large
    obtain ⟨isBegin, _, rfl⟩ := isWhole_of_mem_replies present completed (Nat.not_le.mp large)
    have fed : reply.1 ∈ fragments := by
      rw [← map_fst_replies (initial maxSize) fragments]
      exact List.mem_map_of_mem present
    exact large (small reply.1 fed isBegin)
  · intro front isFront entry present
    by_contra large
    obtain ⟨fragment, isEarlier, _, isBegin, _, same⟩ :=
      exists_first_of_mem_partials present (Nat.not_le.mp large)
    rw [same] at large
    exact large (small fragment (isFront.subset isEarlier) isBegin)

/-- A message of one fragment is given out above the greatest size. -/
theorem not_keepsSizes_of_whole :
    ((initial 1).feedAll [⟨1, 0xC0, [1, 2]⟩]).1 = [[1, 2]] ∧
      ¬KeepsSizes 1 [⟨1, 0xC0, [1, 2]⟩] := by
  refine ⟨by decide, fun keeps => ?_⟩
  have bound := keeps.given [1, 2] (by decide)
  exact absurd bound (by decide)

end Assembler
end EventRelay
