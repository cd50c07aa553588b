import EventRelay.Metrics.Basic

/-!
# Counters

A counter is a 64-bit word to which counts are added.  It has grown by a number of
counts if it is what the word was before with this number added, and tells their
number as long as that is below `2 ^ 64`.
-/

namespace EventRelay

/-- A counter has grown by a number of counts. -/
def Grows (before after : UInt64) (count : Nat) : Prop :=
  after = before + UInt64.ofNat count

namespace Grows

variable {before after : UInt64} {count : Nat}

theorem refl (counter : UInt64) : Grows counter counter 0 :=
  (UInt64.add_zero counter).symm

theorem trans
    {between : UInt64}
    {more : Nat}
    (lower : Grows before between count)
    (upper : Grows between after more) :
    Grows before after (count + more) := by
  unfold Grows at lower upper ⊢
  rw [upper, lower, UInt64.ofNat_add, UInt64.add_assoc]

/-- Several counts at once. -/
theorem add (grows : Grows before after count) (more : Nat) :
    Grows before (after + UInt64.ofNat more) (count + more) :=
  grows.trans rfl

/-- One count more. -/
theorem succ (grows : Grows before after count) :
    Grows before (after + 1) (count + 1) :=
  grows.add 1

/-- One count for another element of a list. -/
theorem concat
    {α : Type}
    {elements : List α}
    (grows : Grows before after elements.length)
    (element : α) :
    Grows before (after + 1) (elements ++ [element]).length := by
  rw [List.length_append, List.length_singleton]
  exact grows.succ

/-- One count for each element of further ones. -/
theorem append
    {α : Type}
    {between : UInt64}
    {front back : List α}
    (lower : Grows before between front.length)
    (upper : Grows between after back.length) :
    Grows before after (front ++ back).length := by
  rw [List.length_append]
  exact lower.trans upper

/-- One count for another element of a list that is counted. -/
theorem countP_concat
    {α : Type}
    {isCounted : α → Bool}
    {elements : List α}
    (grows : Grows before after (elements.countP isCounted))
    (element : α) :
    Grows before (if isCounted element then after + 1 else after)
      ((elements ++ [element]).countP isCounted) := by
  rw [List.countP_append, List.countP_singleton]
  split
  · exact grows.succ
  · exact grows

/-- A counter that started from zero tells the number of counts. -/
theorem toNat_eq
    (grows : Grows 0 after count)
    (word : count < UInt64.size) :
    after.toNat = count := by
  rw [grows, UInt64.zero_add]
  exact UInt64.toNat_ofNat_of_lt' word

end Grows
end EventRelay
