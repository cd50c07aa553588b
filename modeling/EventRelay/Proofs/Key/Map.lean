import EventRelay.Frame.Basic
import EventRelay.Key.Map
import EventRelay.Proofs.Key.Order
import Mathlib.Data.List.Forall2
import Mathlib.Data.List.Induction

/-!
# Maps ordered by key

Insertion keeps the keys of a map strictly ascending and changes the value of
one key only.  The map of entries, inserted in order, therefore holds for every
key the value of its last entry.  Insertions under the same keys keep two maps
of different values related pair by pair.
-/

namespace EventRelay
namespace KeyMap

variable {α β : Type}

/-! ## Ascending maps -/

/-- The keys are strictly ascending. -/
def Ascending (map : KeyMap α) : Prop :=
  map.Pairwise fun lower upper => lower.1 < upper.1

@[simp] theorem ascending_nil : Ascending ([] : KeyMap α) :=
  List.Pairwise.nil

theorem ascending_cons_iff
    {pair : Key × α}
    {map : KeyMap α} :
    Ascending (pair :: map) ↔ (∀ other ∈ map, pair.1 < other.1) ∧ Ascending map :=
  List.pairwise_cons

theorem Ascending.nodup
    {map : KeyMap α}
    (ascending : Ascending map) :
    map.Nodup := by
  apply ascending.imp
  rintro lower upper less rfl
  exact Key.lt_irrefl _ less

/-- Maps with the same pairs are the same. -/
theorem Ascending.ext
    {left right : KeyMap α}
    (leftAscending : Ascending left)
    (rightAscending : Ascending right)
    (same : ∀ pair, pair ∈ left ↔ pair ∈ right) :
    left = right := by
  have permuted : left.Perm right :=
    (List.perm_ext_iff_of_nodup leftAscending.nodup rightAscending.nodup).mpr same
  apply permuted.eq_of_pairwise _ leftAscending rightAscending
  intro lower upper _ _ less greater
  exact absurd greater (Key.lt_asymm less)

/-- Inserting adds one pair and takes away the pairs of its key. -/
theorem mem_insert_iff
    {map : KeyMap α}
    (ascending : Ascending map)
    (key : Key)
    (value : α)
    (pair : Key × α) :
    pair ∈ insert key value map ↔ pair = (key, value) ∨ pair ∈ map ∧ pair.1 ≠ key := by
  induction map with
  | nil => simp [insert]
  | cons first rest inductionHypothesis =>
      obtain ⟨firstKey, stored⟩ := first
      obtain ⟨below, restAscending⟩ := ascending_cons_iff.mp ascending
      rw [insert]
      split
      · rename_i compared
        have less : key < firstKey := Key.compare_eq_lt_iff.mp compared
        rw [List.mem_cons]
        refine or_congr_right (iff_self_and.mpr fun present => ?_)
        rcases List.mem_cons.mp present with rfl | inRest
        · exact (Key.ne_of_lt less).symm
        · exact (Key.ne_of_lt (Key.lt_trans less (below pair inRest))).symm
      · rename_i compared
        obtain rfl := Key.compare_eq_eq_iff.mp compared
        rw [List.mem_cons, List.mem_cons]
        refine or_congr_right ⟨fun present => ?_, fun present => ?_⟩
        · exact ⟨Or.inr present, (Key.ne_of_lt (below pair present)).symm⟩
        · rcases present with ⟨rfl | inRest, different⟩
          · exact absurd rfl different
          · exact inRest
      · rename_i compared
        have greater : firstKey < key := Key.compare_eq_gt_iff.mp compared
        rw [List.mem_cons, List.mem_cons, inductionHypothesis restAscending]
        constructor
        · rintro (rfl | rfl | ⟨inRest, different⟩)
          · exact Or.inr ⟨Or.inl rfl, Key.ne_of_lt greater⟩
          · exact Or.inl rfl
          · exact Or.inr ⟨Or.inr inRest, different⟩
        · rintro (rfl | ⟨rfl | inRest, different⟩)
          · exact Or.inr (Or.inl rfl)
          · exact Or.inl rfl
          · exact Or.inr (Or.inr ⟨inRest, different⟩)

theorem ascending_insert
    {map : KeyMap α}
    (ascending : Ascending map)
    (key : Key)
    (value : α) :
    Ascending (insert key value map) := by
  induction map with
  | nil => simp [insert, Ascending]
  | cons first rest inductionHypothesis =>
      obtain ⟨firstKey, stored⟩ := first
      obtain ⟨below, restAscending⟩ := ascending_cons_iff.mp ascending
      rw [insert]
      split
      · rename_i compared
        have less : key < firstKey := Key.compare_eq_lt_iff.mp compared
        refine ascending_cons_iff.mpr ⟨fun other present => ?_, ascending⟩
        rcases List.mem_cons.mp present with rfl | inRest
        · exact less
        · exact Key.lt_trans less (below other inRest)
      · rename_i compared
        obtain rfl := Key.compare_eq_eq_iff.mp compared
        exact ascending_cons_iff.mpr ⟨below, restAscending⟩
      · rename_i compared
        have greater : firstKey < key := Key.compare_eq_gt_iff.mp compared
        refine ascending_cons_iff.mpr
          ⟨fun other present => ?_, inductionHypothesis restAscending⟩
        rcases (mem_insert_iff restAscending key value other).mp present with rfl | ⟨inRest, _⟩
        · exact greater
        · exact below other inRest

/-! ## Related maps -/

/-- Two maps have the same keys, and related values under each. -/
def Matches (related : Key → α → β → Prop) : KeyMap α → KeyMap β → Prop :=
  List.Forall₂ fun left right => left.1 = right.1 ∧ related left.1 left.2 right.2

/-- Inserting related values under a key keeps maps related. -/
theorem Matches.insert
    {related : Key → α → β → Prop}
    {left : KeyMap α}
    {right : KeyMap β}
    (agree : Matches related left right)
    {key : Key}
    {leftValue : α}
    {rightValue : β}
    (values : related key leftValue rightValue) :
    Matches related (insert key leftValue left) (insert key rightValue right) := by
  induction agree with
  | nil => exact .cons ⟨rfl, values⟩ .nil
  | @cons leftPair rightPair left right head tail inductionHypothesis =>
      obtain ⟨leftKey, leftStored⟩ := leftPair
      obtain ⟨rightKey, rightStored⟩ := rightPair
      obtain ⟨rfl, stored⟩ := head
      dsimp only at stored
      rw [KeyMap.insert, KeyMap.insert]
      cases key.compare leftKey with
      | lt => exact .cons ⟨rfl, values⟩ (.cons ⟨rfl, stored⟩ tail)
      | eq => exact .cons ⟨rfl, values⟩ tail
      | gt => exact .cons ⟨rfl, stored⟩ inductionHypothesis

theorem Matches.imp
    {weaker stronger : Key → α → β → Prop}
    {left : KeyMap α}
    {right : KeyMap β}
    (agree : Matches stronger left right)
    (weaken : ∀ key leftValue rightValue,
      stronger key leftValue rightValue → weaker key leftValue rightValue) :
    Matches weaker left right :=
  List.Forall₂.imp (fun _ _ both => ⟨both.1, weaken _ _ _ both.2⟩) agree

theorem Matches.keys_eq
    {related : Key → α → β → Prop}
    {left : KeyMap α}
    {right : KeyMap β}
    (agree : Matches related left right) :
    left.map Prod.fst = right.map Prod.fst := by
  induction agree with
  | nil => rfl
  | cons head tail inductionHypothesis => simp [head.1, inductionHypothesis]

theorem Matches.lastKey?_eq
    {related : Key → α → β → Prop}
    {left : KeyMap α}
    {right : KeyMap β}
    (agree : Matches related left right) :
    left.lastKey? = right.lastKey? := by
  rw [lastKey?, lastKey?, ← List.getLast?_map, ← List.getLast?_map, agree.keys_eq]

/-- The first pairs from a key on are related. -/
theorem Matches.firstFrom?
    {related : Key → α → β → Prop}
    {left : KeyMap α}
    {right : KeyMap β}
    (agree : Matches related left right)
    (least : Key) :
    (left.firstFrom? least = none ∧ right.firstFrom? least = none) ∨
      ∃ key leftValue rightValue,
        left.firstFrom? least = some (key, leftValue) ∧
          right.firstFrom? least = some (key, rightValue) ∧
          related key leftValue rightValue := by
  induction agree with
  | nil => exact Or.inl ⟨rfl, rfl⟩
  | @cons leftPair rightPair left right head tail inductionHypothesis =>
      obtain ⟨leftKey, leftStored⟩ := leftPair
      obtain ⟨rightKey, rightStored⟩ := rightPair
      obtain ⟨rfl, stored⟩ := head
      by_cases reached : (leftKey.compare least).isGE = true
      · refine Or.inr ⟨leftKey, leftStored, rightStored, ?_, ?_, stored⟩
        · simp [KeyMap.firstFrom?, reached]
        · simp [KeyMap.firstFrom?, reached]
      · simp only [KeyMap.firstFrom?, List.find?_cons, reached]
        exact inductionHypothesis

/-! ## Reading a map in order -/

/-- The pairs from a key on whose times are not past a given one. -/
def between (map : KeyMap α) (least : Key) (endTime : UInt64) : KeyMap α :=
  map.filter fun pair => decide (least ≤ pair.1 ∧ pair.1.timestamp ≤ endTime)

theorem mem_between_iff
    {map : KeyMap α}
    {least : Key}
    {endTime : UInt64}
    {pair : Key × α} :
    pair ∈ map.between least endTime ↔
      pair ∈ map ∧ least ≤ pair.1 ∧ pair.1.timestamp ≤ endTime := by
  simp [between]

theorem firstFrom?_eq_none_iff
    {map : KeyMap α}
    {least : Key} :
    map.firstFrom? least = none ↔ ∀ other ∈ map, ¬least ≤ other.1 := by
  simp [firstFrom?, Key.isGE_compare_iff]

/-- The pairs before the first one from a key on are below the key. -/
theorem split_of_firstFrom?_eq_some
    {map : KeyMap α}
    {least : Key}
    {pair : Key × α}
    (first : map.firstFrom? least = some pair) :
    least ≤ pair.1 ∧ ∃ front back, map = front ++ pair :: back ∧
      ∀ other ∈ front, ¬least ≤ other.1 := by
  obtain ⟨reached, front, back, parted, before⟩ := List.find?_eq_some_iff_append.mp first
  refine ⟨Key.isGE_compare_iff.mp reached, front, back, parted, fun other present => ?_⟩
  have missed := before other present
  rwa [Bool.not_eq_true', ← Bool.not_eq_true, Key.isGE_compare_iff] at missed

/-- The pairs after another one are above it. -/
theorem lt_of_mem_after
    {front back : KeyMap α}
    {pair : Key × α}
    (ascending : Ascending (front ++ pair :: back))
    {other : Key × α}
    (present : other ∈ back) :
    pair.1 < other.1 :=
  List.rel_of_pairwise_cons (List.pairwise_append.mp ascending).2.1 present

/-- The first pair from a key on is the least one that is not below the key. -/
theorem firstFrom?_eq_some_iff
    {map : KeyMap α}
    (ascending : Ascending map)
    {least : Key}
    {pair : Key × α} :
    map.firstFrom? least = some pair ↔
      pair ∈ map ∧ least ≤ pair.1 ∧ ∀ other ∈ map, least ≤ other.1 → pair.1 ≤ other.1 := by
  constructor
  · intro first
    obtain ⟨reached, front, back, rfl, before⟩ := split_of_firstFrom?_eq_some first
    refine ⟨by simp, reached, fun other present otherReached => ?_⟩
    rcases List.mem_append.mp present with inFront | inRest
    · exact absurd otherReached (before other inFront)
    · rcases List.mem_cons.mp inRest with rfl | inBack
      · exact Key.le_refl other.1
      · exact Key.le_of_lt (lt_of_mem_after ascending inBack)
  · rintro ⟨present, reached, isLeast⟩
    cases first : map.firstFrom? least with
    | none => exact absurd reached (firstFrom?_eq_none_iff.mp first pair present)
    | some found =>
        obtain ⟨foundReached, front, back, rfl, before⟩ := split_of_firstFrom?_eq_some first
        rcases List.mem_append.mp present with inFront | inRest
        · exact absurd reached (before pair inFront)
        · rcases List.mem_cons.mp inRest with rfl | inBack
          · rfl
          · have above := lt_of_mem_after ascending inBack
            exact absurd (isLeast found (by simp) foundReached) (Key.not_le.mpr above)

/-- Nothing is left when no key is reached. -/
theorem between_eq_nil_of_firstFrom?_eq_none
    {map : KeyMap α}
    {least : Key}
    (missing : map.firstFrom? least = none)
    (endTime : UInt64) :
    map.between least endTime = [] := by
  rw [between, List.filter_eq_nil_iff]
  intro other present
  simp [firstFrom?_eq_none_iff.mp missing other present]

/-- Nothing is left when the first key is past the end. -/
theorem between_eq_nil_of_past
    {map : KeyMap α}
    (ascending : Ascending map)
    {least : Key}
    {pair : Key × α}
    (first : map.firstFrom? least = some pair)
    {endTime : UInt64}
    (past : endTime < pair.1.timestamp) :
    map.between least endTime = [] := by
  obtain ⟨_, _, isLeast⟩ := (firstFrom?_eq_some_iff ascending).mp first
  rw [between, List.filter_eq_nil_iff]
  intro other present
  rw [decide_eq_true_iff]
  rintro ⟨reached, inTime⟩
  have ordered := Key.timestamp_le_of_le (isLeast other present reached)
  rw [UInt64.lt_iff_toNat_lt] at past
  rw [UInt64.le_iff_toNat_le] at ordered inTime
  omega

/-- The pairs from a key on are the first one and those above it. -/
theorem between_eq_cons
    {map : KeyMap α}
    (ascending : Ascending map)
    {least : Key}
    {pair : Key × α}
    (first : map.firstFrom? least = some pair)
    {endTime : UInt64}
    (reached : ¬endTime < pair.1.timestamp) :
    map.between least endTime =
      pair :: map.filter fun other =>
        decide (pair.1 < other.1 ∧ other.1.timestamp ≤ endTime) := by
  obtain ⟨least_le, front, back, rfl, before⟩ := split_of_firstFrom?_eq_some first
  have inTime : pair.1.timestamp ≤ endTime := UInt64.not_lt.mp reached
  have frontBelow : ∀ other ∈ front, other.1 < pair.1 := fun other present =>
    (List.pairwise_append.mp ascending).2.2 other present pair (by simp)
  have backAbove : ∀ other ∈ back, pair.1 < other.1 := fun other =>
    lt_of_mem_after ascending
  have frontLeft : front.filter (fun other =>
      decide (least ≤ other.1 ∧ other.1.timestamp ≤ endTime)) = [] := by
    rw [List.filter_eq_nil_iff]
    intro other present
    simp [before other present]
  have frontAbove : front.filter (fun other =>
      decide (pair.1 < other.1 ∧ other.1.timestamp ≤ endTime)) = [] := by
    rw [List.filter_eq_nil_iff]
    intro other present
    simp [Key.lt_asymm (frontBelow other present)]
  have backSame : back.filter (fun other =>
      decide (least ≤ other.1 ∧ other.1.timestamp ≤ endTime)) =
      back.filter (fun other =>
        decide (pair.1 < other.1 ∧ other.1.timestamp ≤ endTime)) := by
    apply List.filter_congr
    intro other present
    have above := backAbove other present
    simp [above, Key.le_trans least_le (Key.le_of_lt above)]
  rw [between, List.filter_append, List.filter_append, frontLeft, frontAbove, List.nil_append,
    List.nil_append, List.filter_cons_of_pos (by simp [least_le, inTime]),
    List.filter_cons_of_neg (by simp [Key.lt_irrefl]), backSame]

/-- The pairs above a key are those from its successor on. -/
theorem filter_above_eq_between
    {key next : Key}
    (following : key.successor = some next)
    (map : KeyMap α)
    (endTime : UInt64) :
    (map.filter fun other => decide (key < other.1 ∧ other.1.timestamp ≤ endTime)) =
      map.between next endTime := by
  apply List.filter_congr
  intro other _
  rw [decide_eq_decide, Key.successor_le_iff following]

/-- No pair is above a key without a successor. -/
theorem filter_above_eq_nil
    {key : Key}
    (atLimit : key.successor = none)
    (map : KeyMap α)
    (endTime : UInt64) :
    (map.filter fun other => decide (key < other.1 ∧ other.1.timestamp ≤ endTime)) = [] := by
  rw [List.filter_eq_nil_iff]
  intro other _
  simp [Key.not_lt_of_successor_eq_none atLimit other.1]

/-! ## The map of entries -/

/-- Insert entries in order. -/
def enter (map : KeyMap Bytes) (entries : List Entry) : KeyMap Bytes :=
  entries.foldl (fun map entry => insert entry.key entry.value map) map

/-- The map of entries inserted in order. -/
def ofEntries (entries : List Entry) : KeyMap Bytes :=
  enter [] entries

/-- The value of the last of the entries of a key. -/
def lastValue? (entries : List Entry) (key : Key) : Option Bytes :=
  (entries.reverse.find? fun entry => entry.key = key).map Entry.value

@[simp] theorem ofEntries_nil : ofEntries [] = [] := rfl

theorem ofEntries_append (front back : List Entry) :
    ofEntries (front ++ back) = enter (ofEntries front) back := by
  simp [ofEntries, enter]

theorem ascending_enter
    {map : KeyMap Bytes}
    (ascending : Ascending map)
    (entries : List Entry) :
    Ascending (enter map entries) := by
  induction entries generalizing map with
  | nil => exact ascending
  | cons entry rest inductionHypothesis =>
      exact inductionHypothesis (ascending_insert ascending entry.key entry.value)

theorem ascending_ofEntries (entries : List Entry) : Ascending (ofEntries entries) :=
  ascending_enter ascending_nil entries

/-- The map of entries holds exactly the last value of every key. -/
theorem mem_ofEntries_iff (entries : List Entry) (key : Key) (value : Bytes) :
    (key, value) ∈ ofEntries entries ↔ lastValue? entries key = some value := by
  induction entries using List.reverseRecOn with
  | nil => simp [lastValue?]
  | append_singleton front entry inductionHypothesis =>
      rw [ofEntries_append]
      change (key, value) ∈ insert entry.key entry.value (ofEntries front) ↔ _
      rw [mem_insert_iff (ascending_ofEntries front), inductionHypothesis, lastValue?,
        lastValue?, List.reverse_append, List.reverse_singleton, List.singleton_append]
      by_cases same : entry.key = key
      · simp [same, eq_comm]
      · have different : key ≠ entry.key := Ne.symm same
        simp [same, different]

theorem lastValue?_append (front back : List Entry) (key : Key) :
    lastValue? (front ++ back) key = (lastValue? back key).or (lastValue? front key) := by
  unfold lastValue?
  rw [List.reverse_append, List.find?_append, Option.map_or]

/-- Entries with the same last values give the same map. -/
theorem ofEntries_congr
    {left right : List Entry}
    (same : ∀ key, lastValue? left key = lastValue? right key) :
    ofEntries left = ofEntries right := by
  apply (ascending_ofEntries left).ext (ascending_ofEntries right)
  rintro ⟨key, value⟩
  rw [mem_ofEntries_iff, mem_ofEntries_iff, same]

/-- Inserting commutes with mapping the values. -/
theorem map_insert
    (convert : α → β)
    (key : Key)
    (value : α)
    (map : KeyMap α) :
    (insert key value map).map (Prod.map id convert) =
      insert key (convert value) (map.map (Prod.map id convert)) := by
  induction map with
  | nil => rfl
  | cons first rest inductionHypothesis =>
      obtain ⟨other, stored⟩ := first
      unfold insert
      cases order : key.compare other with
      | lt => simp [order]
      | eq => simp [order]
      | gt => simpa [insert, order] using inductionHypothesis

/-! ## Parts of a map -/

/-- No key is above the last one. -/
theorem le_of_lastKey?_eq_some
    {map : KeyMap α}
    (ascending : Ascending map)
    {last : Key}
    (isLast : map.lastKey? = some last)
    {pair : Key × α}
    (present : pair ∈ map) :
    pair.1 ≤ last := by
  rw [lastKey?, Option.map_eq_some_iff] at isLast
  obtain ⟨greatest, isGreatest, rfl⟩ := isLast
  obtain ⟨front, rfl⟩ := List.getLast?_eq_some_iff.mp isGreatest
  rcases List.mem_append.mp present with inFront | isIt
  · exact Key.le_of_lt
      ((List.pairwise_append.mp ascending).2.2 pair inFront greatest List.mem_cons_self)
  · rw [List.mem_singleton.mp isIt]
    exact Key.le_refl _

/-- An insertion above all keys of a front changes what follows it only. -/
theorem insert_append
    {front : KeyMap α}
    {key : Key}
    (below : ∀ pair ∈ front, pair.1 < key)
    (value : α)
    (back : KeyMap α) :
    insert key value (front ++ back) = front ++ insert key value back := by
  induction front with
  | nil => rfl
  | cons first rest inductionHypothesis =>
      obtain ⟨firstKey, stored⟩ := first
      obtain ⟨firstBelow, restBelow⟩ := List.forall_mem_cons.mp below
      have compared : key.compare firstKey = .gt := Key.compare_eq_gt_iff.mpr firstBelow
      simp only [List.cons_append, insert, compared, inductionHypothesis restBelow]

theorem enter_append_left
    {front : KeyMap Bytes}
    {entries : List Entry}
    (below : ∀ entry ∈ entries, ∀ pair ∈ front, pair.1 < entry.key)
    (back : KeyMap Bytes) :
    enter (front ++ back) entries = front ++ enter back entries := by
  induction entries generalizing back with
  | nil => rfl
  | cons entry rest inductionHypothesis =>
      obtain ⟨first, others⟩ := List.forall_mem_cons.mp below
      unfold enter at inductionHypothesis ⊢
      rw [List.foldl_cons, insert_append first, inductionHypothesis others, List.foldl_cons]

/-- An insertion is seen among the pairs of some keys exactly if its key is one
of them. -/
theorem filter_insert
    {map : KeyMap α}
    (ascending : Ascending map)
    (isIn : Key → Bool)
    (key : Key)
    (value : α) :
    (insert key value map).filter (fun pair => isIn pair.1) =
      if isIn key then insert key value (map.filter fun pair => isIn pair.1)
      else map.filter fun pair => isIn pair.1 := by
  have partAscending : Ascending (map.filter fun pair => isIn pair.1) :=
    List.Pairwise.filter _ ascending
  have grownAscending : Ascending ((insert key value map).filter fun pair => isIn pair.1) :=
    List.Pairwise.filter _ (ascending_insert ascending key value)
  by_cases inside : isIn key = true
  · rw [if_pos inside]
    apply grownAscending.ext (ascending_insert partAscending key value)
    intro pair
    rw [List.mem_filter, mem_insert_iff ascending, mem_insert_iff partAscending, List.mem_filter]
    constructor
    · rintro ⟨rfl | ⟨old, different⟩, isPart⟩
      · exact Or.inl rfl
      · exact Or.inr ⟨⟨old, isPart⟩, different⟩
    · rintro (rfl | ⟨⟨old, isPart⟩, different⟩)
      · exact ⟨Or.inl rfl, inside⟩
      · exact ⟨Or.inr ⟨old, different⟩, isPart⟩
  · rw [if_neg inside]
    apply grownAscending.ext partAscending
    intro pair
    rw [List.mem_filter, mem_insert_iff ascending, List.mem_filter]
    constructor
    · rintro ⟨rfl | ⟨old, _⟩, isPart⟩
      · exact absurd isPart inside
      · exact ⟨old, isPart⟩
    · rintro ⟨old, isPart⟩
      refine ⟨Or.inr ⟨old, ?_⟩, isPart⟩
      intro same
      exact inside (same ▸ isPart)

theorem filter_enter
    {map : KeyMap Bytes}
    (ascending : Ascending map)
    (isIn : Key → Bool)
    (entries : List Entry) :
    (enter map entries).filter (fun pair => isIn pair.1) =
      enter (map.filter fun pair => isIn pair.1) (entries.filter fun entry => isIn entry.key) := by
  induction entries generalizing map with
  | nil => rfl
  | cons entry rest inductionHypothesis =>
      have later := inductionHypothesis (ascending_insert ascending entry.key entry.value)
      rw [filter_insert ascending] at later
      unfold enter at later ⊢
      rw [List.foldl_cons, later, List.filter_cons]
      split <;> rfl

end KeyMap
end EventRelay
