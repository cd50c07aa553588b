import EventRelay.Proofs.Channel.Reassembly
import Mathlib.Algebra.BigOperators.Group.Finset.Piecewise

/-!
# Publications do not disturb each other

What a fragment does depends only on the message of its own publication that has
begun, and it changes no other one.  An assembler therefore answers the fragments
of every publication as an assembler would that takes nothing else; it counts the
drops of all those assemblers together, and as many messages have begun in it as
in all of them.  However the fragments of different publications mix, the
messages of each one come out complete and in order.
-/

namespace EventRelay
namespace Fragment

/-! ## Mixed fragments -/

/-- The fragments of a publication. -/
def ofSession (session : UInt32) (fragments : List Fragment) : List Fragment :=
  fragments.filter fun fragment => fragment.session == session

theorem session_of_mem_ofSession
    {session : UInt32}
    {fragments : List Fragment}
    {fragment : Fragment}
    (present : fragment ∈ ofSession session fragments) :
    fragment.session = session :=
  beq_iff_eq.mp (List.mem_filter.mp present).2

/-- Fragments mix the streams of publications: each one is the next of some
stream, and all streams are used up. -/
inductive Interleaves : (streams : UInt32 → List Fragment) → List Fragment → Prop where
  | nil : Interleaves (fun _ => []) []
  | cons
      {streams : UInt32 → List Fragment}
      {session : UInt32}
      {fragment : Fragment}
      {stream rest : List Fragment}
      (next : streams session = fragment :: stream)
      (others : Interleaves (Function.update streams session stream) rest) :
      Interleaves streams (fragment :: rest)

theorem ofSession_cons (session : UInt32) (fragment : Fragment) (rest : List Fragment) :
    ofSession session (fragment :: rest) =
      if fragment.session = session then fragment :: ofSession session rest
      else ofSession session rest := by
  simp only [ofSession, List.filter_cons, beq_iff_eq]

theorem ofSession_eq_self
    {session : UInt32}
    {fragments : List Fragment}
    (own : ∀ fragment ∈ fragments, fragment.session = session) :
    ofSession session fragments = fragments := by
  rw [ofSession, List.filter_eq_self]
  exact fun fragment present => beq_iff_eq.mpr (own fragment present)

theorem ofSession_ofSession (session other : UInt32) (fragments : List Fragment) :
    ofSession other (ofSession session fragments) =
      if other = session then ofSession session fragments else [] := by
  by_cases same : other = session
  · subst same
    rw [if_pos rfl]
    exact ofSession_eq_self fun fragment => session_of_mem_ofSession
  · rw [if_neg same, ofSession, List.filter_eq_nil_iff]
    intro fragment present isOther
    exact same ((beq_iff_eq.mp isOther).symm.trans (session_of_mem_ofSession present))

/-- Mixed streams can be told apart again. -/
theorem Interleaves.ofSession_eq
    {streams : UInt32 → List Fragment}
    {fragments : List Fragment}
    (mixed : Interleaves streams fragments)
    (own : ∀ session, ∀ fragment ∈ streams session, fragment.session = session)
    (session : UInt32) :
    ofSession session fragments = streams session := by
  induction mixed with
  | nil => rfl
  | @cons streams origin fragment stream rest next others inductionHypothesis =>
      have origin_eq : fragment.session = origin :=
        own origin fragment (next ▸ List.mem_cons_self)
      have ownLater : ∀ session, ∀ fragment ∈ Function.update streams origin stream session,
          fragment.session = session := by
        intro other later present
        by_cases same : other = origin
        · subst same
          rw [Function.update_self] at present
          exact own other later (next ▸ List.mem_cons_of_mem _ present)
        · rw [Function.update_of_ne same] at present
          exact own other later present
      have rest_eq := inductionHypothesis ownLater
      rw [ofSession_cons, rest_eq, origin_eq]
      by_cases same : origin = session
      · subst same
        rw [if_pos rfl, Function.update_self, next]
      · rw [if_neg same, Function.update_of_ne (Ne.symm same)]

/-- Any fragments mix the streams of their publications. -/
theorem interleaves_ofSession (fragments : List Fragment) :
    Interleaves (fun session => ofSession session fragments) fragments := by
  induction fragments with
  | nil => exact .nil
  | cons fragment rest inductionHypothesis =>
      refine .cons (by rw [ofSession_cons, if_pos rfl]) ?_
      convert inductionHypothesis using 1
      funext session
      by_cases own : session = fragment.session
      · subst own
        rw [Function.update_self]
      · rw [Function.update_of_ne own, ofSession_cons, if_neg (Ne.symm own)]

theorem session_of_mem_ofPieces
    {session : UInt32}
    {isFirst : Bool}
    {pieces : List Bytes}
    {fragment : Fragment}
    (present : fragment ∈ ofPieces session isFirst pieces) :
    fragment.session = session := by
  induction pieces generalizing isFirst with
  | nil => cases present
  | cons piece rest inductionHypothesis =>
      rcases List.mem_cons.mp present with rfl | later
      · rfl
      · exact inductionHypothesis later

end Fragment

namespace Assembler

open Fragment (ofSession Interleaves ofMessage)

/-! ## One fragment -/

/-- What a fragment does to the message of its publication. -/
structure Effect where
  /-- The message that it completes. -/
  message : Option Bytes
  /-- The message that has begun after it. -/
  held : Option Bytes
  /-- The number of drops. -/
  drops : Nat

/-- What a fragment does, by the message of its publication that has begun. -/
def effect (maxSize : Nat) (held : Option Bytes) (fragment : Fragment) : Effect :=
  if fragment.isBegin then
    let drops := if held.isSome then 1 else 0
    if fragment.isEnd then ⟨some fragment.payload, none, drops⟩
    else ⟨none, some fragment.payload, drops⟩
  else
    match held with
    | none => ⟨none, none, 1⟩
    | some begun =>
        if maxSize < begun.length + fragment.payload.length then ⟨none, none, 1⟩
        else if fragment.isEnd then ⟨some (begun ++ fragment.payload), none, 0⟩
        else ⟨none, some (begun ++ fragment.payload), 0⟩

@[simp] theorem partial?_drop (assembler : Assembler) (session : UInt32) :
    assembler.drop.partial? session = assembler.partial? session :=
  rfl

@[simp] theorem partial?_forget (assembler : Assembler) (session other : UInt32) :
    (assembler.forget session).partial? other =
      if other = session then none else assembler.partial? other := by
  unfold partial? forget
  rw [List.find?_filter]
  by_cases same : other = session
  · subst same
    rw [if_pos rfl, Option.map_eq_none_iff, List.find?_eq_none]
    simp
  · rw [if_neg same]
    congr 2
    funext entry
    by_cases isOther : entry.1 = other
    · simp [isOther, same]
    · simp [isOther]

@[simp] theorem partial?_keep (assembler : Assembler) (session other : UInt32) (message : Bytes) :
    (assembler.keep session message).partial? other =
      if other = session then some message else assembler.partial? other := by
  by_cases same : other = session
  · subst same
    simp [partial?, keep]
  · have different : (session == other) = false := beq_eq_false_iff_ne.mpr (Ne.symm same)
    have forgotten := partial?_forget assembler session other
    rw [if_neg same] at forgotten ⊢
    rw [← forgotten]
    unfold partial? keep
    rw [List.find?_cons, different]

/-- A publication of which nothing changes need not be told from the others. -/
theorem partial?_eq_ite
    {assembler : Assembler}
    {session : UInt32}
    {held : Option Bytes}
    (begun : assembler.partial? session = held)
    (other : UInt32) :
    assembler.partial? other = if other = session then held else assembler.partial? other := by
  by_cases same : other = session
  · rw [if_pos same, same, begun]
  · rw [if_neg same]

/-- What feeding a fragment does: its effect on the message of its publication,
and nothing else. -/
structure Feeds
    (assembler : Assembler) (fragment : Fragment) (message : Option Bytes)
    (after : Assembler) (effect : Effect) : Prop where
  message_eq : message = effect.message
  maxSize_eq : after.maxSize = assembler.maxSize
  dropped_eq : after.dropped = assembler.dropped + effect.drops
  partial?_eq : ∀ session, after.partial? session =
    if session = fragment.session then effect.held else assembler.partial? session

theorem feeds_feedBegin
    {fragment : Fragment}
    (isBegin : fragment.isBegin = true)
    (assembler : Assembler) :
    Feeds assembler fragment (assembler.feedBegin fragment).1 (assembler.feedBegin fragment).2
      (effect assembler.maxSize (assembler.partial? fragment.session) fragment) := by
  unfold feedBegin effect
  rw [if_pos isBegin]
  cases held : assembler.partial? fragment.session with
  | none =>
      cases isEnd : fragment.isEnd with
      | false => exact ⟨rfl, rfl, rfl, fun session => partial?_keep _ _ _ _⟩
      | true => exact ⟨rfl, rfl, rfl, fun session => partial?_eq_ite held session⟩
  | some begun =>
      cases isEnd : fragment.isEnd with
      | false =>
          refine ⟨rfl, rfl, rfl, fun session => ?_⟩
          by_cases own : session = fragment.session <;> simp [own]
      | true => exact ⟨rfl, rfl, rfl, fun session => partial?_forget _ _ _⟩

theorem feeds_feedMiddle
    {fragment : Fragment}
    (isBegin : fragment.isBegin = false)
    (assembler : Assembler) :
    Feeds assembler fragment (assembler.feedMiddle fragment).1 (assembler.feedMiddle fragment).2
      (effect assembler.maxSize (assembler.partial? fragment.session) fragment) := by
  unfold feedMiddle effect
  rw [isBegin, if_neg Bool.false_ne_true]
  cases held : assembler.partial? fragment.session with
  | none => exact ⟨rfl, rfl, rfl, fun session => partial?_eq_ite held session⟩
  | some begun =>
      dsimp only
      by_cases large : assembler.maxSize < begun.length + fragment.payload.length
      · rw [if_pos large, if_pos large]
        exact ⟨rfl, rfl, rfl, fun session => partial?_forget _ _ _⟩
      · rw [if_neg large, if_neg large]
        cases isEnd : fragment.isEnd with
        | false => exact ⟨rfl, rfl, rfl, fun session => partial?_keep _ _ _ _⟩
        | true => exact ⟨rfl, rfl, rfl, fun session => partial?_forget _ _ _⟩

/-- A fragment has its effect on the message of its publication, and no other. -/
theorem feeds_feed (assembler : Assembler) (fragment : Fragment) :
    Feeds assembler fragment (assembler.feed fragment).1 (assembler.feed fragment).2
      (effect assembler.maxSize (assembler.partial? fragment.session) fragment) := by
  unfold feed
  cases isBegin : fragment.isBegin with
  | true => exact feeds_feedBegin isBegin assembler
  | false => exact feeds_feedMiddle isBegin assembler

/-! ## Many fragments -/

/-- Take fragments in order; the result holds what each of them completes. -/
def replies (assembler : Assembler) : List Fragment → List (Fragment × Option Bytes)
  | [] => []
  | fragment :: rest =>
      (fragment, (assembler.feed fragment).1) :: (assembler.feed fragment).2.replies rest

theorem feedAll_fst (assembler : Assembler) (fragments : List Fragment) :
    (assembler.feedAll fragments).1 = (assembler.replies fragments).filterMap Prod.snd := by
  induction fragments generalizing assembler with
  | nil => rfl
  | cons fragment rest inductionHypothesis =>
      rw [feedAll_cons, inductionHypothesis, replies, List.filterMap_cons]
      cases (assembler.feed fragment).1 <;> rfl

theorem map_fst_replies (assembler : Assembler) (fragments : List Fragment) :
    (assembler.replies fragments).map Prod.fst = fragments := by
  induction fragments generalizing assembler with
  | nil => rfl
  | cons fragment rest inductionHypothesis =>
      rw [replies, List.map_cons, inductionHypothesis]

theorem filter_replies_eq_self
    {session : UInt32}
    {fragments : List Fragment}
    (own : ∀ fragment ∈ fragments, fragment.session = session)
    (assembler : Assembler) :
    (assembler.replies fragments).filter (fun reply => reply.1.session == session) =
      assembler.replies fragments := by
  rw [List.filter_eq_self]
  intro reply present
  have fed : reply.1 ∈ fragments := by
    rw [← map_fst_replies assembler fragments]
    exact List.mem_map_of_mem present
  exact beq_iff_eq.mpr (own reply.1 fed)

/-- What the fragments of one publication come to. -/
structure Outcome where
  /-- What each of them completes. -/
  replies : List (Fragment × Option Bytes)
  /-- The message that has begun after them. -/
  held : Option Bytes
  /-- The number of drops. -/
  drops : Nat

/-- What the fragments of one publication come to, by its message that has begun. -/
def outcome (maxSize : Nat) (held : Option Bytes) : List Fragment → Outcome
  | [] => ⟨[], held, 0⟩
  | fragment :: rest =>
      let first := effect maxSize held fragment
      let later := outcome maxSize first.held rest
      ⟨(fragment, first.message) :: later.replies, later.held, first.drops + later.drops⟩

/-- A fragment comes first in what its publication comes to, and does not matter to
the others. -/
theorem outcome_ofSession_cons
    (assembler : Assembler)
    (fragment : Fragment)
    (rest : List Fragment)
    (session : UInt32) :
    let first := effect assembler.maxSize (assembler.partial? fragment.session) fragment
    let after := (assembler.feed fragment).2
    let later := outcome after.maxSize (after.partial? session) (ofSession session rest)
    outcome assembler.maxSize (assembler.partial? session) (ofSession session (fragment :: rest)) =
      if session = fragment.session then
        ⟨(fragment, (assembler.feed fragment).1) :: later.replies, later.held,
          first.drops + later.drops⟩
      else later := by
  intro first after later
  have feeds := feeds_feed assembler fragment
  have later_eq : later = outcome assembler.maxSize
      (if session = fragment.session then first.held else assembler.partial? session)
      (ofSession session rest) := by
    rw [← feeds.partial?_eq, ← feeds.maxSize_eq]
  rw [Fragment.ofSession_cons]
  by_cases own : session = fragment.session
  · subst own
    rw [if_pos rfl] at later_eq
    rw [if_pos rfl, if_pos rfl, outcome, later_eq, feeds.message_eq]
  · rw [if_neg own] at later_eq
    rw [if_neg (Ne.symm own), if_neg own, later_eq]

/-- An assembler answers the fragments of a publication as if there were no others. -/
theorem filter_replies (assembler : Assembler) (fragments : List Fragment) (session : UInt32) :
    (assembler.replies fragments).filter (fun reply => reply.1.session == session) =
      (outcome assembler.maxSize (assembler.partial? session)
        (ofSession session fragments)).replies := by
  induction fragments generalizing assembler with
  | nil => rfl
  | cons fragment rest inductionHypothesis =>
      rw [replies, List.filter_cons, inductionHypothesis, outcome_ofSession_cons]
      by_cases own : session = fragment.session
      · simp [own]
      · simp [own, Ne.symm own]

/-- The message of a publication that has begun is the one of its fragments. -/
theorem partial?_feedAll (assembler : Assembler) (fragments : List Fragment) (session : UInt32) :
    (assembler.feedAll fragments).2.partial? session =
      (outcome assembler.maxSize (assembler.partial? session)
        (ofSession session fragments)).held := by
  induction fragments generalizing assembler with
  | nil => rfl
  | cons fragment rest inductionHypothesis =>
      rw [feedAll_cons, inductionHypothesis, outcome_ofSession_cons]
      by_cases own : session = fragment.session
      · rw [if_pos own]
      · rw [if_neg own]

/-- The drops are those of all publications. -/
theorem dropped_feedAll
    {fragments : List Fragment}
    {sessions : Finset UInt32}
    (known : ∀ fragment ∈ fragments, fragment.session ∈ sessions)
    (assembler : Assembler) :
    (assembler.feedAll fragments).2.dropped =
      assembler.dropped + ∑ session ∈ sessions,
        (outcome assembler.maxSize (assembler.partial? session)
          (ofSession session fragments)).drops := by
  induction fragments generalizing assembler with
  | nil => simp [feedAll, ofSession, outcome]
  | cons fragment rest inductionHypothesis =>
      obtain ⟨first, others⟩ := List.forall_mem_cons.mp known
      have feeds := feeds_feed assembler fragment
      have split : ∀ session, (outcome assembler.maxSize (assembler.partial? session)
          (ofSession session (fragment :: rest))).drops =
          (if session = fragment.session then
            (effect assembler.maxSize (assembler.partial? fragment.session) fragment).drops
          else 0) +
          (outcome (assembler.feed fragment).2.maxSize
            ((assembler.feed fragment).2.partial? session) (ofSession session rest)).drops := by
        intro session
        rw [outcome_ofSession_cons]
        by_cases own : session = fragment.session
        · rw [if_pos own, if_pos own]
        · rw [if_neg own, if_neg own, Nat.zero_add]
      rw [feedAll_cons, inductionHypothesis others, feeds.dropped_eq,
        Finset.sum_congr rfl fun session _ => split session, Finset.sum_add_distrib,
        Finset.sum_ite_eq', if_pos first, Nat.add_assoc]

/-! ## Messages that have begun -/

/-- No publication has two messages that have begun. -/
def Distinct (assembler : Assembler) : Prop :=
  (assembler.partials.map Prod.fst).Nodup

theorem Distinct.forget
    {assembler : Assembler}
    (distinct : assembler.Distinct)
    (session : UInt32) :
    (assembler.forget session).Distinct :=
  distinct.sublist (List.filter_sublist.map Prod.fst)

theorem Distinct.keep
    {assembler : Assembler}
    (distinct : assembler.Distinct)
    (session : UInt32)
    (message : Bytes) :
    (assembler.keep session message).Distinct := by
  refine List.nodup_cons.mpr ⟨fun present => ?_, distinct.forget session⟩
  obtain ⟨entry, kept, same⟩ := List.mem_map.mp present
  have different := (List.mem_filter.mp kept).2
  rw [bne_iff_ne] at different
  exact different same

theorem Distinct.feed
    {assembler : Assembler}
    (distinct : assembler.Distinct)
    (fragment : Fragment) :
    (assembler.feed fragment).2.Distinct := by
  unfold Assembler.feed feedBegin feedMiddle
  split
  · split <;> split
    · exact distinct.forget _
    · exact (distinct.forget _).keep _ _
    · exact distinct
    · exact distinct.keep _ _
  · split
    · exact distinct
    · split
      · exact distinct.forget _
      · dsimp only
        split
        · exact distinct.forget _
        · exact distinct.keep _ _

theorem Distinct.feedAll
    {assembler : Assembler}
    (distinct : assembler.Distinct)
    (fragments : List Fragment) :
    (assembler.feedAll fragments).2.Distinct := by
  induction fragments generalizing assembler with
  | nil => exact distinct
  | cons fragment rest inductionHypothesis => exact inductionHypothesis (distinct.feed fragment)

theorem distinct_initial (maxSize : Nat) : (initial maxSize).Distinct :=
  List.nodup_nil

theorem isSome_partial?_iff (assembler : Assembler) (session : UInt32) :
    (assembler.partial? session).isSome ↔ session ∈ assembler.partials.map Prod.fst := by
  simp [partial?]

/-- As many messages have begun as there are publications of which one has. -/
theorem inProgress_eq
    {assembler : Assembler}
    (distinct : assembler.Distinct)
    {sessions : Finset UInt32}
    (known : ∀ session, (assembler.partial? session).isSome → session ∈ sessions) :
    assembler.inProgress =
      (sessions.filter fun session => (assembler.partial? session).isSome).card := by
  have same : (sessions.filter fun session => (assembler.partial? session).isSome) =
      (assembler.partials.map Prod.fst).toFinset := by
    ext session
    rw [Finset.mem_filter, List.mem_toFinset, ← isSome_partial?_iff]
    exact and_iff_right_of_imp (known session)
  rw [same, List.toFinset_card_of_nodup distinct, List.length_map]
  rfl

/-! ## Publications apart -/

/-- The messages that the fragments of a publication complete. -/
def messagesOf (session : UInt32) (replies : List (Fragment × Option Bytes)) : List Bytes :=
  (replies.filter fun reply => reply.1.session == session).filterMap Prod.snd

/-- An assembler that took the fragments of one publication only. -/
def alone (maxSize : Nat) (fragments : List Fragment) (session : UInt32) : Assembler :=
  ((initial maxSize).feedAll (ofSession session fragments)).2

theorem replies_ofSession (maxSize : Nat) (fragments : List Fragment) (session : UInt32) :
    (initial maxSize).replies (ofSession session fragments) =
      ((initial maxSize).replies fragments).filter fun reply => reply.1.session == session := by
  rw [← filter_replies_eq_self (fun _ => Fragment.session_of_mem_ofSession), filter_replies,
    filter_replies, Fragment.ofSession_ofSession, if_pos rfl]

theorem partial?_alone (maxSize : Nat) (fragments : List Fragment) (session other : UInt32) :
    (alone maxSize fragments session).partial? other =
      if other = session then ((initial maxSize).feedAll fragments).2.partial? session
      else none := by
  rw [alone, partial?_feedAll, partial?_feedAll, Fragment.ofSession_ofSession]
  by_cases own : other = session
  · rw [if_pos own, if_pos own]
    rfl
  · rw [if_neg own, if_neg own]
    rfl

theorem dropped_alone (maxSize : Nat) (fragments : List Fragment) (session : UInt32) :
    (alone maxSize fragments session).dropped =
      (outcome maxSize none (ofSession session fragments)).drops := by
  have known : ∀ fragment ∈ ofSession session fragments,
      fragment.session ∈ ({session} : Finset UInt32) :=
    fun fragment present => Finset.mem_singleton.mpr (Fragment.session_of_mem_ofSession present)
  rw [alone, dropped_feedAll known, Finset.sum_singleton, Fragment.ofSession_ofSession, if_pos rfl]
  exact Nat.zero_add _

theorem inProgress_alone_pos_iff (maxSize : Nat) (fragments : List Fragment) (session : UInt32) :
    0 < (alone maxSize fragments session).inProgress ↔
      (((initial maxSize).feedAll fragments).2.partial? session).isSome := by
  have distinct : (alone maxSize fragments session).Distinct :=
    (distinct_initial maxSize).feedAll _
  have known : ∀ other, ((alone maxSize fragments session).partial? other).isSome →
      other ∈ ({session} : Finset UInt32) := by
    intro other begun
    rw [partial?_alone] at begun
    by_contra different
    rw [if_neg (mt Finset.mem_singleton.mpr different)] at begun
    cases begun
  rw [inProgress_eq distinct known, Finset.card_pos, Finset.filter_nonempty_iff]
  simp [partial?_alone]

theorem messagesOf_replies (maxSize : Nat) (fragments : List Fragment) (session : UInt32) :
    messagesOf session ((initial maxSize).replies fragments) =
      ((initial maxSize).feedAll (ofSession session fragments)).1 := by
  rw [messagesOf, ← replies_ofSession, feedAll_fst]

/-- The fragments of the messages of publications. -/
def streamsOf (mtu : Nat) (messages : UInt32 → List Bytes) (session : UInt32) : List Fragment :=
  Channel.fragmentsOf mtu ((messages session).map (Channel.Sent.mk session))

theorem session_of_mem_streamsOf
    {mtu : Nat}
    {messages : UInt32 → List Bytes}
    {session : UInt32}
    {fragment : Fragment}
    (present : fragment ∈ streamsOf mtu messages session) :
    fragment.session = session := by
  obtain ⟨sent, isSent, isPart⟩ := List.mem_flatMap.mp present
  obtain ⟨message, _, rfl⟩ := List.mem_map.mp isSent
  exact Fragment.session_of_mem_ofPieces isPart

/-- An assembler gives out all messages of a publication, and drops none. -/
theorem feedAll_streamsOf
    {maxSize : Nat}
    {messages : UInt32 → List Bytes}
    {session : UInt32}
    (fits : ∀ message ∈ messages session, message.length ≤ maxSize)
    (mtu : Nat) :
    ((initial maxSize).feedAll (streamsOf mtu messages session)).1 = messages session ∧
      ((initial maxSize).feedAll (streamsOf mtu messages session)).2.dropped = 0 := by
  have sentFits : ∀ sent ∈ (messages session).map (Channel.Sent.mk session),
      sent.message.length ≤ maxSize := by
    intro sent isSent
    obtain ⟨message, present, rfl⟩ := List.mem_map.mp isSent
    exact fits message present
  have fed := Channel.feedAll_fragmentsOf sentFits mtu (streamsOf mtu messages session).length
  have all : ((messages session).map (Channel.Sent.mk session)).map Channel.Sent.message =
      messages session := by
    rw [List.map_map]
    exact List.map_id _
  rwa [streamsOf, List.take_length, Channel.finished_length_fragmentsOf, all] at fed

/-- The drops of an assembler are those of the publications apart. -/
theorem dropped_feedAll_initial (maxSize : Nat) (fragments : List Fragment) :
    ((initial maxSize).feedAll fragments).2.dropped =
      ∑ session ∈ (fragments.map Fragment.session).toFinset,
        (alone maxSize fragments session).dropped := by
  have known : ∀ fragment ∈ fragments,
      fragment.session ∈ (fragments.map Fragment.session).toFinset :=
    fun fragment present => List.mem_toFinset.mpr (List.mem_map_of_mem present)
  rw [dropped_feedAll known, show (initial maxSize).dropped = 0 from rfl, Nat.zero_add]
  exact Finset.sum_congr rfl fun session _ => (dropped_alone maxSize fragments session).symm

/-- The messages that have begun in an assembler are those of the publications
apart. -/
theorem inProgress_feedAll_initial (maxSize : Nat) (fragments : List Fragment) :
    ((initial maxSize).feedAll fragments).2.inProgress =
      ((fragments.map Fragment.session).toFinset.filter fun session =>
        0 < (alone maxSize fragments session).inProgress).card := by
  have known : ∀ session, (((initial maxSize).feedAll fragments).2.partial? session).isSome →
      session ∈ (fragments.map Fragment.session).toFinset := by
    intro session begun
    by_contra unknown
    have nothing : ofSession session fragments = [] := by
      rw [ofSession, List.filter_eq_nil_iff]
      intro fragment present isOwn
      rw [← beq_iff_eq.mp isOwn] at unknown
      exact unknown (List.mem_toFinset.mpr (List.mem_map_of_mem present))
    rw [partial?_feedAll, nothing] at begun
    cases begun
  rw [inProgress_eq ((distinct_initial maxSize).feedAll fragments) known]
  congr 1
  exact Finset.filter_congr fun session _ =>
    (inProgress_alone_pos_iff maxSize fragments session).symm

/-- An assembler answers every fragment as the assembler would that takes the
fragments of its publication only; it counts the drops of these assemblers
together, and as many messages have begun in it as there are of them in which one
has.  However the fragments of different publications mix, it gives out the
messages of each one in order, if they fit, and drops none. -/
theorem keepsApart_feedAll (maxSize : Nat) (fragments : List Fragment) :
    let whole := ((initial maxSize).feedAll fragments).2
    let sessions := (fragments.map Fragment.session).toFinset
    (∀ session,
        ((initial maxSize).replies fragments).filter (fun reply => reply.1.session == session) =
          (initial maxSize).replies (ofSession session fragments)) ∧
      whole.dropped = ∑ session ∈ sessions, (alone maxSize fragments session).dropped ∧
      whole.inProgress = (sessions.filter fun session =>
        0 < (alone maxSize fragments session).inProgress).card ∧
      ∀ (mtu : Nat) (messages : UInt32 → List Bytes),
        (∀ session, ∀ message ∈ messages session, message.length ≤ maxSize) →
          Interleaves (streamsOf mtu messages) fragments →
            (∀ session, messagesOf session ((initial maxSize).replies fragments) =
              messages session) ∧ whole.dropped = 0 := by
  intro whole sessions
  have dropped_eq : whole.dropped = ∑ session ∈ sessions, _ :=
    dropped_feedAll_initial maxSize fragments
  refine ⟨fun session => (replies_ofSession maxSize fragments session).symm, dropped_eq,
    inProgress_feedAll_initial maxSize fragments, ?_⟩
  intro mtu messages fits mixed
  have parts := mixed.ofSession_eq fun _ _ => session_of_mem_streamsOf
  have fed := fun session => feedAll_streamsOf (fits session) mtu
  refine ⟨fun session => ?_, ?_⟩
  · rw [messagesOf_replies, parts, (fed session).1]
  · rw [dropped_eq]
    apply Finset.sum_eq_zero
    intro session _
    rw [alone, parts, (fed session).2]

/-- Messages of two publications. -/
def greetings (session : UInt32) : List Bytes :=
  if session = 1 then [[1, 2, 3, 4, 5], []]
  else if session = 2 then [[6, 7, 8]]
  else []

/-- Their fragments, mixed. -/
def mixedGreetings : List Fragment :=
  [⟨1, 0x80, [1, 2]⟩, ⟨2, 0x80, [6, 7]⟩, ⟨1, 0, [3, 4]⟩, ⟨1, 0x40, [5]⟩, ⟨1, 0xC0, []⟩,
    ⟨2, 0x40, [8]⟩]

theorem keepsApart_feedAll_greetings :
    (∀ session, ∀ message ∈ greetings session, message.length ≤ 5) ∧
      Interleaves (streamsOf 2 greetings) mixedGreetings ∧
      ∀ session, messagesOf session ((initial 5).replies mixedGreetings) = greetings session := by
  have fits : ∀ session, ∀ message ∈ greetings session, message.length ≤ 5 := by
    intro session message present
    unfold greetings at present
    split at present
    · revert message
      decide
    · split at present
      · revert message
        decide
      · cases present
  have mixed : Interleaves (streamsOf 2 greetings) mixedGreetings := by
    convert Fragment.interleaves_ofSession mixedGreetings using 1
    funext session
    by_cases isFirst : session = 1
    · subst isFirst
      decide +kernel
    · by_cases isSecond : session = 2
      · subst isSecond
        decide +kernel
      · simp [streamsOf, greetings, isFirst, isSecond, Ne.symm isFirst, Ne.symm isSecond,
          mixedGreetings, ofSession, Channel.fragmentsOf]
  exact ⟨fits, mixed, ((keepsApart_feedAll 5 mixedGreetings).2.2.2 2 greetings fits mixed).1⟩

end Assembler
end EventRelay
