import EventRelay.Proofs.Channel.Accounts

/-!
# Announced terms

A message that would enter a term later than any that was announced is refused, and
the term is announced.  So every term that the position enters was announced before,
and by one refused offer only: the one that first reached as far.

The message that is accepted in the end need not be the one that was refused.  When a
larger message has announced a term, smaller ones enter that term and those before it
without another refusal; and a message that is given up for a larger one makes two
refusals for one entry.  Just one refusal comes before every entry as long as the
message that was refused is the next one to be accepted.
-/

namespace EventRelay
namespace Channel

/-- A term that an offer has announced, and the latest one before. -/
structure Announcement where
  previous : Nat
  term : Nat
deriving DecidableEq, Repr

/-- The announcement is the first that reaches as far as a term. -/
def Announcement.covers (announcement : Announcement) (term : Nat) : Bool :=
  decide (announcement.previous < term) && decide (term ≤ announcement.term)

/-- A position is in a later term than the channel. -/
def Enters (channel : Channel) (position : Nat) : Prop :=
  channel.termOf channel.position < channel.termOf position

instance (channel : Channel) (position : Nat) : Decidable (channel.Enters position) :=
  inferInstanceAs (Decidable (_ < _))

theorem termOf_eq_of_settings_eq
    {channel after : Channel}
    (settings_eq : after.settings = channel.settings)
    (position : Nat) :
    after.termOf position = channel.termOf position := by
  rw [termOf, termOf, settings_eq]

theorem termOf_le_termOf_add (channel : Channel) (position size : Nat) :
    channel.termOf position ≤ channel.termOf (position + size) :=
  Nat.div_le_div_right (Nat.le_add_right _ _)

/-! ## Keeping a chronicle -/

/-- A channel, and what its offers have announced. -/
structure Chronicle where
  channel : Channel
  /-- What was announced until the position last entered a later term. -/
  settled : List Announcement
  /-- What was announced since then. -/
  recent : List Announcement
  /-- The size of the last message that was refused for its term, if none was accepted
  since. -/
  waiting : Option Nat
  /-- While a message waited, none of another size was accepted or announced a term. -/
  isOrderly : Bool

namespace Chronicle

/-- A new channel, on which nothing was announced. -/
def start (settings : Settings) : Chronicle where
  channel := initial settings
  settled := []
  recent := []
  waiting := none
  isOrderly := true

/-- All that was announced, in order. -/
def announcements (chronicle : Chronicle) : List Announcement :=
  chronicle.settled ++ chronicle.recent

/-- The message of the given size is the one that waits, if one does. -/
def isAwaited (chronicle : Chronicle) (size : Nat) : Bool :=
  chronicle.waiting.all fun waiting => waiting == size

/-- Enter that an offer has announced a term. -/
def announce (chronicle : Chronicle) (size : Nat) (after : Channel) : Chronicle where
  channel := after
  settled := chronicle.settled
  recent := chronicle.recent ++ [⟨chronicle.channel.activeTerm, after.activeTerm⟩]
  waiting := some size
  isOrderly := chronicle.isOrderly && chronicle.isAwaited size

/-- Enter that a message was accepted. -/
def accept (chronicle : Chronicle) (size position : Nat) (after : Channel) : Chronicle where
  channel := after
  settled :=
    if chronicle.channel.Enters position then chronicle.announcements else chronicle.settled
  recent := if chronicle.channel.Enters position then [] else chronicle.recent
  waiting := none
  isOrderly := chronicle.isOrderly && chronicle.isAwaited size

/-- Carry out a call. -/
def step (chronicle : Chronicle) : Call → Chronicle
  | .offer session message =>
      let size := chronicle.channel.sizeOf message
      match chronicle.channel.offer session message with
      | (.adminAction, after) => chronicle.announce size after
      | (.accepted position, after) => chronicle.accept size position after
      | (_, after) => { chronicle with channel := after }
  | call => { chronicle with channel := chronicle.channel.perform call }

/-- Carry out calls in order. -/
def run (chronicle : Chronicle) (calls : List Call) : Chronicle :=
  calls.foldl step chronicle

theorem run_append (chronicle : Chronicle) (front back : List Call) :
    chronicle.run (front ++ back) = (chronicle.run front).run back :=
  List.foldl_append

theorem channel_step (chronicle : Chronicle) (call : Call) :
    (chronicle.step call).channel = chronicle.channel.perform call := by
  cases call with
  | offer session message =>
      rw [step, perform]
      cases chronicle.channel.offer session message with
      | mk result after => cases result <;> rfl
  | publication | subscribe | poll | unsubscribe | close => rfl

theorem channel_run (chronicle : Chronicle) (calls : List Call) :
    (chronicle.run calls).channel = chronicle.channel.performAll calls := by
  induction calls generalizing chronicle with
  | nil => rfl
  | cons call calls inductionHypothesis =>
      rw [performAll, List.foldl_cons, ← channel_step]
      exact inductionHypothesis (chronicle.step call)

/-! ## What a call enters -/

/-- What a call can enter into a chronicle: that a term is announced which is later than
any before, that a message is accepted which enters no later term than the latest one
announced, or nothing about terms. -/
inductive Stepped (chronicle : Chronicle) : Chronicle → Prop
  | announced (message : Bytes) (after : Channel) :
      chronicle.channel.activeTerm <
        chronicle.channel.termOf (chronicle.channel.positionAfter message) →
      after.settings = chronicle.channel.settings →
      after.position = chronicle.channel.position →
      after.activeTerm = chronicle.channel.termOf (chronicle.channel.positionAfter message) →
      Stepped chronicle (chronicle.announce (chronicle.channel.sizeOf message) after)
  | accepted (message : Bytes) (after : Channel) :
      chronicle.channel.termOf (chronicle.channel.positionAfter message) ≤
        chronicle.channel.activeTerm →
      after.settings = chronicle.channel.settings →
      after.position = chronicle.channel.positionAfter message →
      after.activeTerm = chronicle.channel.activeTerm →
      Stepped chronicle (chronicle.accept (chronicle.channel.sizeOf message)
        (chronicle.channel.positionAfter message) after)
  | other (after : Channel) :
      after.settings = chronicle.channel.settings →
      after.position = chronicle.channel.position →
      after.activeTerm = chronicle.channel.activeTerm →
      Stepped chronicle { chronicle with channel := after }

theorem stepped_step (chronicle : Chronicle) (call : Call) :
    chronicle.Stepped (chronicle.step call) := by
  cases call with
  | publication | subscribe | unsubscribe | close => exact .other _ rfl rfl rfl
  | poll subscription limit =>
      refine .other _ ?_ ?_ ?_ <;>
      · rw [perform, Channel.poll]
        split <;> rfl
  | offer session message =>
      have offered := offered_offer chronicle.channel session message
      rw [step]
      generalize chronicle.channel.offer session message = answered at offered ⊢
      cases offered with
      | closed | maxPositionExceeded | backPressured => exact .other _ rfl rfl rfl
      | adminAction _ _ _ newTerm => exact .announced message _ newTerm rfl rfl rfl
      | accepted _ _ _ sameTerm => exact .accepted message _ sameTerm rfl rfl rfl

/-! ## Every term is announced once -/

@[simp] theorem announcements_accept
    (chronicle : Chronicle)
    (size position : Nat)
    (after : Channel) :
    (chronicle.accept size position after).announcements = chronicle.announcements := by
  rw [announcements, accept]
  dsimp only
  split
  · exact List.append_nil _
  · rfl

/-- Each term up to the latest one is covered by one announcement, and no other term by
any. -/
def IsCovered (chronicle : Chronicle) : Prop :=
  ∀ term, chronicle.announcements.countP (fun announcement => announcement.covers term) =
    if 0 < term ∧ term ≤ chronicle.channel.activeTerm then 1 else 0

theorem isCovered_start (settings : Settings) : (start settings).IsCovered := by
  intro term
  rw [if_neg]
  · rfl
  · rintro ⟨pos, le⟩
    exact absurd pos (Nat.not_lt.mpr le)

/-- A term that is announced is later than the latest one, so that the terms between
them are covered by it and by nothing before. -/
theorem IsCovered.announce
    {chronicle : Chronicle}
    (isCovered : chronicle.IsCovered)
    {after : Channel}
    (newTerm : chronicle.channel.activeTerm < after.activeTerm)
    (size : Nat) :
    (chronicle.announce size after).IsCovered := by
  intro term
  have before := isCovered term
  change (chronicle.settled ++ (chronicle.recent ++ [_])).countP _ =
    if 0 < term ∧ term ≤ after.activeTerm then 1 else 0
  rw [← List.append_assoc, List.countP_append, ← announcements, before, List.countP_singleton]
  simp only [Announcement.covers, Bool.and_eq_true, decide_eq_true_eq]
  split_ifs <;> omega

theorem IsCovered.step
    {chronicle : Chronicle}
    (isCovered : chronicle.IsCovered)
    (call : Call) :
    (chronicle.step call).IsCovered := by
  have stepped := chronicle.stepped_step call
  generalize chronicle.step call = next at stepped ⊢
  cases stepped with
  | announced message after newTerm _ _ activeTerm_eq =>
      exact isCovered.announce (activeTerm_eq ▸ newTerm) _
  | accepted message after _ _ _ activeTerm_eq =>
      intro term
      rw [announcements_accept, isCovered term, ← activeTerm_eq]
      rfl
  | other after _ _ activeTerm_eq =>
      intro term
      rw [activeTerm_eq]
      exact isCovered term

theorem isCovered_run (settings : Settings) (calls : List Call) :
    ((start settings).run calls).IsCovered := by
  induction calls using List.reverseRecOn with
  | nil => exact isCovered_start settings
  | append_singleton calls call inductionHypothesis =>
      rw [run_append]
      exact inductionHypothesis.step call

/-! ## Orderly chronicles -/

/-- Where an orderly chronicle stands: either nothing waits, and the position is in the
latest term, or a message waits that has announced the latest term and would enter it. -/
inductive Stands (chronicle : Chronicle) : Prop
  | settled :
      chronicle.waiting = none →
      chronicle.recent = [] →
      chronicle.channel.termOf chronicle.channel.position = chronicle.channel.activeTerm →
      Stands chronicle
  | waiting (size : Nat) :
      chronicle.waiting = some size →
      chronicle.recent.length = 1 →
      chronicle.channel.Enters (chronicle.channel.position + size) →
      chronicle.channel.termOf (chronicle.channel.position + size) =
        chronicle.channel.activeTerm →
      Stands chronicle

theorem stands_start (settings : Settings) : (start settings).Stands :=
  .settled rfl rfl (Nat.zero_div _)

/-- What waits is what is offered. -/
theorem eq_of_isAwaited
    {chronicle : Chronicle}
    {size waiting : Nat}
    (isAwaited : chronicle.isAwaited size = true)
    (waits : chronicle.waiting = some waiting) :
    waiting = size := by
  rw [Chronicle.isAwaited, waits] at isAwaited
  exact eq_of_beq isAwaited

/-- When nothing waits, a message announces the term that it would enter.  When one
waits, it announces nothing more. -/
theorem Stands.announce
    {chronicle : Chronicle}
    (stands : chronicle.Stands)
    {size : Nat}
    (isAwaited : chronicle.isAwaited size = true)
    {after : Channel}
    (newTerm : chronicle.channel.activeTerm <
      chronicle.channel.termOf (chronicle.channel.position + size))
    (settings_eq : after.settings = chronicle.channel.settings)
    (position_eq : after.position = chronicle.channel.position)
    (activeTerm_eq : after.activeTerm =
      chronicle.channel.termOf (chronicle.channel.position + size)) :
    (chronicle.announce size after).Stands := by
  cases stands with
  | settled _ recent_eq inTerm =>
      have same := termOf_eq_of_settings_eq settings_eq
      refine .waiting size rfl ?_ ?_ ?_
      · change (chronicle.recent ++ [_]).length = 1
        rw [recent_eq]
        rfl
      · change after.termOf after.position < after.termOf (after.position + size)
        rw [same, same, position_eq, inTerm]
        exact newTerm
      · change after.termOf (after.position + size) = after.activeTerm
        rw [same, position_eq, activeTerm_eq]
  | waiting _ waits _ _ inTerm =>
      rw [eq_of_isAwaited isAwaited waits] at inTerm
      exact absurd inTerm (Nat.ne_of_gt newTerm)

/-- When nothing waits, an accepted message stays in the term.  When one waits, it
enters the term that it has announced. -/
theorem Stands.accept
    {chronicle : Chronicle}
    (stands : chronicle.Stands)
    {size : Nat}
    (isAwaited : chronicle.isAwaited size = true)
    {after : Channel}
    (sameTerm : chronicle.channel.termOf (chronicle.channel.position + size) ≤
      chronicle.channel.activeTerm)
    (settings_eq : after.settings = chronicle.channel.settings)
    (position_eq : after.position = chronicle.channel.position + size)
    (activeTerm_eq : after.activeTerm = chronicle.channel.activeTerm) :
    (chronicle.accept size (chronicle.channel.position + size) after).Stands := by
  have same := termOf_eq_of_settings_eq settings_eq
  have later := chronicle.channel.termOf_le_termOf_add chronicle.channel.position size
  cases stands with
  | settled _ recent_eq inTerm =>
      have stays : ¬chronicle.channel.Enters (chronicle.channel.position + size) := by
        rw [Enters, inTerm]
        exact Nat.not_lt.mpr sameTerm
      refine .settled rfl ((if_neg stays).trans recent_eq) ?_
      change after.termOf after.position = after.activeTerm
      rw [same, position_eq, activeTerm_eq]
      omega
  | waiting _ waits _ enters inTerm =>
      rw [eq_of_isAwaited isAwaited waits] at enters inTerm
      refine .settled rfl (if_pos enters) ?_
      change after.termOf after.position = after.activeTerm
      rw [same, position_eq, activeTerm_eq, inTerm]

theorem Stands.step
    {chronicle : Chronicle}
    (stands : chronicle.isOrderly = true → chronicle.Stands)
    (call : Call)
    (isOrderly : (chronicle.step call).isOrderly = true) :
    (chronicle.step call).Stands := by
  have stepped := chronicle.stepped_step call
  generalize chronicle.step call = next at stepped isOrderly ⊢
  cases stepped with
  | announced message after newTerm settings_eq position_eq activeTerm_eq =>
      obtain ⟨wasOrderly, isAwaited⟩ := Bool.and_eq_true_iff.mp isOrderly
      exact (stands wasOrderly).announce isAwaited newTerm settings_eq position_eq activeTerm_eq
  | accepted message after sameTerm settings_eq position_eq activeTerm_eq =>
      obtain ⟨wasOrderly, isAwaited⟩ := Bool.and_eq_true_iff.mp isOrderly
      exact (stands wasOrderly).accept isAwaited sameTerm settings_eq position_eq activeTerm_eq
  | other after settings_eq position_eq activeTerm_eq =>
      have same := termOf_eq_of_settings_eq settings_eq
      cases stands isOrderly with
      | settled nobody recent_eq inTerm =>
          refine .settled nobody recent_eq ?_
          rw [same, position_eq, activeTerm_eq]
          exact inTerm
      | waiting size waits single enters inTerm =>
          refine .waiting size waits single ?_ ?_
          · rw [Enters, same, same, position_eq]
            exact enters
          · rw [same, position_eq, activeTerm_eq]
            exact inTerm

theorem stands_run
    (settings : Settings)
    (calls : List Call)
    (isOrderly : ((start settings).run calls).isOrderly = true) :
    ((start settings).run calls).Stands := by
  induction calls using List.reverseRecOn with
  | nil => exact stands_start settings
  | append_singleton calls call inductionHypothesis =>
      rw [run_append] at isOrderly ⊢
      exact Stands.step inductionHypothesis call isOrderly

/-! ## Entering terms -/

/-- In an orderly chronicle, a message that enters a term waited for it, and nothing else
was announced. -/
theorem Stands.length_recent
    {chronicle : Chronicle}
    (stands : chronicle.Stands)
    {size : Nat}
    (sameTerm : chronicle.channel.termOf (chronicle.channel.position + size) ≤
      chronicle.channel.activeTerm)
    (enters : chronicle.channel.Enters (chronicle.channel.position + size)) :
    chronicle.recent.length = 1 := by
  cases stands with
  | settled _ _ inTerm =>
      rw [Enters, inTerm] at enters
      exact absurd enters (Nat.not_lt.mpr sameTerm)
  | waiting _ _ single => exact single

/-- The latest term never goes back. -/
theorem activeTerm_le_step (chronicle : Chronicle) (call : Call) :
    chronicle.channel.activeTerm ≤ (chronicle.step call).channel.activeTerm := by
  have stepped := chronicle.stepped_step call
  generalize chronicle.step call = next at stepped ⊢
  cases stepped with
  | announced message after newTerm _ _ activeTerm_eq =>
      exact Nat.le_of_lt (activeTerm_eq ▸ newTerm)
  | accepted message after _ _ _ activeTerm_eq => exact Nat.le_of_eq activeTerm_eq.symm
  | other after _ _ activeTerm_eq => exact Nat.le_of_eq activeTerm_eq.symm

theorem activeTerm_le_run (chronicle : Chronicle) (calls : List Call) :
    chronicle.channel.activeTerm ≤ (chronicle.run calls).channel.activeTerm := by
  induction calls generalizing chronicle with
  | nil => exact Nat.le_refl _
  | cons call calls inductionHypothesis =>
      exact Nat.le_trans (chronicle.activeTerm_le_step call) (inductionHypothesis _)

/-- A term that was announced has been announced once, whatever is done later. -/
theorem countP_covers_eq_one
    {settings : Settings}
    {calls : List Call}
    {term : Nat}
    (positive : 0 < term)
    (announced : term ≤ ((start settings).run calls).channel.activeTerm)
    (later : List Call) :
    ((start settings).run (calls ++ later)).announcements.countP
      (fun announcement => announcement.covers term) = 1 := by
  have still := ((start settings).run calls).activeTerm_le_run later
  rw [← run_append] at still
  rw [isCovered_run settings (calls ++ later) term, if_pos ⟨positive, by omega⟩]

end Chronicle

open Chronicle (start)

/-- Every term that an accepted message enters or passes has been announced before by
just one refused offer, which first reached as far, and is not announced again.  If so
far a message that was refused for its term has always been the next one to be accepted,
just one offer was refused so since the position last entered a later term. -/
theorem announced_of_accepted
    {settings : Settings}
    {calls : List Call}
    {session : UInt32}
    {message : Bytes}
    {position : Nat}
    (accepted : (((initial settings).performAll calls).offer session message).1 =
      .accepted position) :
    let channel := (initial settings).performAll calls
    let chronicle := (start settings).run calls
    (∀ term later, channel.termOf channel.position < term → term ≤ channel.termOf position →
      ((start settings).run (calls ++ later)).announcements.countP
        (fun announcement => announcement.covers term) = 1) ∧
    (chronicle.isOrderly = true → channel.Enters position → chronicle.recent.length = 1) := by
  have reached : ((start settings).run calls).channel = (initial settings).performAll calls :=
    Chronicle.channel_run _ _
  have stands := Chronicle.stands_run settings calls
  dsimp only
  rw [← reached] at accepted ⊢
  have offered := offered_offer ((start settings).run calls).channel session message
  cases answered : ((start settings).run calls).channel.offer session message with
  | mk result after =>
      rw [answered] at offered accepted
      cases offered with
      | closed | maxPositionExceeded | backPressured | adminAction => cases accepted
      | accepted _ _ _ sameTerm =>
          cases accepted
          refine ⟨fun term later enters le => ?_, fun isOrderly enters => ?_⟩
          · exact Chronicle.countP_covers_eq_one (Nat.zero_lt_of_lt enters)
              (Nat.le_trans le sameTerm) later
          · exact (stands isOrderly).length_recent sameTerm enters

/-- A message is offered again after its term was announced; meanwhile another one is
offered that the capacity does not allow. -/
def patient : List Call :=
  [.subscribe, .offer 1 [1, 2, 3], .offer 1 [4, 5, 6], .offer 2 (List.replicate 56 0)]

theorem announced_of_accepted_patient :
    let channel := (initial ⟨64, 16, 100, 4096⟩).performAll patient
    let chronicle := (start ⟨64, 16, 100, 4096⟩).run patient
    (channel.offer 1 [4, 5, 6]).1 = .accepted 22 ∧
      channel.Enters 22 ∧
      (chronicle.announcements.countP fun announcement => announcement.covers 1) = 1 ∧
      chronicle.isOrderly = true ∧
      chronicle.recent.length = 1 := by
  have accepted : (((initial ⟨64, 16, 100, 4096⟩).performAll patient).offer 1 [4, 5, 6]).1 =
      .accepted 22 := by
    decide +kernel
  have enters : ((initial ⟨64, 16, 100, 4096⟩).performAll patient).Enters 22 := by
    decide +kernel
  have isOrderly : ((start ⟨64, 16, 100, 4096⟩).run patient).isOrderly = true := by
    decide +kernel
  obtain ⟨once, single⟩ := announced_of_accepted accepted
  have covered := once 1 [] (by decide +kernel) (by decide +kernel)
  rw [List.append_nil] at covered
  exact ⟨accepted, enters, covered, isOrderly, single isOrderly enters⟩

/-- A message announces two terms and is given up for smaller ones. -/
def abandoned : List Call :=
  [.offer 1 (List.replicate 24 0), .offer 1 (List.replicate 8 0)]

/-- A message announces a term and is given up for a larger one. -/
def outgrown : List Call :=
  [.offer 1 (List.replicate 8 0), .offer 1 (List.replicate 24 0)]

/-- A term is entered although no offer was refused since the last one was entered, and
another one although two were. -/
theorem not_announced_of_abandoned :
    let unannounced := (start ⟨1000, 16, 100, 4096⟩).run abandoned
    let twice := (start ⟨1000, 16, 100, 4096⟩).run outgrown
    ((unannounced.channel.offer 1 (List.replicate 8 0)).1 = .accepted 32 ∧
      unannounced.channel.Enters 32 ∧ unannounced.recent = []) ∧
    (twice.channel.offer 1 (List.replicate 24 0)).1 = .accepted 32 ∧
      twice.channel.Enters 32 ∧ twice.recent.length = 2 := by
  decide +kernel

end Channel
end EventRelay
