import EventRelay.Channel.Fragment

/-!
# Channels

A channel carries messages from publications to subscriptions.  Its position
grows by the framed size of every message that it accepts, and each
subscription has the position up to which it has read.  A message is refused
while the slowest subscription would fall back by more than the capacity, and
once whenever it would enter a new term; in the latter case the fragments that
every subscription has read are given up.  Messages that nobody listens to are
accepted and forgotten.
-/

namespace EventRelay

/-- What becomes of a message that is offered. -/
inductive Offer where
  /-- It is accepted; the channel's position after it. -/
  | accepted (position : Nat)
  /-- It is refused because the slowest subscription is too far behind. -/
  | backPressured
  /-- It is refused because a term ends. -/
  | adminAction
  /-- It is refused because the channel is closed. -/
  | closed
  /-- It is refused because the channel would pass its greatest position. -/
  | maxPositionExceeded
deriving DecidableEq, Repr

/-- Whether the message may be accepted later. -/
def Offer.isTransient : Offer → Bool
  | .backPressured => true
  | .adminAction => true
  | _ => false

namespace Channel

/-- How a channel works. -/
structure Settings where
  /-- How far the slowest subscription may fall back. -/
  capacity : Nat
  /-- The length of a term. -/
  termLength : Nat
  /-- The greatest payload of a fragment. -/
  mtu : Nat
  /-- The greatest position. -/
  maxPosition : Nat
deriving DecidableEq, Repr

/-- Four MiB of capacity, terms of one MiB, payloads of 1408 bytes. -/
def Settings.standard : Settings where
  capacity := 4194304
  termLength := 1048576
  mtu := 1408
  maxPosition := 0x7FFFFFFFFFFFFFFF

/-- How far a subscription has read. -/
structure Cursor where
  /-- The index of the fragment to be read next. -/
  nextIndex : Nat
  /-- The position up to which it has read. -/
  position : Nat
deriving DecidableEq, Repr

end Channel

/-- A channel. -/
structure Channel where
  /-- How the channel works. -/
  settings : Channel.Settings
  /-- The fragments that are kept. -/
  fragments : List Fragment
  /-- The index of the first fragment that is kept. -/
  baseIndex : Nat
  /-- The position. -/
  position : Nat
  /-- The latest term that was entered or announced. -/
  activeTerm : Nat
  /-- The subscriptions, by number. -/
  cursors : List (Nat × Channel.Cursor)
  /-- The number of the next subscription. -/
  nextSubscription : Nat
  /-- The session of the next publication. -/
  nextSession : UInt32
  /-- Whether the channel is closed. -/
  isClosed : Bool
deriving DecidableEq, Repr

namespace Channel

/-- A new channel. -/
def initial (settings : Settings) : Channel where
  settings := settings
  fragments := []
  baseIndex := 0
  position := 0
  activeTerm := 0
  cursors := []
  nextSubscription := 0
  nextSession := 1
  isClosed := false

/-- The index after the last fragment that is kept. -/
def tailIndex (channel : Channel) : Nat :=
  channel.baseIndex + channel.fragments.length

/-- The position of the slowest subscription. -/
def slowest? (channel : Channel) : Option Nat :=
  (channel.cursors.map fun cursor => cursor.2.position).min?

/-- The least index that a subscription still has to read. -/
def floorIndex (channel : Channel) : Nat :=
  (channel.cursors.map fun cursor => cursor.2.nextIndex).min?.getD channel.tailIndex

/-- Give up the fragments that every subscription has read. -/
def compact (channel : Channel) : Channel :=
  let count := min (channel.floorIndex - channel.baseIndex) channel.fragments.length
  { channel with
    fragments := channel.fragments.drop count
    baseIndex := channel.baseIndex + count }

/-- Whether accepting a framed size would let the slowest subscription fall
back too far. -/
def exceedsCapacity (channel : Channel) (size : Nat) : Bool :=
  match channel.slowest? with
  | none => false
  | some slowest => decide (channel.settings.capacity < channel.position - slowest + size)

/-- The term of a position. -/
def termOf (channel : Channel) (position : Nat) : Nat :=
  position / max channel.settings.termLength 1

/-- Accept a message: keep its fragments if somebody listens, and move on. -/
def accept (channel : Channel) (session : UInt32) (message : Bytes) (position : Nat) : Channel :=
  let added :=
    if channel.cursors.isEmpty then []
    else Fragment.ofMessage session channel.settings.mtu message
  { channel with
    fragments := channel.fragments ++ added
    position := position }

/-- Offer a message of a publication. -/
def offer (channel : Channel) (session : UInt32) (message : Bytes) : Offer × Channel :=
  if channel.isClosed then (.closed, channel)
  else
    let size := EventRelay.framedSize message.length channel.settings.mtu
    let position := channel.position + size
    if channel.settings.maxPosition < position then (.maxPositionExceeded, channel)
    else if channel.exceedsCapacity size then (.backPressured, channel)
    else if channel.activeTerm < channel.termOf position then
      (.adminAction, compact { channel with activeTerm := channel.termOf position })
    else (.accepted position, channel.accept session message position)

/-- A new publication: its session, and the channel that knows it.  Sessions begin anew
after `2 ^ 32` publications. -/
def publication (channel : Channel) : UInt32 × Channel :=
  (channel.nextSession, { channel with nextSession := channel.nextSession + 1 })

/-- A new subscription, which reads what is accepted from now on. -/
def subscribe (channel : Channel) : Nat × Channel :=
  let cursor : Cursor := ⟨channel.tailIndex, channel.position⟩
  (channel.nextSubscription, { channel with
    cursors := channel.cursors ++ [(channel.nextSubscription, cursor)]
    nextSubscription := channel.nextSubscription + 1 })

/-- The cursor of a subscription. -/
def cursor? (channel : Channel) (subscription : Nat) : Option Cursor :=
  (channel.cursors.find? fun cursor => cursor.1 == subscription).map Prod.snd

/-- The fragments that a cursor has not read. -/
def pendingOf (channel : Channel) (cursor : Cursor) : List Fragment :=
  channel.fragments.drop (cursor.nextIndex - channel.baseIndex)

/-- Move a cursor past fragments. -/
def Cursor.advance (cursor : Cursor) (fragments : List Fragment) : Cursor where
  nextIndex := cursor.nextIndex + fragments.length
  position := cursor.position + Fragment.totalSize fragments

/-- Hand out at most a number of fragments to a subscription. -/
def poll (channel : Channel) (subscription limit : Nat) : List Fragment × Channel :=
  match channel.cursor? subscription with
  | none => ([], channel)
  | some cursor =>
      let batch := (channel.pendingOf cursor).take limit
      (batch, { channel with
        cursors := channel.cursors.map fun entry =>
          if entry.1 = subscription then (entry.1, entry.2.advance batch) else entry })

/-- End a subscription. -/
def unsubscribe (channel : Channel) (subscription : Nat) : Channel :=
  compact { channel with
    cursors := channel.cursors.filter fun cursor => cursor.1 != subscription }

/-- Close the channel. -/
def close (channel : Channel) : Channel :=
  { channel with isClosed := true }

/-- Whether the channel is open and somebody listens. -/
def isConnected (channel : Channel) : Bool :=
  !channel.isClosed && !channel.cursors.isEmpty

/-- Whether the channel is closed and a subscription has read everything. -/
def isDrained (channel : Channel) (subscription : Nat) : Bool :=
  channel.isClosed &&
    match channel.cursor? subscription with
    | none => true
    | some cursor => decide (channel.tailIndex ≤ cursor.nextIndex)

end Channel
end EventRelay
