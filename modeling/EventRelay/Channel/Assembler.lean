import EventRelay.Channel.Fragment

/-!
# Putting messages together

An assembler takes fragments in the order in which they arrive and gives out
each message with its last fragment.  The fragments of different publications
may mix.  A message is dropped when another one of its publication begins before
its end, when its beginning is missing, or when it grows past the greatest size.
-/

namespace EventRelay

/-- The state of putting messages together. -/
structure Assembler where
  /-- The messages that have begun, by publication. -/
  partials : List (UInt32 × Bytes)
  /-- The size past which a message may not grow. -/
  maxSize : Nat
  /-- The number of drops. -/
  dropped : Nat
deriving DecidableEq, Repr

namespace Assembler

/-- The standard greatest size of a message: one MiB. -/
def standardMaxSize : Nat := 1048576

/-- An assembler without messages. -/
def initial (maxSize : Nat) : Assembler where
  partials := []
  maxSize := maxSize
  dropped := 0

/-- The message of a publication that has begun. -/
def partial? (assembler : Assembler) (session : UInt32) : Option Bytes :=
  (assembler.partials.find? fun entry => entry.1 == session).map Prod.snd

/-- Forget the message of a publication. -/
def forget (assembler : Assembler) (session : UInt32) : Assembler :=
  { assembler with
    partials := assembler.partials.filter fun entry => entry.1 != session }

/-- Keep the message of a publication. -/
def keep (assembler : Assembler) (session : UInt32) (message : Bytes) : Assembler :=
  let assembler := assembler.forget session
  { assembler with partials := (session, message) :: assembler.partials }

/-- Count a drop. -/
def drop (assembler : Assembler) : Assembler :=
  { assembler with dropped := assembler.dropped + 1 }

/-- Take a fragment that begins a message. -/
def feedBegin (assembler : Assembler) (fragment : Fragment) : Option Bytes × Assembler :=
  let assembler :=
    if (assembler.partial? fragment.session).isSome then
      (assembler.forget fragment.session).drop
    else assembler
  if fragment.isEnd then (some fragment.payload, assembler)
  else (none, assembler.keep fragment.session fragment.payload)

/-- Take a fragment that goes on with a message. -/
def feedMiddle (assembler : Assembler) (fragment : Fragment) : Option Bytes × Assembler :=
  match assembler.partial? fragment.session with
  | none => (none, assembler.drop)
  | some begun =>
      if assembler.maxSize < begun.length + fragment.payload.length then
        (none, (assembler.forget fragment.session).drop)
      else
        let message := begun ++ fragment.payload
        if fragment.isEnd then (some message, assembler.forget fragment.session)
        else (none, assembler.keep fragment.session message)

/-- Take a fragment; the result holds the message that it completes. -/
def feed (assembler : Assembler) (fragment : Fragment) : Option Bytes × Assembler :=
  if fragment.isBegin then assembler.feedBegin fragment else assembler.feedMiddle fragment

/-- Take fragments in order; the result holds the messages completed. -/
def feedAll (assembler : Assembler) : List Fragment → List Bytes × Assembler
  | [] => ([], assembler)
  | fragment :: rest =>
      let (message, assembler) := assembler.feed fragment
      let (messages, assembler) := assembler.feedAll rest
      (message.toList ++ messages, assembler)

/-- The number of messages that have begun. -/
def inProgress (assembler : Assembler) : Nat :=
  assembler.partials.length

end Assembler
end EventRelay
