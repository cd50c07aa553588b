import EventRelay.Channel.Basic

/-!
# Publishers

A publisher offers messages, either on a channel or against a script that says
how every offer ends.  When a script is used up, all later offers end alike.
-/

namespace EventRelay

/-- Answers to offers that are fixed ahead. -/
structure Script where
  /-- The answers to the next offers. -/
  answers : List Offer
  /-- The answer to all later offers. -/
  fallback : Offer
  /-- The sizes of the messages offered so far, in order. -/
  offeredSizes : List Nat
  /-- Whether the publisher is closed. -/
  isClosed : Bool
deriving DecidableEq, Repr

namespace Script

/-- A script of which nothing is used up. -/
def initial (answers : List Offer) (fallback : Offer) : Script where
  answers := answers
  fallback := fallback
  offeredSizes := []
  isClosed := false

/-- Answer an offer. -/
def offer (script : Script) (message : Bytes) : Offer × Script :=
  let script := { script with offeredSizes := script.offeredSizes ++ [message.length] }
  match script.answers with
  | [] => (script.fallback, script)
  | answer :: rest => (answer, { script with answers := rest })

end Script

/-- Where messages are offered. -/
inductive Publisher where
  /-- On a channel, under a session. -/
  | onChannel (session : UInt32)
  /-- Against a script. -/
  | scripted (script : Script)
deriving DecidableEq, Repr

namespace Publisher

/-- Offer a message. -/
def offer (publisher : Publisher) (channel : Channel) (message : Bytes) :
    Offer × Publisher × Channel :=
  match publisher with
  | .onChannel session =>
      let (result, channel) := channel.offer session message
      (result, publisher, channel)
  | .scripted script =>
      let (result, script) := script.offer message
      (result, .scripted script, channel)

/-- Whether somebody may receive what is offered. -/
def isConnected (publisher : Publisher) (channel : Channel) : Bool :=
  match publisher with
  | .onChannel _ => channel.isConnected
  | .scripted script => !script.isClosed

/-- Close the publisher, and with it the channel that it offers on. -/
def close (publisher : Publisher) (channel : Channel) : Publisher × Channel :=
  match publisher with
  | .onChannel _ => (publisher, channel.close)
  | .scripted script => (.scripted { script with isClosed := true }, channel)

/-- The sizes of the messages offered against a script. -/
def offeredSizes? : Publisher → Option (List Nat)
  | .onChannel _ => none
  | .scripted script => some script.offeredSizes

end Publisher
end EventRelay
