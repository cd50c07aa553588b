import EventRelay.Bytes

/-!
# Fragments of messages

A message travels in fragments of at most a given size.  Flags mark the first
and the last fragment of a message, and every fragment counts for eight bytes
more than it carries.  An empty message travels in one empty fragment.
-/

namespace EventRelay

/-- One unit of a channel. -/
structure Fragment where
  /-- The publication that sent it. -/
  session : UInt32
  /-- The flags. -/
  flags : UInt8
  /-- The bytes that it carries. -/
  payload : Bytes
deriving DecidableEq, Repr

namespace Fragment

/-- The number of bytes that a fragment counts for besides its payload. -/
def headerSize : Nat := 8

/-- The flag of the first fragment of a message. -/
def beginFlag : UInt8 := 0x80

/-- The flag of the last fragment of a message. -/
def endFlag : UInt8 := 0x40

/-- Whether the fragment begins a message. -/
def isBegin (fragment : Fragment) : Bool :=
  fragment.flags &&& beginFlag != 0

/-- Whether the fragment ends a message. -/
def isEnd (fragment : Fragment) : Bool :=
  fragment.flags &&& endFlag != 0

/-- The number of bytes that a fragment counts for. -/
def framedSize (fragment : Fragment) : Nat :=
  fragment.payload.length + headerSize

/-- The number of bytes that fragments count for together. -/
def totalSize : List Fragment → Nat
  | [] => 0
  | fragment :: rest => fragment.framedSize + totalSize rest

/-- The flags of a fragment by its place in its message. -/
def flagsAt (isFirst isLast : Bool) : UInt8 :=
  (if isFirst then beginFlag else 0) ||| (if isLast then endFlag else 0)

/-- Cut bytes into pieces of a given size, the last of which may be smaller.
There is always one piece. -/
def pieces (size : Nat) (size_pos : 0 < size) (bytes : Bytes) : List Bytes :=
  match _dropped : bytes.drop size with
  | [] => [bytes]
  | next :: rest => bytes.take size :: pieces size size_pos (next :: rest)
  termination_by bytes.length
  decreasing_by
    have sizes := congrArg List.length _dropped
    simp only [List.length_drop, List.length_cons] at sizes ⊢
    omega

/-- The fragments of consecutive pieces of a message. -/
def ofPieces (session : UInt32) : (isFirst : Bool) → List Bytes → List Fragment
  | _, [] => []
  | isFirst, piece :: rest =>
      { session := session, flags := flagsAt isFirst rest.isEmpty, payload := piece } ::
        ofPieces session false rest

/-- The fragments of a message.  A greatest payload of zero counts as one. -/
def ofMessage (session : UInt32) (mtu : Nat) (message : Bytes) : List Fragment :=
  ofPieces session true (pieces (max mtu 1) (by omega) message)

end Fragment

/-- The number of fragments of a message of a given size. -/
def fragmentCount (messageSize mtu : Nat) : Nat :=
  let mtu := max mtu 1
  max ((messageSize + (mtu - 1)) / mtu) 1

/-- The number of bytes that the fragments of a message count for. -/
def framedSize (messageSize mtu : Nat) : Nat :=
  messageSize + fragmentCount messageSize mtu * Fragment.headerSize

end EventRelay
