import EventRelay.Frame.Basic

/-!
# Writing and reading frames

A body is compressed when it is large enough and gets smaller by it.  A reader
checks the size first, then the checksum, and then takes the body apart.
-/

namespace EventRelay
namespace Frame

/-! ## Writing -/

/-- An entry as it stands in a body. -/
def encodeEntry (entry : Entry) : Bytes :=
  entry.key.bytes ++ Bytes.ofNatLE 4 entry.value.length ++ entry.value

/-- The body of entries. -/
def encodeBody (entries : List Entry) : Bytes :=
  Bytes.ofNatLE 4 entries.length ++ entries.flatMap encodeEntry

/-- The size of an entry in a body. -/
def entrySize (entry : Entry) : Nat :=
  Key.size + 4 + entry.value.length

/-- The size of the body of entries. -/
def bodySize (entries : List Entry) : Nat :=
  4 + entries.foldr (fun entry size => entrySize entry + size) 0

@[simp] theorem length_encodeEntry (entry : Entry) :
    (encodeEntry entry).length = entrySize entry := by
  simp only [encodeEntry, entrySize, Key.size, List.length_append, entry.key.length_bytes,
    Bytes.length_ofNatLE]

@[simp] theorem length_encodeBody (entries : List Entry) :
    (encodeBody entries).length = bodySize entries := by
  have size (entries : List Entry) :
      (entries.flatMap encodeEntry).length =
        entries.foldr (fun entry size => entrySize entry + size) 0 := by
    induction entries with
    | nil => rfl
    | cons entry rest inductionHypothesis => simp [inductionHypothesis]
  simp [encodeBody, bodySize, size]

/-- The stored form of a body, and whether it is compressed. -/
def store (compression : Compression) (body : Bytes) : Bytes × Bool :=
  if body.length < compression.minSize then (body, false)
  else
    match Zstandard.compress? (.ofInt compression.level) body with
    | some compressed => (compressed, true)
    | none => (body, false)

/-- A stored body with what precedes it. -/
def frame (stored : Bytes) (isCompressed : Bool) : Bytes :=
  Bytes.ofNatLE 4 stored.length ++ [isCompressed.toUInt8] ++
    Bytes.ofUInt32LE (Checksum.crc32c stored) ++ stored

/-- The frame of entries.  A body that is too large, and too small to be
compressed, is refused by its size alone. -/
def encode (entries : List Entry) (compression : Compression) : Except FrameError Bytes :=
  let size := bodySize entries
  if size < compression.minSize ∧ maxBodySize < size then .error (.oversized size)
  else
    let (stored, isCompressed) := store compression (encodeBody entries)
    if maxBodySize < stored.length then .error (.oversized stored.length)
    else .ok (frame stored isCompressed)

/-- The frame of entries is that of their stored body, unless that is too large. -/
theorem encode_eq (entries : List Entry) (compression : Compression) :
    encode entries compression =
      let stored := store compression (encodeBody entries)
      if maxBodySize < stored.1.length then .error (.oversized stored.1.length)
      else .ok (frame stored.1 stored.2) := by
  unfold encode
  dsimp only
  split
  · rename_i refused
    simp [store, refused.1, refused.2]
  · rfl

/-! ## Reading -/

/-- Read what precedes a body from the front of the data. -/
def Header.read (data : Bytes) : Except FrameError Header :=
  match Bytes.split? headerSize data with
  | none => .error (.truncated headerSize data.length)
  | some (fields, _) =>
      let bodySize := Bytes.toNatLE (fields.take 4)
      if maxBodySize < bodySize then .error (.oversized bodySize)
      else
        .ok {
          bodySize := bodySize
          flags := UInt8.ofNat (Bytes.toNatLE ((fields.drop 4).take 1))
          checksum := UInt32.ofNat (Bytes.toNatLE (fields.drop 5)) }

/-- Read the entry at the front of a body's rest. -/
def decodeEntry (size index : Nat) (rest : Bytes) : Except FrameError (Entry × Bytes) :=
  match Bytes.split? Key.size rest with
  | none => .error (.malformed (.entryHead index size))
  | some (keyBytes, afterKey) =>
      match Bytes.split? 4 afterKey with
      | none => .error (.malformed (.entryHead index size))
      | some (sizeBytes, afterSize) =>
          let valueSize := Bytes.toNatLE sizeBytes
          match Bytes.split? valueSize afterSize with
          | none => .error (.malformed (.entryValue index valueSize afterSize.length))
          | some (value, rest) =>
              match Key.ofBytes? keyBytes with
              | none => .error (.malformed (.entryHead index size))
              | some key => .ok (⟨key, value⟩, rest)

/-- Read a number of entries, the first of which has the given index.  The
result also holds what follows them. -/
def decodeEntries (size : Nat) :
    (count index : Nat) → Bytes → Except FrameError (List Entry × Bytes)
  | 0, _, rest => .ok ([], rest)
  | count + 1, index, rest => do
      let (entry, rest) ← decodeEntry size index rest
      let (entries, rest) ← decodeEntries size count (index + 1) rest
      return (entry :: entries, rest)

/-- The entries of a body that is not compressed. -/
def decodeEntryList (body : Bytes) : Except FrameError (List Entry) :=
  match Bytes.split? 4 body with
  | none => .error (.malformed .noCount)
  | some (countBytes, rest) => do
      let count := Bytes.toNatLE countBytes
      let (entries, rest) ← decodeEntries body.length count 0 rest
      if rest.isEmpty then return entries
      else .error (.malformed (.trailing rest.length count))

/-- The body that a stored one stands for. -/
def restore (isCompressed : Bool) (stored : Bytes) : Except FrameError Bytes :=
  if isCompressed then
    match Zstandard.decode stored with
    | .ok body => .ok body
    | .error fault => .error (.compression fault)
  else .ok stored

/-- The entries of a stored body, which must have the size and the checksum
that its header says. -/
def decodeBody (header : Header) (stored : Bytes) : Except FrameError (List Entry) := do
  if stored.length ≠ header.bodySize then
    .error (.truncated header.bodySize stored.length)
  else
    let computed := Checksum.crc32c stored
    if computed ≠ header.checksum then
      .error (.checksumMismatch header.checksum computed)
    else
      let body ← restore header.isCompressed stored
      decodeEntryList body

/-- The entries of the frame at the front of the data, and the frame's size. -/
def decode (data : Bytes) : Except FrameError (List Entry × Nat) := do
  let header ← Header.read data
  let total := headerSize + header.bodySize
  if data.length < total then .error (.truncated total data.length)
  else
    let entries ← decodeBody header ((data.drop headerSize).take header.bodySize)
    return (entries, total)

/-- Read the frame at an offset of a file's bytes. -/
def readAt (bytes : Bytes) (offset : Nat) : Except FrameError (List Entry) :=
  let data := bytes.drop offset
  match Bytes.split? headerSize data with
  | none => .error (.disk .endOfFile)
  | some (head, rest) => do
      let header ← Header.read head
      match Bytes.split? header.bodySize rest with
      | none => .error (.disk .endOfFile)
      | some (stored, _) => decodeBody header stored

end Frame
end EventRelay
