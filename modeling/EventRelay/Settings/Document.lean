import EventRelay.Disk.Basic
import EventRelay.Mismatch
import EventRelay.Settings.Basic
import EventRelay.Toml.Document

/-!
# Settings from documents

Settings are read from a TOML document in which every section and every entry
may be missing.  Entries are taken in the order of the document, so the first
one that cannot be taken is the one that is reported, and entries of unknown
names are passed over.  A few settings can be overridden by variables.
-/

namespace EventRelay

/-- What a value is when it is not what was expected. -/
def Toml.Value.found : Toml.Value → Found
  | .text value => .text value
  | .integer value => .integer value
  | .floating value => .floating value
  | .boolean value => .boolean value
  | .moment => .map
  | .array _ _ => .sequence
  | .table _ _ => .map

namespace Settings

/-- A reader of one value. -/
abbrev ValueReader (α : Type) := Toml.Value → Except Mismatch α

/-- Read a whole number within bounds. -/
def readBounded (expected : String) (least greatest : Int) : ValueReader Int
  | .integer value =>
      if least ≤ value ∧ value ≤ greatest then .ok value
      else .error (.value (.integer value) expected)
  | value => .error (.kind value.found expected)

/-- Read a 64-bit word under the name of its type. -/
def readWord (expected : String) : ValueReader UInt64 := fun value =>
  (readBounded expected 0 0xFFFFFFFFFFFFFFFF value).map fun number => UInt64.ofNat number.toNat

/-- Read a 64-bit word that measures. -/
def readMeasure : ValueReader UInt64 :=
  readWord "u64"

/-- Read a 64-bit word that counts. -/
def readCount : ValueReader UInt64 :=
  readWord "usize"

/-- Read a 32-bit word. -/
def readSmallCount : ValueReader UInt32 := fun value =>
  (readBounded "u32" 0 0xFFFFFFFF value).map fun number => UInt32.ofNat number.toNat

/-- Read a signed 32-bit word. -/
def readLevel : ValueReader Int32 := fun value =>
  (readBounded "i32" (-0x80000000) 0x7FFFFFFF value).map Int32.ofInt

/-- Read a truth value. -/
def readBoolean : ValueReader Bool
  | .boolean value => .ok value
  | value => .error (.kind value.found "a boolean")

/-- Read a text under a name of what it is for. -/
def readTextAs (expected : String) : ValueReader String
  | .text value => .ok value
  | value => .error (.kind value.found expected)

/-- Read a text. -/
def readText : ValueReader String :=
  readTextAs "a string"

/-- Read the name of a directory. -/
def readPath : ValueReader String :=
  readTextAs "path string"

/-! ## Sections -/

variable {σ α : Type}

/-- An entry of a section: its name, and what its value changes. -/
structure Field (σ : Type) where
  /-- The name. -/
  name : String
  /-- Take a value. -/
  set : σ → Toml.Value → Except Mismatch σ

/-- An entry that is read and then put into its section. -/
def field (name : String) (read : ValueReader α) (put : α → σ → σ) : Field σ where
  name := name
  set := fun whole value => (read value).map fun part => put part whole

/-- Take an entry under its name; unknown ones change nothing. -/
def setNamed (fields : List (Field σ)) (whole : σ) (entry : String × Toml.Value) :
    Except Mismatch σ :=
  match fields.find? fun field => field.name == entry.1 with
  | some field => field.set whole entry.2
  | none => .ok whole

/-- Read a section.  A list gives the entries in the order in which they are
declared. -/
def readSection (expected : String) (fields : List (Field σ)) (standard : σ) : ValueReader σ
  | .table _ entries => entries.foldlM (setNamed fields) standard
  | .array _ items =>
      (fields.zip items).foldlM (fun whole item => item.1.set whole item.2) standard
  | .moment => .ok standard
  | value => .error (.kind value.found expected)

/-- The entries of the log's section. -/
def logFields : List (Field LogSection) := [
  field "dir" readPath fun value whole => { whole with directory := value },
  field "max_segment_bytes" readMeasure fun value whole => { whole with maxSegmentSize := value },
  field "flush_every" readCount fun value whole => { whole with flushEvery := value },
  field "sync_writes" readBoolean fun value whole => { whole with syncWrites := value },
  field "compression_level" readLevel fun value whole => { whole with compressionLevel := value },
  field "compression_min_bytes" readCount fun value whole =>
    { whole with compressionMinSize := value }]

/-- The entries of the channel's section. -/
def transportFields : List (Field TransportSection) := [
  field "capacity_bytes" readMeasure fun value whole => { whole with capacity := value },
  field "term_length" readMeasure fun value whole => { whole with termLength := value },
  field "mtu" readCount fun value whole => { whole with mtu := value },
  field "max_position" readMeasure fun value whole => { whole with maxPosition := value },
  field "fragment_limit" readCount fun value whole => { whole with fragmentLimit := value },
  field "idle_sleep_ns" readMeasure fun value whole => { whole with idleSleep := value }]

/-- The entries of the section on retries. -/
def retryFields : List (Field RetrySection) := [
  field "max_retries" readSmallCount fun value whole => { whole with maxRetries := value },
  field "initial_backoff_us" readMeasure fun value whole => { whole with initialBackoff := value }]

/-- The entries of the workers' section. -/
def workerFields : List (Field WorkerSection) := [
  field "log_queue_capacity" readCount fun value whole => { whole with logQueueCapacity := value },
  field "log_batch_max" readCount fun value whole => { whole with logBatchMax := value },
  field "forward_queue_capacity" readCount fun value whole =>
    { whole with forwardQueueCapacity := value },
  field "forward_max_in_flight" readCount fun value whole =>
    { whole with forwardMaxInFlight := value }]

/-- The entries of the broker's section. -/
def brokerFields : List (Field BrokerSection) := [
  field "topic" readText fun value whole => { whole with topic := value },
  field "bootstrap_servers" readText fun value whole => { whole with bootstrapServers := value },
  field "acks" readText fun value whole => { whole with acks := value },
  field "linger_ms" readMeasure fun value whole => { whole with linger := value },
  field "batch_size" readMeasure fun value whole => { whole with batchSize := value },
  field "compression" readText fun value whole => { whole with compression := value }]

/-- The sections and entries of a document. -/
def fields : List (Field Settings) := [
  field "log" (readSection "struct LogSection" logFields .standard)
    fun value whole => { whole with log := value },
  field "transport" (readSection "struct TransportSection" transportFields .standard)
    fun value whole => { whole with transport := value },
  field "retry" (readSection "struct RetrySection" retryFields .standard)
    fun value whole => { whole with retry := value },
  field "workers" (readSection "struct WorkerSection" workerFields .standard)
    fun value whole => { whole with workers := value },
  field "broker" (readSection "struct BrokerSection" brokerFields .standard)
    fun value whole => { whole with broker := value },
  field "shutdown_grace_ms" readMeasure fun value whole => { whole with shutdownGrace := value },
  field "log_level" readText fun value whole => { whole with logLevel := value }]

end Settings

/-! ## Documents -/

/-- Why settings cannot be had. -/
inductive SettingsError where
  /-- The file cannot be read. -/
  | unreadable (file : String) (fault : DiskFault)
  /-- The text is no TOML document. -/
  | malformed
  /-- An entry has a value that cannot be taken. -/
  | mismatch (cause : Mismatch)
  /-- The settings break a rule. -/
  | invalid (violation : Settings.Violation)
deriving DecidableEq, Repr

/-- The text of the error. -/
def SettingsError.message : SettingsError → String
  | .unreadable file fault => "Failed to read config file " ++ file ++ ": " ++ fault.message
  | .malformed => "Invalid TOML"
  | .mismatch cause => cause.message Binary64.positional
  | .invalid violation => violation.message

namespace Settings

/-- Read settings, valid or not. -/
def read (text : String) : Except SettingsError Settings :=
  match Toml.read text with
  | none => .error .malformed
  | some document =>
      match document.entries.foldlM (setNamed fields) standard with
      | .error cause => .error (.mismatch cause)
      | .ok settings => .ok settings

/-- Settings that break no rule. -/
def checked (settings : Settings) : Except SettingsError Settings :=
  match settings.violation? with
  | some violation => .error (.invalid violation)
  | none => .ok settings

/-- Read valid settings. -/
def ofText (text : String) : Except SettingsError Settings := do
  (← read text).checked

/-- Override settings by variables.  An empty directory or topic overrides
nothing. -/
def overridden (settings : Settings) (fromEnvironment : String → Option String) : Settings :=
  let directory := ((fromEnvironment "WAL_PATH").filter (!·.isEmpty)).getD settings.log.directory
  let servers := (fromEnvironment "KAFKA_BOOTSTRAP_SERVERS").getD settings.broker.bootstrapServers
  let topic := ((fromEnvironment "PIPELINE_TOPIC").filter (!·.isEmpty)).getD settings.broker.topic
  { settings with
    log := { settings.log with directory := directory }
    broker := { settings.broker with topic := topic, bootstrapServers := servers } }

/-- Read valid settings from a file and override them by variables. -/
def load (disk : Disk) (file : String) (fromEnvironment : String → Option String) :
    Except SettingsError Settings :=
  match disk.read file with
  | .error fault => .error (.unreadable file fault)
  | .ok bytes =>
      match textOfBytes? bytes with
      | none => .error (.unreadable file .notText)
      | some text => do
          let settings ← ofText text
          (settings.overridden fromEnvironment).checked

end Settings
end EventRelay
