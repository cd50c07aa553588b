import EventRelay.Log.Basic

/-!
# Stores

A relay stores its events in a store: a durable log, or a store that is out of
order and refuses everything.
-/

namespace EventRelay

/-- Where a relay stores events. -/
inductive Store where
  /-- In a log. -/
  | durable (log : Log)
  /-- Nowhere: every write fails, and closing fails if so said. -/
  | broken (closeFails : Bool)
deriving Repr

namespace Store

/-- What a broken store reports. -/
def brokenFault : LogError :=
  .disk (.other "disk on fire")

/-- Store entries: all of them or none. -/
def append (store : Store) (disk : Disk) (entries : List Entry) :
    Except LogError Unit × Store × Disk :=
  match store with
  | .durable log =>
      match log.append disk entries with
      | .error error => (.error error, store, disk)
      | .ok (log, disk) => (.ok (), .durable log, disk)
  | .broken _ => (.error brokenFault, store, disk)

/-- Close the store. -/
def close (store : Store) (disk : Disk) : Except LogError Unit × Store × Disk :=
  match store with
  | .durable log =>
      let (log, disk) := log.close disk
      (.ok (), .durable log, disk)
  | .broken closeFails =>
      (if closeFails then .error brokenFault else .ok (), store, disk)

/-- The figures about the store, if it has any. -/
def stats? (store : Store) (disk : Disk) : Option Log.Stats :=
  match store with
  | .durable log => (log.stats disk).toOption
  | .broken _ => none

end Store
end EventRelay
