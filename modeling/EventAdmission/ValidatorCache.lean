import EventAdmission.Validation

/-!
# The cache of validators

One validator for each name of an event type, together with the event type it
was built from. A changed event type replaces its validator; a failed build
leaves the cache as it was. Every build has a number, so a validator that was
built before can be told from a new one.
-/

namespace EventAdmission

structure BuiltValidator where
  number : Nat
  validator : EventValidator

structure CacheEntry where
  snapshot : EventType
  built : BuiltValidator

structure ValidatorCache where
  entries : Keyed CacheEntry
  builds : Nat

namespace ValidatorCache

def empty : ValidatorCache := ⟨[], 0⟩

def size (c : ValidatorCache) : Nat := c.entries.length

def isEmpty (c : ValidatorCache) : Bool := c.entries.isEmpty

def lookup? (c : ValidatorCache) (t : EventType) : Option BuiltValidator := do
  let entry ← Keyed.find? c.entries t.name
  if entry.snapshot.equal t then some entry.built else none

def store (c : ValidatorCache) (t : EventType) (v : EventValidator) : ValidatorCache :=
  ⟨Keyed.insert c.entries t.name ⟨t, c.builds, v⟩, c.builds + 1⟩

/-- The validator of an event type, built unless there is one, with the cache behind it. -/
def getOrBuild (c : ValidatorCache) (v : Validation) (t : EventType) :
    Logged (Except SetupError BuiltValidator × ValidatorCache) :=
  match c.lookup? t with
  | some built => .silent (.ok built, c)
  | none =>
    let attempt := v.forType t
    match attempt.result with
    | .error e => ⟨attempt.records, .error e, c⟩
    | .ok validator =>
      let stored := c.store t validator
      let replaced :=
        if Keyed.contains c.entries t.name then [LogRecord.cacheReplaced t.name] else []
      ⟨attempt.records ++ replaced ++ [.cacheStored t.name stored.size],
        .ok ⟨c.builds, validator⟩, stored⟩

/-- Drops the validator of a name, and tells whether there was one. -/
def invalidate (c : ValidatorCache) (name : String) : Logged (Bool × ValidatorCache) :=
  if Keyed.contains c.entries name then
    ⟨[.cacheInvalidated name], true, { c with entries := Keyed.erase c.entries name }⟩
  else .silent (false, c)

def clear (c : ValidatorCache) : Logged ValidatorCache :=
  ⟨[.cacheCleared], { c with entries := [] }⟩

end ValidatorCache

end EventAdmission
