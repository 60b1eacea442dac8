import Mathlib

/-!
# The persisted scheduler deadlines

`crates/store/src/deadlines.rs`. The file `deadlines.json` is modelled by the document it decodes to
(`none`: no file). A save writes a sibling temporary file, syncs it and renames it over the target,
so it is atomic: it either replaces the document or leaves the old one. The environment supplies the
error a load or a save runs into, if any.

* `SchedulerDeadlines`, its default, `loadStrict`, `save`;
* `save_eq_ok`: a save that succeeds writes its argument under the current schema version;
* `loadStrict_some`: a loaded document has the current schema version.
-/

namespace ProtonWire

/-- `DEADLINES_SCHEMA_VERSION`. -/
def deadlinesSchemaVersion : ℕ := 1

/-- Which component won the greatest-of that set the effective deadline. -/
inductive IntervalSource where
  | configured
  | threeHourFloor
  | protonLifetime
  | retryAfter
  deriving DecidableEq

/-- The persisted scheduler state document. -/
structure SchedulerDeadlines where
  schemaVersion : ℕ
  lastRequestUnix : Option ℕ
  lastSuccessUnix : Option ℕ
  nextEligibleUnix : Option ℕ
  nextEligibleSource : Option IntervalSource
  wallHighWaterUnix : ℕ
  suppressionUntilUnix : Option ℕ
  automaticRefreshCount : ℕ
  manualRefreshCount : ℕ
  deriving DecidableEq

namespace SchedulerDeadlines

/-- The document of a first start: nothing requested, nothing suppressed. -/
protected def default : SchedulerDeadlines where
  schemaVersion := deadlinesSchemaVersion
  lastRequestUnix := none
  lastSuccessUnix := none
  nextEligibleUnix := none
  nextEligibleSource := none
  wallHighWaterUnix := 0
  suppressionUntilUnix := none
  automaticRefreshCount := 0
  manualRefreshCount := 0

end SchedulerDeadlines

/-- Failures of the deadline store. -/
inductive DeadlineStoreError where
  | io (message : String)
  | fsTrust (message : String)
  | tooLarge (bytes : ℕ)
  | malformed (message : String)
  deriving DecidableEq

namespace DeadlineStore

/-- The read and validate body of a load, once the file could be read and decoded. -/
def loadValidated (file : Option SchedulerDeadlines) :
    Except DeadlineStoreError (Option SchedulerDeadlines) :=
  match file with
  | none => .ok none
  | some doc =>
    if doc.schemaVersion ≠ deadlinesSchemaVersion then
      .error (.malformed ("deadline schema version " ++ toString doc.schemaVersion ++ " != " ++
        toString deadlinesSchemaVersion))
    else .ok (some doc)

/-- The strict load. `fault` is the error of the trust walk, the read or the decoder, if any. -/
def loadStrict (file : Option SchedulerDeadlines) (fault : Option DeadlineStoreError) :
    Except DeadlineStoreError (Option SchedulerDeadlines) :=
  match fault with
  | some error => .error error
  | none => loadValidated file

/-- The atomic save: the new content of the file, or the error `fault` the write ran into. -/
def save (doc : SchedulerDeadlines) (fault : Option DeadlineStoreError) :
    Except DeadlineStoreError SchedulerDeadlines :=
  match fault with
  | some error => .error error
  | none => .ok { doc with schemaVersion := deadlinesSchemaVersion }

theorem save_eq_ok {doc doc' : SchedulerDeadlines} {fault : Option DeadlineStoreError}
    (hv : doc.schemaVersion = deadlinesSchemaVersion) (h : save doc fault = .ok doc') :
    doc' = doc := by
  cases fault with
  | some error => cases h
  | none =>
    cases h
    rw [← hv]

theorem loadStrict_some {file : Option SchedulerDeadlines} {fault : Option DeadlineStoreError}
    {doc : SchedulerDeadlines} (h : loadStrict file fault = .ok (some doc)) :
    file = some doc ∧ doc.schemaVersion = deadlinesSchemaVersion := by
  cases fault with
  | some error => cases h
  | none =>
    cases file with
    | none => cases h
    | some d =>
      simp only [loadStrict, loadValidated] at h
      split_ifs at h with hv
      cases h
      exact ⟨rfl, not_not.mp hv⟩

theorem loadStrict_none {file : Option SchedulerDeadlines} {fault : Option DeadlineStoreError}
    (h : loadStrict file fault = .ok none) : file = none := by
  cases fault with
  | some error => cases h
  | none =>
    cases file with
    | none => rfl
    | some d =>
      simp only [loadStrict, loadValidated] at h
      split_ifs at h
      cases h

end DeadlineStore

end ProtonWire
