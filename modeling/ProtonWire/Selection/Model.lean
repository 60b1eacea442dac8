import ProtonWire.Lib.StableSort
import ProtonWire.Lib.Shuffle
import ProtonWire.Store.Catalog

/-!
# The selection engine: requests, stages and reports

`crates/core/src/selection.rs`: the request vocabulary, the stage table, the elimination report and
the errors. A result is in `Except Fault`: a `Fault` is a typed refusal or a panic (an
`unreachable!`, an `expect`, an index outside a slice, a subtraction that underflows), so that
"never panics" is a statement about the model.
-/

namespace ProtonWire

/-! ## Requests -/

/-- A `std::time::Duration`. -/
structure Duration where
  secs : ℕ
  nanos : ℕ
  nanos_lt : nanos < 1000000000
  deriving DecidableEq

/-- `Duration::as_secs_f32`. -/
def Duration.asSecsF32 (d : Duration) : Binary32 :=
  (Binary32.ofInt d.secs).add ((Binary32.ofInt d.nanos).div (.ofInt 1000000000))

/-- `Duration`'s order: the seconds, then the nanoseconds. -/
def Duration.cmp (a b : Duration) : Ordering :=
  (compare a.secs b.secs).then (compare a.nanos b.nanos)

/-- Latency observations by logical server id. -/
structure LatencyTable where
  entries : List (String × Duration)

/-- The observation of a server, if any. -/
def LatencyTable.get (t : LatencyTable) (id : String) : Option Duration := t.entries.lookup id

/-- No observations. -/
def LatencyTable.isEmpty (t : LatencyTable) : Bool := t.entries.isEmpty

/-- What the user is connecting to. -/
inductive Target where
  | fastest
  | country (code : String)
  | countries (codes : List String)
  | state (name : String)
  | city (name : String)
  | server (name : String)
  | gateway (name : String)
  | secureCore (entryCountry exitCountry : Option String)
  deriving DecidableEq

/-- The weighted signals of the balanced policy. -/
structure WeightedSignals where
  load : Binary32
  latency : Binary32
  stability : Binary32
  featureMatch : Binary32
  history : Binary32
  deriving DecidableEq

/-- Every weight is finite and non-negative. -/
def WeightedSignals.isValid (w : WeightedSignals) : Bool :=
  [w.load, w.latency, w.stability, w.featureMatch, w.history].all fun x =>
    x.isFinite && Binary32.zero.le x

/-- The ranking policy. -/
inductive RankingPolicy where
  | official
  | balanced (weights : WeightedSignals)
  | lowestLoad
  | latency
  | random
  deriving DecidableEq

/-- A required or optional feature. -/
inductive FeatureConstraint where
  | p2p
  | tor
  | secureCore
  | streaming
  | ipv6
  | portForwarding
  deriving DecidableEq

/-- A required protocol. -/
inductive ProtocolConstraint where
  | wireguardUdp
  | wireguardTcp
  | stealth
  deriving DecidableEq

/-- The hard-filter constraints. -/
structure Constraints where
  excludedCountries : List String := []
  excludedStates : List String := []
  excludedCities : List String := []
  excludedServers : List String := []
  excludedEntryCountries : List String := []
  excludedExitCountries : List String := []
  excludePhysicalCountry : Bool := false
  physicalCountry : Option String := none
  requiredFeatures : List FeatureConstraint := []
  optionalFeatures : List FeatureConstraint := []
  requiredProtocol : Option ProtocolConstraint := none

/-- The selection request. -/
structure SelectionRequest where
  target : Target
  policy : RankingPolicy
  constraints : Constraints

/-- What the caller supplies besides the catalog. -/
structure SelectionContext where
  latency : LatencyTable := ⟨[]⟩
  accountTier : Option ℤ := none
  portForwardingEntitled : Option Bool := none
  portForwardingCapable : Option (List String) := none
  randomEntropy : Option UInt64 := none

/-! ## Stages -/

/-- One hard-filter or policy stage. -/
inductive FilterStage where
  | accountTier
  | unknownStatus
  | offline
  | allPhysicalsOffline
  | absentFromCatalog
  | serverType
  | targetGeography
  | physicalCountryExclusion
  | excludedCountry
  | excludedEntryCountry
  | excludedExitCountry
  | excludedState
  | excludedCity
  | excludedServer
  | requiredFeatures
  | protocolCompatibility
  | loadNotExposed
  | noLatencyObservation
  deriving DecidableEq

namespace FilterStage

/-- `STAGES`: every stage, in evaluation order. -/
def stages : List FilterStage :=
  [accountTier, unknownStatus, offline, allPhysicalsOffline, absentFromCatalog, serverType,
    targetGeography, physicalCountryExclusion, excludedCountry, excludedEntryCountry,
    excludedExitCountry, excludedState, excludedCity, excludedServer, requiredFeatures,
    protocolCompatibility, loadNotExposed, noLatencyObservation]

end FilterStage

/-- Where every candidate went. -/
structure EliminationReport where
  considered : ℕ
  survivors : ℕ
  stages : List (FilterStage × ℕ)
  deriving DecidableEq

/-! ## Results -/

/-- The decomposition of a balanced score. -/
structure WeightedBreakdown where
  loadTerm : Binary32
  latencyTerm : Binary32
  stabilityTerm : Binary32
  featureMatchTerm : Binary32
  historyTerm : Binary32
  total : Binary32
  deriving DecidableEq

/-- The signals behind a ranked candidate. -/
structure ScoringSignals where
  protonScore : Option Binary32
  load : Option ℤ
  latency : Option Duration
  weighted : Option WeightedBreakdown
  deriving DecidableEq

/-- What a policy without a latency table reports. -/
def ScoringSignals.catalogOnly (server : LogicalServer) : ScoringSignals :=
  ⟨server.score, server.load, none, none⟩

/-- One ranked candidate. -/
structure RankedCandidate where
  server : LogicalServer
  signals : ScoringSignals
  deriving DecidableEq

/-- The candidate ranked by catalog data alone. -/
def RankedCandidate.catalogOnly (server : LogicalServer) : RankedCandidate :=
  ⟨server, .catalogOnly server⟩

/-- The selection result, best first. -/
structure SelectionOutcome where
  ranked : List RankedCandidate
  report : EliminationReport
  deriving DecidableEq

/-- Failures of selection. -/
inductive SelectionError where
  | unsupportedRankingSignal (key : String)
  | invalidRankingMode (mode : String)
  | invalidWeights (message : String)
  | invalidCountry (code : String)
  | officialScoreUnavailable (lacking eligible : ℕ)
  | physicalCountryRequired
  | latencyDataUnavailable (weight : Binary32)
  | randomEntropyRequired
  | requiresEntitlementComposition
  | constraintsNotSatisfied (report : EliminationReport)
  | exactServerUnavailable (name : String) (stage : FilterStage)
  | standardFleetFeatureContradiction
  | secureCoreEntryEqualsExit (country : String)
  | secureCoreOnlyConstraints
  deriving DecidableEq

/-- A typed refusal, or a panic with its message. -/
inductive Fault where
  | refused (error : SelectionError)
  | panic (message : String)
  deriving DecidableEq

/-- The position of a stage in the table. -/
def FilterStage.ordinal (stage : FilterStage) : Except Fault ℕ :=
  match FilterStage.stages.findIdx? (· = stage) with
  | some i => .ok i
  | none => .error (.panic "every stage is in STAGES")

/-- Add to the first slot of a stage. -/
def chargeSlot (stage : FilterStage) (count : ℕ) : List (FilterStage × ℕ) → List (FilterStage × ℕ)
  | [] => []
  | (slot, tally) :: rest =>
    if slot = stage then (slot, tally + count) :: rest
    else (slot, tally) :: chargeSlot stage count rest

/-- Charge `count` eliminations to a stage. -/
def EliminationReport.charge (r : EliminationReport) (stage : FilterStage) (count : ℕ) :
    Except Fault EliminationReport :=
  if count = 0 then .ok r
  else if r.survivors < count then .error (.panic "attempt to subtract with overflow")
  else .ok { r with stages := chargeSlot stage count r.stages, survivors := r.survivors - count }

end ProtonWire
