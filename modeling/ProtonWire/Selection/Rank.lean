import ProtonWire.Selection.Filter

/-!
# The ranking policies and `select`

`crates/core/src/selection.rs`, from `select` to `rank_balanced`. Scores and weights are binary32
values; `f32::total_cmp` is `Binary32.totalCmp`. A server id compares by its characters, which is
the order of its UTF-8 bytes.
-/

namespace ProtonWire

open StableSort

/-- `i8::MAX`. -/
def i8Max : ℤ := 127

/-! ## Official, latency, load -/

/-- The comparison of the official policy. -/
def officialCmp (a b : RankedCandidate) : Except Fault Ordering :=
  .ok (((a.server.score.getD .maxFinite).totalCmp (b.server.score.getD .maxFinite)).then
    ((compare (a.server.load.getD i8Max) (b.server.load.getD i8Max)).then
      (compare a.server.id b.server.id)))

/-- The official policy. -/
def rankOfficial (candidates : List LogicalServer) : Except Fault (List RankedCandidate) :=
  let lacking := candidates.countP fun s => s.score.isNone
  if lacking > 0 then .error (.refused (.officialScoreUnavailable lacking candidates.length))
  else sortBy officialCmp (candidates.map RankedCandidate.catalogOnly)

/-- The candidate ranked by an observation. -/
def RankedCandidate.observed (s : LogicalServer) (rtt : Duration) : RankedCandidate :=
  ⟨s, ⟨s.score, s.load, some rtt, none⟩⟩

/-- The comparison of the latency policy. -/
def latencyCmp (a b : RankedCandidate) : Except Fault Ordering :=
  match a.signals.latency, b.signals.latency with
  | some aRtt, some bRtt => .ok ((aRtt.cmp bRtt).then (compare a.server.id b.server.id))
  | _, _ => .error (.panic "only observed candidates are ranked here")

/-- The loop of a policy that ranks what `rank` gives and counts the rest. -/
def partitionRanked (rank : LogicalServer → Option RankedCandidate) :
    List LogicalServer → List RankedCandidate → ℕ → List RankedCandidate × ℕ
  | [], ranked, missing => (ranked, missing)
  | s :: rest, ranked, missing =>
    match rank s with
    | some candidate => partitionRanked rank rest (ranked ++ [candidate]) missing
    | none => partitionRanked rank rest ranked (missing + 1)

/-- The latency policy. -/
def rankLowestLatency (candidates : List LogicalServer) (context : SelectionContext)
    (report : EliminationReport) : Except Fault (List RankedCandidate × EliminationReport) := do
  if context.latency.isEmpty then .error (.refused (.latencyDataUnavailable .one))
  else
    let (ranked, missing) := partitionRanked
      (fun s => (context.latency.get s.id).map (RankedCandidate.observed s)) candidates [] 0
    let report ← report.charge .noLatencyObservation missing
    return (← sortBy latencyCmp ranked, report)

/-- The comparison of the load policy. -/
def loadCmp (a b : RankedCandidate) : Except Fault Ordering :=
  .ok ((compare (a.server.load.getD i8Max) (b.server.load.getD i8Max)).then
    (compare a.server.id b.server.id))

/-- The load policy. -/
def rankLowestLoad (candidates : List LogicalServer) (report : EliminationReport) :
    Except Fault (List RankedCandidate × EliminationReport) := do
  let (ranked, missing) := partitionRanked
    (fun s => s.load.map fun _ => RankedCandidate.catalogOnly s) candidates [] 0
  let report ← report.charge .loadNotExposed missing
  return (← sortBy loadCmp ranked, report)

/-! ## Random -/

/-- The seeded splitmix64 stream. -/
structure SeededDraw where
  state : UInt64

/-- The next output of the stream. -/
def SeededDraw.nextU64 (rng : SeededDraw) : UInt64 × SeededDraw :=
  let state := rng.state * 6364136223846793005 + 1442695040888963407
  let z := (state ^^^ (state >>> 30)) * 0xbf58476d1ce4e5b9
  let z := (z ^^^ (z >>> 27)) * 0x94d049bb133111eb
  (z ^^^ (z >>> 31), ⟨state⟩)

/-- A draw below `bound`. -/
def SeededDraw.below (rng : SeededDraw) (bound : ℕ) : ℕ × SeededDraw :=
  (rng.nextU64.1.toNat % bound, rng.nextU64.2)

/-- The in-place uniform shuffle over the seeded stream. -/
def fisherYates {α : Type} (items : Array α) (rng : SeededDraw) :
    Except Fault (Array α × SeededDraw) :=
  FisherYates.shuffle (.panic "index out of bounds") SeededDraw.below items rng

/-- `by_country.entry(country).or_default().push(server)`, on the entries in ascending order. -/
def pushCountry (country : String) (s : LogicalServer) :
    List (String × List LogicalServer) → List (String × List LogicalServer)
  | [] => [(country, [s])]
  | (c, servers) :: rest =>
    match compare country c with
    | .lt => (country, [s]) :: (c, servers) :: rest
    | .eq => (c, servers ++ [s]) :: rest
    | .gt => (c, servers) :: pushCountry country s rest

/-- The candidates by exit country. -/
def groupByCountry (candidates : List LogicalServer) : List (String × List LogicalServer) :=
  candidates.foldl (fun groups s => pushCountry s.exitCountry s groups) []

/-- Shuffle each country in turn. -/
def shuffleCountries :
    List (String × List LogicalServer) → SeededDraw → Except Fault (List RankedCandidate)
  | [], _ => .ok []
  | (_, servers) :: rest, rng => do
    let (servers, rng) ← fisherYates servers.toArray rng
    return servers.toList.map RankedCandidate.catalogOnly ++ (← shuffleCountries rest rng)

/-- The random policy. -/
def rankRandom (candidates : List LogicalServer) (entropy : UInt64) :
    Except Fault (List RankedCandidate) := do
  let (countries, rng) ← fisherYates (groupByCountry candidates).toArray ⟨entropy⟩
  shuffleCountries countries.toList rng

/-! ## Balanced -/

/-- The satisfied fraction of the optional features. -/
def optionalMatchRatio (s : LogicalServer) (optional : List FeatureConstraint)
    (context : SelectionContext) : Binary32 :=
  if optional.isEmpty then .one
  else (Binary32.ofInt (optional.countP fun feature => featureHolds s feature context)).div
    (.ofInt optional.length)

/-- A positive weight. -/
def positiveWeight (x : Binary32) : Bool := Binary32.zero.lt x

/-- The pool of the balanced policy: the servers with the data the weights need, and how many lack a
load or an observation. -/
def balancedPool (weights : WeightedSignals) (context : SelectionContext) :
    List LogicalServer → List LogicalServer → ℕ → ℕ → List LogicalServer × ℕ × ℕ
  | [], pool, noLoad, noLatency => (pool, noLoad, noLatency)
  | s :: rest, pool, noLoad, noLatency =>
    if positiveWeight weights.load && s.load.isNone then
      balancedPool weights context rest pool (noLoad + 1) noLatency
    else if positiveWeight weights.latency && (context.latency.get s.id).isNone then
      balancedPool weights context rest pool noLoad (noLatency + 1)
    else balancedPool weights context rest (pool ++ [s]) noLoad noLatency

/-- The greatest observation of the pool, in seconds. -/
def maxLatency (pool : List LogicalServer) (context : SelectionContext) : Binary32 :=
  ((pool.filterMap fun s => context.latency.get s.id).map Duration.asSecsF32).foldl
  Binary32.max .zero

/-- The weighted terms of one candidate. -/
def weightedBreakdown (weights : WeightedSignals) (request : SelectionRequest)
    (context : SelectionContext) (maxLatency : Binary32) (s : LogicalServer) : WeightedBreakdown :=
  let loadTerm := if positiveWeight weights.load then
    weights.load.mul ((Binary32.ofInt (s.load.getD 0)).div (.ofInt 100)) else .zero
  let latencyTerm := match positiveWeight weights.latency, context.latency.get s.id with
    | true, some latency =>
      if positiveWeight maxLatency then weights.latency.mul (latency.asSecsF32.div maxLatency)
      else .zero
    | _, _ => .zero
  let ratio := optionalMatchRatio s request.constraints.optionalFeatures context
  let featureMatchTerm := weights.featureMatch.mul (Binary32.one.sub ratio)
  { loadTerm := loadTerm
    latencyTerm := latencyTerm
    stabilityTerm := .zero
    featureMatchTerm := featureMatchTerm
    historyTerm := .zero
    total := (((loadTerm.add latencyTerm).add .zero).add featureMatchTerm).add .zero }

/-- One candidate of the balanced policy; a total that is not finite is refused. -/
def balancedCandidate (weights : WeightedSignals) (request : SelectionRequest)
    (context : SelectionContext) (maxLatency : Binary32) (s : LogicalServer) :
    Except Fault RankedCandidate :=
  let breakdown := weightedBreakdown weights request context maxLatency s
  if breakdown.total.isFinite then
    .ok ⟨s, ⟨s.score, s.load, context.latency.get s.id, some breakdown⟩⟩
  else .error (.refused (.invalidWeights
    ("the weighted total overflows to a non-finite value for at least one candidate — the weight " ++
      "magnitudes cannot be ranked (the configuration surface expects weights summing to " ++
      "approximately 1.0)")))

/-- The comparison of the balanced policy. -/
def balancedCmp (a b : RankedCandidate) : Except Fault Ordering :=
  match a.signals.weighted, b.signals.weighted with
  | some aTotal, some bTotal =>
    .ok ((aTotal.total.totalCmp bTotal.total).then (compare a.server.id b.server.id))
  | _, _ => .error (.panic "balanced always carries the breakdown")

/-- The balanced policy. -/
def rankBalanced (candidates : List LogicalServer) (weights : WeightedSignals)
    (request : SelectionRequest) (context : SelectionContext) (report : EliminationReport) :
    Except Fault (List RankedCandidate × EliminationReport) := do
  if !weights.isValid then
    .error (.refused (.invalidWeights "hand-built weights must be finite and non-negative"))
  else if positiveWeight weights.latency && context.latency.isEmpty then
    .error (.refused (.latencyDataUnavailable weights.latency))
  else
    let (pool, noLoad, noLatency) := balancedPool weights context candidates [] 0 0
    let report ← report.charge .loadNotExposed noLoad
    let report ← report.charge .noLatencyObservation noLatency
    let ranked ← pool.mapM (balancedCandidate weights request context (maxLatency pool context))
    return (← sortBy balancedCmp ranked, report)

/-! ## `select` -/

/-- Rank the survivors by the requested policy. -/
def rankCandidates (candidates : List LogicalServer) (request : SelectionRequest)
    (context : SelectionContext) (report : EliminationReport) :
    Except Fault (List RankedCandidate × EliminationReport) :=
  match request.policy with
  | .official => do return (← rankOfficial candidates, report)
  | .latency => rankLowestLatency candidates context report
  | .lowestLoad => rankLowestLoad candidates report
  | .balanced weights => rankBalanced candidates weights request context report
  | .random =>
    match context.randomEntropy with
    | none => .error (.refused .randomEntropyRequired)
    | some entropy => do return (← rankRandom candidates entropy, report)

/-- Selects and ranks eligible servers from the catalog. -/
def select (catalog : CatalogDocument) (request : SelectionRequest) (context : SelectionContext) :
    Except Fault SelectionOutcome := do
  let (candidates, report) ← filterCandidates catalog request context
  let (ranked, report) ←
    if request.target.isExact && candidates.length == 1 && request.policy == .official then
      .ok (candidates.map RankedCandidate.catalogOnly, report)
    else rankCandidates candidates request context report
  if ranked.isEmpty then .error (.refused (.constraintsNotSatisfied report))
  else .ok ⟨ranked, report⟩

end ProtonWire
