import ProtonWire.Selection.Model

/-!
# The texts of the selection engine

`crates/core/src/selection.rs`: the stage labels, the `Display` of a report and of the errors, and
the ranking modes by name.
-/

namespace ProtonWire

/-- The stage's report label. -/
def FilterStage.label : FilterStage → String
  | accountTier => "account-tier"
  | unknownStatus => "unknown-status"
  | offline => "offline"
  | allPhysicalsOffline => "all-physicals-offline"
  | absentFromCatalog => "absent-from-catalog"
  | serverType => "server-type"
  | targetGeography => "target-geography"
  | physicalCountryExclusion => "physical-country-exclusion"
  | excludedCountry => "excluded-country"
  | excludedEntryCountry => "excluded-entry-country"
  | excludedExitCountry => "excluded-exit-country"
  | excludedState => "excluded-state"
  | excludedCity => "excluded-city"
  | excludedServer => "excluded-server"
  | requiredFeatures => "required-features"
  | protocolCompatibility => "protocol-compatibility"
  | loadNotExposed => "load-not-exposed"
  | noLatencyObservation => "no-latency-observation"

/-- The `Display` of a report: the stages that eliminated a candidate, in evaluation order. -/
def EliminationReport.display (r : EliminationReport) : String :=
  r.stages.foldl (fun text (stage, count) =>
      if count > 0 then text ++ "; " ++ toString count ++ " " ++ stage.label else text)
    (toString r.considered ++ " considered, " ++ toString r.survivors ++ " survivors")

/-- The last stage that eliminated a candidate. -/
def EliminationReport.lastEliminating (r : EliminationReport) : Option FilterStage :=
  (r.stages.reverse.find? fun (_, count) => count > 0).map Prod.fst

/-- The `Display` of an error. -/
def SelectionError.display : SelectionError → String
  | unsupportedRankingSignal key =>
      "unsupported ranking signal `" ++ key ++
        "`: FR-19 forbids speed/throughput ranking in every input schema"
  | invalidRankingMode mode =>
      "invalid ranking mode `" ++ mode ++ "`: expected `official`, `balanced`, `load`, or `latency`"
  | invalidWeights message => "invalid balanced weights: " ++ message
  | invalidCountry code =>
      "invalid country code `" ++ code ++
      "`: expected ISO 3166-1 alpha-2, uppercase (canonicalization is " ++
        "the calling surface's job)"
  | officialScoreUnavailable lacking eligible =>
      "official-score-unavailable: " ++ toString lacking ++ " of " ++ toString eligible ++
        " eligible servers expose no Proton catalog Score — request an eligible catalog refresh or use " ++
        "an explicit ProtonWire policy"
  | physicalCountryRequired =>
      "physical-country-required: the target excludes the physical country but none is known — pass it " ++
        "explicitly per request or set connection_groups.physical_country"
  | latencyDataUnavailable weight =>
      "latency data unavailable: the ranking weights latency at " ++ weight.display ++
        " but no observations were supplied — the bounded on-demand prober must run first; latencies " ++
        "are never fabricated"
  | randomEntropyRequired =>
      "random selection requires caller-supplied entropy: the pure core fabricates no randomness"
  | requiresEntitlementComposition =>
      "port-forwarding requires entitlement and capability composition before selection can evaluate it"
  | constraintsNotSatisfied report => "no eligible server: " ++ report.display
  | exactServerUnavailable name stage =>
      "exact server `" ++ name ++ "` is not selectable (" ++ stage.label ++
        "): exact requests never fall back to another server (FR-23)"
  | standardFleetFeatureContradiction =>
      "unsatisfiable request: a Standard-fleet target cannot require the `secure-core` feature — Secure " ++
        "Core connectivity is a routed TARGET (`secure-core`), not a Standard-fleet feature filter"
  | secureCoreEntryEqualsExit country =>
      "unsatisfiable request: a Secure Core route cannot enter and exit through the same country (`" ++
        country ++
        "` was named for both sides) — the entry and exit of a Secure Core route always " ++
        "differ (FR-23F)"
  | secureCoreOnlyConstraints =>
      "the excluded entry/exit country constraints apply only to a Secure Core target — request the " ++
        "routed `secure-core` target to use them (FR-23F)"

/-- `FORBIDDEN_RANKING_SIGNALS`. -/
def forbiddenRankingSignals : List String := ["speed", "estimated-speed", "estimated-throughput"]

/-- The documented default weights. -/
def WeightedSignals.default : WeightedSignals :=
  ⟨.ratio 40 100, .ratio 40 100, .ratio 15 100, .ratio 5 100, .zero⟩

/-- `RankingPolicy::parse`: the ranking modes a request may name. -/
def RankingPolicy.parse (mode : String) : Except SelectionError RankingPolicy :=
  if mode = "official" then .ok .official
  else if mode = "balanced" then .ok (.balanced .default)
  else if mode = "load" then .ok .lowestLoad
  else if mode = "latency" then .ok .latency
  else if mode ∈ forbiddenRankingSignals then .error (.unsupportedRankingSignal mode)
  else .error (.invalidRankingMode mode)

end ProtonWire
