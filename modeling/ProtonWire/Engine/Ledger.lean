import Mathlib

/-!
# The feature ledger

`crates/protocol/src/reconcile.rs`: the requested settings, what the server applied and what it
refused, and the table of what the two disagree on. The request epoch is a counter that does not
wrap.

* `FeatureReconciliation`, `noteRequested`, `noteApplied`, `noteUnconfirmed`, `noteRefused`;
* `divergences`, `unconfirmedAll`: the table, and its listing where nothing is applied;
* **`mem_divergences_iff`**: the table lists the requested settings that are not confirmed, each
  once.
-/

namespace ProtonWire

/-! ## Settings -/

/-- The netshield levels. -/
inductive EngineNetshield where
  | none
  | malwareFilter
  | adsAndMalwareFilter
  | adultAndAdsAndMalwareFilter
  deriving DecidableEq

/-- The LocalAgent feature request. An unset field is no preference. -/
structure EngineAgentSettings where
  splitTcp : Option Bool := none
  netshieldLevel : Option EngineNetshield := none
  softJail : Option Bool := none
  portForwarding : Option Bool := none
  randomNat : Option Bool := none
  circumventionRouting : Option Bool := none
  deriving DecidableEq

/-- One setting identity. -/
inductive EngineSettingType where
  | netshield
  | bouncing
  | portForwarding
  | splitTcp
  | safeMode
  | randomNat
  | circumventionRouting
  deriving DecidableEq

/-- The comparable value of one setting. -/
inductive RequestedValue where
  | flag (value : Bool)
  | netshield (level : EngineNetshield)
  deriving DecidableEq

/-- One requested-versus-applied mismatch. -/
structure FeatureDivergence where
  setting : EngineSettingType
  requested : RequestedValue
  applied : Option RequestedValue
  deriving DecidableEq

/-! ## The ledger -/

/-- The requested-versus-applied ledger. -/
structure FeatureReconciliation where
  requested : EngineAgentSettings
  applied : Option EngineAgentSettings := none
  refused : List EngineSettingType := []
  /-- The request epoch. -/
  epoch : ℕ := 0
  deriving DecidableEq

namespace FeatureReconciliation

/-- The request changed. -/
def noteRequested (ledger : FeatureReconciliation) (requested : EngineAgentSettings) :
    FeatureReconciliation where
  requested := requested
  applied := none
  refused := []
  epoch := ledger.epoch + 1

/-- The server reported the applied set, to a callback that entered at an epoch. -/
def noteApplied (ledger : FeatureReconciliation) (applied : EngineAgentSettings)
    (observedEpoch : ℕ) :
    FeatureReconciliation :=
  if observedEpoch ≠ ledger.epoch then ledger else { ledger with applied := some applied }

/-- The connection left the confirmed state. -/
def noteUnconfirmed (ledger : FeatureReconciliation) : FeatureReconciliation :=
  { ledger with applied := none, refused := [] }

/-- The server refused a setting: whether the refusal is accepted, and the ledger with it. -/
def noteRefused (ledger : FeatureReconciliation) (setting : EngineSettingType) (observedEpoch : ℕ) :
    Bool × FeatureReconciliation :=
  if observedEpoch ≠ ledger.epoch then (false, ledger)
  else if setting ∈ ledger.refused then (true, ledger)
  else (true, { ledger with refused := ledger.refused ++ [setting] })

variable (ledger : FeatureReconciliation)

/-- A request that nothing confirms. -/
def unconfirmed (setting : EngineSettingType) (requested : RequestedValue) : FeatureDivergence :=
  ⟨setting, requested, none⟩

/-- Every requested setting, where nothing is applied. -/
def unconfirmedAll : List FeatureDivergence :=
  (ledger.requested.splitTcp.map fun flag => unconfirmed .splitTcp (.flag flag)).toList ++
    (ledger.requested.netshieldLevel.map fun level =>
     unconfirmed .netshield (.netshield level)).toList ++
    (ledger.requested.portForwarding.map fun flag =>
     unconfirmed .portForwarding (.flag flag)).toList ++
    (ledger.requested.randomNat.map fun flag => unconfirmed .randomNat (.flag flag)).toList ++
    (ledger.requested.softJail.map fun flag => unconfirmed .safeMode (.flag flag)).toList ++
    (ledger.requested.circumventionRouting.map fun flag =>
     unconfirmed .circumventionRouting (.flag flag)).toList

/-- The mismatch of one row, none for an unset request. -/
def divergence (setting : EngineSettingType) (requested applied : Option RequestedValue) :
    Option FeatureDivergence :=
  match requested with
  | none => none
  | some value => if some value ≠ applied then some ⟨setting, value, applied⟩ else none

/-- The rows that are compared. -/
def pairs (applied : EngineAgentSettings) :
    List (EngineSettingType × Option RequestedValue × Option RequestedValue) :=
  [(.splitTcp, ledger.requested.splitTcp.map .flag, applied.splitTcp.map .flag),
    (.netshield, ledger.requested.netshieldLevel.map .netshield,
     applied.netshieldLevel.map .netshield),
    (.portForwarding, ledger.requested.portForwarding.map .flag, applied.portForwarding.map .flag),
    (.randomNat, ledger.requested.randomNat.map .flag, applied.randomNat.map .flag),
    (.safeMode, ledger.requested.softJail.map .flag, applied.softJail.map .flag),
    (.circumventionRouting, ledger.requested.circumventionRouting.map .flag,
      applied.circumventionRouting.map .flag)]

/-- The requested-versus-applied table. -/
def divergences : List FeatureDivergence :=
  match ledger.applied with
  | none => ledger.unconfirmedAll
  | some applied => (ledger.pairs applied).filterMap fun row => divergence row.1 row.2.1 row.2.2

end FeatureReconciliation

/-! ## The table -/

/-- The value a set of settings has for one identity. The bounce is no requestable setting. -/
def EngineAgentSettings.value (settings : EngineAgentSettings) : EngineSettingType →
    Option RequestedValue
  | .netshield => settings.netshieldLevel.map .netshield
  | .bouncing => none
  | .portForwarding => settings.portForwarding.map .flag
  | .splitTcp => settings.splitTcp.map .flag
  | .safeMode => settings.softJail.map .flag
  | .randomNat => settings.randomNat.map .flag
  | .circumventionRouting => settings.circumventionRouting.map .flag

namespace FeatureReconciliation

/-- The order of the table. -/
def rows : List EngineSettingType :=
  [.splitTcp, .netshield, .portForwarding, .randomNat, .safeMode, .circumventionRouting]

/-- What the server confirmed of a setting. -/
def confirmed (ledger : FeatureReconciliation) (setting : EngineSettingType) :
    Option RequestedValue :=
  ledger.applied.bind fun applied => applied.value setting

theorem divergences_eq (ledger : FeatureReconciliation) : ledger.divergences =
    rows.filterMap fun setting =>
      divergence setting (ledger.requested.value setting) (ledger.confirmed setting) := by
  unfold divergences confirmed
  cases ledger.applied with
  | some applied =>
    have hpairs : ledger.pairs applied =
        rows.map fun setting => (setting, ledger.requested.value setting, applied.value setting) :=
        rfl
    dsimp only
    rw [hpairs, List.filterMap_map]
    rfl
  | none =>
    have hrow : ∀ setting : EngineSettingType,
      divergence setting (ledger.requested.value setting) none =
        (ledger.requested.value setting).map (unconfirmed setting) := fun setting => by
      unfold divergence
      cases ledger.requested.value setting <;> rfl
    simp only [Option.bind_none, hrow]
    rw [List.filterMap_eq_flatMap_toList]
    simp [unconfirmedAll, rows, EngineAgentSettings.value, Function.comp_def]

theorem rows_nodup : rows.Nodup := by decide

theorem mem_rows_of_value {settings : EngineAgentSettings} {setting : EngineSettingType}
    {value : RequestedValue} (h : settings.value setting = some value) : setting ∈ rows := by
  cases setting <;> first | decide | cases h

/-- **The table lists the requested settings that are not confirmed**, with what was requested and
what was confirmed. -/
theorem mem_divergences_iff (ledger : FeatureReconciliation) (d : FeatureDivergence) :
    d ∈ ledger.divergences ↔ ledger.requested.value d.setting = some d.requested ∧
      ledger.confirmed d.setting = d.applied ∧ d.applied ≠ some d.requested := by
  rw [divergences_eq, List.mem_filterMap]
  constructor
  · rintro ⟨setting, -, hd⟩
    unfold divergence at hd
    cases hvalue : ledger.requested.value setting with
    | none => rw [hvalue] at hd; cases hd
    | some value =>
      rw [hvalue] at hd
      dsimp only at hd
      split_ifs at hd with hne
      cases hd
      exact ⟨hvalue, rfl, Ne.symm hne⟩
  · rintro ⟨hvalue, hconfirmed, hne⟩
    refine ⟨d.setting, mem_rows_of_value hvalue, ?_⟩
    unfold divergence
    rw [hvalue, hconfirmed]
    exact if_pos hne.symm

/-- **Each setting is listed once.** -/
theorem divergences_nodup (ledger : FeatureReconciliation) :
    (ledger.divergences.map FeatureDivergence.setting).Nodup := by
  have hrow : ∀ setting row : EngineSettingType,
    row ∈ (divergence setting (ledger.requested.value setting)
      (ledger.confirmed setting)).map FeatureDivergence.setting → setting = row := by
    intro setting row hmem
    obtain ⟨d, hd, rfl⟩ := Option.map_eq_some_iff.mp hmem
    unfold divergence at hd
    split at hd
    · cases hd
    · split_ifs at hd
      cases hd
      rfl
  rw [divergences_eq, List.map_filterMap]
  exact rows_nodup.filterMap fun a a' row ha ha' => (hrow a row ha).trans (hrow a' row ha').symm

end FeatureReconciliation

end ProtonWire
