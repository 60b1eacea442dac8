import ProtonWire.Entitlement.Model

/-!
# Accounts do not mix

* `System.Sound`: the transition lock has one holder, a slot of the installed generation was fetched
  for the installed adapter, and its worker is in flight until it publishes;
* `System.Certified`: what the history and the cache say was fetched by the adapter installed at the
  check;
* `sound_step`, `certified_step`: one step keeps both;
* **`entitlement_isolation`**: so does every run.
-/

namespace ProtonWire

variable {𝔸 : Type}

/-! ## Threads and the lock -/

namespace Pc

/-- The thread holds the transition lock. -/
def holds : Pc 𝔸 → Bool
  | installInner _ | installGeneration | installInFlight | installCached => true
  | slotLoad | slotTake _ | check _ _ | act _ _ _ => true
  | _ => false

/-- An `install` has published its adapter and not yet its generation. -/
def swapping : Pc 𝔸 → Bool
  | installGeneration => true
  | _ => false

/-- An `install` has published its adapter and not yet dropped the cache. -/
def replacing : Pc 𝔸 → Bool
  | installGeneration | installInFlight | installCached => true
  | _ => false

end Pc

/-- The slot and the session of an event that acts on an outcome. -/
def EntitlementEvent.outcome : EntitlementEvent 𝔸 → Option (ℕ × Session 𝔸)
  | composed _ slot session _ | stored _ slot session _ | withdrew _ slot session =>
    some (slot, session)
  | _ => none

namespace System

/-- The slot's worker has published `result`. -/
def Landed (w : System 𝔸) (slot : ℕ) (result : FetchResult) : Prop :=
  ∃ shared, w.slots[slot]? = some shared ∧ shared.result = some result

/-- The slot's worker, of some generation, has not published. -/
def Pending (w : System 𝔸) (slot generation : ℕ) : Prop :=
  ∃ shared, w.slots[slot]? = some shared ∧ shared.generation = generation ∧ shared.result = none

/-- What a thread knows about the slot it follows. -/
def Follows (w : System 𝔸) : Pc 𝔸 → Prop
  | .wait slot => slot < w.slots.length
  | .clear slot result | .checkLock slot result | .check slot result | .act slot result _ =>
    w.Landed slot result
  | _ => True

/-- What a thread knows about the session because it holds the lock. -/
def Knows (w : System 𝔸) : Pc 𝔸 → Prop
  | .installInFlight => ∀ shared ∈ w.slots, shared.generation ≠ w.provider.generation
  | .slotTake currentGeneration => currentGeneration = w.provider.generation
  | .act slot _ session => session = w.session ∧
      w.slots[slot]?.map EntitlementFetchShared.generation = some w.provider.generation
  | _ => True

/-- No `install` is between its adapter and its generation. -/
def Settled (w : System 𝔸) : Prop := ∀ t, (w.threads t).swapping = false

/-- No `install` is between its adapter and the end. -/
def Quiet (w : System 𝔸) : Prop := ∀ t, (w.threads t).replacing = false

/-- The invariant of the shared state. -/
structure Sound (w : System 𝔸) : Prop where
  lock : ∀ t, (w.threads t).holds = true ↔ w.provider.transition = some t
  follows : ∀ t, w.Follows (w.threads t)
  knows : ∀ t, w.Knows (w.threads t)
  stamped : ∀ shared ∈ w.slots, shared.generation ≤ w.provider.generation
  adapter : w.Settled → ∀ shared ∈ w.slots, shared.generation = w.provider.generation →
    w.provider.inner = some shared.adapter
  inFlight : ∀ slot, w.Pending slot w.provider.generation → w.provider.inFlight = some slot
  single : ∀ slot slot' generation, w.Pending slot generation → w.Pending slot' generation →
    slot = slot'

/-! ## Moves of one thread -/

/-- The others do not hold the lock. -/
theorem Sound.others {w : System 𝔸} (h : w.Sound) {t t' : ℕ} {pc₀ : Pc 𝔸} (hpc : w.threads t = pc₀)
    (hin : pc₀.holds = true) (ht' : t' ≠ t) : (w.threads t').holds = false := by
  refine Bool.eq_false_iff.mpr fun hholds => ht' ?_
  have h₁ := (h.lock t).mp (hpc ▸ hin)
  have h₂ := (h.lock t').mp hholds
  rw [h₁] at h₂
  exact (Option.some.inj h₂).symm

theorem knows_of_not_holds {w : System 𝔸} {pc : Pc 𝔸} (h : pc.holds = false) : w.Knows pc := by
  cases pc with
  | installInFlight | slotTake | act => cases h
  | _ => trivial

@[simp] theorem goto_provider (w : System 𝔸) (t : ℕ) (pc : Pc 𝔸) :
    (w.goto t pc).provider = w.provider := rfl

theorem goto_threads (w : System 𝔸) (t t' : ℕ) (pc : Pc 𝔸) :
    (w.goto t pc).threads t' = if t' = t then pc else w.threads t' := by
  unfold goto
  exact Function.update_apply _ _ _ _

theorem forall_goto {w : System 𝔸} {t : ℕ} {pc : Pc 𝔸} {P : Pc 𝔸 → Prop} :
    (∀ t', P ((w.goto t pc).threads t')) ↔ P pc ∧ ∀ t', t' ≠ t → P (w.threads t') := by
  constructor
  · intro h
    refine ⟨?_, fun t' ht' => ?_⟩
    · have := h t
      rwa [goto_threads, if_pos rfl] at this
    · have := h t'
      rwa [goto_threads, if_neg ht'] at this
  · rintro ⟨hpc, hother⟩ t'
    rw [goto_threads]
    by_cases ht' : t' = t
    · rwa [if_pos ht']
    · rw [if_neg ht']
      exact hother t' ht'

section
variable {w : System 𝔸} {t : ℕ} {pc₀ pc : Pc 𝔸}

theorem settled_of_goto (hpc : w.threads t = pc₀) (hswap : pc₀.swapping = false)
    (h : (w.goto t pc).Settled) : w.Settled := by
  have hother := (forall_goto (P := fun pc => pc.swapping = false)).mp h
  intro t'
  by_cases ht' : t' = t
  · rwa [ht', hpc]
  · exact hother.2 t' ht'

/-- A move that keeps the lock. -/
theorem Sound.goto (h : w.Sound) (hpc : w.threads t = pc₀) (hholds : pc.holds = pc₀.holds)
    (hfollows : w.Follows pc) (hknows : w.Knows pc) (hswap : pc₀.swapping = false) :
    (w.goto t pc).Sound where
  lock t' := by
    rw [goto_threads]
    by_cases ht' : t' = t
    · rw [if_pos ht', hholds, ht', ← hpc]
      exact h.lock t
    · rw [if_neg ht']
      exact h.lock t'
  follows := forall_goto.mpr ⟨hfollows, fun t' _ => h.follows t'⟩
  knows := forall_goto.mpr ⟨hknows, fun t' _ => h.knows t'⟩
  stamped := h.stamped
  adapter hsettled := h.adapter (settled_of_goto hpc hswap hsettled)
  inFlight := h.inFlight
  single := h.single

/-- A thread outside takes the lock. -/
theorem Sound.acquire (h : w.Sound) (hpc : w.threads t = pc₀) (hin : pc.holds = true)
    (hfollows : w.Follows pc) (hknows : w.Knows pc) (hswap : pc₀.swapping = false) :
    (w.acquire t pc).Sound := by
  unfold System.acquire
  split_ifs with hfree
  · -- nobody holds the lock, so nobody else knows anything about the session
    have hnone : ∀ t', (w.threads t').holds = false := fun t' => by
      have := h.lock t'
      rw [hfree] at this
      simpa using this
    exact {
      lock := fun t' => by
        rw [goto_threads]
        by_cases ht' : t' = t
        · simp [ht', hin]
        · simp [ht', hnone t', Ne.symm ht']
      follows := forall_goto.mpr ⟨hfollows, fun t' _ => h.follows t'⟩
      knows := forall_goto.mpr ⟨hknows, fun t' _ => knows_of_not_holds (hnone t')⟩
      stamped := h.stamped
      adapter := fun hsettled => h.adapter (settled_of_goto (w := { w with
        provider := { w.provider with transition := some t } }) hpc hswap hsettled)
      inFlight := h.inFlight
      single := h.single }
  · exact h

/-- The holder drops the lock. -/
theorem Sound.release (h : w.Sound) (hpc : w.threads t = pc₀) (hin : pc₀.holds = true)
    (hout : pc.holds = false) (hfollows : w.Follows pc) (hswap : pc₀.swapping = false) :
    (w.release t pc).Sound where
  lock t' := by
    unfold System.release
    rw [goto_threads]
    by_cases ht' : t' = t
    · simp [ht', hout]
    · simp [ht', h.others hpc hin ht']
  follows := forall_goto.mpr ⟨hfollows, fun t' _ => h.follows t'⟩
  knows := by
    exact forall_goto.mpr
      ⟨knows_of_not_holds hout, fun t' ht' => knows_of_not_holds (h.others hpc hin ht')⟩
  stamped := h.stamped
  adapter hsettled := h.adapter (settled_of_goto (w := { w with
    provider := { w.provider with transition := none } }) hpc hswap hsettled)
  inFlight := h.inFlight
  single := h.single

theorem Sound.of_cached (h : w.Sound) (cached : Option VpnEntitlements) :
    Sound { w with provider := { w.provider with cached := cached } } :=
  ⟨h.lock, h.follows, h.knows, h.stamped, h.adapter, h.inFlight, h.single⟩

end

/-! ## Slots -/

/-- Slots are never dropped, keep their stamp and their adapter, and publish once. -/
def Grows (w w' : System 𝔸) : Prop :=
  ∀ (slot : ℕ) (shared : EntitlementFetchShared 𝔸), w.slots[slot]? = some shared →
    ∃ shared' : EntitlementFetchShared 𝔸, w'.slots[slot]? = some shared' ∧
    shared'.generation = shared.generation ∧ shared'.adapter = shared.adapter ∧
    ∀ result, shared.result = some result → shared'.result = some result

section
variable {w w' : System 𝔸}

theorem grows_of_slots_eq (h : w'.slots = w.slots) : Grows w w' := fun slot shared hs =>
  ⟨shared, by rw [h, hs], rfl, rfl, fun _ => id⟩

theorem Landed.grows (hg : Grows w w') {slot : ℕ} {result : FetchResult}
    (h : w.Landed slot result) :
    w'.Landed slot result := by
  obtain ⟨shared, hs, hr⟩ := h
  obtain ⟨shared', hs', -, -, hresult⟩ := hg slot shared hs
  exact ⟨shared', hs', hresult result hr⟩

theorem Follows.grows (hg : Grows w w') {pc : Pc 𝔸} (h : w.Follows pc) : w'.Follows pc := by
  cases pc with
  | wait slot =>
    obtain ⟨_, hs', -⟩ := hg slot _ (List.getElem?_eq_getElem h)
    exact (List.getElem?_eq_some_iff.mp hs').1
  | clear | checkLock | check | act => exact Landed.grows hg h
  | _ => trivial

theorem not_pending_of_landed {slot generation : ℕ} {result : FetchResult}
    (h : w.Landed slot result) :
    ¬ w.Pending slot generation := by
  rintro ⟨shared, hs, -, hnone⟩
  obtain ⟨shared', hs', hresult⟩ := h
  rw [hs] at hs'
  cases hs'
  rw [hnone] at hresult
  cases hresult

theorem getElem?_publish (w : System 𝔸) (slot i : ℕ) (result : FetchResult) :
    (w.publish slot result).slots[i]? =
      w.slots[i]?.map fun shared => if slot = i then shared.land result else shared :=
  List.getElem?_modify _ _ _ _

theorem result_land {shared : EntitlementFetchShared 𝔸} {r result : FetchResult}
    (h : shared.result = some r) : (shared.land result).result = some r := by
  unfold EntitlementFetchShared.land
  rw [h]
  rfl

theorem grows_publish (slot : ℕ) (result : FetchResult) : Grows w (w.publish slot result) := by
  intro i shared hs
  refine ⟨if slot = i then shared.land result else shared, ?_, ?_, ?_, fun r hr => ?_⟩
  · rw [getElem?_publish, hs]
    rfl
  · split_ifs <;> rfl
  · split_ifs <;> rfl
  · split_ifs
    · exact result_land hr
    · exact hr

theorem of_publish {slot i : ℕ} {result : FetchResult} {shared' : EntitlementFetchShared 𝔸}
    (h : (w.publish slot result).slots[i]? = some shared') :
    ∃ shared, w.slots[i]? = some shared ∧ shared'.generation = shared.generation ∧
      shared'.adapter = shared.adapter ∧ (shared'.result = none → shared.result = none) := by
  rw [getElem?_publish] at h
  obtain ⟨shared, hs, rfl⟩ := Option.map_eq_some_iff.mp h
  refine ⟨shared, hs, ?_, ?_, fun hnone => ?_⟩
  · split_ifs <;> rfl
  · split_ifs <;> rfl
  · cases hr : shared.result with
    | none => rfl
    | some r =>
      split_ifs at hnone
      · rw [result_land hr] at hnone
        cases hnone
      · rw [hr] at hnone
        cases hnone

theorem pending_of_publish {slot i generation : ℕ} {result : FetchResult}
    (h : (w.publish slot result).Pending i generation) : w.Pending i generation := by
  obtain ⟨shared', hs', hgen', hnone'⟩ := h
  obtain ⟨shared, hs, hgen, -, hnone⟩ := of_publish hs'
  exact ⟨shared, hs, hgen.symm.trans hgen', hnone hnone'⟩

theorem mem_publish {slot : ℕ} {result : FetchResult} {shared' : EntitlementFetchShared 𝔸}
    (h : shared' ∈ (w.publish slot result).slots) : ∃ shared ∈ w.slots,
      shared'.generation = shared.generation ∧ shared'.adapter = shared.adapter := by
  obtain ⟨i, hi⟩ := List.mem_iff_getElem?.mp h
  obtain ⟨shared, hs, hgen, hadapter, -⟩ := of_publish hi
  exact ⟨shared, List.mem_of_getElem? hs, hgen, hadapter⟩

theorem Knows.publish {pc : Pc 𝔸} (h : w.Knows pc) (slot : ℕ) (result : FetchResult) :
    (w.publish slot result).Knows pc := by
  cases pc with
  | installInFlight =>
    intro shared' hs'
    obtain ⟨shared, hs, hgen, -⟩ := mem_publish hs'
    rw [hgen]
    exact h shared hs
  | act i _ session =>
    refine ⟨h.1, ?_⟩
    obtain ⟨shared, hs, hstamp⟩ := Option.map_eq_some_iff.mp h.2
    obtain ⟨shared', hs', hgen, -⟩ := grows_publish (w := w) slot result i shared hs
    rw [hs', Option.map_some, hgen, hstamp]
    rfl
  | slotTake => exact h
  | _ => trivial

/-- A worker publishes. -/
theorem Sound.publish (h : w.Sound) (slot : ℕ) (result : FetchResult) :
    (w.publish slot result).Sound where
  lock := h.lock
  follows t := (h.follows t).grows (grows_publish slot result)
  knows t := (h.knows t).publish slot result
  stamped shared hs := by
    obtain ⟨shared₀, hs₀, hgen, -⟩ := mem_publish hs
    rw [hgen]
    exact h.stamped shared₀ hs₀
  adapter hsettled shared hs hgen := by
    obtain ⟨shared₀, hs₀, hgen₀, hadapter⟩ := mem_publish hs
    rw [hadapter]
    exact h.adapter hsettled shared₀ hs₀ (hgen₀ ▸ hgen)
  inFlight i hi := h.inFlight i (pending_of_publish hi)
  single i j generation hi hj := h.single i j generation (pending_of_publish hi)
    (pending_of_publish hj)

theorem Sound.clearSingleFlight (h : w.Sound) {slot : ℕ} {result : FetchResult}
    (hlanded : w.Landed slot result) : (w.clearSingleFlight slot).Sound where
  lock := h.lock
  follows := h.follows
  knows := h.knows
  stamped := h.stamped
  adapter := h.adapter
  inFlight i hi := by
    have hne : i ≠ slot := by
      rintro rfl
      exact not_pending_of_landed hlanded hi
    have hflight := h.inFlight i hi
    unfold System.clearSingleFlight
    dsimp only
    rw [hflight]
    simp [hne]
  single := h.single

theorem grows_spawn (generation : ℕ) (adapter : 𝔸) : Grows w (w.spawn generation adapter) := by
  intro slot shared hs
  refine ⟨shared, ?_, rfl, rfl, fun _ => id⟩
  exact List.getElem?_append_left (List.getElem?_eq_some_iff.mp hs).1 |>.trans hs

theorem of_spawn {generation slot : ℕ} {adapter : 𝔸} {shared : EntitlementFetchShared 𝔸}
    (h : (w.spawn generation adapter).slots[slot]? = some shared) :
    w.slots[slot]? = some shared ∨ slot = w.slots.length ∧
    shared = ⟨generation, adapter, none⟩ := by
  unfold System.spawn at h
  dsimp only at h
  rw [List.getElem?_append] at h
  split_ifs at h with hlt
  · exact Or.inl h
  · have hsome := (List.getElem?_eq_some_iff.mp h).1
    rw [List.length_singleton] at hsome
    have hslot : slot - w.slots.length = 0 := by omega
    rw [hslot] at h
    cases h
    exact Or.inr ⟨by omega, rfl⟩

theorem mem_spawn {generation : ℕ} {adapter : 𝔸} {shared : EntitlementFetchShared 𝔸}
    (h : shared ∈ (w.spawn generation adapter).slots) :
    shared ∈ w.slots ∨ shared = ⟨generation, adapter, none⟩ := by
  obtain ⟨slot, hs⟩ := List.mem_iff_getElem?.mp h
  rcases of_spawn hs with hold | ⟨-, hnew⟩
  · exact Or.inl (List.mem_of_getElem? hold)
  · exact Or.inr hnew

theorem pending_of_spawn {generation slot stamp : ℕ} {adapter : 𝔸}
    (h : (w.spawn generation adapter).Pending slot stamp) :
    w.Pending slot stamp ∨ slot = w.slots.length ∧ stamp = generation := by
  obtain ⟨shared, hs, hgen, hnone⟩ := h
  rcases of_spawn hs with hold | ⟨hslot, rfl⟩
  · exact Or.inl ⟨shared, hold, hgen, hnone⟩
  · exact Or.inr ⟨hslot, hgen.symm⟩

/-- The holder starts a worker over the installed adapter, when none of its generation is
pending. -/
theorem Sound.spawn (h : w.Sound) {t : ℕ} (hpc : w.threads t = .slotTake w.provider.generation)
    {adapter : 𝔸} (hinner : w.provider.inner = some adapter)
    (hfree : ∀ slot, ¬ w.Pending slot w.provider.generation) :
    (w.spawn w.provider.generation adapter).Sound where
  lock := h.lock
  follows t' := (h.follows t').grows (grows_spawn _ _)
  knows t' := by
    show (w.spawn _ _).Knows (w.threads t')
    by_cases ht' : t' = t
    · rw [ht', hpc]
      rfl
    · exact knows_of_not_holds (h.others hpc rfl ht')
  stamped shared hs := by
    rcases mem_spawn hs with hold | rfl
    · exact h.stamped shared hold
    · exact le_rfl
  adapter hsettled shared hs hgen := by
    rcases mem_spawn hs with hold | rfl
    · exact h.adapter hsettled shared hold hgen
    · exact hinner
  inFlight slot hslot := by
    rcases pending_of_spawn hslot with hold | ⟨rfl, -⟩
    · exact absurd hold (hfree slot)
    · rfl
  single slot slot' generation hslot hslot' := by
    rcases pending_of_spawn hslot with hold | ⟨rfl, rfl⟩
    · rcases pending_of_spawn hslot' with hold' | ⟨rfl, rfl⟩
      · exact h.single slot slot' generation hold hold'
      · exact absurd hold (hfree slot)
    · rcases pending_of_spawn hslot' with hold' | ⟨rfl, -⟩
      · exact absurd hold' (hfree slot')
      · rfl

/-- What `single_flight_slot` can do. -/
inductive SlotCase (w : System 𝔸) (generation : ℕ) : Except RpcError (ℕ × System 𝔸) → Prop where
  | joined (slot : ℕ) (valid : slot < w.slots.length) : SlotCase w generation (.ok (slot, w))
  | started (adapter : 𝔸) (inner : w.provider.inner = some adapter)
      (stale : ∀ slot shared, w.provider.inFlight = some slot → w.slots[slot]? = some shared →
        shared.generation ≠ generation) :
      SlotCase w generation (.ok (w.slots.length, w.spawn generation adapter))
  | failed (error : RpcError) : SlotCase w generation (.error error)

theorem singleFlightSlot_case (w : System 𝔸) (generation : ℕ) :
    SlotCase w generation (w.singleFlightSlot generation) := by
  unfold System.singleFlightSlot
  split
  · next existing hexisting =>
    obtain ⟨-, hany⟩ := Option.filter_eq_some_iff.mp hexisting
    obtain ⟨shared, hs, -⟩ := (Option.any_eq_true _ _).mp hany
    exact .joined existing (List.getElem?_eq_some_iff.mp hs).1
  · next hnone =>
    split
    · exact .failed _
    · next adapter hinner =>
      refine .started adapter hinner fun slot shared hflight hs hgen => ?_
      have := Option.filter_eq_none_iff.mp hnone slot hflight
      simp [hs, hgen] at this

end

/-! ## Replacement -/

section
variable {w : System 𝔸} {t : ℕ}

theorem lock_goto (h : w.Sound) {pc₀ pc : Pc 𝔸} (hpc : w.threads t = pc₀) (hin : pc₀.holds = true)
    (hin' : pc.holds = true) (t' : ℕ) :
    ((w.goto t pc).threads t').holds = true ↔ w.provider.transition = some t' := by
  rw [goto_threads]
  by_cases ht' : t' = t
  · rw [if_pos ht', ht', ← h.lock t, hpc, hin, hin']
  · rw [if_neg ht']
    exact h.lock t'

theorem Sound.installInner (h : w.Sound) {api : 𝔸} (hpc : w.threads t = .installInner api) :
    Sound ({ w with provider := { w.provider with inner := some api } }.goto t
      .installGeneration) := by
  exact {
    lock := lock_goto h hpc rfl rfl
    follows := forall_goto.mpr ⟨trivial, fun t' _ => h.follows t'⟩
    knows := forall_goto.mpr ⟨trivial, fun t' ht' => knows_of_not_holds (h.others hpc rfl ht')⟩
    stamped := h.stamped
    -- the adapter is ahead of its generation
    adapter := fun hsettled => by
      have := hsettled t
      rw [goto_threads, if_pos rfl] at this
      cases this
    inFlight := h.inFlight
    single := h.single }

theorem Sound.installGeneration (h : w.Sound) (hpc : w.threads t = .installGeneration) :
    Sound ({ w with provider := { w.provider with generation := w.provider.generation + 1 } }.goto t
      .installInFlight) := by
  -- no slot carries the new generation yet
  have hnew : ∀ shared ∈ w.slots, shared.generation ≠ w.provider.generation + 1 :=
    fun shared hs => by
    have := h.stamped shared hs
    omega
  exact {
    lock := lock_goto h hpc rfl rfl
    follows := forall_goto.mpr ⟨trivial, fun t' _ => h.follows t'⟩
    knows := forall_goto.mpr ⟨hnew, fun t' ht' => knows_of_not_holds (h.others hpc rfl ht')⟩
    stamped := fun shared hs => (h.stamped shared hs).trans (Nat.le_succ _)
    adapter := fun _ shared hs hgen => absurd hgen (hnew shared hs)
    inFlight := fun slot hslot => by
      obtain ⟨shared, hs, hgen, -⟩ := hslot
      exact absurd hgen (hnew shared (List.mem_of_getElem? hs))
    single := h.single }

theorem Sound.installInFlight (h : w.Sound) (hpc : w.threads t = .installInFlight) :
    Sound ({ w with provider := { w.provider with inFlight := none } }.goto t .installCached) := by
  have hnew : ∀ shared ∈ w.slots, shared.generation ≠ w.provider.generation := by
    have := h.knows t
    rwa [hpc] at this
  exact {
    lock := lock_goto h hpc rfl rfl
    follows := forall_goto.mpr ⟨trivial, fun t' _ => h.follows t'⟩
    knows := forall_goto.mpr ⟨trivial, fun t' ht' => knows_of_not_holds (h.others hpc rfl ht')⟩
    stamped := h.stamped
    adapter := fun _ shared hs hgen => absurd hgen (hnew shared hs)
    inFlight := fun slot hslot => by
      obtain ⟨shared, hs, hgen, -⟩ := hslot
      exact absurd hgen (hnew shared (List.mem_of_getElem? hs))
    single := h.single }

/-! ## One step -/

theorem Sound.actOn (h : w.Sound) (slot : ℕ) (session : Session 𝔸) (result : FetchResult) :
    (w.actOn t slot session result).1.Sound ∧
      (w.actOn t slot session result).1.threads = w.threads := by
  unfold System.actOn
  split
  · split_ifs
    · exact ⟨h.of_cached _, rfl⟩
    · exact ⟨h.of_cached _, rfl⟩
    · exact ⟨h.of_cached _, rfl⟩
  · exact ⟨h, rfl⟩

theorem Sound.slotTake (h : w.Sound) {generation : ℕ} (hpc : w.threads t = .slotTake generation)
    {slot : ℕ} {w' : System 𝔸} (hslot : w.singleFlightSlot generation = .ok (slot, w')) :
    w'.Sound ∧ w'.threads = w.threads ∧ slot < w'.slots.length := by
  have hgen : generation = w.provider.generation := by
    have := h.knows t
    rwa [hpc] at this
  have hcase := singleFlightSlot_case w generation
  rw [hslot] at hcase
  cases hcase with
  | joined _ valid => exact ⟨h, rfl, valid⟩
  | started adapter hinner stale =>
    subst hgen
    refine ⟨h.spawn hpc hinner fun i hi => ?_, rfl, ?_⟩
    · -- a pending worker of this generation would be the one in flight, and joined
      have hflight := h.inFlight i hi
      obtain ⟨shared, hs, hstamp, -⟩ := hi
      exact stale i shared hflight hs hstamp
    · unfold System.spawn
      simp

theorem sound_advance (h : w.Sound) (t budgetMs : ℕ) : (w.advance t budgetMs).1.Sound := by
  have hfollows := h.follows t
  unfold System.advance
  cases hpc : w.threads t with
  | idle => exact h
  | installLock api => exact h.acquire hpc rfl trivial trivial rfl
  | installInner api => exact h.installInner hpc
  | installGeneration => exact h.installGeneration hpc
  | installInFlight => exact h.installInFlight hpc
  | installCached =>
    exact (h.of_cached none).release hpc rfl rfl trivial rfl
  | composeCurrent =>
    dsimp only
    split_ifs
    · exact h.goto hpc rfl trivial trivial rfl
    · exact h.goto hpc rfl trivial trivial rfl
  | slotLock => exact h.acquire hpc rfl trivial trivial rfl
  | slotLoad => exact h.goto hpc rfl trivial rfl rfl
  | slotTake generation =>
    dsimp only
    split
    · exact h.release hpc rfl rfl trivial rfl
    · next slot w' hslot =>
      obtain ⟨hw', hthreads, hvalid⟩ := h.slotTake hpc hslot
      exact hw'.release (by rw [hthreads, hpc]) rfl rfl hvalid rfl
  | wait slot =>
    dsimp only
    split
    · next result hresult =>
      obtain ⟨shared, hs, hr⟩ := Option.bind_eq_some_iff.mp hresult
      exact h.goto hpc rfl ⟨shared, hs, hr⟩ trivial rfl
    · exact h.goto hpc rfl trivial trivial rfl
  | clear slot result =>
    rw [hpc] at hfollows
    exact (h.clearSingleFlight hfollows).goto hpc rfl hfollows trivial rfl
  | checkLock slot result =>
    rw [hpc] at hfollows
    exact h.acquire hpc rfl hfollows trivial rfl
  | check slot result =>
    rw [hpc] at hfollows
    dsimp only
    split_ifs with hstamp
    · exact h.goto hpc rfl hfollows ⟨rfl, hstamp⟩ rfl
    · exact h.release hpc rfl rfl trivial rfl
  | act slot result session =>
    obtain ⟨hw', hthreads⟩ := h.actOn (t := t) slot session result
    exact hw'.release (by rw [hthreads, hpc]) rfl rfl trivial rfl

/-- **One step keeps the invariant.** -/
theorem sound_step (h : w.Sound) (a : EntitlementAction 𝔸) : (w.step a).1.Sound := by
  cases a with
  | install t api =>
    unfold System.step
    dsimp only
    split
    · next hpc => exact h.goto hpc rfl trivial trivial rfl
    · exact h
  | compose t =>
    unfold System.step
    dsimp only
    split
    · next hpc => exact h.goto hpc rfl trivial trivial rfl
    · exact h
  | advance t budgetMs => exact sound_advance h t budgetMs
  | publish slot fetched => exact h.publish slot _

theorem sound_initial : (initial : System 𝔸).Sound where
  lock t := by simp [initial, Pc.holds]
  follows _ := trivial
  knows _ := trivial
  stamped _ hs := by cases hs
  adapter _ _ hs := by cases hs
  inFlight _ h := by
    obtain ⟨_, hs, -⟩ := h
    cases hs
  single _ _ _ h := by
    obtain ⟨_, hs, -⟩ := h
    cases hs

end

/-! ## Provenance -/

/-- The slot's outcome was fetched by the adapter of a session, under its generation. -/
def FetchedBy (w : System 𝔸) (slot : ℕ) (session : Session 𝔸) (outcome : FetchResult) : Prop :=
  ∃ shared, w.slots[slot]? = some shared ∧ session.adapter = some shared.adapter ∧
    session.generation = shared.generation ∧ shared.result = some outcome

/-- The event acts on an outcome fetched by the adapter installed at the check. -/
def Certifies (w : System 𝔸) : EntitlementEvent 𝔸 → Prop
  | .composed _ slot session entitlements => w.FetchedBy slot session (.ok entitlements)
  | .stored _ slot session snapshot => w.FetchedBy slot session (.ok snapshot)
  | .withdrew _ slot session => ∃ entitlements, w.FetchedBy slot session (.ok entitlements)
  | _ => True

/-- The history and the cache are those of the adapters installed at the checks. -/
structure Certified (w : System 𝔸) (h : List (EntitlementEvent 𝔸)) : Prop where
  history : ∀ e ∈ h, w.Certifies e
  cached : ∀ snapshot, w.provider.cached = some snapshot → ∃ t slot session,
    .stored t slot session snapshot ∈ h ∧ (w.Quiet → session = w.session)

section
variable {w w' : System 𝔸} {t : ℕ} {h : List (EntitlementEvent 𝔸)}

theorem Certifies.grows (hg : Grows w w') {e : EntitlementEvent 𝔸} (he : w.Certifies e) :
    w'.Certifies e := by
  have hfetched : ∀ {slot session outcome}, w.FetchedBy slot session outcome →
      w'.FetchedBy slot session outcome := by
    rintro slot session outcome ⟨shared, hs, hadapter, hgen, hresult⟩
    obtain ⟨shared', hs', hgen', hadapter', hresult'⟩ := hg slot shared hs
    exact ⟨shared', hs', by rw [hadapter', hadapter], by rw [hgen', hgen], hresult' _ hresult⟩
  cases e with
  | composed | stored => exact hfetched he
  | withdrew =>
    obtain ⟨entitlements, he⟩ := he
    exact ⟨entitlements, hfetched he⟩
  | _ => trivial

theorem quiet_of_goto {pc₀ pc : Pc 𝔸} (hpc : w.threads t = pc₀) (hout : pc₀.replacing = false)
    (hq : (w.goto t pc).Quiet) : w.Quiet := by
  have hother := (forall_goto (P := fun pc => pc.replacing = false)).mp hq
  intro t'
  by_cases ht' : t' = t
  · rwa [ht', hpc]
  · exact hother.2 t' ht'

/-! ### Steps that act on no outcome -/

/-- A step that acts on no outcome and does not fill the cache. -/
structure Passive (w : System 𝔸) (r : System 𝔸 × List (EntitlementEvent 𝔸)) : Prop where
  grows : Grows w r.1
  silent : ∀ e ∈ r.2, e.outcome = none
  cached : ∀ snapshot, r.1.provider.cached = some snapshot → w.provider.cached = some snapshot ∧
    (r.1.Quiet → w.Quiet ∧ r.1.session = w.session)

/-- A thread past its check takes its next step. -/
def Acts (w : System 𝔸) : EntitlementAction 𝔸 → Prop
  | .advance t _ => ∃ slot result session, w.threads t = .act slot result session
  | _ => False

theorem passive_refl : Passive w (w, []) where
  grows := grows_of_slots_eq rfl
  silent _ he := by cases he
  cached _ hs := ⟨hs, fun hq => ⟨hq, rfl⟩⟩

theorem passive_goto {pc₀ pc : Pc 𝔸} (hpc : w.threads t = pc₀) (hout : pc₀.replacing = false)
    {events : List (EntitlementEvent 𝔸)} (hsilent : ∀ e ∈ events, e.outcome = none) :
    Passive w (w.goto t pc, events) where
  grows := grows_of_slots_eq rfl
  silent := hsilent
  cached _ hs := ⟨hs, fun hq => ⟨quiet_of_goto hpc hout hq, rfl⟩⟩

theorem passive_acquire {pc₀ pc : Pc 𝔸} (hpc : w.threads t = pc₀) (hout : pc₀.replacing = false) :
    Passive w (w.acquire t pc, []) := by
  unfold System.acquire
  split_ifs
  · exact {
      grows := grows_of_slots_eq rfl
      silent := fun _ he => by cases he
      cached := fun _ hs => ⟨hs, fun hq => ⟨quiet_of_goto (w := { w with
        provider := { w.provider with transition := some t } }) hpc hout hq, rfl⟩⟩ }
  · exact passive_refl

theorem passive_release {pc₀ pc : Pc 𝔸} (hpc : w.threads t = pc₀) (hout : pc₀.replacing = false)
    {events : List (EntitlementEvent 𝔸)} (hsilent : ∀ e ∈ events, e.outcome = none) :
    Passive w (w.release t pc, events) where
  grows := grows_of_slots_eq rfl
  silent := hsilent
  cached _ hs := ⟨hs, fun hq => ⟨quiet_of_goto (w := { w with
    provider := { w.provider with transition := none } }) hpc hout hq, rfl⟩⟩

theorem passive_replacing {provider : EntitlementProvider 𝔸} {pc : Pc 𝔸}
    (hcached : provider.cached = w.provider.cached) (hpc : pc.replacing = true) :
    Passive w (System.goto { w with provider := provider } t pc, []) where
  grows := grows_of_slots_eq rfl
  silent _ he := by cases he
  cached snapshot hs := by
    refine ⟨hcached.symm.trans hs, fun hq => ?_⟩
    have := hq t
    rw [goto_threads, if_pos rfl, hpc] at this
    cases this

theorem passive_slotTake (hs : w.Sound) {generation slot : ℕ}
    (hpc : w.threads t = .slotTake generation)
    (hslot : w.singleFlightSlot generation = .ok (slot, w')) :
    Passive w (w'.release t (.wait slot), []) := by
  obtain ⟨-, hthreads, -⟩ := hs.slotTake hpc hslot
  have hrelease : Passive w' (w'.release t (.wait slot), []) :=
    passive_release (by rw [hthreads, hpc]) rfl fun _ he => by cases he
  have hcase := singleFlightSlot_case w generation
  rw [hslot] at hcase
  cases hcase with
  | joined => exact hrelease
  | started adapter => exact ⟨grows_spawn _ _, hrelease.silent, hrelease.cached⟩

theorem passive_advance (hs : w.Sound) (t budgetMs : ℕ) (hact : ¬ w.Acts (.advance t budgetMs)) :
    Passive w (w.advance t budgetMs) := by
  have hnil : ∀ e ∈ ([] : List (EntitlementEvent 𝔸)), e.outcome = none := fun _ he => by cases he
  have hrefused : ∀ error, ∀ e ∈ [EntitlementEvent.refused (𝔸 := 𝔸) t error], e.outcome = none :=
    fun error e he => by
      rw [List.mem_singleton.mp he]
      rfl
  unfold System.advance
  cases hpc : w.threads t with
  | idle => exact passive_refl
  | installLock api => exact passive_acquire hpc rfl
  | installInner api => exact passive_replacing rfl rfl
  | installGeneration => exact passive_replacing rfl rfl
  | installInFlight => exact passive_replacing rfl rfl
  | installCached => exact ⟨grows_of_slots_eq rfl, hnil, fun _ hnone => by cases hnone⟩
  | composeCurrent =>
    dsimp only
    split_ifs
    · exact passive_goto hpc rfl fun e he => by
        rw [List.mem_singleton.mp he]
        rfl
    · exact passive_goto hpc rfl hnil
  | slotLock => exact passive_acquire hpc rfl
  | slotLoad => exact passive_goto hpc rfl hnil
  | slotTake generation =>
    dsimp only
    split
    · exact passive_release hpc rfl (hrefused _)
    · next slot w' hslot => exact passive_slotTake hs hpc hslot
  | wait slot =>
    dsimp only
    split
    · exact passive_goto hpc rfl hnil
    · exact passive_goto hpc rfl (hrefused _)
  | clear slot result =>
    have hgoto : Passive (w.clearSingleFlight slot)
        ((w.clearSingleFlight slot).goto t (.checkLock slot result), []) :=
      passive_goto (w := w.clearSingleFlight slot) hpc rfl hnil
    exact ⟨hgoto.grows, hgoto.silent, hgoto.cached⟩
  | checkLock slot result => exact passive_acquire hpc rfl
  | check slot result =>
    dsimp only
    split_ifs
    · exact passive_goto hpc rfl hnil
    · exact passive_release hpc rfl (hrefused _)
  | act slot result session => exact absurd ⟨slot, result, session, hpc⟩ hact

/-- **Every step but that of a thread past its check is passive.** -/
theorem passive_step (hs : w.Sound) {a : EntitlementAction 𝔸} (hact : ¬ w.Acts a) :
    Passive w (w.step a) := by
  cases a with
  | install t api =>
    unfold System.step
    dsimp only
    split
    · next hpc => exact passive_goto hpc rfl fun _ he => by cases he
    · exact passive_refl
  | compose t =>
    unfold System.step
    dsimp only
    split
    · next hpc => exact passive_goto hpc rfl fun _ he => by cases he
    · exact passive_refl
  | advance t budgetMs => exact passive_advance hs t budgetMs hact
  | publish slot fetched =>
    exact ⟨grows_publish slot _, passive_refl.silent, passive_refl.cached⟩

theorem certifies_of_outcome_none {e : EntitlementEvent 𝔸} (he : e.outcome = none) :
    w.Certifies e := by
  cases e with
  | composed | stored | withdrew => cases he
  | _ => trivial

theorem Certified.passive (hc : w.Certified h) {r : System 𝔸 × List (EntitlementEvent 𝔸)}
    (hr : Passive w r) : r.1.Certified (h ++ r.2) where
  history e he := by
    rcases List.mem_append.mp he with hold | hnew
    · exact (hc.history e hold).grows hr.grows
    · exact certifies_of_outcome_none (hr.silent e hnew)
  cached snapshot hs := by
    obtain ⟨hold, hquiet⟩ := hr.cached snapshot hs
    obtain ⟨t, slot, session, hmem, hsession⟩ := hc.cached snapshot hold
    refine ⟨t, slot, session, List.mem_append_left _ hmem, fun hq => ?_⟩
    obtain ⟨hq', heq⟩ := hquiet hq
    rw [heq]
    exact hsession hq'

/-! ### The step that acts -/

/-- The outcome of a thread past its check belongs to the session it recorded, still installed. -/
theorem fetchedBy_of_act (h : w.Sound) {slot : ℕ} {result : FetchResult} {session : Session 𝔸}
    (hpc : w.threads t = .act slot result session) :
    session = w.session ∧ w.FetchedBy slot session result := by
  have hlanded := h.follows t
  have hknows := h.knows t
  rw [hpc] at hlanded hknows
  obtain ⟨shared, hs, hresult⟩ := hlanded
  obtain ⟨rfl, hstamp⟩ := hknows
  rw [hs, Option.map_some, Option.some.injEq] at hstamp
  -- the lock is ours, so no other thread is between an adapter and its generation
  have hsettled : w.Settled := fun t' => by
    by_cases ht' : t' = t
    · rw [ht', hpc]
      rfl
    · have hout := h.others hpc rfl ht'
      cases hpc' : w.threads t' <;> first | rfl | (rw [hpc'] at hout; cases hout)
  exact ⟨rfl, shared, hs, h.adapter hsettled shared (List.mem_of_getElem? hs) hstamp,
    hstamp.symm, hresult⟩

theorem Certified.withdraw (hc : w.Certified h) {slot : ℕ} {session : Session 𝔸}
    {entitlements : VpnEntitlements} (hfetched : w.FetchedBy slot session (.ok entitlements))
    (error : RpcError) :
    w.invalidateCachedSnapshot.Certified (h ++ [.withdrew t slot session, .refused t error]) where
  history e he := by
    rcases List.mem_append.mp he with hold | hnew
    · exact (hc.history e hold).grows (grows_of_slots_eq rfl)
    · simp only [List.mem_cons, List.not_mem_nil, or_false] at hnew
      rcases hnew with rfl | rfl
      · exact ⟨entitlements, hfetched⟩
      · trivial
  cached _ hnone := by cases hnone

/-- A usable answer of the installed account fills the cache. -/
theorem Certified.store (hc : w.Certified h) {slot : ℕ} {snapshot : VpnEntitlements}
    (hfetched : w.FetchedBy slot w.session (.ok snapshot)) :
    (w.storeSnapshot snapshot).Certified
      (h ++ [.stored t slot w.session snapshot, .composed t slot w.session snapshot]) where
  history e he := by
    rcases List.mem_append.mp he with hold | hnew
    · exact (hc.history e hold).grows (grows_of_slots_eq rfl)
    · simp only [List.mem_cons, List.not_mem_nil, or_false] at hnew
      rcases hnew with rfl | rfl
      · exact hfetched
      · exact hfetched
  cached snapshot' hsnapshot := by
    cases hsnapshot
    exact ⟨t, slot, w.session, by simp, fun _ => rfl⟩

/-- What a thread past its check does to the cache and the history. -/
theorem Certified.actOn (hs : w.Sound) (hc : w.Certified h) {slot : ℕ} {result : FetchResult}
    {session : Session 𝔸} (hpc : w.threads t = .act slot result session) :
    (w.actOn t slot session result).1.Certified (h ++ (w.actOn t slot session result).2) := by
  obtain ⟨rfl, hfetched⟩ := fetchedBy_of_act hs hpc
  unfold System.actOn
  split
  · split_ifs
    · exact hc.withdraw hfetched _
    · exact hc.withdraw hfetched _
    · exact hc.store hfetched
  · exact hc.passive (r := (w, _)) ⟨grows_of_slots_eq rfl, fun e he => by
      rw [List.mem_singleton.mp he]
      rfl, passive_refl.cached⟩

/-- **One step keeps the provenance.** -/
theorem certified_step (hs : w.Sound) (hc : w.Certified h) (a : EntitlementAction 𝔸) :
    (w.step a).1.Certified (h ++ (w.step a).2) := by
  by_cases hact : w.Acts a
  · cases a with
    | advance t budgetMs =>
      obtain ⟨slot, result, session, hpc⟩ := hact
      obtain ⟨-, hthreads⟩ := hs.actOn (t := t) slot session result
      have hrelease : Passive (w.actOn t slot session result).1
          ((w.actOn t slot session result).1.release t .idle, []) :=
        passive_release (by rw [hthreads, hpc]) rfl fun _ he => by cases he
      have hnext := (hc.actOn hs hpc).passive hrelease
      rw [List.append_nil] at hnext
      simpa only [System.step, System.advance, hpc] using hnext
    | _ => cases hact
  · exact hc.passive (passive_step hs hact)

end

/-! ## Every run -/

theorem certified_initial : (initial : System 𝔸).Certified [] where
  history _ he := by cases he
  cached _ hs := by cases hs

theorem sound_certified_run (actions : List (EntitlementAction 𝔸)) :
    (runFromStart actions).1.Sound ∧ (runFromStart actions).1.Certified
    (runFromStart actions).2 := by
  have hstep : ∀ (w : System 𝔸) (h : List (EntitlementEvent 𝔸)) (a : EntitlementAction 𝔸),
      w.Sound ∧ w.Certified h → (w.step a).1.Sound ∧
      (w.step a).1.Certified (h ++ (w.step a).2) := by
    rintro w h a ⟨hs, hc⟩
    exact ⟨sound_step hs a, certified_step hs hc a⟩
  have := Machine.run_inv (fun w h => System.Sound w ∧ System.Certified w h) hstep
    (initial : System 𝔸) []
    ⟨sound_initial, certified_initial⟩ actions
  rwa [List.nil_append] at this

/-- **Accounts do not mix**, in any interleaving. Every composition returned, every snapshot stored
and every withdrawal is of an outcome that the adapter installed at the post-wait check fetched
under its generation, and that adapter stays installed until the thread is done; so is the snapshot
in the cache, which is that of the installed session whenever no replacement is under way; and a
generation has one worker that has not published. -/
theorem entitlement_isolation (actions : List (EntitlementAction 𝔸)) :
    (∀ e ∈ (runFromStart actions).2, (runFromStart actions).1.Certifies e) ∧
      (∀ t slot result session, (runFromStart actions).1.threads t = .act slot result session →
        session = (runFromStart actions).1.session ∧
          (runFromStart actions).1.FetchedBy slot session result) ∧
      (∀ snapshot, (runFromStart actions).1.provider.cached = some snapshot → ∃ t slot session,
        .stored t slot session snapshot ∈ (runFromStart actions).2 ∧
          (runFromStart actions).1.FetchedBy slot session (.ok snapshot) ∧
          ((runFromStart actions).1.Quiet → session = (runFromStart actions).1.session)) ∧
      ∀ slot slot' generation, (runFromStart actions).1.Pending slot generation →
        (runFromStart actions).1.Pending slot' generation → slot = slot' := by
  obtain ⟨hs, hc⟩ := sound_certified_run actions
  refine ⟨hc.history, fun t slot result session hpc => fetchedBy_of_act hs hpc,
    fun snapshot hcached => ?_, hs.single⟩
  obtain ⟨t, slot, session, hmem, hquiet⟩ := hc.cached snapshot hcached
  exact ⟨t, slot, session, hmem, hc.history _ hmem, hquiet⟩

-- thread 1 waits on the worker of "a", which stays installed
example :
    (runFromStart [.install 0 "a", .advance 0 0, .advance 0 0, .advance 0 0, .advance 0 0,
      .advance 0 0,
    .compose 1, .advance 1 0, .advance 1 0, .advance 1 0, .advance 1 0,
    .publish 0 (.ok (.ofTier .active (some 2))), .advance 1 0, .advance 1 0, .advance 1 0,
    .advance 1 0,
    .advance 1 0]).2 =
    [.stored 1 0 ⟨some "a", 1⟩ (.ofTier .active (some 2)),
      .composed 1 0 ⟨some "a", 1⟩ (.ofTier .active (some 2))] := rfl

-- thread 1 waits on the worker of "a", "b" replaces it before the check, and the outcome is refused
example :
    (runFromStart [.install 0 "a", .advance 0 0, .advance 0 0, .advance 0 0, .advance 0 0,
      .advance 0 0,
    .compose 1, .advance 1 0, .advance 1 0, .advance 1 0, .advance 1 0,
    .publish 0 (.ok (.ofTier .active (some 2))), .advance 1 0, .advance 1 0,
    .install 0 "b", .advance 0 0, .advance 0 0, .advance 0 0, .advance 0 0, .advance 0 0,
    .advance 1 0, .advance 1 0]).2 = [.refused 1 replacedSession] := rfl

end System

end ProtonWire
