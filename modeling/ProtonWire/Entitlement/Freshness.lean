import ProtonWire.Entitlement.Isolation

/-!
# The order of the answers of one account

Slots are numbered in the order their workers start. A waiter clears the cell of the slot it
consumed before it takes the transition lock again, and another request may run a whole fetch in
between: the later worker's answer is then acted on first.

* `System.Overtakes`: the step at which that happens;
* `System.Ordered`: the invariant of the runs without such a step;
* **`cached_snapshot_is_newest`**: in those runs no answer is stored after a later worker's.
-/

namespace ProtonWire

variable {𝔸 : Type}

/-- The slot a thread waits for, or whose outcome it carries. -/
def Pc.slot? : Pc 𝔸 → Option ℕ
  | wait slot | clear slot _ | checkLock slot _ | check slot _ | act slot _ _ => some slot
  | _ => none

/-- The outcome is stored when it is acted on: an active account with a tier. -/
def usable : FetchResult → Bool
  | .ok entitlements => entitlements.vpnAccess == .active && entitlements.maxTier.isSome
  | .error _ => false

namespace System

/-! ## Overtaking -/

/-- A thread acts on an answer while another waits for, or carries, a usable answer of an earlier
worker of the same generation. -/
def Overtakes (w : System 𝔸) : EntitlementAction 𝔸 → Prop
  | .advance t _ => ∃ slot entitlements session t' slot' shared' result',
    w.threads t = .act slot (.ok entitlements) session ∧ (w.threads t').slot? = some slot' ∧
    slot' < slot ∧
      w.slots[slot']? = some shared' ∧ shared'.generation = session.generation ∧
      shared'.result = some result' ∧ usable result' = true
  | _ => False

/-- What an event acted on is not of a later worker of the account than a later store. -/
def InOrder (e e' : EntitlementEvent 𝔸) : Prop :=
  ∀ slot session t' slot' session' snapshot', e.outcome = some (slot, session) →
    e' = .stored t' slot' session' snapshot' → session'.generation = session.generation →
    slot ≤ slot'

/-- No outcome acted on so far is of a later worker of a generation. -/
def Newest (h : List (EntitlementEvent 𝔸)) (slot generation : ℕ) : Prop :=
  ∀ e ∈ h, ∀ slot' session', e.outcome = some (slot', session') → session'.generation = generation →
    slot' ≤ slot

/-- The slot's outcome is not known to be unusable. -/
def Storable (w : System 𝔸) (slot generation : ℕ) : Prop :=
  ∃ shared, w.slots[slot]? = some shared ∧ shared.generation = generation ∧
    ∀ result, shared.result = some result → usable result = true

/-- The invariant of the runs in which no answer is overtaken. -/
structure Ordered (w : System 𝔸) (h : List (EntitlementEvent 𝔸)) : Prop where
  inFlight : ∀ slot, w.provider.inFlight = some slot → slot + 1 = w.slots.length
  carried : ∀ t slot generation, (w.threads t).slot? = some slot → w.Storable slot generation →
    Newest h slot generation
  history : h.Pairwise InOrder
  cached : ∀ snapshot, w.provider.cached = some snapshot → ∃ t slot session,
    .stored t slot session snapshot ∈ h ∧ (w.Quiet → session = w.session) ∧
      Newest h slot session.generation

section
variable {w w' : System 𝔸} {t : ℕ} {h : List (EntitlementEvent 𝔸)}

/-! ## Slots and their order -/

theorem storable_of_grows (hg : Grows w w') {slot generation : ℕ} (hslot : slot < w.slots.length)
    (hs : w'.Storable slot generation) : w.Storable slot generation := by
  obtain ⟨shared', hs', hgen', husable⟩ := hs
  obtain ⟨shared₁, hs₁, hgen₁, -, hresult⟩ := hg slot _ (List.getElem?_eq_getElem hslot)
  rw [hs'] at hs₁
  cases hs₁
  refine ⟨w.slots[slot], List.getElem?_eq_getElem hslot, hgen₁.symm.trans hgen',
    fun result hr => ?_⟩
  exact husable result (hresult result hr)

theorem Certified.slot_lt (hc : w.Certified h) {e : EntitlementEvent 𝔸} (he : e ∈ h) {slot : ℕ}
    {session : Session 𝔸} (houtcome : e.outcome = some (slot, session)) :
    slot < w.slots.length := by
  have hcert := hc.history e he
  cases e with
  | composed | stored =>
    cases houtcome
    obtain ⟨_, hs, -⟩ := hcert
    exact (List.getElem?_eq_some_iff.mp hs).1
  | withdrew =>
    cases houtcome
    obtain ⟨_, _, hs, -⟩ := hcert
    exact (List.getElem?_eq_some_iff.mp hs).1
  | _ => cases houtcome

theorem Certified.newest_last (hc : w.Certified h) {slot generation : ℕ}
    (hslot : slot + 1 = w.slots.length) : Newest h slot generation := by
  intro e he slot' session' houtcome _
  have := hc.slot_lt he houtcome
  omega

theorem Sound.slot_lt (hs : w.Sound) {slot : ℕ} (hslot : (w.threads t).slot? = some slot) :
    slot < w.slots.length := by
  have hfollows := hs.follows t
  cases hpc : w.threads t with
  | wait i =>
    rw [hpc] at hfollows hslot
    cases hslot
    exact hfollows
  | clear i | checkLock i | check i | act i =>
    rw [hpc] at hfollows hslot
    cases hslot
    obtain ⟨_, hshared, -⟩ := hfollows
    exact (List.getElem?_eq_some_iff.mp hshared).1
  | _ =>
    rw [hpc] at hslot
    cases hslot

/-! ## Steps that act on no outcome -/

/-- A step follows no slot but those followed before and the last one allocated. -/
structure Queued (w w' : System 𝔸) : Prop where
  inFlight : ∀ slot, w'.provider.inFlight = some slot → slot + 1 = w'.slots.length
  slots : ∀ t slot, (w'.threads t).slot? = some slot →
    (w.threads t).slot? = some slot ∨ slot + 1 = w'.slots.length

theorem queued_goto {provider : EntitlementProvider 𝔸} {pc : Pc 𝔸}
    (hflight : ∀ slot, provider.inFlight = some slot → slot + 1 = w.slots.length)
    (hpc : ∀ slot, pc.slot? = some slot → (w.threads t).slot? = some slot ∨
     slot + 1 = w.slots.length) :
    Queued w (System.goto { w with provider := provider } t pc) where
  inFlight := hflight
  slots t' slot hslot := by
    rw [goto_threads] at hslot
    split_ifs at hslot with ht'
    · rw [ht']
      exact hpc slot hslot
    · exact Or.inl hslot

theorem queued_acquire (hflight : ∀ slot, w.provider.inFlight = some slot →
    slot + 1 = w.slots.length)
    {pc : Pc 𝔸} (hpc : pc.slot? = (w.threads t).slot?) : Queued w (w.acquire t pc) := by
  unfold System.acquire
  split_ifs
  · exact queued_goto hflight fun slot hslot => Or.inl (hpc ▸ hslot)
  · exact ⟨hflight, fun _ _ hslot => Or.inl hslot⟩

theorem singleFlightSlot_last {generation slot : ℕ}
    (hflight : ∀ slot, w.provider.inFlight = some slot → slot + 1 = w.slots.length)
    (hslot : w.singleFlightSlot generation = .ok (slot, w')) :
    slot + 1 = w'.slots.length ∧ w'.threads = w.threads ∧
      ∀ slot, w'.provider.inFlight = some slot → slot + 1 = w'.slots.length := by
  unfold System.singleFlightSlot at hslot
  split at hslot
  · next existing hexisting =>
    obtain ⟨hin, -⟩ := Option.filter_eq_some_iff.mp hexisting
    cases hslot
    exact ⟨hflight slot hin, rfl, hflight⟩
  · split at hslot
    · cases hslot
    · next adapter _ =>
      cases hslot
      have hlen : (w.spawn generation adapter).slots.length = w.slots.length + 1 := by
        simp [System.spawn]
      refine ⟨hlen.symm, rfl, fun slot hin => ?_⟩
      cases hin
      exact hlen.symm

theorem queued_advance (hflight : ∀ slot, w.provider.inFlight = some slot →
    slot + 1 = w.slots.length)
    (t budgetMs : ℕ) : Queued w (w.advance t budgetMs).1 := by
  have hnone : ∀ {slot : ℕ} {P : Prop}, (none : Option ℕ) = some slot → P := fun h => by cases h
  unfold System.advance
  cases hpc : w.threads t with
  | idle => exact ⟨hflight, fun _ _ hslot => Or.inl hslot⟩
  | installLock | slotLock | checkLock => exact queued_acquire hflight (by rw [hpc]; rfl)
  | installInner | installGeneration | installCached | slotLoad =>
    exact queued_goto hflight fun _ => hnone
  | installInFlight => exact queued_goto (fun _ => hnone) fun _ => hnone
  | composeCurrent =>
    dsimp only
    split_ifs
    · exact queued_goto hflight fun _ => hnone
    · exact queued_goto hflight fun _ => hnone
  | slotTake generation =>
    dsimp only
    split
    · exact queued_goto hflight fun _ => hnone
    · next slot w' hslot =>
      obtain ⟨hlast, hthreads, hflight'⟩ := singleFlightSlot_last hflight hslot
      have hq : Queued w' (w'.release t (.wait slot)) := queued_goto hflight' fun _ hwait => by
        cases hwait
        exact Or.inr hlast
      exact ⟨hq.inFlight, hthreads ▸ hq.slots⟩
  | wait slot =>
    dsimp only
    split
    · exact queued_goto hflight fun _ hslot => Or.inl (hpc ▸ hslot)
    · exact queued_goto hflight fun _ => hnone
  | clear slot result =>
    refine queued_goto (fun i hi => ?_) fun _ hslot => Or.inl (hpc ▸ hslot)
    exact hflight i (Option.filter_eq_some_iff.mp hi).1
  | check slot result =>
    dsimp only
    split_ifs
    · exact queued_goto hflight fun _ hslot => Or.inl (hpc ▸ hslot)
    · exact queued_goto hflight fun _ => hnone
  | act slot result session =>
    have hkeep : (w.actOn t slot session result).1.threads = w.threads ∧
        (w.actOn t slot session result).1.slots = w.slots ∧
        (w.actOn t slot session result).1.provider.inFlight = w.provider.inFlight := by
      unfold System.actOn
      split
      · split_ifs <;> exact ⟨rfl, rfl, rfl⟩
      · exact ⟨rfl, rfl, rfl⟩
    obtain ⟨hthreads, hslots, hin⟩ := hkeep
    have hq : Queued (w.actOn t slot session result).1
      ((w.actOn t slot session result).1.release t .idle) :=
      queued_goto (by rw [hin, hslots]; exact hflight) fun _ => hnone
    exact ⟨hq.inFlight, hthreads ▸ hq.slots⟩

theorem queued_step (hflight : ∀ slot, w.provider.inFlight = some slot → slot + 1 = w.slots.length)
    (a : EntitlementAction 𝔸) : Queued w (w.step a).1 := by
  cases a with
  | install t api =>
    unfold System.step
    dsimp only
    split
    · exact queued_goto hflight fun _ hslot => by cases hslot
    · exact ⟨hflight, fun _ _ hslot => Or.inl hslot⟩
  | compose t =>
    unfold System.step
    dsimp only
    split
    · exact queued_goto hflight fun _ hslot => by cases hslot
    · exact ⟨hflight, fun _ _ hslot => Or.inl hslot⟩
  | advance t budgetMs => exact queued_advance hflight t budgetMs
  | publish slot fetched =>
    have hlen : (w.publish slot (mapFetched fetched)).slots.length = w.slots.length :=
      List.length_modify _ _ _
    exact ⟨fun i hi => (hflight i hi).trans hlen.symm, fun _ _ hslot => Or.inl hslot⟩

theorem Ordered.passive (hs : w.Sound) (ho : w.Ordered h) {r : System 𝔸 × List (EntitlementEvent 𝔸)}
    (hc' : r.1.Certified (h ++ r.2)) (hr : Passive w r) (hq : Queued w r.1) :
    r.1.Ordered (h ++ r.2) := by
  have hnewest : ∀ {slot generation}, Newest h slot generation →
    Newest (h ++ r.2) slot generation := by
    intro slot generation hn e he slot' session' houtcome hgen
    rcases List.mem_append.mp he with hold | hnew
    · exact hn e hold slot' session' houtcome hgen
    · rw [hr.silent e hnew] at houtcome
      cases houtcome
  refine ⟨hq.inFlight, fun t slot generation hslot hstorable => ?_, ?_, fun snapshot hcached => ?_⟩
  · rcases hq.slots t slot hslot with hold | hlast
    · exact hnewest (ho.carried t slot generation hold
        (storable_of_grows hr.grows (hs.slot_lt hold) hstorable))
    · exact hc'.newest_last hlast
  · refine List.pairwise_append.mpr ⟨ho.history, ?_, fun e _ e' he' => ?_⟩
    · refine List.Pairwise.imp_of_mem (fun {e e'} he _ _ => ?_)
        (List.pairwise_of_forall (R := fun _ _ => True)
        fun _ _ => trivial)
      intro slot session _ _ _ _ houtcome
      rw [hr.silent e he] at houtcome
      cases houtcome
    · rintro slot session t' slot' session' snapshot' - rfl
      have := hr.silent _ he'
      cases this
  · obtain ⟨hold, hquiet⟩ := hr.cached snapshot hcached
    obtain ⟨t, slot, session, hmem, hsession, hn⟩ := ho.cached snapshot hold
    refine ⟨t, slot, session, List.mem_append_left _ hmem, fun hq' => ?_, hnewest hn⟩
    obtain ⟨hq₀, heq⟩ := hquiet hq'
    rw [heq]
    exact hsession hq₀

/-! ## The step that acts -/

theorem landed_of_later (hs : w.Sound) (ho : w.Ordered h) {slot slot' : ℕ}
    (hslot : slot < w.slots.length)
    (hlt : slot' < slot) (hstorable : w.Storable slot' w.provider.generation) :
    ∃ shared result, w.slots[slot']? = some shared ∧ shared.generation = w.provider.generation ∧
      shared.result = some result ∧ usable result = true := by
  obtain ⟨shared, hshared, hgen, husable⟩ := hstorable
  cases hresult : shared.result with
  | none =>
    -- a worker that has not published is the one in flight, so the last one
    have := ho.inFlight slot' (hs.inFlight slot' ⟨shared, hshared, hgen, hresult⟩)
    omega
  | some result => exact ⟨shared, result, hshared, hgen, hresult, husable result hresult⟩

/-- A thread past its check acts on an answer, and overtakes nobody. -/
theorem Ordered.act (hs : w.Sound) (ho : w.Ordered h) {slot budgetMs : ℕ}
    {entitlements : VpnEntitlements}
    {session : Session 𝔸} (hpc : w.threads t = .act slot (.ok entitlements) session)
    (hno : ¬ w.Overtakes (.advance t budgetMs)) {events : List (EntitlementEvent 𝔸)}
    (houtcome : ∀ e ∈ events, ∀ outcome, e.outcome = some outcome → outcome = (slot, session))
    (hstored : ∀ t' slot' session' snapshot', .stored t' slot' session' snapshot' ∈ events →
      usable (.ok entitlements) = true)
    {cached : Option VpnEntitlements} (hcached : ∀ snapshot, cached = some snapshot →
     ∃ t', .stored t' slot session snapshot ∈ events) :
    (System.release { w with provider := { w.provider with cached := cached } } t .idle).Ordered
      (h ++ events) := by
  obtain ⟨hsession, shared, hshared, -, hgen, hresult⟩ := fetchedBy_of_act hs hpc
  have hlt : slot < w.slots.length := (List.getElem?_eq_some_iff.mp hshared).1
  have hcurrent : session.generation = w.provider.generation := by rw [hsession]; rfl
  -- what is stored is the newest outcome so far
  have hnewest : usable (.ok entitlements) = true →
    Newest (h ++ events) slot session.generation := by
    intro husable e he slot' session' hout hsame
    rcases List.mem_append.mp he with hold | hnew
    · refine ho.carried t slot session.generation (by rw [hpc]; rfl)
        ⟨shared, hshared, hgen.symm, fun result hr => ?_⟩ e hold slot' session' hout hsame
      rw [hresult] at hr
      cases hr
      exact husable
    · have := houtcome e hnew _ hout
      cases this
      exact le_rfl
  refine ⟨ho.inFlight, fun t' slot' generation hslot' hstorable => ?_, ?_, fun snapshot hc => ?_⟩
  · unfold System.release at hslot'
    rw [goto_threads] at hslot'
    split_ifs at hslot' with ht'
    · cases hslot'
    intro e he slot₁ session₁ hout hsame
    rcases List.mem_append.mp he with hmem | hmem
    · exact ho.carried t' slot' generation hslot' hstorable e hmem slot₁ session₁ hout hsame
    · -- an earlier slot that may still be stored would be overtaken
      have := houtcome e hmem _ hout
      cases this
      by_contra hearlier
      rw [← hsame, hcurrent] at hstorable
      obtain ⟨shared', result', hs', hgen', hr', husable'⟩ :=
        landed_of_later hs ho hlt (not_le.mp hearlier) hstorable
      exact hno ⟨slot, entitlements, session, t', slot', shared', result', hpc, hslot',
        not_le.mp hearlier,
        hs', hgen'.trans hcurrent.symm, hr', husable'⟩
  · refine List.pairwise_append.mpr ⟨ho.history, ?_, fun e he e' he' => ?_⟩
    · refine List.Pairwise.imp_of_mem (fun {e e'} he he' _ => ?_)
        (List.pairwise_of_forall (R := fun _ _ => True)
        fun _ _ => trivial)
      rintro slot₁ session₁ t₂ slot₂ session₂ snapshot₂ hout rfl -
      have h₁ := houtcome e he _ hout
      have h₂ := houtcome _ he' _ rfl
      cases h₁
      cases h₂
      exact le_rfl
    · rintro slot₁ session₁ t₂ slot₂ session₂ snapshot₂ hout rfl hsame
      have h₂ := houtcome _ he' _ rfl
      cases h₂
      exact hnewest (hstored _ _ _ _ he') e (List.mem_append_left _ he)
        slot₁ session₁ hout hsame.symm
  · obtain ⟨t', hmem⟩ := hcached snapshot hc
    exact ⟨t', slot, session, List.mem_append_right _ hmem, fun _ => hsession,
      hnewest (hstored _ _ _ _ hmem)⟩

theorem Ordered.actOn (hs : w.Sound) (ho : w.Ordered h) {slot budgetMs : ℕ}
    {entitlements : VpnEntitlements}
    {session : Session 𝔸} (hpc : w.threads t = .act slot (.ok entitlements) session)
    (hno : ¬ w.Overtakes (.advance t budgetMs)) :
    ((w.actOn t slot session (.ok entitlements)).1.release t .idle).Ordered
      (h ++ (w.actOn t slot session (.ok entitlements)).2) := by
  -- both refusals withdraw the cached snapshot
  have hwithdraw : ∀ error : RpcError, (w.invalidateCachedSnapshot.release t .idle).Ordered
      (h ++ [.withdrew t slot session, .refused t error]) := fun error => by
    refine ho.act hs hpc hno (fun e he outcome hout => ?_)
      (fun _ _ _ _ hmem => ?_) fun _ hnone => by cases hnone
    · simp only [List.mem_cons, List.not_mem_nil, or_false] at he
      rcases he with rfl | rfl
      · exact (Option.some.inj hout).symm
      · cases hout
    · simp at hmem
  unfold System.actOn
  dsimp only
  split_ifs with haccess htier
  · exact hwithdraw _
  · exact hwithdraw _
  · have husable : usable (.ok entitlements) = true := by
      simp [usable, not_not.mp haccess, Option.isSome_iff_ne_none.mpr htier]
    refine ho.act hs hpc hno (fun e he outcome hout => ?_)
      (fun _ _ _ _ _ => husable) fun snapshot hc => ?_
    · simp only [List.mem_cons, List.not_mem_nil, or_false] at he
      rcases he with rfl | rfl
      · exact (Option.some.inj hout).symm
      · exact (Option.some.inj hout).symm
    · cases hc
      exact ⟨t, by simp⟩

/-- **A step that overtakes nobody keeps the order.** -/
theorem ordered_step (hs : w.Sound) (hc : w.Certified h) (ho : w.Ordered h)
    {a : EntitlementAction 𝔸}
    (hno : ¬ w.Overtakes a) : (w.step a).1.Ordered (h ++ (w.step a).2) := by
  by_cases hact : w.Acts a
  · cases a with
    | advance t budgetMs =>
      obtain ⟨slot, result, session, hpc⟩ := hact
      simp only [System.step, System.advance, hpc]
      cases result with
      | ok entitlements => exact ho.actOn hs hpc hno
      | error error =>
        have hpassive : Passive w (w.release t .idle, [.refused t error]) :=
          passive_release hpc rfl fun e he => by
            rw [List.mem_singleton.mp he]
            rfl
        exact ho.passive hs (hc.passive hpassive) hpassive
          (queued_goto ho.inFlight fun _ hnone => by cases hnone)
    | _ => cases hact
  · exact ho.passive hs (certified_step hs hc a) (passive_step hs hact) (queued_step ho.inFlight a)

end

/-! ## Every run -/

theorem ordered_initial : (initial : System 𝔸).Ordered [] where
  inFlight _ h := by cases h
  carried _ _ _ h := by cases h
  history := List.Pairwise.nil
  cached _ h := by cases h

/-- **In a run in which no answer is overtaken, answers are stored in the order of their workers.**
Once the outcome of a worker has been acted on, no snapshot of an earlier worker of that generation
is stored; the cached snapshot is one that was stored, of the installed session whenever no
replacement is under way, and no outcome acted on so far is of a later worker of its generation. -/
theorem cached_snapshot_is_newest (actions : List (EntitlementAction 𝔸))
    (hno : ∀ as₁ a as₂, actions = as₁ ++ a :: as₂ → ¬ (runFromStart as₁).1.Overtakes a) :
    (runFromStart actions).2.Pairwise InOrder ∧
      ∀ snapshot, (runFromStart actions).1.provider.cached = some snapshot → ∃ t slot session,
        .stored t slot session snapshot ∈ (runFromStart actions).2 ∧
          ((runFromStart actions).1.Quiet → session = (runFromStart actions).1.session) ∧
          Newest (runFromStart actions).2 slot session.generation := by
  have hrun := Machine.run_inv_of_steps (fun w a => ¬ System.Overtakes w a)
    (fun w h => System.Sound w ∧ System.Certified w h ∧ System.Ordered w h)
    (fun w h a hno hw => ⟨sound_step hw.1 a, certified_step hw.1 hw.2.1 a,
      ordered_step hw.1 hw.2.1 hw.2.2 hno⟩)
    (initial : System 𝔸) ⟨sound_initial, certified_initial, ordered_initial⟩ actions hno
  exact ⟨hrun.2.2.history, hrun.2.2.cached⟩

/-- A request of thread `t`, whose worker is the next one, up to the end. -/
def wholeRequest (t slot : ℕ) (fetched : VpnEntitlements) : List (EntitlementAction String) :=
  [.compose t, .advance t 0, .advance t 0, .advance t 0, .advance t 0, .publish slot (.ok fetched),
    .advance t 0, .advance t 0, .advance t 0, .advance t 0, .advance t 0]

/-- Three requests of "a", each acted on before the next: the answers are active, without access,
and active again. -/
def promptRun : List (EntitlementAction String) :=
  [.install 0 "a", .advance 0 0, .advance 0 0, .advance 0 0, .advance 0 0, .advance 0 0] ++
    wholeRequest 1 0 (.ofTier .active (some 2)) ++ wholeRequest 2 1 (.ofTier .noAccess none) ++
    wholeRequest 3 2 (.ofTier .active (some 1))

theorem not_overtakes_of_le {w : System 𝔸} {a : EntitlementAction 𝔸} (first : ℕ)
    (hown : ∀ t budgetMs, a = .advance t budgetMs → ∀ slot, (w.threads t).slot? = some slot →
      slot ≤ first)
    (hothers : ∀ t slot, (w.threads t).slot? = some slot → first ≤ slot) : ¬ w.Overtakes a := by
  cases a with
  | advance t budgetMs =>
    rintro ⟨slot, _, _, t', slot', _, _, hpc, hslot', hlt, -⟩
    have hle := hown t budgetMs rfl slot (by rw [hpc]; rfl)
    have hge := hothers t' slot' hslot'
    omega
  | _ => exact id

theorem promptRun_prompt : Machine.Along step (fun w a => ¬ Overtakes w a) initial promptRun := by
  repeat' apply And.intro
  -- by the request: no thread has a slot of an earlier one
  all_goals first
    | exact trivial
    | refine not_overtakes_of_le 0 (fun t _ ha slot hslot => ?_) fun _ slot _ => Nat.zero_le slot
      cases ha <;> cases hslot <;> exact Nat.le_of_ble_eq_true rfl
    | refine not_overtakes_of_le 1 (fun t _ ha slot hslot => ?_) fun t slot hslot => ?_
      · cases ha
        cases hslot
        exact Nat.le_of_ble_eq_true rfl
      · rcases t with _ | _ | _ | t <;> cases hslot
        exact Nat.le_of_ble_eq_true rfl
    | refine not_overtakes_of_le 2 (fun t _ ha slot hslot => ?_) fun t slot hslot => ?_
      · cases ha
        cases hslot
        exact Nat.le_of_ble_eq_true rfl
      · rcases t with _ | _ | _ | _ | t <;> cases hslot
        exact Nat.le_of_ble_eq_true rfl

theorem cached_snapshot_is_newest_promptRun :
    (runFromStart promptRun).2.Pairwise InOrder ∧ ∃ t slot session,
      .stored t slot session (.ofTier .active (some 1)) ∈ (runFromStart promptRun).2 ∧
        session = (runFromStart promptRun).1.session ∧
        Newest (runFromStart promptRun).2 slot session.generation := by
  obtain ⟨horder, hcached⟩ := cached_snapshot_is_newest promptRun promptRun_prompt.at_step
  obtain ⟨t, slot, session, hmem, hsession, hnewest⟩ := hcached _ rfl
  refine ⟨horder, t, slot, session, hmem, hsession fun t => ?_, hnewest⟩
  rcases t with _ | _ | _ | _ | t <;> rfl

/-- Two requests of "a". Thread 1 clears the slot of the first worker, whose answer is active;
thread 2 has the second worker's answer, which withdraws access, and acts on it; then thread 1 goes
on. -/
def overtakenRun : List (EntitlementAction String) :=
  [.install 0 "a", .advance 0 0, .advance 0 0, .advance 0 0, .advance 0 0, .advance 0 0, .compose 1,
   .advance 1 0, .advance 1 0, .advance 1 0, .advance 1 0,
   .publish 0 (.ok (.ofTier .active (some 2))), .advance 1 0, .advance 1 0, .compose 2,
   .advance 2 0, .advance 2 0, .advance 2 0, .advance 2 0,
   .publish 1 (.ok (.ofTier .noAccess none)), .advance 2 0, .advance 2 0, .advance 2 0,
   .advance 2 0, .advance 2 0, .advance 1 0, .advance 1 0, .advance 1 0]

/-- The withdrawal of the later worker is followed by a store of the earlier one's snapshot, which
the cache then holds. -/
theorem overtaken_snapshot_is_stored :
    (runFromStart overtakenRun).2 =
        [.withdrew 2 1 ⟨some "a", 1⟩, .refused 2 (accessRefused .noAccess),
          .stored 1 0 ⟨some "a", 1⟩ (.ofTier .active (some 2)),
          .composed 1 0 ⟨some "a", 1⟩ (.ofTier .active (some 2))] ∧
      ¬ (runFromStart overtakenRun).2.Pairwise InOrder ∧
      (runFromStart overtakenRun).1.provider.cached = some (.ofTier .active (some 2)) := by
  have hevents : (runFromStart overtakenRun).2 =
      [.withdrew 2 1 ⟨some "a", 1⟩, .refused 2 (accessRefused .noAccess),
        .stored 1 0 ⟨some "a", 1⟩ (.ofTier .active (some 2)),
        .composed 1 0 ⟨some "a", 1⟩ (.ofTier .active (some 2))] := rfl
  refine ⟨hevents, fun hpairwise => ?_, rfl⟩
  rw [hevents] at hpairwise
  have := (List.pairwise_cons.mp hpairwise).1 _ (List.mem_cons_of_mem _ List.mem_cons_self) 1
    ⟨some "a", 1⟩ 1 0
    ⟨some "a", 1⟩ (.ofTier .active (some 2)) rfl rfl rfl
  omega

end System

end ProtonWire
