import ProtonWire.Scheduler.Pacing

/-!
# The confirmation token

An early refresh needs the token minted last, and a token buys one contact. The token is in one of
three places: pending behind the lock, in the hands of the call that redeemed it and has not fetched
yet, or spent.

* `token_step`: what a step does to tokens;
* `Outstanding`: the token was minted last, and more often than it was spent;
* `World.Tokens`, `tokens_step`: tokens pending or in hand are outstanding;
* **`token_law`**.
-/

namespace ProtonWire

open U64

/-! ## Tokens in events -/

/-- The value an event mints. -/
def Event.minted? : Event → Option String
  | minted value _ => some value
  | _ => none

/-- The token that authorised a contact. -/
def Event.redeemed? : Event → Option String
  | contact _ lead => lead.admission.redeemed
  | _ => none

/-- The minted values, in order. -/
def mintedValues (h : List Event) : List String := h.filterMap Event.minted?

/-- The values that authorised contacts, in order. -/
def redeemedValues (h : List Event) : List String := h.filterMap Event.redeemed?

theorem mintedValues_append (h ev : List Event) :
    mintedValues (h ++ ev) = mintedValues h ++ mintedValues ev := List.filterMap_append

theorem redeemedValues_append (h ev : List Event) :
    redeemedValues (h ++ ev) = redeemedValues h ++ redeemedValues ev := List.filterMap_append

/-- The events mint nothing, and no token authorised any of them. -/
def Quiet (ev : List Event) : Prop := mintedValues ev = [] ∧ redeemedValues ev = []

theorem quiet_of_forall {ev : List Event} (h : ∀ e ∈ ev, e.minted? = none ∧ e.redeemed? = none) :
    Quiet ev :=
  ⟨List.filterMap_eq_nil_iff.mpr fun e he => (h e he).1,
    List.filterMap_eq_nil_iff.mpr fun e he => (h e he).2⟩

theorem quiet_nil : Quiet [] := ⟨rfl, rfl⟩

theorem token_step {J : Serde} {w : World} {a : Action} (hs : w.Sound) :
    (∃ p' value now, (step J w a).1.process = some p' ∧ p'.inner.inFlight = none ∧
        p'.inner.token = some ⟨value, satAdd now confirmationTokenTtlSeconds⟩ ∧
        (step J w a).2 = [.minted value now]) ∨
      (∃ c lead, .contact c lead ∈ (step J w a).2) ∨
      (Quiet (step J w a).2 ∧ ∀ p' t, (step J w a).1.process = some p' → p'.inner.token = some t →
        ∃ p, w.process = some p ∧ p.inner.token = some t) := by
  have hcase := step_case J w a
  generalize step J w a = r at hcase
  cases hcase with
  | stutter => exact Or.inr (Or.inr ⟨quiet_nil, fun p' t on' ht => ⟨p', on', ht⟩⟩)
  | boot =>
    refine Or.inr (Or.inr ⟨⟨rfl, rfl⟩, fun p' t on' ht => ?_⟩)
    cases on'
    cases ht
  | crash =>
    refine Or.inr (Or.inr ⟨⟨rfl, rfl⟩, fun p' t on' => ?_⟩)
    cases on'
  | park a p caller door entry running on =>
    refine Or.inr (Or.inr ⟨quiet_nil, fun p' t on' ht => ?_⟩)
    cases on'
    exact ⟨p, on, ht⟩
  | join a p caller door entry seen report on =>
    refine Or.inr (Or.inr ⟨quiet_nil, fun p' t on' ht => ?_⟩)
    cases on'
    exact ⟨p, on, ht⟩
  | answer a p caller door entry env outcome σ on atDoor free result =>
    have ans := answered_of_result result
    rcases ans.token with ⟨htoken, he⟩ | ⟨value, htoken, he⟩
    · refine Or.inr (Or.inr ⟨?_, fun p' t on' ht => ?_⟩)
      · show Quiet σ.events
        rcases he with he | he <;> rw [he] <;> exact ⟨rfl, rfl⟩
      · cases on'
        exact ⟨p, on, htoken ▸ ht⟩
    · exact Or.inl ⟨_, value, _, rfl, ans.inFlight.trans free, htoken, he⟩
  | lead a p caller door entry env lead σ on atDoor free result =>
    have led := led_of_result (hs p on).versioned result
    refine Or.inr (Or.inr ⟨quiet_of_forall fun e he => ?_, fun p' t on' ht => ?_⟩)
    · rcases led.saves.mem he with h | ⟨d, rfl⟩
      · cases h
      · exact ⟨rfl, rfl⟩
    · cases on'
      have ht : σ.inner.token = some t := ht
      rcases led.admitted with ⟨-, -, hkeep⟩ | ⟨token, -, -, -, -, -, hburned⟩
      · exact ⟨p, on, hkeep ▸ ht⟩
      · rw [hburned] at ht; cases ht
  | invoke p caller lead on => exact Or.inr (Or.inl ⟨caller, lead, List.mem_singleton_self _⟩)
  | finish p caller lead fetched env report σ on completing result =>
    have fin := finished_of_eq result
    refine Or.inr (Or.inr ⟨quiet_of_forall fun e he => ?_, fun p' t on' ht => ?_⟩)
    · rcases fin.mem (hs p on).versioned he with h | ⟨d, rfl⟩ | ⟨rfl, -⟩
      · cases h
      · exact ⟨rfl, rfl⟩
      · exact ⟨rfl, rfl⟩
    · cases on'
      exact ⟨p, on, fin.token.symm.trans ht⟩

/-- **A failed mint changes nothing**: neither the token, nor the deadlines, nor the disk, and it
contacts nobody. -/
theorem mintFailed_step {J : Serde} {w : World} {a : Action} (hs : w.Sound)
    (h : .mintFailed ∈ (step J w a).2) :
    ∃ p p', w.process = some p ∧ (step J w a).1.process = some p' ∧
      p'.inner.token = p.inner.token ∧ p'.inner.persisted = p.inner.persisted ∧
      (step J w a).1.deadlines = w.deadlines ∧ (step J w a).1.servers = w.servers ∧
      ∀ c lead, .contact c lead ∉ (step J w a).2 := by
  have hcase := step_case J w a
  generalize step J w a = r at hcase h
  cases hcase with
  | stutter => cases h
  | boot => simp at h
  | crash => simp at h
  | park => cases h
  | join => cases h
  | answer a p caller door entry env outcome σ on atDoor free result =>
    have ans := answered_of_result result
    have h : .mintFailed ∈ σ.events := h
    rcases ans.token with ⟨htoken, he | he⟩ | ⟨value, -, he⟩ <;> rw [he] at h <;> simp at h
    refine ⟨p, _, on, rfl, htoken, ans.persisted, ans.deadlines, ans.servers, fun c lead hc => ?_⟩
    have hc : .contact c lead ∈ σ.events := hc
    rw [he] at hc
    simp at hc
  | lead a p caller door entry env lead σ on atDoor free result =>
    rcases (led_of_result (hs p on).versioned result).saves.mem h with h | ⟨d, h⟩
    · cases h
    · cases h
  | invoke => simp at h
  | finish p caller lead fetched env report σ on completing result =>
    rcases (finished_of_eq result).mem (hs p on).versioned h with h | ⟨d, h⟩ | ⟨h, -⟩
    · cases h
    · cases h
    · cases h

/-! ## Outstanding tokens -/

/-- The last mint of the history minted `value` at effective time `minted`. -/
def LastMint (h : List Event) (value : String) (minted : ℕ) : Prop :=
  ∃ before after, h = before ++ .minted value minted :: after ∧ mintedValues after = []

/-- The token was minted last, and more often than it authorised a contact. -/
structure Outstanding (h : List Event) (value : String) (minted : ℕ) : Prop where
  last : LastMint h value minted
  unspent : (redeemedValues h).count value < (mintedValues h).count value

theorem Outstanding.append {h ev : List Event} {value : String} {minted : ℕ}
    (ho : Outstanding h value minted) (hq : Quiet ev) : Outstanding (h ++ ev) value minted := by
  obtain ⟨⟨before, after, rfl, hafter⟩, hlt⟩ := ho
  refine ⟨⟨before, after ++ ev, by simp, ?_⟩, ?_⟩
  · rw [mintedValues_append, hafter, hq.1]
    rfl
  · rw [mintedValues_append, redeemedValues_append, hq.1, hq.2, List.append_nil, List.append_nil]
    exact hlt

/-- Where the tokens of a world are. -/
structure World.Tokens (w : World) (h : List Event) : Prop where
  spent : ∀ value, (redeemedValues h).count value ≤ (mintedValues h).count value
  pending : ∀ p t, w.process = some p → p.inner.token = some t →
    ∃ minted, Outstanding h t.value minted ∧
      t.expiresUnix = satAdd minted confirmationTokenTtlSeconds
  inHand : ∀ p c lead value, w.process = some p → p.callers c = .leading lead →
    lead.admission.redeemed = some value →
    lead.admission.door = .manual (some value) ∧ value ≠ "" ∧ ∃ minted, Outstanding h value minted ∧
      lead.admission.effective ≤ satAdd minted confirmationTokenTtlSeconds
  due : ∀ p c lead, w.process = some p → p.callers c = .leading lead →
    lead.admission.redeemed = none →
    ProtonWire.pending lead.admission.nextEligible lead.admission.effective = none

theorem spent_quiet {h ev : List Event} (hq : Quiet ev)
    (hs : ∀ value, (redeemedValues h).count value ≤ (mintedValues h).count value) (value : String) :
    (redeemedValues (h ++ ev)).count value ≤ (mintedValues (h ++ ev)).count value := by
  rw [mintedValues_append, redeemedValues_append, hq.1, hq.2, List.append_nil, List.append_nil]
  exact hs value

theorem tokens_of_not_leading {w : World} {h : List Event}
    (hleader : ∀ p, w.process = some p → ∀ c lead, p.callers c ≠ .leading lead)
    (spent : ∀ value, (redeemedValues h).count value ≤ (mintedValues h).count value)
    (pending : ∀ p t, w.process = some p → p.inner.token = some t →
      ∃ minted, Outstanding h t.value minted ∧
        t.expiresUnix = satAdd minted confirmationTokenTtlSeconds) : w.Tokens h :=
  ⟨spent, pending, fun p c lead _ on hc => absurd hc (hleader p on c lead),
    fun p c lead on hc => absurd hc (hleader p on c lead)⟩

theorem tokens_mint {J : Serde} {w : World} {h : List Event} {a : Action} (hs : w.Sound)
    (ht : w.Tokens h)
    {p' : Process} {value : String} {now : ℕ} (on' : (step J w a).1.process = some p')
    (free : p'.inner.inFlight = none)
    (htoken : p'.inner.token = some ⟨value, satAdd now confirmationTokenTtlSeconds⟩)
    (hev : (step J w a).2 = [.minted value now]) : (step J w a).1.Tokens (h ++ (step J w a).2) := by
  have hcount : ∀ v, (redeemedValues (h ++ [Event.minted value now])).count v =
      (redeemedValues h).count v := by
    intro v
    rw [redeemedValues_append]
    exact congrArg _ (List.append_nil _)
  have hmint : ∀ v, (mintedValues (h ++ [Event.minted value now])).count v =
      (mintedValues h).count v + [value].count v := by
    intro v
    rw [mintedValues_append, List.count_append]
    rfl
  rw [hev]
  refine tokens_of_not_leading (fun q onq c lead hq => ?_) (fun v => ?_) fun q t onq hqt => ?_
  · cases on'.symm.trans onq
    have hnone := (sound_step J w a hs p' on').no_leader free c
    rw [hq] at hnone
    cases hnone
  · rw [hcount, hmint]
    exact (ht.spent v).trans (Nat.le_add_right _ _)
  · cases on'.symm.trans onq
    cases htoken.symm.trans hqt
    refine ⟨now, ⟨⟨h, [], rfl, rfl⟩, ?_⟩, rfl⟩
    rw [hcount, hmint, List.count_singleton_self]
    exact Nat.lt_succ_of_le (ht.spent value)

theorem tokens_contact {J : Serde} {w : World} {h : List Event} {a : Action} (hs : w.Sound)
    (ht : w.Tokens h) {c : ℕ} {lead : Lead} (hc : .contact c lead ∈ (step J w a).2) :
    (step J w a).1.Tokens (h ++ (step J w a).2) := by
  obtain ⟨p, on, hlead, -, heq⟩ := contact_step hs hc
  have hev : (step J w a).2 = [.contact c lead] := congrArg Prod.snd heq
  refine tokens_of_not_leading (fun q onq => not_leading_of_contact hs hc onq) (fun v => ?_)
    fun q t onq hqt => ?_
  · rw [hev]
    cases hr : lead.admission.redeemed with
    | none => exact spent_quiet ⟨rfl, by simp [redeemedValues, Event.redeemed?, hr]⟩ ht.spent v
    | some value =>
      obtain ⟨-, -, minted, ho, -⟩ := ht.inHand p c lead value on hlead hr
      have hred : redeemedValues [Event.contact c lead] = [value] := by
        simp [redeemedValues, Event.redeemed?, hr]
      have hmint : mintedValues [Event.contact c lead] = [] := rfl
      rw [mintedValues_append, redeemedValues_append, hred, hmint, List.append_nil,
        List.count_append]
      by_cases hv : v = value
      · rw [hv, List.count_singleton_self]
        exact ho.unspent
      · rw [List.count_singleton, if_neg (by simpa using Ne.symm hv)]
        exact ht.spent v
  · have hqt : p.inner.token = some t := by
      rw [heq] at onq
      cases onq
      exact hqt
    have hnone : lead.admission.redeemed = none := by
      by_contra hr
      rw [((hs p on).leading c lead (by rw [hlead]; rfl)).burned hr] at hqt
      cases hqt
    obtain ⟨minted, ho, hexp⟩ := ht.pending p t on hqt
    rw [hev]
    exact ⟨minted, ho.append ⟨rfl, by simp [redeemedValues, Event.redeemed?, hnone]⟩, hexp⟩

theorem tokens_quiet {J : Serde} {w : World} {h : List Event} {a : Action} (hs : w.Sound)
    (ht : w.Tokens h) (hq : Quiet (step J w a).2)
    (hkeep : ∀ p' t, (step J w a).1.process = some p' → p'.inner.token = some t →
      ∃ p, w.process = some p ∧ p.inner.token = some t) :
    (step J w a).1.Tokens (h ++ (step J w a).2) := by
  refine ⟨spent_quiet hq ht.spent, fun q t onq hqt => ?_, fun q c lead value onq hc hr => ?_,
    fun q c lead onq hc hr => ?_⟩
  · obtain ⟨p, on, hpt⟩ := hkeep q t onq hqt
    obtain ⟨minted, ho, hexp⟩ := ht.pending p t on hpt
    exact ⟨minted, ho.append hq, hexp⟩
  · obtain ⟨p, on, hold | ⟨-, door, entry, now, σ, led⟩⟩ := leading_step hs onq hc
    · obtain ⟨hdoor, hne, minted, ho, hle⟩ := ht.inHand p c lead value on hold hr
      exact ⟨hdoor, hne, minted, ho.append hq, hle⟩
    · rcases led.admitted with ⟨hnone, -⟩ | ⟨token, htoken, hdoor, hne, hpt, hlive, -⟩
      · rw [hr] at hnone
        cases hnone
      · cases hr.symm.trans htoken
        obtain ⟨minted, ho, hexp⟩ := ht.pending p token on hpt
        exact ⟨hdoor, hne, minted, ho.append hq, by rw [led.effective, ← hexp]; exact hlive⟩
  · obtain ⟨p, on, hold | ⟨-, door, entry, now, σ, led⟩⟩ := leading_step hs onq hc
    · exact ht.due p c lead on hold hr
    · rcases led.admitted with ⟨-, hopen, -⟩ | ⟨token, htoken, -⟩
      · rw [led.nextEligible, led.effective]
        exact hopen
      · rw [hr] at htoken
        cases htoken

/-- **A step keeps every token in its place.** -/
theorem tokens_step (J : Serde) (w : World) (h : List Event) (a : Action) (hs : w.Sound)
    (ht : w.Tokens h) : (step J w a).1.Tokens (h ++ (step J w a).2) := by
  rcases token_step (J := J) (a := a) hs with ⟨p', value, now, on', free, htoken, hev⟩ |
    ⟨c, lead, hc⟩ | ⟨hq, hkeep⟩
  · exact tokens_mint hs ht on' free htoken hev
  · exact tokens_contact hs ht hc
  · exact tokens_quiet hs ht hq hkeep

/-- **Every token of a reachable world is in its place.** -/
theorem tokens_run (J : Serde) (deadlines : Option SchedulerDeadlines)
    (servers : Option CachedCatalog) (actions : List Action) :
    (runFrom J deadlines servers actions).1.Tokens (runFrom J deadlines servers actions).2 := by
  refine (Machine.run_inv (fun w h => w.Sound ∧ w.Tokens h)
    (fun w h a hP => ⟨sound_step J w a hP.1, tokens_step J w h a hP.1 hP.2⟩) _ []
    ⟨sound_cold deadlines servers, ?_⟩ actions).2
  refine ⟨fun value => le_rfl, ?_, ?_, ?_⟩
  · intro p t hp
    cases hp
  · intro p c lead value hp
    cases hp
  · intro p c lead hp
    cases hp

/-- **The confirmation-token law.** A contact admitted below the eligibility is a manual call's that
presented the token minted last, within its lifetime; if no value is minted twice, a token
authorises at most one contact; and a failed mint changes nothing. -/
theorem token_law (J : Serde) (deadlines : Option SchedulerDeadlines)
    (servers : Option CachedCatalog) (actions : List Action) :
    (∀ pre c lead post eligible,
      (runFrom J deadlines servers actions).2 = pre ++ .contact c lead :: post →
      lead.admission.nextEligible = some eligible → lead.admission.effective < eligible →
      ∃ value minted, lead.admission.redeemed = some value ∧
        lead.admission.door = .manual (some value) ∧ value ≠ "" ∧ LastMint pre value minted ∧
        lead.admission.effective ≤ satAdd minted confirmationTokenTtlSeconds) ∧
    ((mintedValues (runFrom J deadlines servers actions).2).Nodup →
      (redeemedValues (runFrom J deadlines servers actions).2).Nodup) ∧
    (∀ a, .mintFailed ∈ (step J (runFrom J deadlines servers actions).1 a).2 →
      ∃ p p', (runFrom J deadlines servers actions).1.process = some p ∧
        (step J (runFrom J deadlines servers actions).1 a).1.process = some p' ∧
        p'.inner.token = p.inner.token ∧ p'.inner.persisted = p.inner.persisted ∧
        (step J (runFrom J deadlines servers actions).1 a).1.deadlines =
          (runFrom J deadlines servers actions).1.deadlines ∧
        (step J (runFrom J deadlines servers actions).1 a).1.servers =
          (runFrom J deadlines servers actions).1.servers ∧
        ∀ c lead, .contact c lead ∉ (step J (runFrom J deadlines servers actions).1 a).2) := by
  refine ⟨fun pre c lead post eligible h hnext hearly => ?_, fun hfresh => ?_, fun a h => ?_⟩
  · obtain ⟨as₁, p, rfl, on, hc⟩ := exists_contact_step (sound_cold deadlines servers) h
    have ht := tokens_run J deadlines servers as₁
    cases hr : lead.admission.redeemed with
    | none =>
      have hdue := ht.due p c lead on hc hr
      rw [hnext] at hdue
      exact absurd hearly (not_lt.mpr (le_of_pending_none hdue))
    | some value =>
      obtain ⟨hdoor, hne, minted, ho, hle⟩ := ht.inHand p c lead value on hc hr
      exact ⟨value, minted, rfl, hdoor, hne, ho.last, hle⟩
  · refine List.nodup_iff_count_le_one.mpr fun value => ?_
    exact ((tokens_run J deadlines servers actions).spent value).trans
      (List.nodup_iff_count_le_one.mp hfresh value)
  · exact mintFailed_step (sound_run J deadlines servers actions) h

/-- An early manual call, and its confirmation. -/
def confirmedRun : List Action :=
  [.boot floorConfig none none, .call 0 (.manual none) (.at 50),
   .call 1 (.manual zeroToken) (.at 60), .invoke 1]

theorem token_law_confirmedRun :
    ∃ pre lead value, (runFrom emptySerde
        (some { SchedulerDeadlines.default with nextEligibleUnix := some 100 })
        none confirmedRun).2 =
          pre ++ [.contact 1 lead] ∧
      lead.admission.redeemed = some value ∧ LastMint pre value 50 := by
  let lead : Lead := ⟨⟨.manual zeroToken, none, 60, some 100, zeroToken⟩, 1, 60, none, true⟩
  let pre := (runFrom emptySerde
    (some { SchedulerDeadlines.default with nextEligibleUnix := some 100 })
    none confirmedRun).2.dropLast
  have h : (runFrom emptySerde (some { SchedulerDeadlines.default with
      nextEligibleUnix := some 100 }) none
      confirmedRun).2 = pre ++ [.contact 1 lead] := rfl
  obtain ⟨value, minted, hr, -, -, hlast, -⟩ :=
    (token_law emptySerde _ none confirmedRun).1 pre 1 lead []
    100 h rfl (by decide)
  obtain ⟨before, after, hpre, hafter⟩ := hlast
  have hminted : minted = 50 := by
    have hmem : Event.minted value minted ∈ pre := by rw [hpre]; simp
    have hpre' : pre = [.booted, .minted _ 50, .saved _] := rfl
    rw [hpre'] at hmem
    simp at hmem
    exact hmem.2
  exact ⟨pre, lead, value, h, hr, before, after, hminted ▸ hpre, hafter⟩

end ProtonWire
