import ProtonWire.Lib.Octets
import ProtonWire.Scheduler.SingleFlight

/-!
# Coherence of the etag and the catalog cache

The conditional etag, the in-memory document and `servers.json` are three copies of one fact. They
move together: a fetched revision is adopted in all three or in none.

* `Inner.Coherent`: the three copies agree;
* `applyFetched_coherent`, `applyFetched_refused`, `applyFetched_notModified`;
* **`cache_coherence`**.
-/

namespace ProtonWire

/-- The etag and the cache of the locked state are those of the stored document. -/
structure Inner.Coherent (inner : Inner) (servers : Option CachedCatalog) : Prop where
  cache : inner.cache = some ⟨servers⟩
  etag : inner.etag = servers.bind CachedCatalog.etag

/-- The stored body is one the live model accepts. -/
def StoredParses (J : Serde) (servers : Option CachedCatalog) : Prop :=
  ∀ doc, servers = some doc → ∃ parsed, CatalogDocument.fromBytes J doc.body.toUTF8 = .ok parsed

/-- The revision is refused: the live model rejects it, it is not UTF-8, or it cannot be stored. -/
def Refused (J : Serde) (etag : Option String) (body : ByteArray) (now : ℕ)
    (fault : Option CatalogCacheError) : Prop :=
  (∃ error, CatalogDocument.fromBytes J body = .error error) ∨ String.fromUTF8? body = none ∨
    ∃ text error, String.fromUTF8? body = some text ∧
      CatalogCache.store J ⟨catalogCacheSchemaVersion, etag, now, text⟩ fault = .error error

/-! ## What a fetch does to the three copies -/

theorem adoptFetchedRevision_cases (J : Serde) (current : CacheState)
    (servers : Option CachedCatalog)
    (etag : Option String) (body : ByteArray) (now : ℕ) (fault : Option CatalogCacheError) :
    (∃ text, String.fromUTF8? body = some text ∧
        (∃ parsed, CatalogDocument.fromBytes J body = .ok parsed) ∧
        ¬ Refused J etag body now fault ∧
        adoptFetchedRevision J (some current) servers etag body now fault =
          (.adopted, some ⟨some ⟨catalogCacheSchemaVersion, etag, now, text⟩⟩,
            some ⟨catalogCacheSchemaVersion, etag, now, text⟩)) ∨
      (Refused J etag body now fault ∧ ∃ reason,
        adoptFetchedRevision J (some current) servers etag body now fault =
          (.unusable reason, some current, servers)) := by
  unfold adoptFetchedRevision
  cases hparse : CatalogDocument.fromBytes J body with
  | error error => exact Or.inr ⟨Or.inl ⟨error, hparse⟩, _, rfl⟩
  | ok parsed =>
    dsimp only
    cases htext : String.fromUTF8? body with
    | none => exact Or.inr ⟨Or.inr (Or.inl htext), _, rfl⟩
    | some text =>
      dsimp only
      cases hstore : CatalogCache.store J ⟨catalogCacheSchemaVersion, etag, now, text⟩ fault with
      | error error => exact Or.inr ⟨Or.inr (Or.inr ⟨text, error, htext, hstore⟩), _, rfl⟩
      | ok doc =>
        obtain rfl := CatalogCache.store_eq_ok hstore
        refine Or.inl ⟨text, rfl, ⟨parsed, rfl⟩, ?_, rfl⟩
        rintro (⟨error, h⟩ | h | ⟨text', error, ht, hs⟩)
        · rw [hparse] at h; cases h
        · rw [htext] at h; cases h
        · cases htext.symm.trans ht
          rw [hstore] at hs
          cases hs

/-- **A refused revision leaves the three copies and the age anchor alone.** -/
theorem applyFetched_refused {J : Serde} {etag : Option String} {body : ByteArray} {now : ℕ}
    {fault : Option CatalogCacheError} {σ : Section} (hc : σ.inner.Coherent σ.servers)
    (hr : Refused J etag body now fault) :
    (applyFetched J (.ok (.changed etag body)) now fault σ).2 = σ := by
  rcases adoptFetchedRevision_cases J ⟨σ.servers⟩ σ.servers etag body now fault with
    ⟨-, -, -, hne, -⟩ | ⟨-, reason, h⟩
  · exact absurd hr hne
  · simp only [applyFetched, hc.cache, h]
    rw [← hc.cache]

/-- What a not-modified answer keeps of a document. -/
def CachedCatalog.revision (doc : CachedCatalog) : String × Option String := (doc.body, doc.etag)

/-- **A not-modified answer keeps the stored body and etag**, whether or not the freshness could be
rewritten. -/
theorem applyFetched_notModified (J : Serde) (now : ℕ) (fault : Option CatalogCacheError)
    {σ : Section} (hc : σ.inner.Coherent σ.servers) :
    (applyFetched J (.ok .notModified) now fault σ).2.inner.etag = σ.inner.etag ∧
      (applyFetched J (.ok .notModified) now fault σ).2.servers.map CachedCatalog.revision =
        σ.servers.map CachedCatalog.revision ∧
      (applyFetched J (.ok .notModified) now fault σ).2.inner.cache =
        some ⟨(applyFetched J (.ok .notModified) now fault σ).2.servers⟩ := by
  simp only [applyFetched, hc.cache, Option.bind_some]
  cases hcur : σ.servers with
  | none => exact ⟨rfl, rfl, rfl⟩
  | some current =>
    dsimp only
    cases hstore : CatalogCache.refreshFreshness J current now fault with
    | error error => exact ⟨rfl, rfl, rfl⟩
    | ok updated =>
      rw [CatalogCache.refreshFreshness_eq_ok hstore]
      exact ⟨rfl, rfl, rfl⟩

theorem bind_etag_of_revision {servers servers' : Option CachedCatalog}
    (h : servers.map CachedCatalog.revision = servers'.map CachedCatalog.revision) :
    servers.bind CachedCatalog.etag = servers'.bind CachedCatalog.etag := by
  cases servers with
  | none =>
    cases servers' with
    | none => rfl
    | some doc' => cases h
  | some doc =>
    cases servers' with
    | none => cases h
    | some doc' => exact congrArg Prod.snd (Option.some.inj h)

theorem parses_of_revision {J : Serde} {servers servers' : Option CachedCatalog}
    (h : servers.map CachedCatalog.revision = servers'.map CachedCatalog.revision)
    (hp : StoredParses J servers') : StoredParses J servers := by
  intro doc hdoc
  rw [hdoc] at h
  cases hs : servers' with
  | none => rw [hs] at h; cases h
  | some doc' =>
    rw [hs] at h
    have hbody : doc.body = doc'.body := congrArg Prod.fst (Option.some.inj h)
    rw [hbody]
    exact hp doc' hs

/-- **A fetch keeps the three copies coherent.** -/
theorem applyFetched_coherent {J : Serde} (fetched : Except FetchFailure FetchOutcome) (now : ℕ)
    (fault : Option CatalogCacheError) {σ : Section} (hc : σ.inner.Coherent σ.servers)
    (hp : StoredParses J σ.servers) :
    (applyFetched J fetched now fault σ).2.inner.Coherent
    (applyFetched J fetched now fault σ).2.servers ∧
      StoredParses J (applyFetched J fetched now fault σ).2.servers := by
  match fetched with
  | .ok (.changed etag body) =>
    rcases adoptFetchedRevision_cases J ⟨σ.servers⟩ σ.servers etag body now fault with
      ⟨text, htext, ⟨parsed, hparse⟩, -, h⟩ | ⟨hr, -⟩
    · simp only [applyFetched, hc.cache, h]
      refine ⟨⟨rfl, rfl⟩, fun doc hdoc => ⟨parsed, ?_⟩⟩
      cases hdoc
      show CatalogDocument.fromBytes J text.toUTF8 = .ok parsed
      rw [Octets.toUTF8_of_fromUTF8? htext, hparse]
    · rw [applyFetched_refused hc hr]
      exact ⟨hc, hp⟩
  | .ok .notModified =>
    obtain ⟨hetag, hkeep, hcache⟩ := applyFetched_notModified J now fault hc
    refine ⟨⟨hcache, ?_⟩, parses_of_revision hkeep hp⟩
    rw [hetag, hc.etag, bind_etag_of_revision hkeep]
  | .error (.rateLimited _) => exact ⟨hc, hp⟩
  | .error (.transport _) => exact ⟨hc, hp⟩
  | .error (.persistence _) => exact ⟨hc, hp⟩

/-! ## Over the second half of a lead -/

theorem settleSave_servers (σ : Section) (fault : Option DeadlineStoreError) :
    (settleSave σ fault).servers = σ.servers := by
  unfold settleSave Section.save
  split
  · next h =>
    split at h
    · cases h; rfl
    · cases h
  · next h =>
    split at h
    · cases h
    · cases h; rfl

/-- The section the fetch is applied to. -/
def fetchSection (config : SchedulerConfig) (env : FinishEnv) (lead : Lead)
    (fetched : Except FetchFailure FetchOutcome) (σ : Section) : Section :=
  { σ.tracked env.now with events := σ.events ++ fetchedEvents config env lead fetched σ.inner }

theorem leadFinish_revision {J : Serde} {config : SchedulerConfig} {env : FinishEnv} {lead : Lead}
    {fetched : Except FetchFailure FetchOutcome} {σ σ' : Section} {report : RefreshReport}
    (h : leadFinish J config env lead fetched σ = (report, σ')) :
    let applied := (applyFetched J fetched (finishTime env lead σ.inner) env.cacheFault
      (fetchSection config env lead fetched σ)).2
    σ'.inner.etag = applied.inner.etag ∧ σ'.inner.cache = applied.inner.cache ∧
      σ'.servers = applied.servers ∧
      σ'.inner.persisted.lastSuccessUnix = applied.inner.persisted.lastSuccessUnix := by
  intro applied
  set persisted := settleDeadlines lead.admission.door
    (finishDeadline config env lead fetched σ.inner) (finishTime env lead σ.inner)
    applied.inner.persisted with hpersisted
  set σ₃ : Section :=
    { applied with inner := { applied.inner with persisted := persisted } } with hσ₃
  obtain ⟨healthy, hset⟩ := settleSave_inner σ₃ env.saveFault
  obtain rfl : (leadFinish J config env lead fetched σ).2 = σ' := congrArg Prod.snd h
  refine ⟨?_, ?_, ?_, ?_⟩
  · show (settleSave σ₃ env.saveFault).inner.etag = _
    rw [hset]
  · show (settleSave σ₃ env.saveFault).inner.cache = _
    rw [hset]
  · show (settleSave σ₃ env.saveFault).servers = _
    rw [settleSave_servers]
  · show (settleSave σ₃ env.saveFault).inner.persisted.lastSuccessUnix = _
    rw [hset]
    show (countRefresh lead.admission.door applied.inner.persisted).lastSuccessUnix = _
    cases lead.admission.door <;> rfl

/-! ## Over whole runs -/

/-- The process's copies agree with the stored document; once a process has booted, the stored body
parses. -/
structure World.Coherent (J : Serde) (w : World) (h : List Event) : Prop where
  copies : ∀ p, w.process = some p → .booted ∈ h ∧ p.inner.Coherent w.servers
  parses : .booted ∈ h → StoredParses J w.servers

theorem coherent_fetchSection (config : SchedulerConfig) (env : FinishEnv) (lead : Lead)
    (fetched : Except FetchFailure FetchOutcome) {w : World} {p : Process}
    (h : p.inner.Coherent w.servers) :
    (fetchSection config env lead fetched (w.section p)).inner.Coherent
      (fetchSection config env lead fetched (w.section p)).servers := ⟨h.cache, h.etag⟩

/-- **A step keeps the copies coherent.** -/
theorem coherent_step (J : Serde) (w : World) (h : List Event) (a : Action) (hs : w.Sound)
    (hc : w.Coherent J h) : (step J w a).1.Coherent J (h ++ (step J w a).2) := by
  -- a step of a running process that keeps the three copies
  have keep : ∀ (p : Process) (w' : World) (ev : List Event), w.process = some p →
      w'.servers = w.servers →
      (∀ p', w'.process = some p' → p'.inner.etag = p.inner.etag ∧ p'.inner.cache = p.inner.cache) →
      w'.Coherent J (h ++ ev) := by
    intro p w' ev on hservers hp'
    obtain ⟨hbooted, hcopies⟩ := hc.copies p on
    refine ⟨fun p' on' => ⟨List.mem_append_left _ hbooted, ?_, ?_⟩, fun _ => ?_⟩
    · rw [(hp' p' on').2, hservers, hcopies.cache]
    · rw [(hp' p' on').1, hservers, hcopies.etag]
    · rw [hservers]
      exact hc.parses hbooted
  have hcase := step_case J w a
  generalize step J w a = r at hcase
  cases hcase with
  | stutter =>
    rw [List.append_nil]
    exact hc
  | boot config deadlinesFault cacheFault off versioned parses =>
    refine ⟨fun p' on' => ?_, fun _ => parses⟩
    cases on'
    exact ⟨by simp, rfl, rfl⟩
  | crash p on =>
    refine keep p _ _ on rfl fun p' on' => ?_
    cases on'
  | park a p caller door entry running on =>
    refine keep p _ _ on rfl fun p' on' => ?_
    cases on'
    exact ⟨rfl, rfl⟩
  | join a p caller door entry seen report on =>
    refine keep p _ _ on rfl fun p' on' => ?_
    cases on'
    exact ⟨rfl, rfl⟩
  | answer a p caller door entry env outcome σ on atDoor free result =>
    have ans := answered_of_result result
    refine keep p _ _ on ans.servers fun p' on' => ?_
    cases on'
    exact ⟨ans.etag, ans.cache⟩
  | lead a p caller door entry env lead σ on atDoor free result =>
    have led := led_of_result (hs p on).versioned result
    refine keep p _ _ on led.servers fun p' on' => ?_
    cases on'
    exact ⟨led.etag, led.cache⟩
  | invoke p caller lead on =>
    refine keep p _ _ on rfl fun p' on' => ?_
    cases on'
    exact ⟨rfl, rfl⟩
  | finish p caller lead fetched env report σ on completing result =>
    obtain ⟨hbooted, hcopies⟩ := hc.copies p on
    obtain ⟨hetag, hcache, hservers, -⟩ := leadFinish_revision result
    obtain ⟨happlied, hparses⟩ := applyFetched_coherent fetched
      (finishTime env lead p.inner) env.cacheFault
      (coherent_fetchSection p.config env lead fetched hcopies)
      (hc.parses hbooted)
    refine ⟨fun p' on' => ⟨List.mem_append_left _ hbooted, ?_⟩, fun _ => ?_⟩
    · cases on'
      refine ⟨?_, ?_⟩
      · show σ.inner.cache = some ⟨σ.servers⟩
        rw [hcache, hservers]
        exact happlied.cache
      · show σ.inner.etag = σ.servers.bind CachedCatalog.etag
        rw [hetag, hservers]
        exact happlied.etag
    · show StoredParses J σ.servers
      rw [hservers]
      exact hparses

/-- **The copies of every reachable world are coherent.** -/
theorem coherent_run (J : Serde) (deadlines : Option SchedulerDeadlines)
    (servers : Option CachedCatalog) (actions : List Action) :
    (runFrom J deadlines servers actions).1.Coherent J (runFrom J deadlines servers actions).2 := by
  refine (Machine.run_inv (fun w h => w.Sound ∧ w.Coherent J h)
    (fun w h a hP => ⟨sound_step J w a hP.1, coherent_step J w h a hP.1 hP.2⟩) _ []
    ⟨sound_cold deadlines servers, ?_⟩ actions).2
  refine ⟨?_, ?_⟩
  · intro p hp
    cases hp
  · intro h
    cases h

theorem finish_of_fetching {J : Serde} {w : World} {p : Process} {caller : ℕ} {lead : Lead}
    (on : w.process = some p) (hc : p.callers caller = .fetching lead) (env : FinishEnv) :
    ∃ report σ, leadFinish J p.config env lead (catchUnwind env.answer)
      (w.section p) = (report, σ) ∧
      (step J w (.finish caller env)).1.servers = σ.servers ∧
      ∃ p', (step J w (.finish caller env)).1.process = some p' ∧ p'.inner = σ.inner := by
  refine ⟨_, _, rfl, ?_, ?_⟩
  · simp only [step, on, hc]
    rfl
  · simp only [step, on, hc]
    exact ⟨_, rfl, rfl⟩

/-- **Coherence of the etag and the catalog cache.** In every reachable world the scheduler's etag
and in-memory document are those of the stored document, and the stored body parses once a process
has booted. A refused revision changes none of them, nor the age anchor, and a not-modified answer
keeps the stored body and etag. -/
theorem cache_coherence (J : Serde) (deadlines : Option SchedulerDeadlines)
    (servers : Option CachedCatalog) (actions : List Action) :
    (∀ p, (runFrom J deadlines servers actions).1.process = some p →
      .booted ∈ (runFrom J deadlines servers actions).2 ∧
      ∃ state, p.inner.cache = some state ∧
        state.current = (runFrom J deadlines servers actions).1.servers ∧
        p.inner.etag = state.current.bind CachedCatalog.etag) ∧
    (.booted ∈ (runFrom J deadlines servers actions).2 →
      ∀ doc, (runFrom J deadlines servers actions).1.servers = some doc →
        ∃ parsed, CatalogDocument.fromBytes J doc.body.toUTF8 = .ok parsed) ∧
    (∀ p caller lead env etag body, (runFrom J deadlines servers actions).1.process = some p →
      p.callers caller = .fetching lead → env.answer = some (.ok (.changed etag body)) →
      Refused J etag body (finishTime env lead p.inner) env.cacheFault →
      (step J (runFrom J deadlines servers actions).1 (.finish caller env)).1.servers =
        (runFrom J deadlines servers actions).1.servers ∧
      ∃ p', (step J (runFrom J deadlines servers actions).1 (.finish caller env)).1.process =
        some p' ∧
        p'.inner.etag = p.inner.etag ∧ p'.inner.cache = p.inner.cache ∧
        p'.inner.persisted.lastSuccessUnix = p.inner.persisted.lastSuccessUnix) ∧
    (∀ p caller lead env, (runFrom J deadlines servers actions).1.process = some p →
      p.callers caller = .fetching lead → env.answer = some (.ok .notModified) →
      (step J (runFrom J deadlines servers actions).1 (.finish caller env)).1.servers.map
          CachedCatalog.revision =
        (runFrom J deadlines servers actions).1.servers.map CachedCatalog.revision ∧
      ∃ p', (step J (runFrom J deadlines servers actions).1 (.finish caller env)).1.process =
        some p' ∧
        p'.inner.etag = p.inner.etag) := by
  have hc := coherent_run J deadlines servers actions
  refine ⟨fun p on => ⟨(hc.copies p on).1, _, (hc.copies p on).2.cache, rfl,
    (hc.copies p on).2.etag⟩,
    fun hb => hc.parses hb, fun p caller lead env etag body on hcaller hanswer hr => ?_,
    fun p caller lead env on hcaller hanswer => ?_⟩
  · obtain ⟨report, σ, hfin, hservers, p', on', hinner⟩ :=
      finish_of_fetching (J := J) on hcaller env
    obtain ⟨hetag, hcache, hserv, hsucc⟩ := leadFinish_revision hfin
    have hcopies := coherent_fetchSection p.config env lead (catchUnwind env.answer)
      (hc.copies p on).2
    rw [hanswer] at hetag hcache hserv hsucc hcopies
    have hsame := applyFetched_refused hcopies hr
    have hsame : (applyFetched J (catchUnwind (some (.ok (.changed etag body))))
      (finishTime env lead p.inner) env.cacheFault (fetchSection p.config env lead
        (catchUnwind (some (.ok (.changed etag body))))
        ((runFrom J deadlines servers actions).1.section p))).2 = _ := hsame
    refine ⟨?_, p', on', ?_, ?_, ?_⟩
    · rw [hservers, hserv]
      exact congrArg Section.servers hsame
    · rw [hinner, hetag]
      exact congrArg (fun σ => σ.inner.etag) hsame
    · rw [hinner, hcache]
      exact congrArg (fun σ => σ.inner.cache) hsame
    · rw [hinner, hsucc]
      exact congrArg (fun σ => σ.inner.persisted.lastSuccessUnix) hsame
  · obtain ⟨report, σ, hfin, hservers, p', on', hinner⟩ :=
      finish_of_fetching (J := J) on hcaller env
    obtain ⟨hetag, -, hserv, -⟩ := leadFinish_revision hfin
    have hcopies := coherent_fetchSection p.config env lead (catchUnwind env.answer)
      (hc.copies p on).2
    rw [hanswer] at hetag hserv hcopies
    obtain ⟨hkeep, hrevision, -⟩ := applyFetched_notModified J
      (finishTime env lead p.inner) env.cacheFault hcopies
    refine ⟨?_, p', on', ?_⟩
    · rw [hservers, hserv]
      exact hrevision
    · rw [hinner, hetag]
      exact hkeep

end ProtonWire
