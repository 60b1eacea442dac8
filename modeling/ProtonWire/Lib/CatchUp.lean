import Mathlib

/-!
# Catching up over a lossy queue

A producer stores each state in a cell that holds the newest, then queues it or counts it as
dropped. A consumer shows what it takes from the queue; once it has seen drops it is armed: it shows
the newest state instead, and nothing from the queue, until the queue is found empty after it has
caught up. The steps of the two interleave freely.

* `Channel`, `Channel.Produce`, `Channel.Consume`: the two ends, and what each can do;
* `Channel.Inv`: what is shown is state number `a`, and what is on its way is not older;
* **`Channel.Consume.inv`**: every step keeps the invariant, and shows nothing older than what was
  shown;
* **`Channel.Inv.caught_up`**: with nothing on its way, a look at the drops shows the newest state.
-/

namespace CatchUp

variable {S V : Type*}

/-- The states stored so far, what is on its way, and what the consumer shows. -/
structure Channel (S V : Type*) where
  states : List S := []
  /-- What is queued, each with the number of states stored when it was. -/
  items : List (ℕ × Option S) := []
  /-- The newest state is neither queued nor counted. -/
  inFlight : Bool := false
  drops : ℕ := 0
  watermark : ℕ := 0
  armed : Bool := false
  /-- The consumer is about to look whether the queue is empty. -/
  settled : Bool := false
  shown : Option V := none

/-- The value of state number `a`; there is no state number 0. -/
def valueAt (f : S → V) (states : List S) : ℕ → Option V
  | 0 => none
  | j + 1 => states[j]?.map f

theorem valueAt_append {f : S → V} {states more : List S} {a : ℕ} (h : a ≤ states.length) :
    valueAt f (states ++ more) a = valueAt f states a := by
  cases a with
  | zero => rfl
  | succ j => exact congrArg (Option.map f) (List.getElem?_append_left h)

theorem valueAt_length (f : S → V) (states : List S) :
    valueAt f states states.length = states.getLast?.map f := by
  cases states with
  | nil => rfl
  | cons s rest => rw [List.getLast?_eq_getElem?]; rfl

namespace Channel

/-- The drops arm the consumer. -/
def observe (c : Channel S V) (d : ℕ) : Channel S V :=
  if c.watermark < d then { c with watermark := d, armed := true } else c

/-- An armed consumer shows the newest state. -/
def catchUp (f : S → V) (c : Channel S V) : Channel S V :=
  if c.armed then
    match c.states.getLast? with
    | some s => { c with shown := some (f s) }
    | none => c
  else c

/-- What a step shows: a number, and a value that was not shown. -/
def showing [DecidableEq V] (before after : Option V) (a : ℕ) : Option (ℕ × V) :=
  if after = before then none else after.map fun v => (a, v)

/-- The steps of the producer. -/
inductive Produce (c : Channel S V) : Channel S V → Prop where
  | stay : Produce c c
  | store (s : S) : Produce c { c with states := c.states ++ [s], inFlight := true }
  | queue {s : S} (newest : c.states.getLast? = some s) :
    Produce c { c with items := c.items ++ [(c.states.length, some s)], inFlight := false }
  | queueOther : Produce c { c with items := c.items ++ [(c.states.length, none)] }
  | count : Produce c { c with drops := c.drops + 1, inFlight := false }

/-- The steps of the consumer, and what they show. -/
inductive Consume [DecidableEq V] (f : S → V) (c : Channel S V) :
    Channel S V → Option (ℕ × V) → Prop where
  | stay : Consume f c c none
  | unsettle : Consume f c { c with settled := false } none
  | skip {item : ℕ × Option S} {rest : List (ℕ × Option S)} (items : c.items = item :: rest)
    (stale : item.2 = none ∨ c.armed = true) :
    Consume f c { c with items := rest, settled := false } none
  | deliver {m : ℕ} {s : S} {rest : List (ℕ × Option S)} (items : c.items = (m, some s) :: rest)
    (unarmed : c.armed = false) :
    Consume f c { c with items := rest, shown := some (f s), settled := false }
      (showing c.shown (some (f s)) m)
  /-- A look at the drops, which may have moved on. -/
  | reconcile (d : ℕ) (seen : d ≤ c.drops) (settled : Bool) :
    Consume f c { catchUp f (c.observe d) with settled := settled }
      (showing c.shown (catchUp f (c.observe d)).shown c.states.length)
  | disarm (items : c.items = []) (settled : c.settled = true) :
    Consume f c { c with armed := false, settled := false } none
  /-- The consumer gives up. -/
  | abandon {rest : List (ℕ × Option S)} (suffix : rest <:+ c.items) :
    Consume f c { c with items := rest, armed := true, settled := false } none

/-- State number `a` is shown, and what is on its way is not older. The newest state is shown or on
its way, or the drops will show it. -/
structure Inv (f : S → V) (c : Channel S V) (a : ℕ) : Prop where
  sorted : (c.items.map Prod.fst).Pairwise (· ≤ ·)
  bounded : ∀ item ∈ c.items, item.1 ≤ c.states.length
  named : ∀ m s, (m, some s) ∈ c.items → valueAt f c.states m = some (f s)
  le : a ≤ c.states.length
  shown : c.shown = valueAt f c.states a
  unarmed : c.armed = false → ∀ item ∈ c.items, a ≤ item.1
  watermark : c.watermark ≤ c.drops
  converges : (c.armed = true ∧ c.settled = false) ∨ a = c.states.length ∨ c.inFlight = true ∨
    c.watermark < c.drops ∨ ∃ s, (c.states.length, some s) ∈ c.items

variable {f : S → V} {c c' : Channel S V} {a : ℕ} {label : Option (ℕ × V)}

theorem inv_new (f : S → V) : Inv f ({} : Channel S V) 0 :=
  ⟨.nil, nofun, nofun, le_rfl, rfl, fun _ => nofun, le_rfl, .inr (.inl rfl)⟩

theorem Inv.queued (h : Inv f c a) (item : Option S) :
    ((c.items ++ [(c.states.length, item)]).map Prod.fst).Pairwise (· ≤ ·) ∧
      (∀ i ∈ c.items ++ [(c.states.length, item)], i.1 ≤ c.states.length) ∧
      (c.armed = false → ∀ i ∈ c.items ++ [(c.states.length, item)], a ≤ i.1) := by
  refine ⟨?_, fun i hi => ?_, fun harmed i hi => ?_⟩
  · rw [List.map_append]
    refine List.pairwise_append.mpr ⟨h.sorted, List.pairwise_singleton _ _, fun m hm m' hm' => ?_⟩
    obtain ⟨i, hi, rfl⟩ := List.mem_map.mp hm
    rw [List.mem_singleton.mp hm']
    exact h.bounded i hi
  · rcases List.mem_append.mp hi with hold | hnew
    · exact h.bounded i hold
    · rw [List.mem_singleton.mp hnew]
  · rcases List.mem_append.mp hi with hold | hnew
    · exact h.unarmed harmed i hold
    · rw [List.mem_singleton.mp hnew]
      exact h.le

theorem Inv.suffix (h : Inv f c a) {rest : List (ℕ × Option S)} (hrest : rest <:+ c.items) :
    (rest.map Prod.fst).Pairwise (· ≤ ·) ∧ (∀ i ∈ rest, i.1 ≤ c.states.length) ∧
      ∀ m s, (m, some s) ∈ rest → valueAt f c.states m = some (f s) :=
  ⟨h.sorted.sublist (hrest.sublist.map Prod.fst), fun i hi => h.bounded i (hrest.mem hi),
    fun m s hi => h.named m s (hrest.mem hi)⟩

theorem observe_eq (c : Channel S V) (d : ℕ) :
    c.observe d =
    { c with watermark := max c.watermark d, armed := c.armed || decide (c.watermark < d) } := by
  unfold observe
  split_ifs with hlt
  · rw [max_eq_right hlt.le, decide_eq_true hlt, Bool.or_true]
  · rw [max_eq_left (not_lt.mp hlt), decide_eq_false hlt, Bool.or_false]

theorem catchUp_of_unarmed (h : c.armed = false) : catchUp f c = c := by
  unfold catchUp
  rw [h]
  rfl

theorem catchUp_of_armed (h : c.armed = true) :
    catchUp f c = { c with shown := (c.states.getLast?.map f).or c.shown } := by
  unfold catchUp
  rw [if_pos h]
  cases c.states.getLast? <;> rfl

theorem frame_reconcile (f : S → V) (c : Channel S V) (d : ℕ) :
    (catchUp f (c.observe d)).states = c.states ∧ (catchUp f (c.observe d)).items = c.items := by
  rw [observe_eq]
  unfold catchUp
  split_ifs
  · split <;> exact ⟨rfl, rfl⟩
  · exact ⟨rfl, rfl⟩

/-- A look at the drops shows the newest state if it arms the consumer, and otherwise changes
nothing. -/
theorem Inv.reconcile (h : Inv f c a) {d : ℕ} (hd : d ≤ c.drops) (settled : Bool) :
    ∃ a', a ≤ a' ∧ Inv f { catchUp f (c.observe d) with settled := settled } a' ∧
      (a' = c.states.length ∨ (¬ (c.armed = true ∨ c.watermark < d)) ∧ a' = a ∧
        (catchUp f (c.observe d)).shown = c.shown) := by
  have hwatermark : max c.watermark d ≤ c.drops := max_le h.watermark hd
  by_cases harms : c.armed = true ∨ c.watermark < d
  · have harmed : (c.observe d).armed = true := by
      rw [observe_eq]
      rcases harms with harmed | hlt
      · simp [harmed]
      · simp [hlt]
    have hshown : (c.states.getLast?.map f).or c.shown = valueAt f c.states c.states.length := by
      rw [valueAt_length, h.shown]
      cases hnewest : c.states.getLast? with
      | some s => rfl
      | none =>
        -- nothing is stored, and nothing shown
        have hnil := List.getLast?_eq_none_iff.mp hnewest
        have hzero : a = 0 := Nat.le_zero.mp (by simpa [hnil] using h.le)
        rw [hzero]
        rfl
    rw [catchUp_of_armed harmed, observe_eq]
    refine ⟨c.states.length, h.le, ⟨h.sorted, h.bounded, h.named, le_rfl, hshown, fun hunarmed =>
      ?_, hwatermark,
      .inr (.inl rfl)⟩, .inl rfl⟩
    rw [observe_eq] at harmed
    exact absurd (harmed.symm.trans hunarmed) nofun
  · obtain ⟨hunarmed, hseen⟩ := not_or.mp harms
    have hsame : c.observe d = c := if_neg hseen
    have hunarmed := Bool.eq_false_iff.mpr hunarmed
    rw [hsame, catchUp_of_unarmed hunarmed]
    refine ⟨a, le_rfl, ⟨h.sorted, h.bounded, h.named, h.le, h.shown, h.unarmed, h.watermark, ?_⟩,
      .inr ⟨harms, rfl, rfl⟩⟩
    exact .inr (h.converges.resolve_left fun harmed => absurd (harmed.1.symm.trans hunarmed) nofun)

/-- **With nothing on its way, and no drop unseen, what is shown is the newest state.** -/
theorem Inv.caught_up (h : Inv f c a) (hitems : c.items = []) (hflight : c.inFlight = false)
    (hseen : c.drops ≤ c.watermark) (harmed : c.armed = false ∨ c.settled = true) :
    a = c.states.length := by
  rcases h.converges with ⟨hyes, hno⟩ | hall | hflight' | hdrops | ⟨s, hs⟩
  · rcases harmed with harmed | hsettled
    · exact absurd (harmed.symm.trans hyes) nofun
    · exact absurd (hsettled.symm.trans hno) nofun
  · exact hall
  · exact absurd (hflight.symm.trans hflight') nofun
  · exact absurd hseen (not_le.mpr hdrops)
  · rw [hitems] at hs
    cases hs

/-- **The producer keeps the invariant**, and what is shown. -/
theorem Produce.inv (hstep : Produce c c') (h : Inv f c a) : Inv f c' a := by
  have hbefore := h
  obtain ⟨hsorted, hbounded, hnamed, hle, hshown, hunarmed, hwatermark, hconverges⟩ := hbefore
  cases hstep with
  | stay => exact h
  | store s =>
    have hlen : (c.states ++ [s]).length = c.states.length + 1 := List.length_append
    refine ⟨hsorted, fun i hi => ?_, fun m s' hi => ?_, ?_, ?_, hunarmed, hwatermark,
      .inr (.inr (.inl rfl))⟩
    · exact (hbounded i hi).trans (by rw [hlen]; exact Nat.le_succ _)
    · exact (valueAt_append (hbounded _ hi)).trans (hnamed m s' hi)
    · exact hle.trans (by rw [hlen]; exact Nat.le_succ _)
    · exact hshown.trans (valueAt_append hle).symm
  | @queue s newest =>
    obtain ⟨hsorted', hbounded', hunarmed'⟩ := h.queued (some s)
    refine ⟨hsorted', hbounded', fun m s' hi => ?_, hle, hshown, hunarmed', hwatermark,
      .inr (.inr (.inr (.inr ⟨s, List.mem_append_right _ (List.mem_singleton_self _)⟩)))⟩
    rcases List.mem_append.mp hi with hold | hnew
    · exact hnamed m s' hold
    · cases List.mem_singleton.mp hnew
      rw [valueAt_length, newest]
      rfl
  | queueOther =>
    obtain ⟨hsorted', hbounded', hunarmed'⟩ := h.queued none
    refine ⟨hsorted', hbounded', fun m s' hi => ?_, hle, hshown, hunarmed', hwatermark, ?_⟩
    · rcases List.mem_append.mp hi with hold | hnew
      · exact hnamed m s' hold
      · cases List.mem_singleton.mp hnew
    · refine hconverges.imp id (Or.imp id (Or.imp id (Or.imp id fun hqueued => ?_)))
      exact hqueued.imp fun s hs => List.mem_append_left _ hs
  | count =>
    refine ⟨hsorted, hbounded, hnamed, hle, hshown, hunarmed, Nat.le_succ_of_le hwatermark, ?_⟩
    exact .inr (.inr (.inr (.inl (Nat.lt_succ_of_le hwatermark))))

theorem Produce.states_le (hstep : Produce c c') : c.states <+: c'.states := by
  cases hstep with
  | store s => exact List.prefix_append _ _
  | _ => exact List.prefix_rfl

variable [DecidableEq V]

theorem showing_eq_some {before after : Option V} {m n : ℕ} {v : V}
    (h : showing before after n = some (m, v)) :
    m = n ∧ after = some v := by
  unfold showing at h
  split_ifs at h
  obtain ⟨v', hafter, heq⟩ := Option.map_eq_some_iff.mp h
  cases heq
  exact ⟨rfl, hafter⟩

/-- **The consumer keeps the invariant, and shows nothing older than what was shown.** -/
theorem Consume.inv (hstep : Consume f c c' label) (h : Inv f c a) :
    ∃ a', a ≤ a' ∧ Inv f c' a' ∧
      ∀ m v, label = some (m, v) → a ≤ m ∧ m ≤ a' ∧ valueAt f c'.states m = some v := by
  have hbefore := h
  obtain ⟨hsorted, hbounded, hnamed, hle, hshown, hunarmed, hwatermark, hconverges⟩ := hbefore
  cases hstep with
  | stay => exact ⟨a, le_rfl, h, nofun⟩
  | unsettle =>
    refine ⟨a, le_rfl, ⟨hsorted, hbounded, hnamed, hle, hshown, hunarmed, hwatermark, ?_⟩, nofun⟩
    exact hconverges.imp_left fun harmed => ⟨harmed.1, rfl⟩
  | @skip item rest items stale =>
    obtain ⟨hsorted', hbounded', hnamed'⟩ := h.suffix (items ▸ List.suffix_cons item rest)
    refine ⟨a, le_rfl, ⟨hsorted', hbounded', hnamed', hle, hshown, fun hno i hi => ?_, hwatermark,
      ?_⟩, nofun⟩
    · exact hunarmed hno i (items ▸ List.mem_cons_of_mem item hi)
    · by_cases harmed : c.armed = true
      · exact .inl ⟨harmed, rfl⟩
      · refine .inr ((hconverges.resolve_left fun hboth => harmed hboth.1).imp id
          (Or.imp id (Or.imp id ?_)))
        -- what is skipped is no state
        rintro ⟨s, hs⟩
        rw [items] at hs
        rcases List.mem_cons.mp hs with rfl | hrest
        · cases stale.resolve_right harmed
        · exact ⟨s, hrest⟩
  | @deliver m s rest items unarmed =>
    have hhead : (m, some s) ∈ c.items := items ▸ List.mem_cons_self
    obtain ⟨hsorted', hbounded', hnamed'⟩ := h.suffix (items ▸ List.suffix_cons (m, some s) rest)
    have ham : a ≤ m := hunarmed unarmed _ hhead
    rw [items, List.map_cons] at hsorted
    have hafter := (List.pairwise_cons.mp hsorted).1
    refine ⟨m, ham, ⟨hsorted', hbounded', hnamed', hbounded _ hhead, (hnamed m s hhead).symm,
      fun _ i hi => ?_,
      hwatermark, .inr ?_⟩, fun m' v hlabel => ?_⟩
    · exact hafter i.1 (List.mem_map_of_mem hi)
    · rcases hconverges with harmed | hall | hflight | hdrops | ⟨s', hs'⟩
      · exact absurd (harmed.1.symm.trans unarmed) nofun
      · exact .inl (le_antisymm (hbounded _ hhead) (hall ▸ ham))
      · exact .inr (.inl hflight)
      · exact .inr (.inr (.inl hdrops))
      · rw [items] at hs'
        rcases List.mem_cons.mp hs' with heq | hrest
        · cases heq
          exact .inl rfl
        · exact .inr (.inr (.inr ⟨s', hrest⟩))
    · obtain ⟨rfl, hv⟩ := showing_eq_some hlabel
      exact ⟨ham, le_rfl, (hnamed m' s hhead).trans hv⟩
  | reconcile d seen settled =>
    obtain ⟨a', haa', hinv, hcaught⟩ := h.reconcile (f := f) seen settled
    refine ⟨a', haa', hinv, fun m v hlabel => ?_⟩
    obtain ⟨rfl, hv⟩ := showing_eq_some hlabel
    rcases hcaught with hall | ⟨-, -, hsame⟩
    · refine ⟨hle, hall.ge, ?_⟩
      rw [← hall]
      exact hinv.shown.symm.trans hv
    · rw [hsame] at hlabel
      unfold showing at hlabel
      rw [if_pos rfl] at hlabel
      cases hlabel
  | disarm items settled =>
    refine ⟨a, le_rfl, ⟨hsorted, hbounded, hnamed, hle, hshown, fun _ i hi => ?_, hwatermark,
      .inr ?_⟩, nofun⟩
    · rw [items] at hi
      cases hi
    · exact hconverges.resolve_left fun hboth => absurd (hboth.2.symm.trans settled) nofun
  | abandon suffix =>
    obtain ⟨hsorted', hbounded', hnamed'⟩ := h.suffix suffix
    exact ⟨a, le_rfl, ⟨hsorted', hbounded', hnamed', hle, hshown, nofun, hwatermark,
      .inl ⟨rfl, rfl⟩⟩, nofun⟩

theorem Consume.frame (hstep : Consume f c c' label) :
    c'.states = c.states ∧ c'.items <:+ c.items := by
  cases hstep with
  | skip items => exact ⟨rfl, items ▸ List.suffix_cons _ _⟩
  | deliver items => exact ⟨rfl, items ▸ List.suffix_cons _ _⟩
  | reconcile d => exact ⟨(frame_reconcile f c d).1, (frame_reconcile f c d).2 ▸ List.suffix_rfl⟩
  | abandon suffix => exact ⟨rfl, suffix⟩
  | _ => exact ⟨rfl, List.suffix_rfl⟩

end Channel

end CatchUp
