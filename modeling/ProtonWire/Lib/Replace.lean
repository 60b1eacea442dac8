import Mathlib

/-!
# Replacing a pattern

The replacement of the leftmost, non-overlapping matches of a pattern, over lists with a key; and
what becomes of the positions of a text through several replacements by a placeholder.

* `replaceAll`: the matches, from the left, are replaced; `matchesOf`: these matches;
* `takeAll`: the same on a text in pieces, where a match is taken out as one piece and no other
  match may touch it;
* `rendered`: the pieces as a text, a placeholder for every match that was taken;
* `Intact`: no match in the rendered text takes a character of a placeholder;
* **`replaceAll_rendered`**: under `Intact`, to replace in the rendered text is to take from the
  pieces;
* `Apart`: a pattern and a placeholder that have no text in common at an edge;
* **`intact_of_apart`**: then `Intact` holds of every text.
-/

namespace Replace

variable {α κ : Type*} [DecidableEq κ]

/-! ## Replacing -/

/-- Replace the matches from the left, after leaving out the first `skip` places. -/
def replaceFrom (key : α → κ) (pattern : List κ) (replacement : List α) : ℕ → List α → List α
  | _, [] => []
  | skip + 1, _ :: rest => replaceFrom key pattern replacement skip rest
  | 0, a :: rest =>
    if pattern <+: (a :: rest).map key then
      replacement ++ replaceFrom key pattern replacement (pattern.length - 1) rest
    else a :: replaceFrom key pattern replacement 0 rest

/-- Replace the leftmost, non-overlapping matches of a nonempty pattern. -/
def replaceAll (key : α → κ) (pattern : List κ) (replacement text : List α) : List α :=
  replaceFrom key pattern replacement 0 text

section
variable {key : α → κ} {pattern : List κ} {replacement : List α}

theorem replaceFrom_append (front rest : List α) :
    replaceFrom key pattern replacement front.length (front ++ rest) =
    replaceAll key pattern replacement rest := by
  induction front with
  | nil => rfl
  | cons a front ih => exact ih

@[simp] theorem replaceAll_nil : replaceAll key pattern replacement [] = [] := rfl

theorem replaceAll_of_match {front : List α} (hne : pattern ≠ []) (h : front.map key = pattern)
    (rest : List α) :
    replaceAll key pattern replacement (front ++ rest) = replacement ++
    replaceAll key pattern replacement rest := by
  cases front with
  | nil => exact absurd h.symm hne
  | cons a front =>
    have hpre : pattern <+: (a :: (front ++ rest)).map key := by
      rw [← List.cons_append, List.map_append, h]
      exact List.prefix_append _ _
    have hlen : pattern.length - 1 = front.length := by
      rw [← h, List.length_map, List.length_cons, Nat.add_sub_cancel]
    rw [List.cons_append, replaceAll, replaceFrom, if_pos hpre, hlen, replaceFrom_append]

theorem replaceAll_of_not {a : α} {rest : List α} (h : ¬ pattern <+: (a :: rest).map key) :
    replaceAll key pattern replacement (a :: rest) =
    a :: replaceAll key pattern replacement rest := by
  rw [replaceAll, replaceFrom, if_neg h]
  rfl

theorem replaceAll_append {front rest : List α}
    (h : ∀ u, u ≠ [] → u <:+ front → ¬ pattern <+: (u ++ rest).map key) :
    replaceAll key pattern replacement (front ++ rest) = front ++
    replaceAll key pattern replacement rest := by
  induction front with
  | nil => rfl
  | cons a front ih =>
    have hhead : ¬ pattern <+: (a :: (front ++ rest)).map key := h (a :: front)
      (by simp) List.suffix_rfl
    rw [List.cons_append, replaceAll_of_not hhead, ih fun u hu hsuf =>
      h u hu (hsuf.trans (List.suffix_cons a front)),
      List.cons_append]

theorem replaceAll_of_not_infix {text : List α} (h : ¬ pattern <:+: text.map key) :
    replaceAll key pattern replacement text = text := by
  have happ : replaceAll key pattern replacement (text ++ []) = text ++
    replaceAll key pattern replacement [] := by
    refine replaceAll_append fun u _ hsuf hpre => ?_
    rw [List.append_nil] at hpre
    exact h (hpre.isInfix.trans (hsuf.map key).isInfix)
  rwa [List.append_nil, replaceAll_nil, List.append_nil] at happ

end

theorem mem_replaceAll {key : α → κ} {pattern : List κ} {replacement text : List α} {a : α}
    (h : a ∈ replaceAll key pattern replacement text) : a ∈ replacement ∨ a ∈ text := by
  have hfrom : ∀ skip text, a ∈ replaceFrom key pattern replacement skip text → a ∈ replacement ∨
    a ∈ text := by
    intro skip text
    induction text generalizing skip with
    | nil => cases skip <;> exact fun hmem => .inr hmem
    | cons b rest ih =>
      cases skip with
      | succ skip => exact fun hmem => (ih skip hmem).imp_right (List.mem_cons_of_mem b)
      | zero =>
        rw [replaceFrom]
        split
        · intro hmem
          rcases List.mem_append.mp hmem with hmem | hmem
          · exact .inl hmem
          · exact (ih _ hmem).imp_right (List.mem_cons_of_mem b)
        · intro hmem
          rcases List.mem_cons.mp hmem with rfl | hmem
          · exact .inr List.mem_cons_self
          · exact (ih 0 hmem).imp_right (List.mem_cons_of_mem b)
  exact hfrom 0 text h

/-- Replacing commutes with a map that respects the keys. -/
theorem map_replaceAll {β : Type*} (f : α → β) (key : β → κ) {pattern : List κ}
    (replacement text : List α) :
    (replaceAll (key ∘ f) pattern replacement text).map f =
      replaceAll key pattern (replacement.map f) (text.map f) := by
  have hfrom : ∀ skip text, (replaceFrom (key ∘ f) pattern replacement skip text).map f =
      replaceFrom key pattern (replacement.map f) skip (text.map f) := by
    intro skip text
    induction text generalizing skip with
    | nil => cases skip <;> rfl
    | cons a rest ih =>
      cases skip with
      | succ skip => exact ih skip
      | zero =>
        rw [List.map_cons, replaceFrom, replaceFrom, ← List.map_cons, List.map_map]
        split
        · rw [List.map_append, ih]
        · rw [List.map_cons, ih]
  exact hfrom 0 text

/-! ## Matches -/

/-- The matches from the left, after leaving out the first `skip` places. -/
def matchesFrom (key : α → κ) (pattern : List κ) : ℕ → List α → List (List α)
  | _, [] => []
  | skip + 1, _ :: rest => matchesFrom key pattern skip rest
  | 0, a :: rest =>
    if pattern <+: (a :: rest).map key then
      (a :: rest).take pattern.length :: matchesFrom key pattern (pattern.length - 1) rest
    else matchesFrom key pattern 0 rest

/-- The matches that `replaceAll` replaces. -/
def matchesOf (key : α → κ) (pattern : List κ) (text : List α) : List (List α) :=
  matchesFrom key pattern 0 text

section
variable {key : α → κ} {pattern : List κ}

theorem matchesFrom_append (front rest : List α) :
    matchesFrom key pattern front.length (front ++ rest) = matchesOf key pattern rest := by
  induction front with
  | nil => rfl
  | cons a front ih => exact ih

theorem matchesOf_of_match {front : List α} (hne : pattern ≠ []) (h : front.map key = pattern)
    (rest : List α) :
    matchesOf key pattern (front ++ rest) = front :: matchesOf key pattern rest := by
  cases front with
  | nil => exact absurd h.symm hne
  | cons a front =>
    have hpre : pattern <+: (a :: (front ++ rest)).map key := by
      rw [← List.cons_append, List.map_append, h]
      exact List.prefix_append _ _
    have hlen : pattern.length = front.length + 1 := by rw [← h, List.length_map, List.length_cons]
    rw [List.cons_append, matchesOf, matchesFrom, if_pos hpre, hlen, Nat.add_sub_cancel,
      matchesFrom_append, List.take_succ_cons, List.take_left]

theorem matchesOf_of_not {a : α} {rest : List α} (h : ¬ pattern <+: (a :: rest).map key) :
    matchesOf key pattern (a :: rest) = matchesOf key pattern rest := by
  rw [matchesOf, matchesFrom, if_neg h]
  rfl

theorem take_mem_matchesOf {text : List α} (hne : pattern ≠ []) (h : pattern <+: text.map key) :
    text.take pattern.length ∈ matchesOf key pattern text := by
  cases text with
  | nil => exact absurd (List.prefix_nil.mp h) hne
  | cons a rest =>
    rw [matchesOf, matchesFrom, if_pos h]
    exact List.mem_cons_self

theorem mem_matchesOf {text match' : List α} (h : match' ∈ matchesOf key pattern text) :
    ∃ rest, rest <:+ text ∧ pattern <+: rest.map key ∧ match' = rest.take pattern.length := by
  have hfrom : ∀ skip text, match' ∈ matchesFrom key pattern skip text →
      ∃ rest, rest <:+ text ∧ pattern <+: rest.map key ∧ match' = rest.take pattern.length := by
    intro skip text
    induction text generalizing skip with
    | nil => cases skip <;> exact fun hmem => absurd hmem List.not_mem_nil
    | cons a text ih =>
      have hcons : ∀ skip, match' ∈ matchesFrom key pattern skip text → ∃ rest, rest <:+ a :: text ∧
          pattern <+: rest.map key ∧ match' = rest.take pattern.length := fun skip hmem =>
        (ih skip hmem).imp fun rest h => ⟨h.1.trans (List.suffix_cons a text), h.2⟩
      cases skip with
      | succ skip => exact hcons skip
      | zero =>
        rw [matchesFrom]
        split
        next hpre =>
          intro hmem
          rcases List.mem_cons.mp hmem with rfl | hmem
          · exact ⟨a :: text, List.suffix_rfl, hpre, rfl⟩
          · exact hcons _ hmem
        next => exact hcons 0
  exact hfrom 0 text h

theorem pass_over (hne : pattern ≠ []) {P : α → Prop} {front rest : List α}
    (hfront : ∀ a ∈ front, ¬ P a)
    (h : ∀ w ∈ matchesOf key pattern (front ++ rest), ∀ a ∈ w, P a) (replacement : List α) :
    replaceAll key pattern replacement (front ++ rest) =
        front ++ replaceAll key pattern replacement rest ∧
      matchesOf key pattern (front ++ rest) = matchesOf key pattern rest := by
  induction front with
  | nil => exact ⟨rfl, rfl⟩
  | cons a front ih =>
    have hno : ¬ pattern <+: (a :: (front ++ rest)).map key := by
      intro hpre
      refine hfront a List.mem_cons_self (h _ (take_mem_matchesOf hne hpre) a ?_)
      obtain ⟨c, pattern', rfl⟩ := List.exists_cons_of_ne_nil hne
      exact List.mem_cons_self
    rw [List.cons_append, matchesOf_of_not hno] at h
    obtain ⟨hreplace, hmatches⟩ := ih (fun b hb => hfront b (List.mem_cons_of_mem a hb)) h
    rw [List.cons_append, replaceAll_of_not hno, matchesOf_of_not hno, hreplace, hmatches]
    exact ⟨rfl, rfl⟩

end

/-! ## Pieces -/

/-- Take the leftmost matches that touch no match taken before, each out as one piece. -/
def takeAll (pattern : List κ) (pieces : List (κ ⊕ List κ)) : List (κ ⊕ List κ) :=
  replaceAll id (pattern.map .inl) [.inr pattern] pieces

/-- The text that the pieces are of. -/
def original (pieces : List (κ ⊕ List κ)) : List κ :=
  pieces.flatMap (Sum.elim (fun c => [c]) id)

/-- For each position, whether it lies in a match that was taken. -/
def taken (pieces : List (κ ⊕ List κ)) : List Bool :=
  pieces.flatMap (Sum.elim (fun _ => [false]) (List.map fun _ => true))

/-- The text with a placeholder for every match that was taken, each place with the position from
`i` on that it is copied from. -/
def rendered (placeholder : List κ) : ℕ → List (κ ⊕ List κ) → List (κ × Option ℕ)
  | _, [] => []
  | i, .inl c :: pieces => (c, some i) :: rendered placeholder (i + 1) pieces
  | i, .inr w :: pieces => placeholder.map (·, none) ++ rendered placeholder (i + w.length) pieces

/-- No match in the rendered text takes a character of a placeholder. -/
def Intact (pattern placeholder : List κ) (pieces : List (κ ⊕ List κ)) : Prop :=
  ∀ w ∈ matchesOf Prod.fst pattern (rendered placeholder 0 pieces), ∀ a ∈ w, a.2.isSome

instance (pattern placeholder : List κ) (pieces : List (κ ⊕ List κ)) :
    Decidable (Intact pattern placeholder pieces) :=
  inferInstanceAs (Decidable (∀ w ∈ matchesOf Prod.fst pattern (rendered placeholder 0 pieces),
    ∀ a ∈ w, a.2.isSome))

variable {pattern placeholder : List κ}

section
omit [DecidableEq κ]

theorem original_append (pieces pieces' : List (κ ⊕ List κ)) :
    original (pieces ++ pieces') = original pieces ++ original pieces' := List.flatMap_append

@[simp] theorem original_map_inl (text : List κ) : original (text.map .inl) = text := by
  induction text with
  | nil => rfl
  | cons c text ih => exact congrArg (c :: ·) ih

theorem length_taken (pieces : List (κ ⊕ List κ)) :
    (taken pieces).length = (original pieces).length := by
  induction pieces with
  | nil => rfl
  | cons piece pieces ih =>
    simp only [taken, original] at ih ⊢
    cases piece <;> simp [ih]

variable (placeholder) in
theorem rendered_append (i : ℕ) (text : List κ) (pieces : List (κ ⊕ List κ)) :
    ∃ front, front.map Prod.fst = text ∧ (∀ a ∈ front, a.2.isSome) ∧
      rendered placeholder i (text.map .inl ++ pieces) =
        front ++ rendered placeholder (i + text.length) pieces := by
  induction text generalizing i with
  | nil => exact ⟨[], rfl, fun _ h => absurd h List.not_mem_nil, rfl⟩
  | cons c text ih =>
    obtain ⟨front, hfst, hsome, heq⟩ := ih (i + 1)
    refine ⟨(c, some i) :: front, by rw [List.map_cons, hfst], ?_, ?_⟩
    · rintro a (_ | ⟨_, ha⟩)
      exacts [rfl, hsome a ha]
    · rw [List.map_cons, List.cons_append, rendered, heq, List.cons_append, List.length_cons,
        Nat.add_right_comm, Nat.add_assoc]

theorem prefix_of_rendered (hne : placeholder ≠ []) {i : ℕ} {pieces : List (κ ⊕ List κ)}
    {front : List (κ × Option ℕ)} (h : front <+: rendered placeholder i pieces)
    (hsome : ∀ a ∈ front, a.2.isSome) : (front.map Prod.fst).map .inl <+: pieces := by
  induction front generalizing i pieces with
  | nil => exact List.nil_prefix
  | cons a front ih =>
    cases pieces with
    | nil => cases List.prefix_nil.mp h
    | cons piece pieces =>
      cases piece with
      | inl c =>
        rw [rendered, List.cons_prefix_cons] at h
        obtain ⟨rfl, h⟩ := h
        rw [List.map_cons, List.map_cons, List.cons_prefix_cons]
        exact ⟨rfl, ih h fun b hb => hsome b (List.mem_cons_of_mem _ hb)⟩
      | inr w =>
        -- the placeholder's first character is copied from nowhere
        obtain ⟨p, placeholder', rfl⟩ := List.exists_cons_of_ne_nil hne
        rw [rendered, List.map_cons, List.cons_append, List.cons_prefix_cons] at h
        have := hsome a List.mem_cons_self
        rw [h.1] at this
        cases this

theorem mem_rendered {i : ℕ} {pieces : List (κ ⊕ List κ)} :
    (∀ c j, (c, some j) ∈ rendered placeholder i pieces → i ≤ j) ∧
      ∀ k, (∃ c, (c, some (i + k)) ∈ rendered placeholder i pieces) ↔
        (taken pieces)[k]? = some false := by
  induction pieces generalizing i with
  | nil => simp [rendered, taken]
  | cons piece pieces ih =>
    cases piece with
    | inl c =>
      obtain ⟨hle, hcopied⟩ := ih (i := i + 1)
      have hcons : taken (.inl c :: pieces) = false :: taken pieces := rfl
      refine ⟨fun c' j hmem => ?_, fun k => ?_⟩
      · rcases List.mem_cons.mp hmem with heq | hmem
        · cases heq
          exact le_rfl
        · have := hle c' j hmem
          omega
      · cases k with
        | zero => exact ⟨fun _ => rfl, fun _ => ⟨c, List.mem_cons_self⟩⟩
        | succ k =>
          rw [hcons, List.getElem?_cons_succ, ← hcopied k]
          refine exists_congr fun c' => ?_
          rw [rendered, List.mem_cons, show i + 1 + k = i + (k + 1) by omega]
          refine ⟨fun hmem => hmem.resolve_left fun heq => ?_, .inr⟩
          have := (Prod.mk.inj heq).2
          simp at this
    | inr w =>
      obtain ⟨hle, hcopied⟩ := ih (i := i + w.length)
      have hcons : taken (.inr w :: pieces) = w.map (fun _ => true) ++ taken pieces := rfl
      have hold : ∀ c j, (c, some j) ∈ rendered placeholder i (.inr w :: pieces) ↔
          (c, some j) ∈ rendered placeholder (i + w.length) pieces := by
        intro c j
        simp [rendered]
      refine ⟨fun c j hmem => ?_, fun k => ?_⟩
      · have := hle c j ((hold c j).mp hmem)
        omega
      · simp only [hold, hcons]
        by_cases hk : k < w.length
        · rw [List.getElem?_append_left (by simpa using hk), List.getElem?_map,
            List.getElem?_eq_getElem hk]
          constructor
          · rintro ⟨c, hmem⟩
            have := hle c _ hmem
            omega
          · intro heq
            cases heq
        · rw [List.getElem?_append_right (by simpa using hk), List.length_map,
            ← hcopied (k - w.length), show i + w.length + (k - w.length) = i + k by omega]

end

theorem takeAll_of_match {pieces : List (κ ⊕ List κ)} (hne : pattern ≠ []) :
    takeAll pattern (pattern.map .inl ++ pieces) = .inr pattern :: takeAll pattern pieces :=
  replaceAll_of_match (by simpa using hne) (List.map_id _) pieces

theorem takeAll_of_not {piece : κ ⊕ List κ} {pieces : List (κ ⊕ List κ)}
    (h : ¬ pattern.map .inl <+: piece :: pieces) :
    takeAll pattern (piece :: pieces) = piece :: takeAll pattern pieces :=
  replaceAll_of_not (by rwa [List.map_id])

theorem takeAll_induction {motive : List (κ ⊕ List κ) → Prop} (hne : pattern ≠ []) (nil : motive [])
    (took : ∀ pieces, motive pieces → motive (pattern.map .inl ++ pieces))
    (keep : ∀ piece pieces, ¬ pattern.map .inl <+: piece :: pieces → motive pieces →
      motive (piece :: pieces)) (pieces : List (κ ⊕ List κ)) : motive pieces := by
  induction hn : pieces.length using Nat.strong_induction_on generalizing pieces with
  | _ n ih =>
    cases pieces with
    | nil => exact nil
    | cons piece pieces =>
      by_cases hmatch : pattern.map .inl <+: piece :: pieces
      · obtain ⟨rest, hrest⟩ := hmatch
        rw [← hrest] at hn ⊢
        have : 0 < pattern.length := List.length_pos_of_ne_nil hne
        rw [List.length_append, List.length_map] at hn
        exact took rest (ih rest.length (by omega) rest rfl)
      · rw [List.length_cons] at hn
        exact keep piece pieces hmatch (ih pieces.length (by omega) pieces rfl)

/-- Taking matches out does not change the text. -/
theorem original_takeAll (hne : pattern ≠ []) (pieces : List (κ ⊕ List κ)) :
    original (takeAll pattern pieces) = original pieces := by
  induction pieces using takeAll_induction hne with
  | nil => rfl
  | took pieces ih =>
    rw [takeAll_of_match hne, original_append, original_map_inl, ← ih]
    rfl
  | keep piece pieces hno ih =>
    rw [takeAll_of_not hno, ← List.singleton_append, original_append, ih, ← original_append]
    rfl

/-- A pattern that does not occur takes nothing. -/
theorem takeAll_of_not_infix {pieces : List (κ ⊕ List κ)} (h : ¬ pattern <:+: original pieces) :
    takeAll pattern pieces = pieces := by
  refine replaceAll_of_not_infix fun hin => h ?_
  obtain ⟨front, rest, hpieces⟩ := hin
  rw [List.map_id] at hpieces
  rw [← hpieces, original_append, original_append, original_map_inl]
  exact ⟨original front, original rest, rfl⟩

/-- **To replace in the rendered text is to take from the pieces**, as long as no match takes a
character of a placeholder. -/
theorem replaceAll_rendered (hne : pattern ≠ []) (hplace : placeholder ≠ []) {i : ℕ}
    {pieces : List (κ ⊕ List κ)}
    (h : ∀ w ∈ matchesOf Prod.fst pattern (rendered placeholder i pieces), ∀ a ∈ w, a.2.isSome) :
    replaceAll Prod.fst pattern (placeholder.map (·, none)) (rendered placeholder i pieces) =
      rendered placeholder i (takeAll pattern pieces) := by
  induction pieces using takeAll_induction hne generalizing i with
  | nil => rfl
  | took pieces ih =>
    obtain ⟨front, hfst, -, heq⟩ := rendered_append placeholder i pattern pieces
    rw [heq, matchesOf_of_match hne hfst] at h
    rw [heq, replaceAll_of_match hne hfst, takeAll_of_match hne, rendered,
      ih fun w hw => h w (List.mem_cons_of_mem front hw)]
  | keep piece pieces hno ih =>
    rw [takeAll_of_not hno]
    cases piece with
    | inl c =>
      have hhead : ¬ pattern <+: (rendered placeholder i (.inl c :: pieces)).map Prod.fst := by
        intro hpre
        refine hno ?_
        have hmap := (List.prefix_iff_eq_take.mp hpre).symm
        rw [← List.map_take] at hmap
        rw [← hmap]
        exact prefix_of_rendered hplace (List.take_prefix _ _) (h _ (take_mem_matchesOf hne hpre))
      rw [rendered] at h hhead ⊢
      rw [matchesOf_of_not hhead] at h
      rw [replaceAll_of_not hhead, rendered, ih h]
    | inr w =>
      rw [rendered] at h ⊢
      have hnone : ∀ a ∈ placeholder.map (·, (none : Option ℕ)), ¬ a.2.isSome := by simp
      obtain ⟨hreplace, hmatches⟩ := pass_over hne hnone h (placeholder.map (·, none))
      rw [hmatches] at h
      rw [hreplace, rendered, ih h]

/-- In a text without a placeholder no match takes a character of one. -/
theorem intact_start (text : List κ) : Intact pattern placeholder (text.map .inl) := by
  obtain ⟨front, -, hsome, heq⟩ := rendered_append placeholder 0 text []
  intro w hw a ha
  rw [List.append_nil] at heq
  rw [heq, rendered, List.append_nil] at hw
  obtain ⟨rest, hrest, -, rfl⟩ := mem_matchesOf hw
  exact hsome a (hrest.subset (List.mem_of_mem_take ha))

omit [DecidableEq κ] in
/-- A text in one piece each is rendered as it is. -/
theorem rendered_start (i : ℕ) (text : List κ) :
    rendered placeholder i (text.map .inl) = (text.zipIdx i).map fun p => (p.1, some p.2) := by
  induction text generalizing i with
  | nil => rfl
  | cons c text ih => exact congrArg ((c, some i) :: ·) (ih (i + 1))

/-! ## Patterns apart from the placeholder -/

/-- A pattern and a placeholder that cannot have text in common: neither lies in the other, and no
end of one is a beginning of the other. -/
structure Apart (pattern placeholder : List κ) : Prop where
  inside : ¬ pattern <:+: placeholder
  around : ¬ placeholder <:+: pattern
  front : ∀ u, u ≠ [] → u <:+ placeholder → ¬ u <+: pattern
  back : ∀ u, u ≠ [] → u <+: placeholder → ¬ u <:+ pattern

omit [DecidableEq κ] in
theorem map_fst_placeholder (placeholder : List κ) :
    (placeholder.map (·, (none : Option ℕ))).map Prod.fst = placeholder := by
  rw [List.map_map]
  exact List.map_id placeholder

omit [DecidableEq κ] in
theorem Apart.match_front (hapart : Apart pattern placeholder) {i : ℕ} {pieces : List (κ ⊕ List κ)}
    {z : List κ} (hz : z <:+ pattern)
    (hpre : z <+: (rendered placeholder i pieces).map Prod.fst) :
    ∀ a ∈ (rendered placeholder i pieces).take z.length, a.2.isSome := by
  induction pieces generalizing i z with
  | nil => simp [rendered]
  | cons piece pieces ih =>
    cases z with
    | nil => simp
    | cons c' z =>
      cases piece with
      | inl c =>
        rw [rendered, List.map_cons, List.cons_prefix_cons] at hpre
        rw [rendered, List.length_cons, List.take_succ_cons]
        rintro a (_ | ⟨_, ha⟩)
        exacts [rfl, ih ((List.suffix_cons c' z).trans hz) hpre.2 a ha]
      | inr w =>
        rw [rendered, List.map_append, map_fst_placeholder] at hpre
        -- the match meets the placeholder
        rcases List.prefix_or_prefix_of_prefix hpre (List.prefix_append _ _) with hin | hout
        · exact absurd hz (hapart.back _ (by simp) hin)
        · exact absurd (hout.isInfix.trans hz.isInfix) hapart.around

omit [DecidableEq κ] in
theorem Apart.match_rest (hapart : Apart pattern placeholder) {i : ℕ} {pieces : List (κ ⊕ List κ)}
    {rest : List (κ × Option ℕ)} (hrest : rest <:+ rendered placeholder i pieces)
    (hpre : pattern <+: rest.map Prod.fst) : ∀ a ∈ rest.take pattern.length, a.2.isSome := by
  induction pieces generalizing i with
  | nil =>
    rw [List.suffix_nil.mp hrest]
    simp
  | cons piece pieces ih =>
    cases piece with
    | inl c =>
      rcases List.suffix_cons_iff.mp hrest with rfl | hrest
      · have hpre' : pattern <+: (rendered placeholder i (.inl c :: pieces)).map Prod.fst := hpre
        exact hapart.match_front List.suffix_rfl hpre'
      · exact ih hrest
    | inr w =>
      rw [rendered] at hrest
      obtain ⟨before, hbefore⟩ := hrest
      rcases List.append_eq_append_iff.mp hbefore with ⟨u, hu, rfl⟩ | ⟨u, -, hu⟩
      · by_cases hnil : u = []
        · rw [hnil, List.nil_append] at hpre ⊢
          exact hapart.match_front List.suffix_rfl hpre
        -- the match begins in the placeholder
        have hsuf : u.map Prod.fst <:+ placeholder := by
          have : u <:+ placeholder.map (·, none) := ⟨before, hu.symm⟩
          have := this.map Prod.fst
          rwa [map_fst_placeholder] at this
        rw [List.map_append] at hpre
        rcases List.prefix_or_prefix_of_prefix hpre (List.prefix_append _ _) with hin | hout
        · exact absurd (hin.isInfix.trans hsuf.isInfix) hapart.inside
        · exact absurd hout (hapart.front _ (by simpa using hnil) hsuf)
      · exact ih ⟨u, hu.symm⟩

/-- **A pattern apart from the placeholder leaves every placeholder intact.** -/
theorem intact_of_apart (hapart : Apart pattern placeholder) (pieces : List (κ ⊕ List κ)) :
    Intact pattern placeholder pieces := by
  intro w hw
  obtain ⟨rest, hrest, hpre, rfl⟩ := mem_matchesOf hw
  exact hapart.match_rest hrest hpre

end Replace
