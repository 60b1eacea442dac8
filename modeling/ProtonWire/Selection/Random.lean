import ProtonWire.Selection.Ranking

/-!
# The random policy keeps countries together

* `Grouped`: entries under ascending countries, each with the servers of its own;
* `groupByCountry_grouped`: the map by exit country is so;
* **`rankRandom_contiguous`**: the random policy permutes its candidates, one block for each
  country.
-/

namespace ProtonWire

open Blocks

/-- Entries under ascending countries, each with the servers of its own. -/
structure Grouped (groups : List (String × List LogicalServer)) : Prop where
  ascending : groups.Pairwise fun a b => a.1 < b.1
  own : ∀ group ∈ groups, ∀ s ∈ group.2, s.exitCountry = group.1

theorem mem_pushCountry {country : String} {s : LogicalServer}
    {groups : List (String × List LogicalServer)}
    {group : String × List LogicalServer} (h : group ∈ pushCountry country s groups) :
    group.1 = country ∨ ∃ g ∈ groups, g.1 = group.1 := by
  induction groups with
  | nil =>
    left
    rw [List.mem_singleton.mp h]
  | cons head rest ih =>
    obtain ⟨c, servers⟩ := head
    unfold pushCountry at h
    split at h
    · rcases List.mem_cons.mp h with rfl | h
      · exact .inl rfl
      · exact .inr ⟨group, h, rfl⟩
    · rcases List.mem_cons.mp h with rfl | h
      · exact .inr ⟨_, List.mem_cons_self, rfl⟩
      · exact .inr ⟨group, List.mem_cons_of_mem _ h, rfl⟩
    · rcases List.mem_cons.mp h with rfl | h
      · exact .inr ⟨_, List.mem_cons_self, rfl⟩
      · rcases ih h with hc | ⟨g, hg, heq⟩
        · exact .inl hc
        · exact .inr ⟨g, List.mem_cons_of_mem _ hg, heq⟩

theorem pushCountry_grouped (s : LogicalServer) {groups : List (String × List LogicalServer)}
    (h : Grouped groups) :
    Grouped (pushCountry s.exitCountry s groups) := by
  induction groups with
  | nil =>
    refine ⟨List.pairwise_singleton _ _, fun group hgroup t ht => ?_⟩
    rw [List.mem_singleton.mp hgroup] at ht ⊢
    rw [List.mem_singleton.mp ht]
  | cons head rest ih =>
    obtain ⟨c, servers⟩ := head
    obtain ⟨hhead, hrest⟩ := List.pairwise_cons.mp h.ascending
    have hown : ∀ t ∈ servers, t.exitCountry = c := h.own (c, servers) List.mem_cons_self
    have hownRest : ∀ group ∈ rest, ∀ t ∈ group.2, t.exitCountry = group.1 :=
      fun group hgroup => h.own group (List.mem_cons_of_mem _ hgroup)
    unfold pushCountry
    split
    · next hlt =>
      rw [compare_lt_iff_lt] at hlt
      refine ⟨List.pairwise_cons.mpr ⟨fun group hgroup => ?_, h.ascending⟩,
        fun group hgroup t ht => ?_⟩
      · rcases List.mem_cons.mp hgroup with rfl | hgroup
        · exact hlt
        · exact hlt.trans (hhead group hgroup)
      · rcases List.mem_cons.mp hgroup with rfl | hgroup
        · rw [List.mem_singleton.mp ht]
        · exact h.own group hgroup t ht
    · next heq =>
      rw [compare_eq_iff_eq] at heq
      refine ⟨List.pairwise_cons.mpr ⟨hhead, hrest⟩, fun group hgroup t ht => ?_⟩
      rcases List.mem_cons.mp hgroup with rfl | hgroup
      · rcases List.mem_append.mp ht with ht | ht
        · exact hown t ht
        · rw [List.mem_singleton.mp ht]
          exact heq
      · exact hownRest group hgroup t ht
    · next hgt =>
      rw [compare_gt_iff_gt] at hgt
      obtain ⟨hasc, hown'⟩ := ih ⟨hrest, hownRest⟩
      refine ⟨List.pairwise_cons.mpr ⟨fun group hgroup => ?_, hasc⟩, fun group hgroup t ht => ?_⟩
      · rcases mem_pushCountry hgroup with hc | ⟨g, hg, hc⟩
        · rw [hc]
          exact hgt
        · rw [← hc]
          exact hhead g hg
      · rcases List.mem_cons.mp hgroup with rfl | hgroup
        · exact hown t ht
        · exact hown' group hgroup t ht

theorem groupByCountry_grouped (l : List LogicalServer) : Grouped (groupByCountry l) := by
  have hfold : ∀ groups, Grouped groups →
      Grouped (l.foldl (fun groups s => pushCountry s.exitCountry s groups) groups) := by
    induction l with
    | nil => exact fun groups h => h
    | cons s l ih => exact fun groups h => ih _ (pushCountry_grouped s h)
  exact hfold [] ⟨List.Pairwise.nil, fun group hgroup => by cases hgroup⟩

theorem shuffleCountries_contiguous {groups : List (String × List LogicalServer)}
    (hown : ∀ group ∈ groups, ∀ s ∈ group.2, s.exitCountry = group.1)
    (hdistinct : groups.Pairwise fun a b => a.1 ≠ b.1) {rng : SeededDraw}
    {ranked : List RankedCandidate} (h : shuffleCountries groups rng = .ok ranked) :
    Contiguous (fun c => c.server.exitCountry) ranked := by
  induction groups generalizing rng ranked with
  | nil =>
    cases h
    exact contiguous_nil _
  | cons group rest ih =>
    obtain ⟨country, servers⟩ := group
    obtain ⟨hne, hdistinct⟩ := List.pairwise_cons.mp hdistinct
    obtain ⟨shuffled, rng', hshuffle, hperm⟩ := fisherYates_ok servers.toArray rng
    obtain ⟨ranked', hrest, hservers⟩ := shuffleCountries_ok rest rng'
    have hown' : ∀ group ∈ rest, ∀ s ∈ group.2, s.exitCountry = group.1 :=
      fun group hgroup => hown group (List.mem_cons_of_mem _ hgroup)
    have heq : ranked = shuffled.toList.map RankedCandidate.catalogOnly ++ ranked' := by
      unfold shuffleCountries at h
      rw [hshuffle] at h
      dsimp only [bind, Except.bind] at h
      rw [hrest] at h
      exact (Except.ok.inj h).symm
    rw [heq]
    refine contiguous_append (k := country) (fun c hc => ?_) (fun c hc => ?_)
      (ih hown' hdistinct hrest)
    · obtain ⟨s, hs, rfl⟩ := List.mem_map.mp hc
      exact hown (country, servers) List.mem_cons_self s (hperm.toList.mem_iff.mp hs)
    · have hmem : c.server ∈ rest.flatMap Prod.snd := hservers.mem_iff.mp (List.mem_map_of_mem hc)
      obtain ⟨group, hgroup, hs⟩ := List.mem_flatMap.mp hmem
      rw [hown' group hgroup _ hs]
      exact (hne group hgroup).symm

/-- **The random policy is a country-grouped permutation**, whatever the entropy: it never leaves a
slice, loses and repeats no candidate, and no server of another country stands between two of
one. -/
theorem rankRandom_contiguous (candidates : List LogicalServer) (entropy : UInt64) :
    ∃ ranked, rankRandom candidates entropy = .ok ranked ∧
      (ranked.map RankedCandidate.server).Perm candidates ∧
      Contiguous (fun c => c.server.exitCountry) ranked := by
  obtain ⟨ranked, hranked, hperm⟩ := rankRandom_ok candidates entropy
  refine ⟨ranked, hranked, hperm, ?_⟩
  obtain ⟨countries, rng, hshuffle, hcountries⟩ :=
    fisherYates_ok (groupByCountry candidates).toArray ⟨entropy⟩
  have hgrouped := groupByCountry_grouped candidates
  have hrun : shuffleCountries countries.toList rng = .ok ranked := by
    unfold rankRandom at hranked
    rw [hshuffle] at hranked
    exact hranked
  -- the countries are shuffled, but still distinct and with their own servers
  refine shuffleCountries_contiguous (fun group hgroup => ?_) ?_ hrun
  · exact hgrouped.own group (hcountries.toList.mem_iff.mp hgroup)
  · have hne : (groupByCountry candidates).Pairwise fun a b => a.1 ≠ b.1 :=
      hgrouped.ascending.imp fun h => h.ne
    exact (hcountries.toList.pairwise_iff fun h => h.symm).mpr hne

end ProtonWire
