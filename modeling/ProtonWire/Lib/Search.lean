import Mathlib

/-!
# Searching a graph

The search of a finite graph with a stack, that records where each node was found, and may leave one
node's successors alone; and the way back from a node along the record.

* `Graph`: successors, all among finitely many nodes;
* `search`: the search, by the nodes still to be found and the stack;
* `climb`: the way back;
* `Path`, `Avoids`: what is reached;
* **`mem_search`**, **`climb_spec`**: what is found, and that the ways back are paths.
-/

namespace Search

variable {ν : Type*} [DecidableEq ν]

/-- The successors of the nodes that have a list of them, among finitely many. -/
structure Graph (ν : Type*) where
  next : ν → Option (List ν)
  nodes : List ν
  closed : ∀ node deps, next node = some deps → deps ⊆ nodes

/-- A node found, and the node it was found from; the newest first. -/
abbrev Record (ν : Type*) := List (ν × Option ν)

/-- The node is on the record. -/
def found (parent : Record ν) (node : ν) : Bool := parent.any fun entry => entry.1 = node

/-- The node a node was found from. -/
def foundFrom (parent : Record ν) (node : ν) : Option (Option ν) :=
  (parent.find? fun entry => entry.1 = node).map (·.2)

/-- Record the successors that are new, and push them. -/
def discover (current : ν) : List ν → Record ν → List ν → Record ν × List ν
  | [], parent, frontier => (parent, frontier)
  | dep :: deps, parent, frontier =>
    if found parent dep then discover current deps parent frontier
    else discover current deps ((dep, some current) :: parent) (dep :: frontier)

/-- The nodes that are not on the record. -/
def missing (g : Graph ν) (parent : Record ν) : List ν :=
  g.nodes.filter fun node => !found parent node

theorem found_iff {parent : Record ν} {node : ν} :
    found parent node = true ↔ node ∈ parent.map (·.1) := by
  simp [found]

theorem missing_cons_lt {g : Graph ν} {parent : Record ν} {dep : ν} (origin : Option ν)
    (hmem : dep ∈ g.nodes) (hnew : found parent dep = false) :
    (missing g ((dep, origin) :: parent)).length < (missing g parent).length := by
  have hfilter : missing g ((dep, origin) :: parent) = (missing g parent).filter (· ≠ dep) := by
    rw [missing, missing, List.filter_filter]
    refine List.filter_congr fun node _ => ?_
    by_cases heq : node = dep
    · simp [found, heq]
    · simp [found, heq, Ne.symm heq]
  rw [hfilter]
  refine List.length_filter_lt_length_iff_exists.mpr ⟨dep, ?_, by simp⟩
  rw [missing, List.mem_filter, hnew]
  exact ⟨hmem, rfl⟩

theorem discover_measure {g : Graph ν} (current : ν) {deps : List ν} (hdeps : deps ⊆ g.nodes)
    (parent : Record ν) (frontier : List ν) :
    2 * (missing g (discover current deps parent frontier).1).length +
        (discover current deps parent frontier).2.length ≤
      2 * (missing g parent).length + frontier.length := by
  induction deps generalizing parent frontier with
  | nil => exact le_rfl
  | cons dep deps ih =>
    have hrest : deps ⊆ g.nodes := fun node h => hdeps (List.mem_cons_of_mem dep h)
    rw [discover]
    split_ifs with h
    · exact ih hrest parent frontier
    · have hlt := missing_cons_lt (some current) (hdeps List.mem_cons_self)
        (Bool.eq_false_iff.mpr h)
      have hle := ih hrest ((dep, some current) :: parent) (dep :: frontier)
      rw [List.length_cons] at hle
      omega

/-- Pop a node, and go on with its successors, unless it is the one to leave alone. -/
def search (g : Graph ν) (conduit : Option ν) (parent : Record ν) : List ν → Record ν
  | [] => parent
  | current :: frontier =>
    if conduit = some current then search g conduit parent frontier
    else
      match hdeps : g.next current with
      | none => search g conduit parent frontier
      | some deps =>
        have := discover_measure current (g.closed current deps hdeps) parent frontier
        search g conduit (discover current deps parent frontier).1
          (discover current deps parent frontier).2
termination_by frontier => 2 * (missing g parent).length + frontier.length
decreasing_by all_goals (simp only [List.length_cons]; omega)

/-- Back from a node to where the search began; nothing when the record has a gap or the steps run
out. -/
def climb (parent : Record ν) : ℕ → Option ν → List ν → Option (List ν)
  | _, none, path => some path.reverse
  | 0, some _, _ => none
  | steps + 1, some step, path =>
    match foundFrom parent step with
    | none => none
    | some origin => climb parent steps origin (path ++ [step])

/-! ## Paths -/

/-- The one node depends on the other. -/
def Edge (g : Graph ν) (node dep : ν) : Prop := ∃ deps, g.next node = some deps ∧ dep ∈ deps

/-- A path from one node to another. -/
structure Path (g : Graph ν) (path : List ν) (root node : ν) : Prop where
  head : path.head? = some root
  last : path.getLast? = some node
  edges : path.IsChain (Edge g)

/-- No node before the last is the one to leave alone. -/
def Avoids (conduit : Option ν) (path : List ν) : Prop :=
  ∀ node ∈ path.dropLast, conduit ≠ some node

omit [DecidableEq ν] in
theorem Path.single (g : Graph ν) (root : ν) :
    Path g [root] root root := ⟨rfl, rfl, List.isChain_singleton root⟩

omit [DecidableEq ν] in
theorem Path.snoc {g : Graph ν} {path : List ν} {root node dep : ν} (h : Path g path root node)
    (hedge : Edge g node dep) :
    Path g (path ++ [dep]) root dep := by
  refine ⟨?_, by simp, ?_⟩
  · rw [List.head?_append, h.head]
    rfl
  · refine List.isChain_append.mpr ⟨h.edges, List.isChain_singleton dep, ?_⟩
    intro a ha b hb
    rw [h.last] at ha
    cases ha
    cases hb
    exact hedge

/-! ## The record -/

section
variable {g : Graph ν} {root : ν} {conduit : Option ν} {parent : Record ν}

/-- A record of a search: each node was found from one recorded before, that is not left alone. -/
inductive Forest (g : Graph ν) (root : ν) (conduit : Option ν) : Record ν → Prop where
  | root : Forest g root conduit [(root, none)]
  | grow {parent : Record ν} {current dep : ν} (rest : Forest g root conduit parent)
      (recorded : current ∈ parent.map (·.1)) (traversed : conduit ≠ some current)
      (edge : Edge g current dep)
      (fresh : dep ∉ parent.map (·.1)) : Forest g root conduit ((dep, some current) :: parent)

omit [DecidableEq ν] in
theorem Forest.nodup (h : Forest g root conduit parent) : (parent.map (·.1)).Nodup := by
  induction h with
  | root => exact List.nodup_singleton root
  | grow _ _ _ _ fresh ih => exact List.nodup_cons.mpr ⟨fresh, ih⟩

omit [DecidableEq ν] in
theorem Forest.root_mem (h : Forest g root conduit parent) : root ∈ parent.map (·.1) := by
  induction h with
  | root => exact List.mem_cons_self
  | grow _ _ _ _ _ ih => exact List.mem_cons_of_mem _ ih

theorem foundFrom_of_mem (hnodup : (parent.map (·.1)).Nodup) {node : ν} {origin : Option ν}
    (h : (node, origin) ∈ parent) : foundFrom parent node = some origin := by
  induction parent with
  | nil => cases h
  | cons entry parent ih =>
    obtain ⟨hfresh, hrest⟩ := List.nodup_cons.mp hnodup
    rw [foundFrom, List.find?_cons]
    rcases List.mem_cons.mp h with rfl | h
    · simp
    · have hne : entry.1 ≠ node := fun heq => hfresh (List.mem_map.mpr ⟨_, h, heq.symm⟩)
      rw [decide_eq_false hne]
      exact ih hrest h

/-- **The way back is a path.** -/
theorem climb_spec {whole : Record ν} (h : Forest g root conduit parent)
    (hwhole : ∀ node origin, (node, origin) ∈ parent → foundFrom whole node = some origin)
    {node : ν} {origin : Option ν} (hentry : (node, origin) ∈ parent) {steps : ℕ}
    (hsteps : parent.length ≤ steps)
    (path : List ν) : ∃ trail, climb whole steps origin path = some (trail ++ path.reverse) ∧
      Path g (trail ++ [node]) root node ∧ Avoids conduit (trail ++ [node]) := by
  induction h generalizing node origin steps path with
  | root =>
    cases List.mem_singleton.mp hentry
    exact ⟨[], by cases steps <;> rfl, Path.single g root, by simp [Avoids]⟩
  | @grow parent current dep rest recorded traversed edge fresh ih =>
    have hold : ∀ node origin, (node, origin) ∈ parent → foundFrom whole node = some origin :=
      fun node origin h => hwhole node origin (List.mem_cons_of_mem _ h)
    obtain ⟨more, rfl⟩ : ∃ more, steps = more + 1 :=
      ⟨steps - 1, by rw [List.length_cons] at hsteps; omega⟩
    have hmore : parent.length ≤ more := by rw [List.length_cons] at hsteps; omega
    rcases List.mem_cons.mp hentry with heq | hentry
    · cases heq
      obtain ⟨⟨_, source⟩, hsource, rfl⟩ := List.mem_map.mp recorded
      obtain ⟨trail, hclimb, hpath, havoids⟩ := ih hold hsource hmore (path ++ [_])
      refine ⟨trail ++ [_], ?_, hpath.snoc edge, ?_⟩
      · rw [climb, hold _ _ hsource]
        dsimp only
        rw [hclimb]
        simp
      · intro before hbefore
        rw [List.dropLast_concat] at hbefore
        rcases List.mem_append.mp hbefore with hbefore | hbefore
        · exact havoids before (by rwa [List.dropLast_concat])
        · cases List.mem_singleton.mp hbefore
          exact traversed
    · exact ih hold hentry (Nat.le_succ_of_le hmore) path

/-! ## What is found -/

/-- What is recorded and not on the stack is traversed: its successors are recorded. -/
structure Searched (g : Graph ν) (root : ν) (conduit : Option ν) (parent : Record ν)
    (frontier : List ν) : Prop where
  forest : Forest g root conduit parent
  recorded : ∀ node ∈ frontier, node ∈ parent.map (·.1)
  traversed : ∀ node ∈ parent.map (·.1), node ∉ frontier →
    conduit = some node ∨ ∀ dep, Edge g node dep → dep ∈ parent.map (·.1)

theorem discover_spec {current : ν} (htraversed : conduit ≠ some current) {deps : List ν}
    (hedges : ∀ dep ∈ deps, Edge g current dep) {frontier : List ν}
    (hforest : Forest g root conduit parent) (hcurrent : current ∈ parent.map (·.1))
    (hrecorded : ∀ node ∈ frontier, node ∈ parent.map (·.1)) :
    Forest g root conduit (discover current deps parent frontier).1 ∧
      parent ⊆ (discover current deps parent frontier).1 ∧
      (∀ dep ∈ deps, dep ∈ (discover current deps parent frontier).1.map (·.1)) ∧
      (∀ node ∈ (discover current deps parent frontier).2,
        node ∈ (discover current deps parent frontier).1.map (·.1)) ∧
      frontier ⊆ (discover current deps parent frontier).2 ∧
      ∀ node ∈ (discover current deps parent frontier).1.map (·.1),
        node ∈ parent.map (·.1) ∨ node ∈ (discover current deps parent frontier).2 := by
  induction deps generalizing parent frontier with
  | nil => exact ⟨hforest, fun _ h => h, by simp, hrecorded, fun _ h => h, fun _ h => .inl h⟩
  | cons dep deps ih =>
    have hedges' : ∀ dep ∈ deps, Edge g current dep := fun dep h =>
      hedges dep (List.mem_cons_of_mem _ h)
    rw [discover]
    split_ifs with hfound
    · obtain ⟨hforest', hsub, hdeps, hrest⟩ := ih hedges' hforest hcurrent hrecorded
      refine ⟨hforest', hsub, ?_, hrest⟩
      intro node hnode
      rcases List.mem_cons.mp hnode with rfl | hnode
      · exact List.map_subset _ hsub (found_iff.mp hfound)
      · exact hdeps node hnode
    · have hfresh : dep ∉ parent.map (·.1) := fun h => hfound (found_iff.mpr h)
      have hgrown : Forest g root conduit ((dep, some current) :: parent) :=
        .grow hforest hcurrent htraversed (hedges dep List.mem_cons_self) hfresh
      have hrecorded' : ∀ node ∈ dep :: frontier, node ∈ ((dep, some current) :: parent).map
        (·.1) := by
        intro node hnode
        rcases List.mem_cons.mp hnode with rfl | hnode
        · exact List.mem_cons_self
        · exact List.mem_cons_of_mem _ (hrecorded node hnode)
      obtain ⟨hforest', hsub, hdeps, hmem, hfrontier, hnew⟩ :=
        ih hedges' hgrown (List.mem_cons_of_mem _ hcurrent) hrecorded'
      refine ⟨hforest', fun entry h => hsub (List.mem_cons_of_mem _ h), ?_, hmem,
        fun node h => hfrontier (List.mem_cons_of_mem _ h), ?_⟩
      · intro node hnode
        rcases List.mem_cons.mp hnode with rfl | hnode
        · exact List.map_subset _ hsub List.mem_cons_self
        · exact hdeps node hnode
      · intro node hnode
        rcases hnew node hnode with hold | hpushed
        · rcases List.mem_cons.mp hold with rfl | hold
          · exact .inr (hfrontier List.mem_cons_self)
          · exact .inl hold
        · exact .inr hpushed

/-- Popping a node that needs no traversal. -/
theorem Searched.skip {current : ν} {frontier : List ν}
    (h : Searched g root conduit parent (current :: frontier))
    (hdone : conduit = some current ∨ ∀ dep, Edge g current dep → dep ∈ parent.map (·.1)) :
    Searched g root conduit parent frontier := by
  refine ⟨h.forest, fun node hnode => h.recorded node (List.mem_cons_of_mem _ hnode),
    fun node hnode hout => ?_⟩
  by_cases heq : node = current
  · rw [heq]
    exact hdone
  · exact h.traversed node hnode fun hmem => (List.mem_cons.mp hmem).elim heq hout

theorem Searched.traverse {current : ν} {frontier deps : List ν}
    (h : Searched g root conduit parent (current :: frontier)) (htraversed : conduit ≠ some current)
    (hdeps : g.next current = some deps) :
    Searched g root conduit (discover current deps parent frontier).1
      (discover current deps parent frontier).2 := by
  obtain ⟨hforest, hsub, hall, hmem, hfrontier, hnew⟩ := discover_spec htraversed
    (fun dep hdep => ⟨deps, hdeps, hdep⟩) h.forest (h.recorded current List.mem_cons_self)
    (fun node hnode => h.recorded node (List.mem_cons_of_mem _ hnode))
  refine ⟨hforest, hmem, fun node hnode hout => ?_⟩
  by_cases heq : node = current
  · right
    rintro dep ⟨others, hothers, hdep⟩
    rw [heq, hdeps] at hothers
    cases hothers
    exact hall dep hdep
  · have hold : node ∈ parent.map (·.1) := (hnew node hnode).resolve_right hout
    have hrest : node ∉ current :: frontier := fun hmem => (List.mem_cons.mp hmem).elim heq fun h =>
      hout (hfrontier h)
    exact (h.traversed node hold hrest).imp_right fun hedges dep hdep =>
      List.map_subset _ hsub (hedges dep hdep)

theorem Searched.search {frontier : List ν} (h : Searched g root conduit parent frontier) :
    Searched g root conduit (search g conduit parent frontier) [] := by
  induction parent, frontier using Search.search.induct g conduit with
  | case1 parent => rwa [Search.search]
  | case2 parent current frontier hconduit ih =>
    rw [Search.search, if_pos hconduit]
    exact ih (h.skip (.inl hconduit))
  | case3 parent current frontier hconduit hnone ih =>
    rw [Search.search, if_neg hconduit]
    split
    · refine ih (h.skip (.inr ?_))
      rintro dep ⟨deps, hdeps, -⟩
      rw [hnone] at hdeps
      cases hdeps
    · next deps hdeps =>
      rw [hnone] at hdeps
      cases hdeps
  | case4 parent current frontier hconduit deps hdeps _ ih =>
    rw [Search.search, if_neg hconduit]
    split
    · next hnone =>
      rw [hdeps] at hnone
      cases hnone
    · next deps' hdeps' =>
      rw [hdeps] at hdeps'
      cases hdeps'
      exact ih (h.traverse hconduit hdeps)

variable (g root conduit) in
theorem searched_root :
    Searched g root conduit (Search.search g conduit [(root, none)] [root]) [] := by
  refine Searched.search ⟨.root, by simp, ?_⟩
  intro node hnode hout
  cases List.mem_singleton.mp hnode
  exact absurd List.mem_cons_self hout

/-- **What is found**: the nodes a path leads to that does not go on from the node left alone. -/
theorem mem_search {node : ν} : node ∈ (Search.search g conduit [(root, none)] [root]).map (·.1) ↔
    ∃ path, Path g path root node ∧ Avoids conduit path := by
  have h := searched_root g root conduit
  constructor
  · intro hnode
    obtain ⟨⟨_, origin⟩, hentry, rfl⟩ := List.mem_map.mp hnode
    obtain ⟨trail, -, hpath, havoids⟩ := climb_spec h.forest
      (fun _ _ hmem => foundFrom_of_mem h.forest.nodup hmem) hentry le_rfl []
    exact ⟨_, hpath, havoids⟩
  · rintro ⟨path, hpath, havoids⟩
    induction path using List.reverseRecOn generalizing node with
    | nil => cases hpath.head
    | append_singleton path last ih =>
      have hlast : last = node := by simpa using hpath.last
      subst hlast
      rcases List.eq_nil_or_concat path with rfl | ⟨init, before, rfl⟩
      · have hroot : last = root := by simpa using hpath.head
        rw [hroot]
        exact h.forest.root_mem
      · rw [List.concat_eq_append] at hpath havoids ih
        obtain ⟨hedges, -, hlink⟩ := List.isChain_append.mp hpath.edges
        have hinit : Path g (init ++ [before]) root before := by
          refine ⟨?_, by simp, hedges⟩
          have hhead := hpath.head
          rwa [List.head?_append_of_ne_nil _ (by simp)] at hhead
        have hmem : before ∈ init ++ [before] := by simp
        have hbefore := ih hinit fun node hnode => havoids node (by
          rw [List.dropLast_concat]
          exact List.dropLast_subset _ hnode)
        have hedge : Edge g before last := hlink before (by simp) last (by simp)
        refine (h.traversed before hbefore (by simp)).resolve_left ?_ last hedge
        exact havoids before (by rwa [List.dropLast_concat])

end

end Search
