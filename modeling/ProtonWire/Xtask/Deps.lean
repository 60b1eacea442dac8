import ProtonWire.Lib.Search

/-!
# The boundary gate

`src/xtask/src/deps.rs`: the rules on the resolved dependency graph. The client-side packages may
reach no deep crate, and the frontends reach `protonwire-ipc` through `protonwire-client` alone.

* `closureRoutes`, `transitiveForbiddenEdges`: the search, and the rules;
* `closureRoutes_spec`: the routes are those of the search, and there is no gap in the record;
* **`gate_sees_every_bypass`**: the search and the gate are sound and complete.
-/

namespace ProtonWire.Deps

open Search (Graph Record Path Avoids search climb found foundFrom)

/-- The dependencies of each package, by its name. -/
abbrev Adjacency := List (String × List String)

/-- The dependencies of a package that is in the graph. -/
def dependencies (adjacency : Adjacency) (package : String) : Option (List String) :=
  (adjacency.find? fun node => node.1 = package).map (·.2)

/-- The graph of the packages; those that are only named have no dependencies. -/
def graph (adjacency : Adjacency) : Graph String where
  next := dependencies adjacency
  nodes := adjacency.flatMap (·.2)
  closed package deps h dep hdep := by
    obtain ⟨node, hnode, rfl⟩ := Option.map_eq_some_iff.mp h
    exact List.mem_flatMap.mpr ⟨node, List.mem_of_find?_eq_some hnode, hdep⟩

/-! ## The source -/

def clientSide : List String := ["protonwire-cli", "protonwire-tui", "protonwire-gui",
    "protonwire-client"]

def frontendApps : List String := ["protonwire-cli", "protonwire-tui", "protonwire-gui"]

def deepDeps : List String :=
  ["protonwire-core", "protonwire-net", "protonwire-store", "protonwire-protocol", "protonwire-api",
    "protonwire-policy", "protonwire-pf", "protun", "muon"]

/-- The route to a package: back from it to the root, reversed. Nothing when the record has no entry
for a package it names. -/
def route (parent : Record String) (node : String × Option String) : Option (List String) :=
  climb parent parent.length node.2 [node.1]

/-- The packages reached from the root, with the route to each. The dependencies of the conduit are
not traversed. -/
def closureRoutes (adjacency : Adjacency) (root : String) (conduit : Option String) :
    Option (List (String × List String)) :=
  let parent := search (graph adjacency) conduit [(root, none)] [root]
  parent.mapM fun node => (route parent node).map fun path => (node.1, path)

/-- The route to a package that is reached. -/
def routeTo (routes : List (String × List String)) (node : String) : Option (List String) :=
  (routes.find? fun entry => entry.1 = node).map (·.2)

/-- The text for a package that is missing. -/
def missingText (root : String) : String :=
  root ++ ": client-side package is missing from the resolve graph"

/-- The text for a route to a deep crate. -/
def deepText (root dep : String) (path : List String) : String :=
  root ++ ": resolved route " ++ String.intercalate " -> " path ++ " reaches deep crate `" ++ dep ++
    "` transitively — frontends reach the service only through protonwire-client (T-23)"

/-- The text for a route around the client. -/
def bypassText (root : String) (path : List String) : String :=
  root ++ ": resolved route " ++ String.intercalate " -> " path ++
    " reaches protonwire-ipc WITHOUT passing through protonwire-client — frontends talk to the daemon only " ++
    "through the SDK (T-23, round-2 finding 8)"

/-- What is wrong with a client-side package: it is missing, or it reaches deep crates. -/
def clientViolations (adjacency : Adjacency) (root : String) : Option (List String) :=
  if (dependencies adjacency root).isNone then some [missingText root]
  else do
    let routes ← closureRoutes adjacency root none
    some ((deepDeps.mergeSort
      (· ≤ ·)).filterMap fun dep => (routeTo routes dep).map (deepText root dep))

/-- What is wrong with a frontend: it reaches `protonwire-ipc` around the client. -/
def frontendViolations (adjacency : Adjacency) (root : String) : Option (List String) :=
  if (dependencies adjacency root).isNone then some []
  else do
    let routes ← closureRoutes adjacency root (some "protonwire-client")
    some ((routeTo routes "protonwire-ipc").map (bypassText root)).toList

/-- The violations of the transitive rules. -/
def transitiveForbiddenEdges (adjacency : Adjacency) : Option (List String) := do
  let client ← clientSide.mapM (clientViolations adjacency)
  let frontend ← frontendApps.mapM (frontendViolations adjacency)
  some (client.flatten ++ frontend.flatten)

/-! ## The routes -/

section
variable {adjacency : Adjacency} {root : String} {conduit : Option String}

/-- A path from one package to another that does not go on from the conduit. -/
def Route (adjacency : Adjacency) (conduit : Option String) (path : List String)
    (root node : String) : Prop :=
  Path (graph adjacency) path root node ∧ Avoids conduit path

theorem mapM_eq_some {α β : Type} {f : α → Option β} {P : α → β → Prop} (xs : List α)
    (h : ∀ x ∈ xs, ∃ y, f x = some y ∧ P x y) :
    ∃ ys, xs.mapM f = some ys ∧ List.Forall₂ P xs ys := by
  induction xs with
  | nil => exact ⟨[], rfl, .nil⟩
  | cons x xs ih =>
    obtain ⟨y, hy, hP⟩ := h x List.mem_cons_self
    obtain ⟨ys, hys, hall⟩ := ih fun x hx => h x (List.mem_cons_of_mem _ hx)
    exact ⟨y :: ys, by rw [List.mapM_cons, hy, hys]; rfl, .cons hP hall⟩

theorem exists_of_mem_right {α β : Type} {P : α → β → Prop} {xs : List α} {ys : List β}
    (h : List.Forall₂ P xs ys) :
    ∀ y ∈ ys, ∃ x ∈ xs, P x y := by
  induction h with
  | nil => simp
  | cons hP _ ih =>
    intro y hy
    rcases List.mem_cons.mp hy with rfl | hy
    · exact ⟨_, List.mem_cons_self, hP⟩
    · obtain ⟨x, hx, hP⟩ := ih y hy
      exact ⟨x, List.mem_cons_of_mem _ hx, hP⟩

theorem exists_of_mem_left {α β : Type} {P : α → β → Prop} {xs : List α} {ys : List β}
    (h : List.Forall₂ P xs ys) :
    ∀ x ∈ xs, ∃ y ∈ ys, P x y :=
  exists_of_mem_right h.flip

/-- **The routes**: one for each package that is reached, and each a path that does not go on from
the conduit. -/
theorem closureRoutes_spec (adjacency : Adjacency) (root : String) (conduit : Option String) :
    ∃ routes, closureRoutes adjacency root conduit = some routes ∧
      (∀ node, node ∈ routes.map (·.1) ↔ ∃ path, Route adjacency conduit path root node) ∧
      ∀ entry ∈ routes, Route adjacency conduit entry.2 root entry.1 := by
  have hsearched := Search.searched_root (graph adjacency) root conduit
  have hroute : ∀ node ∈ search (graph adjacency) conduit [(root, none)] [root],
      ∃ entry, ((route (search (graph adjacency) conduit [(root, none)] [root]) node).map
        fun path => (node.1, path)) =
        some entry ∧ entry.1 = node.1 ∧ Route adjacency conduit entry.2 root entry.1 := by
    intro node hnode
    obtain ⟨trail, hclimb, hpath⟩ := Search.climb_spec hsearched.forest
      (fun _ _ hmem => Search.foundFrom_of_mem hsearched.forest.nodup hmem) hnode le_rfl [node.1]
    exact ⟨(node.1, trail ++ [node.1]), by rw [route, hclimb]; rfl, rfl, hpath⟩
  obtain ⟨routes, hroutes, hall⟩ := mapM_eq_some _ hroute
  refine ⟨routes, hroutes, fun node => ?_, fun entry hentry => ?_⟩
  · refine Iff.trans ?_ Search.mem_search
    rw [List.mem_map, List.mem_map]
    constructor
    · rintro ⟨entry, hentry, rfl⟩
      obtain ⟨found, hfound, hkey, -⟩ := exists_of_mem_right hall entry hentry
      exact ⟨found, hfound, hkey.symm⟩
    · rintro ⟨found, hfound, rfl⟩
      obtain ⟨entry, hentry, hkey, -⟩ := exists_of_mem_left hall found hfound
      exact ⟨entry, hentry, hkey⟩
  · obtain ⟨-, -, -, hpath⟩ := exists_of_mem_right hall entry hentry
    exact hpath

theorem routeTo_eq_none {routes : List (String × List String)} {node : String} :
    routeTo routes node = none ↔ node ∉ routes.map (·.1) := by
  rw [routeTo, Option.map_eq_none_iff, List.find?_eq_none, List.mem_map]
  push Not
  exact forall₂_congr fun entry _ => not_congr decide_eq_true_iff

theorem exists_closureRoutes (adjacency : Adjacency) (root : String) (conduit : Option String) :
    ∃ routes, closureRoutes adjacency root conduit = some routes ∧
      ∀ node, routeTo routes node = none ↔ ∀ path, ¬ Route adjacency conduit path root node := by
  obtain ⟨routes, hroutes, hkeys, -⟩ := closureRoutes_spec adjacency root conduit
  refine ⟨routes, hroutes, fun node => ?_⟩
  rw [routeTo_eq_none, hkeys, not_exists]

/-! ## The rules -/

/-- The package has an entry of its own in the graph. -/
def Present (adjacency : Adjacency) (package : String) : Prop :=
  (dependencies adjacency package).isSome = true

/-- A package that reaches no deep crate. -/
def NoDeep (adjacency : Adjacency) (root : String) : Prop :=
  ∀ dep ∈ deepDeps, ∀ path, ¬ Path (graph adjacency) path root dep

/-- A package whose every path to `protonwire-ipc` goes through the client. -/
def ThroughClient (adjacency : Adjacency) (root : String) : Prop :=
  ∀ path, Path (graph adjacency) path root "protonwire-ipc" → "protonwire-client" ∈ path

theorem route_none {path : List String} {node : String} :
    Route adjacency none path root node ↔ Path (graph adjacency) path root node :=
  and_iff_left fun _ _ h => by cases h

/-- A path to `protonwire-ipc` that goes on from the client is one through the client. -/
theorem route_client_iff {path : List String} :
    Route adjacency (some "protonwire-client") path root "protonwire-ipc" ↔
    Path (graph adjacency) path root "protonwire-ipc" ∧ "protonwire-client" ∉ path := by
  refine and_congr_right fun hpath => ?_
  have hsplit : path = path.dropLast ++ ["protonwire-ipc"] :=
    (List.dropLast_append_getLast? _ hpath.last).symm
  constructor
  · intro havoids hmem
    rw [hsplit] at hmem
    rcases List.mem_append.mp hmem with hmem | hmem
    · exact havoids _ hmem rfl
    · exact absurd (List.mem_singleton.mp hmem) (by decide)
  · rintro hmem node hnode heq
    cases heq
    exact hmem (List.dropLast_subset _ hnode)

theorem clientViolations_spec (adjacency : Adjacency) (root : String) : ∃ violations,
    clientViolations adjacency root = some violations ∧
      (violations = [] ↔ Present adjacency root ∧ NoDeep adjacency root) := by
  rw [clientViolations, Present]
  cases hdeps : dependencies adjacency root with
  | none => exact ⟨_, rfl, by simp⟩
  | some deps =>
    obtain ⟨routes, hroutes, hnone⟩ := exists_closureRoutes adjacency root none
    refine ⟨_, by rw [hroutes]; rfl, ?_⟩
    rw [List.filterMap_eq_nil_iff]
    simp only [List.mem_mergeSort, Option.map_eq_none_iff, hnone, route_none, Option.isSome_some,
      true_and]
    rfl

theorem frontendViolations_spec (adjacency : Adjacency) (root : String) : ∃ violations,
    frontendViolations adjacency root = some violations ∧
      (violations = [] ↔ (Present adjacency root → ThroughClient adjacency root)) := by
  rw [frontendViolations, Present]
  cases hdeps : dependencies adjacency root with
  | none => exact ⟨_, rfl, by simp⟩
  | some deps =>
    obtain ⟨routes, hroutes, hnone⟩ := exists_closureRoutes adjacency root
      (some "protonwire-client")
    refine ⟨_, by rw [hroutes]; rfl, ?_⟩
    rw [Option.toList_eq_nil_iff, Option.map_eq_none_iff, hnone]
    simp only [route_client_iff, Option.isSome_some, forall_const, ThroughClient]
    push Not
    rfl

theorem flatten_eq_nil_iff {P : String → List String → Prop} {roots : List String}
    {violations : List (List String)} (h : List.Forall₂ P roots violations) (Q : String → Prop)
    (hP : ∀ root found, P root found → (found = [] ↔ Q root)) :
    violations.flatten = [] ↔ ∀ root ∈ roots, Q root := by
  induction h with
  | nil => simp
  | cons hhead _ ih => simp [ih, hP _ _ hhead]

/-- **The boundary gate sees every bypass.** The search ends with the packages that a path leads to
which does not go on from the conduit, each with such a path. The gate reports nothing exactly when
every client-side package is present, none reaches a deep crate, and every path from a frontend to
`protonwire-ipc` goes through the client. -/
theorem gate_sees_every_bypass (adjacency : Adjacency) :
    (∀ root conduit, ∃ routes, closureRoutes adjacency root conduit = some routes ∧
      (∀ node, node ∈ routes.map (·.1) ↔ ∃ path, Route adjacency conduit path root node) ∧
      ∀ entry ∈ routes, Route adjacency conduit entry.2 root entry.1) ∧
    ∃ violations, transitiveForbiddenEdges adjacency = some violations ∧
      (violations = [] ↔ (∀ root ∈ clientSide, Present adjacency root ∧ NoDeep adjacency root) ∧
        ∀ root ∈ frontendApps, ThroughClient adjacency root) := by
  refine ⟨closureRoutes_spec adjacency, ?_⟩
  obtain ⟨client, hclient, hclientAll⟩ := mapM_eq_some clientSide
    fun root _ => clientViolations_spec adjacency root
  obtain ⟨frontend, hfrontend, hfrontendAll⟩ := mapM_eq_some frontendApps
    fun root _ => frontendViolations_spec adjacency root
  refine ⟨client.flatten ++ frontend.flatten, by
    rw [transitiveForbiddenEdges, hclient, hfrontend]; rfl, ?_⟩
  rw [List.append_eq_nil_iff, flatten_eq_nil_iff hclientAll _ fun _ _ h => h,
    flatten_eq_nil_iff hfrontendAll _ fun _ _ h => h]
  have hsub : ∀ root ∈ frontendApps, root ∈ clientSide := by decide
  constructor
  · rintro ⟨hall, hthrough⟩
    exact ⟨hall, fun root hroot => hthrough root hroot (hall root (hsub root hroot)).1⟩
  · rintro ⟨hall, hthrough⟩
    exact ⟨hall, fun root hroot _ => hthrough root hroot⟩

end

end ProtonWire.Deps
