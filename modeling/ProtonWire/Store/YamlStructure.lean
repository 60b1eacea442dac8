import ProtonWire.Store.Yaml

/-!
# The structural caps

`enforce_structure` of `crates/store/src/yaml.rs`: how deep a parsed document nests, and of how many
nodes it is.

* `Value`, `enforceStructure`: the walk, on an explicit stack;
* `Value.occurrences`, `WithinCaps`: the nodes of a document with the collections they lie in, and
  the caps;
* `walk_eq_ok_iff`: the walk judges what is on its stack, tagged contents apart;
* **`caps_exact_iff`**: the caps are exact where no tag hides what exceeds them;
* `tag_hides`: a document whose tag does.
-/

namespace ProtonWire

namespace Yaml

/-! ## The walk -/

/-- `MAX_YAML_DEPTH`. -/
def maxYamlDepth : ℕ := 32

/-- `MAX_YAML_NODES`. -/
def maxYamlNodes : ℕ := 100000

/-- `serde_norway::Value`, where what holds no other value is one. -/
inductive Value where
  | scalar
  | sequence (elements : List Value)
  | mapping (entries : List (Value × Value))
  | tagged (tag : String) (value : Value)

/-- The `YamlError`s of a structure. -/
inductive StructureError where
  | tooDeep (depth : ℕ)
  | tooManyNodes (nodes : ℕ)
  deriving DecidableEq

namespace Value

/-- A mapping or a sequence. -/
def isCollection : Value → Bool
  | sequence _ | mapping _ => true
  | _ => false

/-- What the arms of `enforce_structure` push, in order. -/
def pushed (childDepth : ℕ) : Value → List (Value × ℕ)
  | mapping entries => entries.flatMap fun e => [(e.1, childDepth), (e.2, childDepth)]
  | sequence elements => elements.map (·, childDepth)
  | _ => []

end Value

/-- The loop of `enforce_structure`. The head of the list is the top of the stack. -/
def walk (nodes : ℕ) : List (Value × ℕ) → Except StructureError Unit
  | [] => .ok ()
  | (node, depth) :: stack =>
    if maxYamlNodes < nodes + 1 then .error (.tooManyNodes (nodes + 1))
    else if node.isCollection ∧ maxYamlDepth < depth + 1 then .error (.tooDeep (depth + 1))
    else walk (nodes + 1) ((node.pushed (depth + 1)).reverse ++ stack)
termination_by maxYamlNodes - nodes

/-- `enforce_structure`. -/
def enforceStructure (value : Value) : Except StructureError Unit := walk 0 [(value, 0)]

/-! ## The nodes of a document -/

namespace Value

mutual

/-- The nodes of a value, each with the number of collections above it. `tags`: those inside tagged
values are counted. -/
def occurrences (tags : Bool) (depth : ℕ) : Value → List (Value × ℕ)
  | scalar => [(scalar, depth)]
  | sequence elements => (sequence elements, depth) :: inElements tags (depth + 1) elements
  | mapping entries => (mapping entries, depth) :: inEntries tags (depth + 1) entries
  | tagged tag value => (tagged tag value, depth) :: if tags then
    occurrences tags depth value else []

/-- The nodes of the elements of a sequence. -/
def inElements (tags : Bool) (depth : ℕ) : List Value → List (Value × ℕ)
  | [] => []
  | value :: elements => occurrences tags depth value ++ inElements tags depth elements

/-- The nodes of the keys and values of a mapping. -/
def inEntries (tags : Bool) (depth : ℕ) : List (Value × Value) → List (Value × ℕ)
  | [] => []
  | (key, value) :: entries =>
    occurrences tags depth key ++ occurrences tags depth value ++ inEntries tags depth entries

end

end Value

/-- The caps, after `nodes` other nodes. -/
def WithinCaps (nodes : ℕ) (occurrences : List (Value × ℕ)) : Prop :=
  nodes + occurrences.length ≤ maxYamlNodes ∧ ∀ o ∈ occurrences, o.1.isCollection = true →
  o.2 + 1 ≤ maxYamlDepth

instance (nodes : ℕ) (occurrences : List (Value × ℕ)) : Decidable (WithinCaps nodes occurrences) :=
  inferInstanceAs (Decidable (_ ∧ _))

theorem WithinCaps.perm {nodes : ℕ} {os os' : List (Value × ℕ)} (h : os.Perm os') :
    WithinCaps nodes os ↔ WithinCaps nodes os' := by
  rw [WithinCaps, WithinCaps, h.length_eq]
  exact and_congr_right fun _ => forall_congr' fun o => by rw [h.mem_iff]

theorem WithinCaps.sublist {nodes : ℕ} {os os' : List (Value × ℕ)} (h : os.Sublist os')
    (hos : WithinCaps nodes os') : WithinCaps nodes os :=
  ⟨(Nat.add_le_add_left h.length_le nodes).trans hos.1, fun o ho => hos.2 o (h.subset ho)⟩

theorem withinCaps_cons {nodes : ℕ} {value : Value} {depth : ℕ} {os : List (Value × ℕ)} :
    WithinCaps nodes ((value, depth) :: os) ↔
      (value.isCollection = true → depth + 1 ≤ maxYamlDepth) ∧ WithinCaps (nodes + 1) os := by
  simp only [WithinCaps, List.length_cons, List.forall_mem_cons]
  have hcount : nodes + (os.length + 1) = nodes + 1 + os.length := by omega
  rw [hcount]
  exact and_left_comm

/-! ## What the walk judges -/

/-- The nodes under what is on the stack, outside tagged values. -/
def onStack (stack : List (Value × ℕ)) : List (Value × ℕ) :=
  stack.flatMap fun p => p.1.occurrences false p.2

theorem onStack_cons (value : Value) (depth : ℕ) (stack : List (Value × ℕ)) :
    onStack ((value, depth) :: stack) = value.occurrences false depth ++ onStack stack :=
  List.flatMap_cons

theorem onStack_append (a b : List (Value × ℕ)) : onStack (a ++ b) = onStack a ++ onStack b :=
  List.flatMap_append

theorem onStack_reverse_perm (stack : List (Value × ℕ)) :
    (onStack stack.reverse).Perm (onStack stack) :=
  (List.reverse_perm stack).flatMap_right _

theorem onStack_elements (depth : ℕ) (elements : List Value) :
    onStack (elements.map (·, depth)) = Value.inElements false depth elements := by
  induction elements with
  | nil => rfl
  | cons value elements ih =>
    rw [Value.inElements, ← ih]
    rfl

theorem onStack_entries (depth : ℕ) (entries : List (Value × Value)) :
    onStack (entries.flatMap fun e => [(e.1, depth), (e.2, depth)]) =
    Value.inEntries false depth entries := by
  induction entries with
  | nil => rfl
  | cons e entries ih =>
    obtain ⟨key, value⟩ := e
    rw [Value.inEntries, ← ih, List.flatMap_cons, onStack_append]
    simp [onStack]

/-- The nodes of a value: itself, and those under what is pushed for it. -/
theorem occurrences_eq (value : Value) (depth : ℕ) :
    value.occurrences false depth = (value, depth) :: onStack (value.pushed (depth + 1)) := by
  cases value with
  | mapping entries => exact congrArg _ (onStack_entries (depth + 1) entries).symm
  | sequence elements => exact congrArg _ (onStack_elements (depth + 1) elements).symm
  | scalar | tagged tag value => rfl

/-- **The walk** succeeds exactly where what is on its stack keeps the caps. -/
theorem walk_eq_ok_iff {nodes : ℕ} {stack : List (Value × ℕ)} (hnodes : nodes ≤ maxYamlNodes) :
    walk nodes stack = .ok () ↔ WithinCaps nodes (onStack stack) := by
  induction nodes, stack using walk.induct with
  | case1 nodes =>
    rw [walk]
    simpa [WithinCaps, onStack] using hnodes
  | case2 nodes node depth stack hmany =>
    rw [walk, if_pos hmany, onStack_cons, occurrences_eq]
    -- the node itself is one too many
    refine iff_of_false (fun h => by cases h) fun h => ?_
    have := h.1
    simp only [List.cons_append, List.length_cons] at this
    omega
  | case3 nodes node depth stack hmany hdeep =>
    rw [walk, if_neg hmany, if_pos hdeep, onStack_cons, occurrences_eq, List.cons_append,
      withinCaps_cons]
    refine iff_of_false (fun h => by cases h) fun h => ?_
    have := h.1 hdeep.1
    omega
  | case4 nodes node depth stack hmany hdeep ih =>
    have hroom : node.isCollection = true → depth + 1 ≤ maxYamlDepth := fun hcollection =>
      Nat.le_of_not_lt fun hlt => hdeep ⟨hcollection, hlt⟩
    rw [walk, if_neg hmany, if_neg hdeep, ih (by omega), onStack_cons, occurrences_eq,
      List.cons_append,
      withinCaps_cons, and_iff_right hroom, onStack_append]
    exact WithinCaps.perm ((onStack_reverse_perm _).append_right _)

mutual

theorem occurrences_sublist (value : Value) (depth : ℕ) :
    (value.occurrences false depth).Sublist (value.occurrences true depth) := by
  cases value with
  | scalar => exact List.Sublist.refl _
  | sequence elements => exact (inElements_sublist elements (depth + 1)).cons_cons _
  | mapping entries => exact (inEntries_sublist entries (depth + 1)).cons_cons _
  | tagged tag value => exact (List.nil_sublist _).cons_cons _

theorem inElements_sublist (elements : List Value) (depth : ℕ) :
    (Value.inElements false depth elements).Sublist (Value.inElements true depth elements) := by
  cases elements with
  | nil => exact List.Sublist.refl _
  | cons value elements =>
    exact (occurrences_sublist value depth).append (inElements_sublist elements depth)

theorem inEntries_sublist (entries : List (Value × Value)) (depth : ℕ) :
    (Value.inEntries false depth entries).Sublist (Value.inEntries true depth entries) := by
  cases entries with
  | nil => exact List.Sublist.refl _
  | cons e entries =>
    obtain ⟨key, value⟩ := e
    exact ((occurrences_sublist key depth).append (occurrences_sublist value depth)).append
      (inEntries_sublist entries depth)

end

theorem enforceStructure_eq_ok_iff (value : Value) :
    enforceStructure value = .ok () ↔ WithinCaps 0 (value.occurrences false 0) := by
  rw [enforceStructure, walk_eq_ok_iff (Nat.zero_le _)]
  simp [onStack]

/-! ## Tags -/

/-- **The caps are exact** unless the document keeps them outside of its tagged values and breaks
one with their contents. -/
theorem caps_exact_iff (value : Value) :
    (enforceStructure value = .ok () ↔ WithinCaps 0 (value.occurrences true 0)) ↔
      ¬ (WithinCaps 0 (value.occurrences false 0) ∧ ¬ WithinCaps 0 (value.occurrences true 0)) := by
  rw [enforceStructure_eq_ok_iff]
  have hless : WithinCaps 0 (value.occurrences true 0) → WithinCaps 0 (value.occurrences false 0) :=
    WithinCaps.sublist (occurrences_sublist value 0)
  constructor
  · rintro h ⟨houtside, hinside⟩
    exact hinside (h.mp houtside)
  · intro h
    exact ⟨fun houtside => by_contra fun hinside => h ⟨houtside, hinside⟩, hless⟩

/-- Sequences in sequences. -/
def nested : ℕ → Value
  | 0 => .scalar
  | n + 1 => .sequence [nested n]

/-- `!t [[…]]`, 33 deep: the tag hides all of it. -/
theorem tag_hides :
    ¬ ∀ value : Value, enforceStructure value = .ok () ↔
    WithinCaps 0 (value.occurrences true 0) := by
  intro h
  have hok : enforceStructure (.tagged "!t" (nested 33)) = .ok () :=
    (enforceStructure_eq_ok_iff _).mpr (by decide)
  have hdeep : ¬ WithinCaps 0 ((Value.tagged "!t" (nested 33)).occurrences true 0) := by decide
  exact hdeep ((h _).mp hok)

end Yaml

end ProtonWire
