import Mathlib

/-!
# Path resolution

A path is resolved piece by piece over inodes: directories with their entries, files, and links with
a target of their own. A link that is passed puts its target before the rest of the path; so many
links may be followed.

* `Tree`, `walk`: the inodes, and a resolution with what it passed and followed;
* `Descends`: a path that leads from an inode to another and follows no link;
* **`Descends.step`**: a resolution along such a path; `descends_of_step`: a resolution that follows
  no link is one;
* `walk_trailing`, `isDir_of_trailing`: a path that ends in a separator.
-/

namespace PathWalk

/-- What stands between two separators of a path. -/
inductive Piece (ν : Type*) where
  /-- Nothing, or a dot. -/
  | here
  /-- Two dots. -/
  | up
  | name (n : ν)
  deriving DecidableEq

/-- Where a link leads. -/
structure Target (ν : Type*) where
  absolute : Bool
  pieces : List (Piece ν)

/-- What an inode is. -/
inductive Node (ι ν : Type*) where
  | file
  | directory (entries : ν → Option ι) (parent : ι)
  | link (target : Target ν)
  | special

/-- Inodes under a root. -/
structure Tree (ι ν : Type*) where
  root : ι
  node : ι → Node ι ν

/-- How a resolution fails. -/
inductive Errno where
  | notFound
  | notDirectory
  | tooManyLinks
  deriving DecidableEq

/-- A resolution: the inodes of the names it passed, the links it followed, and where it ended. -/
structure Walk (ι : Type*) where
  passed : List ι
  links : List ι
  outcome : Except Errno ι

variable {ι ν : Type*}

/-- A resolution behind the names of these inodes. -/
def Walk.after (js : List ι) (w : Walk ι) : Walk ι := { w with passed := js ++ w.passed }

/-- A resolution behind a link. -/
def Walk.follow (j : ι) (w : Walk ι) : Walk ι :=
  { w with passed := j :: w.passed, links := j :: w.links }

namespace Tree

variable (T : Tree ι ν)

/-- Resolve the pieces from an inode; `jump` resolves what a link makes of the rest. A link at the
end is followed when `follow` says so. -/
def step (jump : ι → List (Piece ν) → Walk ι) (follow : Bool) : ι → List (Piece ν) → Walk ι
  | i, [] => ⟨[], [], .ok i⟩
  | i, piece :: rest =>
    match T.node i with
    | .directory entries parent =>
      match piece with
      | .here => step jump follow i rest
      | .up => step jump follow parent rest
      | .name n =>
        match entries n with
        | none => ⟨[], [], .error .notFound⟩
        | some j =>
          match T.node j with
          | .link target =>
            if rest.isEmpty && !follow then ⟨[j], [], .ok j⟩
            else (jump (if target.absolute then T.root else i) (target.pieces ++ rest)).follow j
          | _ => (step jump follow j rest).after [j]
    | _ => ⟨[], [], .error .notDirectory⟩

/-- A resolution over at most so many links. -/
def walk (follow : Bool) : ℕ → ι → List (Piece ν) → Walk ι
  | 0 => T.step (fun _ _ => ⟨[], [], .error .tooManyLinks⟩) follow
  | links + 1 => T.step (walk follow links) follow

/-! ## One piece -/

def IsDir (i : ι) : Prop := ∃ entries parent, T.node i = .directory entries parent

def IsLink (i : ι) : Prop := ∃ target, T.node i = .link target

/-- The entry of a name in a directory. -/
def lookup (i : ι) (n : ν) : Option ι :=
  match T.node i with
  | .directory entries _ => entries n
  | _ => none

variable {T} {jump : ι → List (Piece ν) → Walk ι} {follow : Bool} {i j k : ι} {n : ν}
    {piece : Piece ν}
  {ps qs rest : List (Piece ν)} {js : List ι}

theorem isDir_of_lookup (h : T.lookup i n = some j) : T.IsDir i := by
  unfold lookup at h
  split at h
  · next entries parent hnode => exact ⟨entries, parent, hnode⟩
  · cases h

theorem not_isLink_of_isDir (h : T.IsDir i) : ¬ T.IsLink i := by
  rintro ⟨target, hlink⟩
  obtain ⟨entries, parent, hdir⟩ := h
  rw [hdir] at hlink
  cases hlink

theorem step_nil (i : ι) : T.step jump follow i [] = ⟨[], [], .ok i⟩ := by
  rw [step]

theorem step_of_not_isDir (h : ¬ T.IsDir i) :
    T.step jump follow i (piece :: rest) = ⟨[], [], .error .notDirectory⟩ := by
  rw [step.eq_def]
  dsimp only
  split
  · next entries parent hnode => exact absurd ⟨entries, parent, hnode⟩ h
  · rfl

theorem step_here (h : T.IsDir i) :
    T.step jump follow i (.here :: rest) = T.step jump follow i rest := by
  obtain ⟨entries, parent, hnode⟩ := h
  rw [step]
  dsimp only
  rw [hnode]

theorem step_none (h : T.IsDir i) (hlookup : T.lookup i n = none) :
    T.step jump follow i (.name n :: rest) = ⟨[], [], .error .notFound⟩ := by
  obtain ⟨entries, parent, hnode⟩ := h
  rw [lookup, hnode] at hlookup
  dsimp only at hlookup
  rw [step]
  dsimp only
  rw [hnode]
  dsimp only
  rw [hlookup]

theorem step_name (h : T.lookup i n = some j) (hlink : ¬ T.IsLink j) :
    T.step jump follow i (.name n :: rest) = (T.step jump follow j rest).after [j] := by
  obtain ⟨entries, parent, hnode⟩ := isDir_of_lookup h
  rw [lookup, hnode] at h
  dsimp only at h
  rw [step.eq_def]
  dsimp only
  rw [hnode]
  dsimp only
  rw [h]
  dsimp only
  split
  · next target hj => exact absurd ⟨target, hj⟩ hlink
  · rfl

/-- A link at the end that is not followed. -/
theorem step_last (h : T.lookup i n = some j) :
    T.step jump false i [.name n] = ⟨[j], [], .ok j⟩ := by
  by_cases hlink : T.IsLink j
  · obtain ⟨entries, parent, hnode⟩ := isDir_of_lookup h
    obtain ⟨target, hj⟩ := hlink
    rw [lookup, hnode] at h
    dsimp only at h
    rw [step]
    dsimp only
    rw [hnode]
    dsimp only
    rw [h]
    dsimp only
    rw [hj]
    rfl
  · rw [step_name h hlink, step_nil]
    rfl

theorem step_link {target : Target ν} (h : T.lookup i n = some j) (hlink : T.node j = .link target)
    (hfollow : rest ≠ [] ∨ follow = true) : T.step jump follow i (.name n :: rest) =
    (jump (if target.absolute then T.root else i) (target.pieces ++ rest)).follow j := by
  obtain ⟨entries, parent, hnode⟩ := isDir_of_lookup h
  rw [lookup, hnode] at h
  dsimp only at h
  rw [step]
  dsimp only
  rw [hnode]
  dsimp only
  rw [h]
  dsimp only
  rw [hlink]
  dsimp only
  refine if_neg ?_
  cases rest with
  | nil => simp [hfollow.resolve_left (fun hne => hne rfl)]
  | cons piece rest => simp

/-! ## Paths that follow no link -/

/-- The path leads from the first inode to the last over the names of these inodes, and follows no
link. -/
inductive Descends (T : Tree ι ν) : ι → List (Piece ν) → List ι → ι → Prop where
  | nil (i : ι) : Descends T i [] [] i
  | here {i k : ι} {ps : List (Piece ν)} {js : List ι} (dir : T.IsDir i)
    (rest : Descends T i ps js k) :
      Descends T i (.here :: ps) js k
  | name {i j k : ι} {n : ν} {ps : List (Piece ν)} {js : List ι} (entry : T.lookup i n = some j)
      (noLink : ¬ T.IsLink j) (rest : Descends T j ps js k) :
      Descends T i (.name n :: ps) (j :: js) k

theorem Descends.append {ks : List ι} {l : ι} (h : T.Descends i ps js k)
    (h' : T.Descends k qs ks l) :
    T.Descends i (ps ++ qs) (js ++ ks) l := by
  induction h with
  | nil => exact h'
  | here dir _ ih => exact .here dir (ih h')
  | name entry noLink _ ih => exact .name entry noLink (ih h')

theorem Descends.split (h : T.Descends i (ps ++ qs) js k) :
    ∃ js₁ js₂ m, T.Descends i ps js₁ m ∧ T.Descends m qs js₂ k ∧ js = js₁ ++ js₂ := by
  induction ps generalizing i js with
  | nil => exact ⟨[], js, i, .nil i, h, rfl⟩
  | cons piece ps ih =>
    cases h with
    | here dir rest =>
      obtain ⟨js₁, js₂, m, hfirst, hlast, heq⟩ := ih rest
      exact ⟨js₁, js₂, m, .here dir hfirst, hlast, heq⟩
    | @name _ j _ n _ js entry noLink rest =>
      obtain ⟨js₁, js₂, m, hfirst, hlast, heq⟩ := ih rest
      exact ⟨j :: js₁, js₂, m, .name entry noLink hfirst, hlast, by rw [heq, List.cons_append]⟩

/-- **A resolution along a path that follows no link.** -/
theorem Descends.step (h : T.Descends i ps js k) (jump : ι → List (Piece ν) → Walk ι)
    (follow : Bool) (qs : List (Piece ν)) :
    T.step jump follow i (ps ++ qs) = (T.step jump follow k qs).after js := by
  induction h with
  | nil => rfl
  | here dir _ ih => rw [List.cons_append, step_here dir, ih]
  | name entry noLink _ ih =>
    rw [List.cons_append, step_name entry noLink, ih]
    rfl

/-- **A resolution that follows no link and arrives descends.** -/
theorem descends_of_step (hup : .up ∉ ps) (hlinks : (T.step jump true i ps).links = [])
    (hok : (T.step jump true i ps).outcome = .ok k) :
    T.Descends i ps (T.step jump true i ps).passed k := by
  induction ps generalizing i with
  | nil =>
    rw [step_nil] at hok ⊢
    cases hok
    exact .nil _
  | cons piece rest ih =>
    by_cases hdir : T.IsDir i
    swap
    · rw [step_of_not_isDir hdir] at hok
      cases hok
    have hrest : Piece.up ∉ rest := fun hmem => hup (List.mem_cons_of_mem _ hmem)
    cases piece with
    | here =>
      rw [step_here hdir] at hlinks hok ⊢
      exact .here hdir (ih hrest hlinks hok)
    | up => exact absurd List.mem_cons_self hup
    | name n =>
      cases hlookup : T.lookup i n with
      | none =>
        rw [step_none hdir hlookup] at hok
        cases hok
      | some j =>
        by_cases hlink : T.IsLink j
        · obtain ⟨target, hlink⟩ := hlink
          rw [step_link hlookup hlink (.inr rfl)] at hlinks
          cases hlinks
        · rw [step_name hlookup hlink] at hlinks hok ⊢
          exact .name hlookup hlink (ih hrest hlinks hok)

/-- The names of a path. -/
def names (ps : List (Piece ν)) : List (Piece ν) := ps.filter fun
  | .here => false
  | _ => true

theorem Descends.length (h : T.Descends i ps js k) : js.length = (names ps).length := by
  induction h with
  | nil => rfl
  | here _ _ ih => exact ih
  | name _ _ _ ih => simpa [names] using ih

theorem Descends.isDir (h : T.Descends i ps js k) (hk : T.IsDir k) : T.IsDir i := by
  cases h with
  | nil => exact hk
  | here dir => exact dir
  | name entry => exact isDir_of_lookup entry

/-- Separators and dots between the names change nothing, where the path leads to a directory. -/
theorem descends_of_names (h : T.Descends i (names ps) js k) (hk : T.IsDir k) :
    T.Descends i ps js k := by
  induction ps generalizing i js with
  | nil => exact h
  | cons piece ps ih =>
    cases piece with
    | here => exact .here (h.isDir hk) (ih h)
    | up => cases h
    | name n =>
      cases h with
      | name entry noLink rest => exact .name entry noLink (ih rest)

/-! ## Paths that end in a separator -/

theorem step_trailing (jump : Bool → ι → List (Piece ν) → Walk ι)
    (hjump : ∀ i qs, jump false i (qs ++ [.here]) = jump true i (qs ++ [.here])) (i : ι)
    (qs : List (Piece ν)) :
    T.step (jump false) false i (qs ++ [.here]) = T.step (jump true) true i (qs ++ [.here]) := by
  induction qs generalizing i with
  | nil =>
    by_cases hdir : T.IsDir i
    · rw [List.nil_append, step_here hdir, step_here hdir, step_nil, step_nil]
    · rw [List.nil_append, step_of_not_isDir hdir, step_of_not_isDir hdir]
  | cons piece qs ih =>
    rw [List.cons_append]
    by_cases hdir : T.IsDir i
    swap
    · rw [step_of_not_isDir hdir, step_of_not_isDir hdir]
    cases piece with
    | here => rw [step_here hdir, step_here hdir, ih]
    | up =>
      obtain ⟨entries, parent, hnode⟩ := hdir
      simp only [step, hnode, ih]
    | name n =>
      cases hlookup : T.lookup i n with
      | none => rw [step_none hdir hlookup, step_none hdir hlookup]
      | some j =>
        by_cases hlink : T.IsLink j
        · obtain ⟨target, hlink⟩ := hlink
          rw [step_link hlookup hlink (.inl (by simp)),
            step_link hlookup hlink (.inl (by simp)), ← List.append_assoc,
            hjump]
        · rw [step_name hlookup hlink, step_name hlookup hlink, ih]

theorem walk_trailing (links : ℕ) (i : ι) (qs : List (Piece ν)) :
    T.walk false links i (qs ++ [.here]) = T.walk true links i (qs ++ [.here]) := by
  induction links generalizing i qs with
  | zero => exact step_trailing (fun _ _ _ => ⟨[], [], .error .tooManyLinks⟩) (fun _ _ => rfl) i qs
  | succ links ih => exact step_trailing (fun follow => T.walk follow links) ih i qs

theorem isDir_of_step_trailing (hjump : ∀ i qs, (jump i (qs ++ [.here])).outcome = .ok k →
    T.IsDir k)
    (h : (T.step jump follow i (qs ++ [.here])).outcome = .ok k) : T.IsDir k := by
  induction qs generalizing i with
  | nil =>
    by_cases hdir : T.IsDir i
    · rw [List.nil_append, step_here hdir, step_nil] at h
      cases h
      exact hdir
    · rw [List.nil_append, step_of_not_isDir hdir] at h
      cases h
  | cons piece qs ih =>
    rw [List.cons_append] at h
    by_cases hdir : T.IsDir i
    swap
    · rw [step_of_not_isDir hdir] at h
      cases h
    cases piece with
    | here =>
      rw [step_here hdir] at h
      exact ih h
    | up =>
      obtain ⟨entries, parent, hnode⟩ := hdir
      simp only [step, hnode] at h
      exact ih h
    | name n =>
      cases hlookup : T.lookup i n with
      | none =>
        rw [step_none hdir hlookup] at h
        cases h
      | some j =>
        by_cases hlink : T.IsLink j
        · obtain ⟨target, hlink⟩ := hlink
          rw [step_link hlookup hlink (.inl (by simp)), ← List.append_assoc] at h
          exact hjump _ _ h
        · rw [step_name hlookup hlink] at h
          exact ih h

theorem isDir_of_trailing {links : ℕ} (h : (T.walk follow links i (qs ++ [.here])).outcome =
    .ok k) : T.IsDir k := by
  induction links generalizing i qs with
  | zero => exact isDir_of_step_trailing (fun _ _ hjump => by cases hjump) h
  | succ links ih => exact isDir_of_step_trailing (fun _ _ hjump => ih hjump) h

/-- A resolution is one of its steps. -/
theorem walk_eq_step (T : Tree ι ν) (follow : Bool) (links : ℕ) :
    ∃ jump, T.walk follow links = T.step jump follow := by
  cases links with
  | zero => exact ⟨_, rfl⟩
  | succ links => exact ⟨_, rfl⟩

end Tree

end PathWalk
