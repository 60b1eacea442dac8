import ProtonWire.Lib.Fallible
import ProtonWire.Lib.PathWalk

/-!
# The trust walk

`verify_trusted_path` of `crates/store/src/fs_trust.rs`: each component of a path, from its leaf up
to a trust root, is inspected with `lstat`.

* `Path`, `ancestors`, `componentChain`: paths, and the components that are walked;
* `FileTree`, `lstat`, `verifyTrustedPath`: a file system that stands still, and the walk over it;
* `Sound`, `Present`: what an accepted path is to be; `TrailingLink`: the paths where the walk
  misses a link;
* `verify_ok_iff`: what the walk accepts, over whatever the inspections returned;
* `chain_reached`, `chain_accepted`: the ancestors that pass, and the ones that must;
* **`verify_sound_iff`**: the walk is sound and complete, unless the path ends behind such a link.
-/

namespace ProtonWire.FsTrust

open PathWalk

/-! ## Paths -/

/-- A name in a directory. -/
abbrev Name := List UInt8

/-- A path: what stands between its separators. -/
structure Path where
  absolute : Bool
  pieces : List (Piece Name)
  deriving DecidableEq

/-- The bytes between two separators. -/
def piece : Name → Piece Name
  | [] => .here
  | [46] => .here
  | [46, 46] => .up
  | name => .name name

/-- A path as its bytes. -/
def Path.ofBytes (bytes : List UInt8) : Path :=
  ⟨bytes.head? == some 47, (bytes.splitOn 47).map piece⟩

/-- `Path::components`, for an absolute path: empty components, and dots, are no components. -/
def Path.components (path : Path) : List (Piece Name) := Tree.names path.pieces

/-- Pieces read from the end, without the separators and dots there. -/
def trim (pieces : List (Piece Name)) : List (Piece Name) :=
  pieces.dropWhile fun p => decide (p = .here)

/-- The parents of a path, its pieces read from the end: `Path::parent`, again and again. A parent
ends in a name. -/
def parents (absolute : Bool) : List (Piece Name) → List Path
  | [] => []
  | .here :: rest => parents absolute rest
  | _ :: rest => ⟨absolute, (trim rest).reverse⟩ :: parents absolute rest

/-- `Path::ancestors`: the path itself as it is, and its parents. -/
def Path.ancestors (path : Path) : List Path := path :: parents path.absolute path.pieces.reverse

/-- Of `/a/./b//`. -/
example : (Path.ofBytes [47, 97, 47, 46, 47, 98, 47, 47]).ancestors =
    [.ofBytes [47, 97, 47, 46, 47, 98, 47, 47], .ofBytes [47, 97], ⟨true, []⟩] := by decide

/-! ## Inspections -/

/-- How a component cannot be inspected. -/
inductive IoError where
  | errno (errno : Errno)
  /-- A path with a NUL byte is none for the kernel. -/
  | nulByte
  /-- Any other failure. -/
  | other
  deriving DecidableEq

inductive FileKind where
  | file
  | directory
  | symlink
  | special
  deriving DecidableEq

structure Metadata where
  kind : FileKind
  mode : UInt32
  uid : UInt32
  gid : UInt32

def ROOT_UID : UInt32 := 0

def ROOT_GID : UInt32 := 0

def WRITE_BEYOND_OWNER : UInt32 := 0o022

inductive MissingLeaf where
  | reject
  | allow
  deriving DecidableEq

inductive FsTrustError where
  | symlink (path : Path)
  | groupWorldWritable (path : Path) (mode : UInt32)
  | notRootOwned (path : Path) (uid gid : UInt32)
  | notARegularFile (path : Path)
  | notADirectory (path : Path)
  | notAbsolute (path : Path)
  | relativeComponent (path : Path)
  | notUnderTrustRoot (path trustRoot : Path)
  | io (path : Path) (source : IoError)

/-- The ancestors up to the trust root; paths are compared component by component. -/
def upTo (trustRoot : Path) : List Path → Option (List Path)
  | [] => none
  | ancestor :: rest =>
    if ancestor.absolute = trustRoot.absolute ∧ ancestor.components = trustRoot.components then
    some [ancestor]
    else (upTo trustRoot rest).map (ancestor :: ·)

/-- The components of a path from leaf to trust root. A dot is no component of an absolute path. -/
def componentChain (path trustRoot : Path) : Except FsTrustError (List Path) :=
  if path.absolute = false then .error (.notAbsolute path)
  else if trustRoot.absolute = false then .error (.notAbsolute trustRoot)
  else if .up ∈ path.components then .error (.relativeComponent path)
  else match upTo trustRoot path.ancestors with
    | some chain => .ok chain
    | none => .error (.notUnderTrustRoot path trustRoot)

/-- Symlink, type and mode of what `lstat` found. -/
def inspect (missingLeaf : MissingLeaf) (index : ℕ) (component : Path) :
    Except IoError Metadata → Except FsTrustError (Option Metadata)
  | .error source =>
    if source = .errno .notFound ∧ missingLeaf = .allow then .ok none
    else .error (.io component source)
  | .ok found =>
    if found.kind = .symlink then .error (.symlink component)
    else if index = 0 ∧ found.kind ≠ .file then .error (.notARegularFile component)
    else if index ≠ 0 ∧ found.kind ≠ .directory then .error (.notADirectory component)
    else if found.mode &&& 0o777 &&& WRITE_BEYOND_OWNER ≠ 0 then
      .error (.groupWorldWritable component (found.mode &&& 0o777))
    else .ok (some found)

/-- Pass 1, from the leaf; `lstat` may answer differently each time it is asked. -/
def passOne (lstat : ℕ → Path → Except IoError Metadata) (missingLeaf : MissingLeaf) :
    ℕ → List Path → Except FsTrustError (List (Path × Option Metadata))
  | _, [] => .ok []
  | index, component :: rest => do
    let found ← inspect missingLeaf index component (lstat index component)
    let inspected ← passOne lstat missingLeaf (index + 1) rest
    return (component, found) :: inspected

/-- Pass 2: ownership. -/
def passTwo : List (Path × Option Metadata) → Except FsTrustError Unit
  | [] => .ok ()
  | (component, found) :: rest =>
    match found.filter fun found => found.uid != ROOT_UID || found.gid != ROOT_GID with
    | some found => .error (.notRootOwned component found.uid found.gid)
    | none => passTwo rest

def verifyTrustedPath (lstat : ℕ → Path → Except IoError Metadata) (path trustRoot : Path)
    (missingLeaf : MissingLeaf) : Except FsTrustError Unit := do
  let chain ← componentChain path trustRoot
  let inspected ← passOne lstat missingLeaf 0 chain
  passTwo inspected

/-- Owned by root, and written by nobody else. -/
def Metadata.Trusted (found : Metadata) : Prop :=
  found.mode &&& 0o777 &&& WRITE_BEYOND_OWNER = 0 ∧ found.uid = ROOT_UID ∧ found.gid = ROOT_GID

instance (found : Metadata) : Decidable found.Trusted := inferInstanceAs (Decidable (_ ∧ _ ∧ _))

/-- What the walk accepts of a component. -/
inductive Accepts (missingLeaf : MissingLeaf) (index : ℕ) : Except IoError Metadata → Prop where
  | missing (allowed : missingLeaf = .allow) : Accepts missingLeaf index (.error (.errno .notFound))
  | present {found : Metadata} (kind : found.kind = if index = 0 then .file else .directory)
      (trusted : found.Trusted) : Accepts missingLeaf index (.ok found)

variable {missingLeaf : MissingLeaf} {index : ℕ} {path trustRoot component : Path}
    {chain rest : List Path}

section
variable {lstat : ℕ → Path → Except IoError Metadata} {answer : Except IoError Metadata}

theorem passOne_cons {inspected : List (Path × Option Metadata)} :
    passOne lstat missingLeaf index (component :: rest) = .ok inspected ↔
      ∃ found more, inspect missingLeaf index component (lstat index component) = .ok found ∧
        passOne lstat missingLeaf (index + 1) rest = .ok more ∧
        inspected = (component, found) :: more := by
  rw [passOne]
  simp only [Fallible.bind_eq_ok]
  constructor
  · rintro ⟨found, hfound, more, hmore, h⟩
    cases h
    exact ⟨found, more, hfound, hmore, rfl⟩
  · rintro ⟨found, more, hfound, hmore, rfl⟩
    exact ⟨found, hfound, more, hmore, rfl⟩

theorem inspect_passTwo {more : List (Path × Option Metadata)} :
    (∃ found, inspect missingLeaf index component answer = .ok found ∧
     passTwo ((component, found) :: more) = .ok ()) ↔
      Accepts missingLeaf index answer ∧ passTwo more = .ok () := by
  constructor
  · rintro ⟨found, hinspect, hpass⟩
    cases answer with
    | error source =>
      rw [inspect] at hinspect
      split at hinspect
      · next h =>
        obtain ⟨rfl, hallow⟩ := h
        cases hinspect
        exact ⟨.missing hallow, hpass⟩
      · cases hinspect
    | ok found' =>
      rw [inspect] at hinspect
      split_ifs at hinspect with hlink hfile hdir hmode
      cases hinspect
      simp only [passTwo, Option.filter] at hpass
      split at hpass
      · cases hpass
      · next howner =>
        have hroot : found'.uid = ROOT_UID ∧ found'.gid = ROOT_GID := by
          by_contra hroot
          rw [if_pos (by simpa [imp_iff_not_or] using hroot)] at howner
          cases howner
        refine ⟨.present ?_ ⟨not_not.mp hmode, hroot.1, hroot.2⟩, hpass⟩
        by_cases hindex : index = 0
        · simpa [hindex] using hfile
        · simpa [hindex] using hdir
  · rintro ⟨haccepts, hmore⟩
    cases haccepts with
    | missing hallow => exact ⟨none, if_pos ⟨rfl, hallow⟩, hmore⟩
    | @present found hkind htrusted =>
      obtain ⟨hmode, huid, hgid⟩ := htrusted
      refine ⟨some found, ?_, ?_⟩
      · rw [inspect, if_neg, if_neg, if_neg, if_neg (not_not.mpr hmode)]
        · rintro ⟨hindex, hdir⟩
          exact hdir (by rw [hkind, if_neg hindex])
        · rintro ⟨hindex, hfile⟩
          exact hfile (by rw [hkind, if_pos hindex])
        · rw [hkind]
          split <;> decide
      · rw [passTwo]
        simpa [Option.filter, huid, hgid] using hmore

theorem passes_iff :
    (∃ inspected, passOne lstat missingLeaf index chain = .ok inspected ∧
     passTwo inspected = .ok ()) ↔
    ∀ k component, chain[k]? = some component → Accepts missingLeaf (index + k)
      (lstat (index + k) component) := by
  induction chain generalizing index with
  | nil => simp [passOne, passTwo]
  | cons component rest ih =>
    have hfirst : (∃ inspected, passOne lstat missingLeaf index (component :: rest) =
      .ok inspected ∧
        passTwo inspected = .ok ()) ↔ Accepts missingLeaf index (lstat index component) ∧
          ∃ more, passOne lstat missingLeaf (index + 1) rest = .ok more ∧
            passTwo more = .ok () := by
      constructor
      · rintro ⟨inspected, hone, htwo⟩
        obtain ⟨found, more, hfound, hmore, rfl⟩ := passOne_cons.mp hone
        obtain ⟨haccepts, htwo⟩ := inspect_passTwo.mp ⟨found, hfound, htwo⟩
        exact ⟨haccepts, more, hmore, htwo⟩
      · rintro ⟨haccepts, more, hmore, htwo⟩
        obtain ⟨found, hfound, htwo⟩ := inspect_passTwo.mpr ⟨haccepts, htwo⟩
        exact ⟨_, passOne_cons.mpr ⟨found, more, hfound, hmore, rfl⟩, htwo⟩
    rw [hfirst, ih]
    constructor
    · rintro ⟨hhere, hrest⟩ k c hk
      cases k with
      | zero =>
        cases hk
        exact hhere
      | succ k =>
        have := hrest k c hk
        rwa [Nat.add_right_comm] at this
    · intro h
      refine ⟨h 0 component rfl, fun k c hk => ?_⟩
      have := h (k + 1) c hk
      rwa [← Nat.add_assoc, Nat.add_right_comm] at this

/-- **What the walk accepts.** -/
theorem verify_ok_iff : verifyTrustedPath lstat path trustRoot missingLeaf = .ok () ↔
    ∃ chain, componentChain path trustRoot = .ok chain ∧
      ∀ k component, chain[k]? = some component → Accepts missingLeaf k (lstat k component) := by
  rw [verifyTrustedPath]
  simp only [Fallible.bind_eq_ok, passes_iff, Nat.zero_add]

end

/-! ## The ancestors of a path -/

/-- Compared component by component. -/
def Path.Same (a b : Path) : Prop := a.absolute = b.absolute ∧ a.components = b.components

theorem upTo_cons {a : Path} : upTo trustRoot (a :: rest) = some chain ↔
    (a.Same trustRoot ∧ chain = [a]) ∨
      (¬ a.Same trustRoot ∧ ∃ more, upTo trustRoot rest = some more ∧ chain = a :: more) := by
  rw [upTo]
  by_cases hsame : a.absolute = trustRoot.absolute ∧ a.components = trustRoot.components
  · rw [if_pos hsame]
    simp only [Path.Same, hsame, and_self, true_and, not_true, false_and, or_false,
      Option.some.injEq]
    exact eq_comm
  · rw [if_neg hsame]
    simp only [Path.Same, hsame, not_false_iff, true_and, false_and, false_or,
      Option.map_eq_some_iff]
    constructor <;> rintro ⟨more, h, rfl⟩ <;> exact ⟨more, h, rfl⟩

theorem componentChain_ok : componentChain path trustRoot = .ok chain ↔
    path.absolute = true ∧ trustRoot.absolute = true ∧ .up ∉ path.components ∧
      upTo trustRoot path.ancestors = some chain := by
  rw [componentChain]
  constructor
  · intro h
    split_ifs at h with habsolute hroot hup
    refine ⟨by simpa using habsolute, by simpa using hroot, hup, ?_⟩
    split at h
    · next found hfound =>
      cases h
      exact hfound
    · cases h
  · rintro ⟨habsolute, hroot, hup, hchain⟩
    rw [if_neg (by simp [habsolute]), if_neg (by simp [hroot]), if_neg hup, hchain]

theorem mem_of_upTo {ancestors : List Path} (h : upTo trustRoot ancestors = some chain)
    (hmem : component ∈ chain) :
    component ∈ ancestors := by
  induction ancestors generalizing chain with
  | nil => cases h
  | cons a ancestors ih =>
    obtain ⟨_, rfl⟩ | ⟨_, more, hmore, rfl⟩ := upTo_cons.mp h
    · rw [List.mem_singleton.mp hmem]
      exact List.mem_cons_self
    · obtain rfl | hmem := List.mem_cons.mp hmem
      · exact List.mem_cons_self
      · exact List.mem_cons_of_mem _ (ih hmore hmem)

variable {ps qs r : List (Piece Name)} {n : Name}

theorem absolute_of_mem_parents {absolute : Bool} (h : component ∈ parents absolute r) :
    component.absolute = absolute := by
  induction r with
  | nil => cases h
  | cons p r ih =>
    cases p with
    | here => exact ih h
    | up =>
      obtain rfl | h := List.mem_cons.mp h
      · rfl
      · exact ih h
    | name n =>
      obtain rfl | h := List.mem_cons.mp h
      · rfl
      · exact ih h

/-- The components of a chain are absolute paths. -/
theorem absolute_of_mem_chain (hchain : componentChain path trustRoot = .ok chain)
    (hmem : component ∈ chain) :
    component.absolute = true := by
  obtain ⟨habsolute, _, _, hupTo⟩ := componentChain_ok.mp hchain
  obtain rfl | hparent := List.mem_cons.mp (mem_of_upTo hupTo hmem)
  · exact habsolute
  · rw [absolute_of_mem_parents hparent, habsolute]

theorem names_append : Tree.names (ps ++ qs) = Tree.names ps ++ Tree.names qs :=
  List.filter_append ..

theorem names_names : Tree.names (Tree.names ps) = Tree.names ps := by
  rw [Tree.names, Tree.names, List.filter_filter]
  exact List.filter_congr fun p _ => Bool.and_self _

theorem names_dots (h : ∀ p ∈ ps, p = .here) : Tree.names ps = [] := by
  refine List.filter_eq_nil_iff.mpr fun p hp => ?_
  rw [h p hp]
  decide

theorem mem_names_up : .up ∈ Tree.names ps ↔ .up ∈ ps := by
  simp [Tree.names]

theorem trim_cons_name : trim (.name n :: r) = .name n :: r := by
  rw [trim, List.dropWhile_cons_of_neg (by simp)]

theorem trim_cons_here : trim (.here :: r) = trim r := by
  rw [trim, List.dropWhile_cons_of_pos (by simp), trim]

theorem names_trim : Tree.names (trim r).reverse = Tree.names r.reverse := by
  induction r with
  | nil => rfl
  | cons p r ih =>
    cases p with
    | here =>
      rw [trim_cons_here, ih, List.reverse_cons, names_append]
      exact (List.append_nil _).symm
    | up => rw [trim, List.dropWhile_cons_of_neg (by simp)]
    | name n => rw [trim_cons_name]

theorem parents_dots {dots : List (Piece Name)} {absolute : Bool} (h : ∀ p ∈ dots, p = .here) :
    parents absolute (dots ++ .name n :: r) = ⟨absolute, (trim r).reverse⟩ ::
      parents absolute r := by
  induction dots with
  | nil => rfl
  | cons p dots ih =>
    rw [h p List.mem_cons_self, List.cons_append, parents]
    exact ih fun p hp => h p (List.mem_cons_of_mem _ hp)

/-- A path is no path of names, or it ends in one but for separators and dots. -/
theorem last_name (hup : .up ∉ ps) : (∀ p ∈ ps, p = .here) ∨
    ∃ parent n dots, ps = parent ++ .name n :: dots ∧ ∀ p ∈ dots, p = .here := by
  induction ps using List.reverseRecOn with
  | nil => exact .inl (by simp)
  | append_singleton ps p ih =>
    cases p with
    | here =>
      obtain hall | ⟨parent, n, dots, rfl, hdots⟩ := ih fun hmem =>
        hup (List.mem_append_left _ hmem)
      · exact .inl (by simpa [or_imp, forall_and] using hall)
      · exact .inr ⟨parent, n, dots ++ [.here], by simp, by simpa [or_imp, forall_and] using hdots⟩
    | up => exact absurd (by simp) hup
    | name n => exact .inr ⟨ps, n, [], rfl, by simp⟩

theorem length_of_upTo (h : upTo trustRoot (⟨true, (trim r).reverse⟩ :: parents true r) =
    some chain) :
    trustRoot.components.length ≤ (Tree.names r.reverse).length := by
  have hhere : (Path.mk true (trim r).reverse).components = Tree.names r.reverse := names_trim
  induction r generalizing chain with
  | nil =>
    obtain ⟨⟨_, hsame⟩, _⟩ | ⟨_, more, hmore, _⟩ := upTo_cons.mp h
    · rw [← hsame, hhere]
    · cases hmore
  | cons p r ih =>
    obtain ⟨⟨_, hsame⟩, _⟩ | ⟨_, more, hmore, _⟩ := upTo_cons.mp h
    · rw [← hsame, hhere]
    · cases p with
      | here =>
        rw [trim_cons_here, parents] at h
        have := ih h names_trim
        simpa [names_append] using this.trans (Nat.le_add_right _ _)
      | up =>
        have := ih hmore names_trim
        simpa [names_append] using this.trans (Nat.le_add_right _ _)
      | name n =>
        have := ih hmore names_trim
        simpa [names_append] using this.trans (Nat.le_add_right _ _)

/-! ## A file system that stands still -/

/-- Inodes with owners and modes; no entry is named with a NUL byte. -/
structure FileTree (ι : Type*) extends Tree ι Name where
  mode : ι → UInt32
  uid : ι → UInt32
  gid : ι → UInt32
  root_isDir : toTree.IsDir toTree.root
  noNul : ∀ i n j, toTree.lookup i n = some j → 0 ∉ n

/-- `MAXSYMLINKS`. -/
def maxLinks : ℕ := 40

def nul : Piece Name → Bool
  | .name n => n.contains 0
  | _ => false

section
variable {ι : Type*} (T : FileTree ι)

def FileTree.metadata (i : ι) : Metadata where
  kind :=
    match T.node i with
    | .file => .file
    | .directory _ _ => .directory
    | .link _ => .symlink
    | .special => .special
  mode := T.mode i
  uid := T.uid i
  gid := T.gid i

/-- How the kernel resolves an absolute path. -/
def FileTree.resolve (follow : Bool) (path : Path) : Walk ι :=
  T.walk follow maxLinks T.root path.pieces

def FileTree.lstat (path : Path) : Except IoError Metadata :=
  if path.pieces.any nul then .error .nulByte
  else match (T.resolve false path).outcome with
    | .ok i => .ok (T.metadata i)
    | .error errno => .error (.errno errno)

/-- The parents of the trust root are directories, and none is a link. -/
def RealParents (trustRoot : Path) : Prop :=
  (T.walk true maxLinks T.root trustRoot.components.dropLast).links = [] ∧
    ∃ k, (T.walk true maxLinks T.root trustRoot.components.dropLast).outcome = .ok k ∧ T.IsDir k

/-- The directories on the way to where a resolution ends, from the trust root down. -/
def directories (trustRoot : Path) (w : Walk ι) : List ι :=
  (T.root :: w.passed).dropLast.drop trustRoot.components.length

/-- The path leads, over trusted directories and no link, to a trusted regular file. -/
structure Present (path trustRoot : Path) : Prop where
  noLink : (T.resolve true path).links = []
  leaf : ∃ i, (T.resolve true path).outcome = .ok i ∧ (T.metadata i).kind = .file ∧
    (T.metadata i).Trusted
  directories : ∀ d ∈ directories T trustRoot (T.resolve true path), (T.metadata d).Trusted

/-- What an accepted path is to be. -/
def Sound (path trustRoot : Path) (missingLeaf : MissingLeaf) : Prop :=
  ((T.resolve true path).links = [] ∧ (T.resolve true path).outcome = .error .notFound ∧
   missingLeaf = .allow) ∨
    Present T path trustRoot

/-- Behind the last name of the path, a link that leads nowhere, there is a separator or a dot; what
is above is in order, and the path may be missing. -/
structure TrailingLink (path trustRoot : Path) (missingLeaf : MissingLeaf) : Prop where
  allowed : missingLeaf = .allow
  chain : ∃ chain, componentChain path trustRoot = .ok chain
  link : ∃ parent n dots js k j, path.pieces = parent ++ .name n :: dots ∧ dots ≠ [] ∧
    (∀ p ∈ dots, p = .here) ∧
    T.Descends T.root parent js k ∧ (∀ d ∈ (T.root :: js).drop trustRoot.components.length,
      (T.metadata d).Trusted) ∧
      T.lookup k n = some j ∧ T.IsLink j
  dangling : (T.resolve true path).outcome = .error .notFound

/-- The pieces lead to a directory, over trusted directories from that depth on. -/
def Reached (depth : ℕ) (pieces : List (Piece Name)) : Prop :=
  ∃ js k, T.Descends T.root pieces js k ∧ T.IsDir k ∧ depth ≤ js.length + 1 ∧
    ∀ d ∈ (T.root :: js).drop depth, (T.metadata d).Trusted

/-- A directory on the way has no such entry. -/
def Missing (pieces : List (Piece Name)) : Prop :=
  ∃ parent n more js k, pieces = parent ++ .name n :: more ∧ T.Descends T.root parent js k ∧
    T.IsDir k ∧
    T.lookup k n = none

variable {T} {i j k : ι} {js : List ι} {depth : ℕ}

theorem kind_directory : (T.metadata i).kind = .directory ↔ T.IsDir i := by
  simp only [FileTree.metadata, Tree.IsDir]
  cases h : T.node i <;> simp

theorem kind_symlink : (T.metadata i).kind = .symlink ↔ T.IsLink i := by
  simp only [FileTree.metadata, Tree.IsLink]
  cases h : T.node i <;> simp

theorem noNul_of_descends (h : T.Descends i ps js k) : ps.any nul = false := by
  induction h with
  | nil => rfl
  | here _ _ ih => exact ih
  | @name _ _ _ n _ _ entry _ _ ih =>
    rw [List.any_cons, ih, Bool.or_false]
    simpa [nul] using T.noNul _ _ _ entry

theorem lstat_ok (hnul : path.pieces.any nul = false) (h : (T.resolve false path).outcome = .ok i) :
    T.lstat path = .ok (T.metadata i) := by
  rw [FileTree.lstat, if_neg (by simp [hnul]), h]

theorem lstat_error {errno : Errno} (hnul : path.pieces.any nul = false)
    (h : (T.resolve false path).outcome = .error errno) : T.lstat path = .error (.errno errno) := by
  rw [FileTree.lstat, if_neg (by simp [hnul]), h]

theorem resolve_of_descends (follow : Bool) (h : T.Descends T.root ps js k)
    (qs : List (Piece Name)) :
    ∃ jump, T.resolve follow ⟨true, ps ++ qs⟩ = (T.step jump follow k qs).after js := by
  obtain ⟨jump, hjump⟩ := T.walk_eq_step follow maxLinks
  exact ⟨jump, by rw [FileTree.resolve, hjump, h.step]⟩

theorem lstat_of_descends (h : T.Descends T.root ps js k) :
    T.lstat ⟨true, ps⟩ = .ok (T.metadata k) := by
  refine lstat_ok (noNul_of_descends h) ?_
  obtain ⟨jump, hresolve⟩ := resolve_of_descends false h []
  rw [List.append_nil] at hresolve
  rw [hresolve, Tree.step_nil]
  rfl

theorem descends_dots (hk : T.IsDir k) (h : ∀ p ∈ ps, p = .here) : T.Descends k ps [] k := by
  induction ps with
  | nil => exact .nil k
  | cons p ps ih =>
    rw [h p List.mem_cons_self]
    exact .here hk (ih fun p hp => h p (List.mem_cons_of_mem _ hp))

/-- What is missing is missing whatever comes behind it. -/
theorem Missing.append (h : Missing T ps) (qs : List (Piece Name)) : Missing T (ps ++ qs) := by
  obtain ⟨parent, n, more, js, k, rfl, hdescends, hdir, hnone⟩ := h
  exact ⟨parent, n, more ++ qs, js, k, by simp, hdescends, hdir, hnone⟩

theorem Missing.resolve (h : Missing T ps) (follow absolute : Bool) :
    (T.resolve follow ⟨absolute, ps⟩).links = [] ∧ (T.resolve follow ⟨absolute, ps⟩).outcome =
    .error .notFound := by
  obtain ⟨parent, n, more, js, k, rfl, hdescends, hdir, hnone⟩ := h
  obtain ⟨jump, hresolve⟩ := resolve_of_descends follow hdescends (.name n :: more)
  rw [Tree.step_none hdir hnone] at hresolve
  exact ⟨congrArg Walk.links hresolve, congrArg Walk.outcome hresolve⟩

/-! ## What the walk lets pass -/

theorem Reached.here (h : Reached T depth ps) : Reached T depth (ps ++ [.here]) := by
  obtain ⟨js, k, hdescends, hdir, hdepth, htrusted⟩ := h
  refine ⟨js, k, ?_, hdir, hdepth, htrusted⟩
  simpa using hdescends.append (.here hdir (.nil k))

/-- What `lstat` finds where the walk accepts it. -/
theorem accepts_lstat (h : Accepts missingLeaf index (T.lstat path)) :
    ((T.resolve false path).outcome = .error .notFound ∧ missingLeaf = .allow) ∨
      ∃ i, (T.resolve false path).outcome = .ok i ∧
        (T.metadata i).kind = (if index = 0 then .file else .directory) ∧
        (T.metadata i).Trusted := by
  rw [FileTree.lstat] at h
  split at h
  · cases h
  · cases houtcome : (T.resolve false path).outcome with
    | error errno =>
      rw [houtcome] at h
      cases h with
      | missing hallow => exact .inl ⟨rfl, hallow⟩
    | ok i =>
      rw [houtcome] at h
      cases h with
      | present hkind htrusted => exact .inr ⟨i, rfl, hkind, htrusted⟩

theorem reached_name (h : Reached T depth ps)
    (haccepts : Accepts missingLeaf 1 (T.lstat ⟨true, ps ++ [.name n]⟩)) :
    Reached T depth (ps ++ [.name n]) ∨ (missingLeaf = .allow ∧ Missing T (ps ++ [.name n])) := by
  obtain ⟨js, k, hdescends, hdir, hdepth, htrusted⟩ := h
  obtain ⟨jump, hresolve⟩ := resolve_of_descends false hdescends [.name n]
  obtain ⟨houtcome, hallow⟩ | ⟨j, houtcome, hkind, hfound⟩ := accepts_lstat haccepts
  · refine .inr ⟨hallow, ps, n, [], js, k, rfl, hdescends, hdir, ?_⟩
    by_contra hsome
    obtain ⟨j, hlookup⟩ := Option.ne_none_iff_exists'.mp hsome
    rw [hresolve, Tree.step_last hlookup] at houtcome
    cases houtcome
  · have hj : T.IsDir j := kind_directory.mp hkind
    have hlookup : T.lookup k n = some j := by
      rw [hresolve] at houtcome
      cases hlookup : T.lookup k n with
      | none =>
        rw [Tree.step_none hdir hlookup] at houtcome
        cases houtcome
      | some j' =>
        rw [Tree.step_last hlookup] at houtcome
        cases houtcome
        rfl
    refine .inl ⟨js ++ [j], j, hdescends.append (.name hlookup (Tree.not_isLink_of_isDir hj)
      (.nil j)), hj,
      by simp; omega, fun d hd => ?_⟩
    rw [← List.cons_append, List.drop_append_of_le_length (by simpa using hdepth),
      List.mem_append] at hd
    obtain hd | hd := hd
    · exact htrusted d hd
    · rw [List.mem_singleton.mp hd]
      exact hfound

theorem reached_root (hparents : RealParents T trustRoot) (hup : .up ∉ ps)
    (hsame : trustRoot.components = Tree.names ps ++ [.name n]) :
    Reached T trustRoot.components.length ps := by
  obtain ⟨hlinks, k, hok, hdir⟩ := hparents
  obtain ⟨jump, hjump⟩ := T.walk_eq_step true maxLinks
  rw [hsame, List.dropLast_concat, hjump] at hlinks hok
  have hdescends := Tree.descends_of_step (fun hmem => hup (mem_names_up.mp hmem)) hlinks hok
  have hlength : trustRoot.components.length =
    (T.step jump true T.root (Tree.names ps)).passed.length + 1 := by
    rw [hdescends.length, hsame, List.length_append, names_names]
    rfl
  refine ⟨_, k, Tree.descends_of_names hdescends hdir, hdir, hlength.le, fun d hd => ?_⟩
  rw [List.drop_eq_nil_of_le (by simp [hlength])] at hd
  cases hd

/-- **The ancestors that pass.** They lead to a directory, or are missing. -/
theorem chain_reached (hparents : RealParents T trustRoot) (hup : .up ∉ r)
    (hchain : upTo trustRoot (⟨true, (trim r).reverse⟩ :: parents true r) = some chain)
    (haccepts : ∀ a ∈ chain, Accepts missingLeaf 1 (T.lstat a)) :
    Reached T trustRoot.components.length r.reverse ∨
    (missingLeaf = .allow ∧ Missing T r.reverse) := by
  induction r generalizing chain with
  | nil =>
    obtain ⟨⟨_, hsame⟩, rfl⟩ | ⟨_, more, hmore, _⟩ := upTo_cons.mp hchain
    · have haccept := haccepts _ (List.mem_singleton_self _)
      have hnil : T.Descends T.root [] [] T.root := .nil _
      rw [show (trim []).reverse = [] from rfl, lstat_of_descends hnil] at haccept
      have hdepth : trustRoot.components.length = 0 := by
        rw [← hsame]
        rfl
      refine .inl ⟨[], T.root, hnil, T.root_isDir, by omega, fun d hd => ?_⟩
      rw [hdepth, List.drop_zero, List.mem_singleton] at hd
      rw [hd]
      cases haccept with
      | present _ htrusted => exact htrusted
    · cases hmore
  | cons p r ih =>
    have hrest : Piece.up ∉ r := fun hmem => hup (List.mem_cons_of_mem _ hmem)
    rw [List.reverse_cons]
    cases p with
    | here =>
      rw [trim_cons_here, parents] at hchain
      obtain hreached | ⟨hallow, hmissing⟩ := ih hrest hchain haccepts
      · exact .inl hreached.here
      · exact .inr ⟨hallow, hmissing.append _⟩
    | up => exact absurd List.mem_cons_self hup
    | name n =>
      rw [trim_cons_name, List.reverse_cons] at hchain
      obtain ⟨⟨_, hsame⟩, rfl⟩ | ⟨_, more, hmore, rfl⟩ := upTo_cons.mp hchain
      · have hroot : trustRoot.components = Tree.names r.reverse ++ [.name n] := by
          rw [← hsame, Path.components, names_append]
          rfl
        exact reached_name (reached_root hparents (by simpa using hrest) hroot)
          (haccepts _ (List.mem_singleton_self _))
      · obtain hreached | ⟨hallow, hmissing⟩ := ih hrest hmore fun a ha =>
          haccepts a (List.mem_cons_of_mem _ ha)
        · exact reached_name hreached (haccepts _ List.mem_cons_self)
        · exact .inr ⟨hallow, hmissing.append _⟩

theorem resolve_trailing (ps : List (Piece Name)) {dots : List (Piece Name)}
    (hpieces : path.pieces = ps ++ dots) (hne : dots ≠ []) (hdots : ∀ p ∈ dots, p = .here) :
    T.resolve false path = T.resolve true path ∧
      ∀ i, (T.resolve true path).outcome = .ok i → (T.metadata i).kind = .directory := by
  have hsplit : path.pieces = (ps ++ dots.dropLast) ++ [.here] := by
    rw [hpieces, List.append_assoc, ← hdots _ (List.getLast_mem hne), List.dropLast_append_getLast]
  rw [FileTree.resolve, FileTree.resolve, hsplit]
  exact ⟨Tree.walk_trailing .., fun i houtcome =>
    kind_directory.mpr (Tree.isDir_of_trailing houtcome)⟩

theorem trailing_missing (ps : List (Piece Name)) {dots : List (Piece Name)}
    (hpieces : path.pieces = ps ++ dots) (hne : dots ≠ []) (hdots : ∀ p ∈ dots, p = .here)
    (haccepts : Accepts missingLeaf 0 (T.lstat path)) :
    (T.resolve true path).outcome = .error .notFound ∧ missingLeaf = .allow := by
  obtain ⟨hfollow, hdir⟩ := resolve_trailing (T := T) ps hpieces hne hdots
  rw [← hfollow] at hdir ⊢
  obtain hmissing | ⟨i, houtcome, hkind, _⟩ := accepts_lstat haccepts
  · exact hmissing
  · have := hdir i houtcome
    rw [hkind] at this
    cases this

/-- **The leaf that passes**, under a directory on the way. -/
theorem leaf_sound {parent dots : List (Piece Name)}
    (hpieces : path.pieces = parent ++ .name n :: dots)
    (hdots : ∀ p ∈ dots, p = .here) (hreached : Reached T trustRoot.components.length parent)
    (haccepts : Accepts missingLeaf 0 (T.lstat path))
    (hchain : componentChain path trustRoot = .ok chain) :
    Sound T path trustRoot missingLeaf ∨ TrailingLink T path trustRoot missingLeaf := by
  obtain ⟨js, k, hdescends, hdir, hdepth, htrusted⟩ := hreached
  have hresolve : ∀ follow, ∃ jump, T.resolve follow path =
    (T.step jump follow k (.name n :: dots)).after js := by
    intro follow
    obtain ⟨jump, hresolve⟩ := resolve_of_descends follow hdescends (.name n :: dots)
    exact ⟨jump, by rw [← hresolve, FileTree.resolve, FileTree.resolve, hpieces]⟩
  obtain ⟨jump, hfollowed⟩ := hresolve true
  cases hlookup : T.lookup k n with
  | none =>
    rw [Tree.step_none hdir hlookup] at hfollowed
    obtain ⟨jump', hlast⟩ := hresolve false
    rw [Tree.step_none hdir hlookup] at hlast
    obtain ⟨_, hallow⟩ | ⟨i, houtcome, _⟩ := accepts_lstat haccepts
    · exact .inl (.inl ⟨congrArg Walk.links hfollowed, congrArg Walk.outcome hfollowed, hallow⟩)
    · rw [hlast] at houtcome
      cases houtcome
  | some j =>
    by_cases hne : dots = []
    · subst hne
      obtain ⟨jump', hlast⟩ := hresolve false
      rw [Tree.step_last hlookup] at hlast
      obtain ⟨houtcome, _⟩ | ⟨i, houtcome, hkind, hleaf⟩ := accepts_lstat haccepts
      · rw [hlast] at houtcome
        cases houtcome
      · rw [hlast] at houtcome
        cases houtcome
        have hfile : ¬ T.IsLink j := fun hlink => by
          rw [kind_symlink.mpr hlink] at hkind
          cases hkind
        rw [Tree.step_name hlookup hfile, Tree.step_nil] at hfollowed
        refine .inl (.inr ⟨congrArg Walk.links hfollowed,
          ⟨j, congrArg Walk.outcome hfollowed, hkind, hleaf⟩, ?_⟩)
        rw [directories, hfollowed]
        simpa [Walk.after, List.dropLast_cons_of_ne_nil] using htrusted
    · obtain ⟨houtcome, hallow⟩ := trailing_missing (parent ++ [.name n])
        (by simpa using hpieces) hne hdots
        haccepts
      by_cases hlink : T.IsLink j
      · exact .inr ⟨hallow, ⟨chain, hchain⟩,
          ⟨parent, n, dots, js, k, j, hpieces, hne, hdots, hdescends, htrusted,
          hlookup, hlink⟩, houtcome⟩
      · -- what is no link is there, with what is behind it or not
        rw [hfollowed, Tree.step_name hlookup hlink] at houtcome
        by_cases hj : T.IsDir j
        · have hstep := (descends_dots hj hdots).step jump true []
          rw [List.append_nil, Tree.step_nil] at hstep
          rw [hstep] at houtcome
          cases houtcome
        · obtain ⟨p, more, rfl⟩ := List.exists_cons_of_ne_nil hne
          rw [Tree.step_of_not_isDir hj] at houtcome
          cases houtcome

/-! ## What the walk must let pass -/

/-- **The ancestors that must pass.** -/
theorem chain_accepted (hdescends : T.Descends T.root r.reverse js k) (hdir : T.IsDir k)
    (htrusted : ∀ d ∈ (T.root :: js).drop trustRoot.components.length, (T.metadata d).Trusted)
    (hchain : upTo trustRoot (⟨true, (trim r).reverse⟩ :: parents true r) = some chain) :
    ∀ a ∈ chain, Accepts missingLeaf 1 (T.lstat a) := by
  induction r generalizing js k chain with
  | nil =>
    have hdepth := length_of_upTo hchain
    obtain ⟨_, rfl⟩ | ⟨_, more, hmore, _⟩ := upTo_cons.mp hchain
    · intro a ha
      rw [List.mem_singleton.mp ha, show (trim []).reverse = [] from rfl,
        lstat_of_descends (.nil T.root)]
      refine .present (kind_directory.mpr T.root_isDir) (htrusted _ ?_)
      rw [Nat.le_zero.mp hdepth]
      exact List.mem_cons_self
    · cases hmore
  | cons p r ih =>
    have hdepth := length_of_upTo hchain
    rw [List.reverse_cons] at hdescends
    obtain ⟨js₁, js₂, m, hfirst, hlast, rfl⟩ := hdescends.split
    cases p with
    | here =>
      rw [trim_cons_here, parents] at hchain
      cases hlast with
      | here _ hnil =>
        cases hnil
        exact ih hfirst hdir (by simpa using htrusted) hchain
    | up => cases hlast
    | name n =>
      cases hlast with
      | name entry noLink hnil =>
        cases hnil
        have hlength : trustRoot.components.length ≤ js₁.length + 1 := by
          rw [hfirst.length]
          simpa [names_append, Tree.names] using hdepth
        rw [← List.cons_append, List.drop_append_of_le_length (by simpa using hlength)] at htrusted
        have hhere : Accepts missingLeaf 1 (T.lstat ⟨true, (trim (.name n :: r)).reverse⟩) := by
          rw [trim_cons_name, List.reverse_cons, lstat_of_descends hdescends]
          exact .present (kind_directory.mpr hdir) (htrusted _ (by simp))
        obtain ⟨_, rfl⟩ | ⟨_, more, hmore, rfl⟩ := upTo_cons.mp hchain
        · intro a ha
          rw [List.mem_singleton.mp ha]
          exact hhere
        · intro a ha
          obtain rfl | ha := List.mem_cons.mp ha
          · exact hhere
          · exact ih hfirst (Tree.isDir_of_lookup entry)
              (fun d hd => htrusted d (List.mem_append_left _ hd)) hmore a ha

/-! ## The walk -/

theorem chain_of_name {parent dots : List (Piece Name)}
    (hpieces : path.pieces = parent ++ .name n :: dots)
    (hdots : ∀ p ∈ dots, p = .here) (hchain : componentChain path trustRoot = .ok chain) :
    (chain = [path] ∧ trustRoot.components = Tree.names parent ++ [.name n]) ∨
      ∃ more, chain = path :: more ∧
        upTo trustRoot (⟨true, (trim parent.reverse).reverse⟩ :: parents true parent.reverse) =
        some more := by
  obtain ⟨habsolute, hroot, hup, hupTo⟩ := componentChain_ok.mp hchain
  have hcomponents : path.components = Tree.names parent ++ [.name n] := by
    rw [Path.components, hpieces, List.append_cons, names_append, names_append, names_dots hdots,
      List.append_nil]
    rfl
  rw [Path.ancestors, habsolute, hpieces, List.reverse_append, List.reverse_cons, List.append_assoc,
    List.singleton_append, parents_dots (by simpa using hdots)] at hupTo
  obtain ⟨⟨_, hsame⟩, rfl⟩ | ⟨_, more, hmore, rfl⟩ := upTo_cons.mp hupTo
  · exact .inl ⟨rfl, by rw [← hsame, hcomponents]⟩
  · exact .inr ⟨more, rfl, hmore⟩

theorem accepts_succ {answer : Except IoError Metadata} :
    Accepts missingLeaf (index + 1) answer ↔ Accepts missingLeaf 1 answer := by
  constructor <;> intro h <;> cases h with
  | missing hallow => exact .missing hallow
  | present hkind htrusted => exact .present hkind htrusted

theorem verify_cons {lstat : Path → Except IoError Metadata}
    (hchain : componentChain path trustRoot = .ok (path :: rest)) :
    verifyTrustedPath (fun _ => lstat) path trustRoot missingLeaf = .ok () ↔
      Accepts missingLeaf 0 (lstat path) ∧ ∀ a ∈ rest, Accepts missingLeaf 1 (lstat a) := by
  rw [verify_ok_iff]
  constructor
  · rintro ⟨chain, hchain', haccepts⟩
    rw [hchain] at hchain'
    cases hchain'
    refine ⟨haccepts 0 path rfl, fun a ha => ?_⟩
    obtain ⟨k, hk⟩ := List.mem_iff_getElem?.mp ha
    exact accepts_succ.mp (haccepts (k + 1) a hk)
  · rintro ⟨hleaf, hrest⟩
    refine ⟨_, hchain, fun k a hk => ?_⟩
    cases k with
    | zero =>
      cases hk
      exact hleaf
    | succ k => exact accepts_succ.mpr (hrest a (List.mem_of_getElem? hk))

theorem chain_head (hchain : componentChain path trustRoot = .ok chain) :
    ∃ rest, chain = path :: rest := by
  obtain ⟨_, _, _, hupTo⟩ := componentChain_ok.mp hchain
  obtain ⟨_, rfl⟩ | ⟨_, more, _, rfl⟩ := upTo_cons.mp hupTo
  · exact ⟨[], rfl⟩
  · exact ⟨more, rfl⟩

theorem resolve_dots (follow : Bool) (hdots : ∀ p ∈ path.pieces, p = .here) :
    (T.resolve follow path).outcome = .ok T.root := by
  obtain ⟨jump, hresolve⟩ := resolve_of_descends follow (descends_dots T.root_isDir hdots) []
  rw [List.append_nil, Tree.step_nil] at hresolve
  exact congrArg Walk.outcome hresolve

theorem sound_of_verify (hparents : RealParents T trustRoot)
    (hno : ¬ TrailingLink T path trustRoot missingLeaf)
    (h : verifyTrustedPath (fun _ => T.lstat) path trustRoot missingLeaf = .ok ()) :
    Sound T path trustRoot missingLeaf := by
  obtain ⟨chain, hchain, _⟩ := verify_ok_iff.mp h
  obtain ⟨rest, rfl⟩ := chain_head hchain
  obtain ⟨hleaf, hrest⟩ := (verify_cons hchain).mp h
  have hup : .up ∉ path.pieces := fun hmem =>
    (componentChain_ok.mp hchain).2.2.1 (mem_names_up.mpr hmem)
  obtain hdots | ⟨parent, n, dots, hpieces, hdots⟩ := last_name hup
  · obtain ⟨houtcome, _⟩ | ⟨i, houtcome, hkind, _⟩ := accepts_lstat hleaf
    · rw [resolve_dots _ hdots] at houtcome
      cases houtcome
    · rw [resolve_dots _ hdots] at houtcome
      cases houtcome
      rw [kind_directory.mpr T.root_isDir] at hkind
      cases hkind
  · have hup' : .up ∉ parent := fun hmem => hup (by rw [hpieces]; exact List.mem_append_left _ hmem)
    have hreached : Reached T trustRoot.components.length parent ∨
      (missingLeaf = .allow ∧ Missing T parent) := by
      obtain ⟨_, hroot⟩ | ⟨more, hmore, hupTo⟩ := chain_of_name hpieces hdots hchain
      · exact .inl (reached_root hparents hup' hroot)
      · cases hmore
        have := chain_reached hparents (by simpa using hup') hupTo hrest
        rwa [List.reverse_reverse] at this
    obtain hreached | ⟨hallow, hmissing⟩ := hreached
    · exact (leaf_sound hpieces hdots hreached hleaf hchain).resolve_right hno
    · have hresolve := (hmissing.append (.name n :: dots)).resolve true path.absolute
      rw [← hpieces] at hresolve
      exact .inl ⟨hresolve.1, hresolve.2, hallow⟩

theorem tail_accepted {parent dots : List (Piece Name)}
    (hpieces : path.pieces = parent ++ .name n :: dots)
    (hdots : ∀ p ∈ dots, p = .here) (hchain : componentChain path trustRoot = .ok (path :: rest))
    (hdescends : T.Descends T.root parent js k) (hdir : T.IsDir k)
    (htrusted : ∀ d ∈ (T.root :: js).drop trustRoot.components.length, (T.metadata d).Trusted) :
    ∀ a ∈ rest, Accepts missingLeaf 1 (T.lstat a) := by
  obtain ⟨hsingle, _⟩ | ⟨more, hmore, hupTo⟩ := chain_of_name hpieces hdots hchain
  · cases hsingle
    exact fun a ha => by cases ha
  · cases hmore
    exact chain_accepted (by rwa [List.reverse_reverse]) hdir htrusted hupTo

theorem verify_of_present (hchain : componentChain path trustRoot = .ok chain)
    (h : Present T path trustRoot) :
    verifyTrustedPath (fun _ => T.lstat) path trustRoot missingLeaf = .ok () := by
  obtain ⟨hlinks, ⟨i, houtcome, hkind, hleaf⟩, htrusted⟩ := h
  have hup : .up ∉ path.pieces := fun hmem =>
    (componentChain_ok.mp hchain).2.2.1 (mem_names_up.mpr hmem)
  have hdescends : T.Descends T.root path.pieces (T.resolve true path).passed i := by
    obtain ⟨jump, hjump⟩ := T.walk_eq_step true maxLinks
    rw [FileTree.resolve, hjump] at hlinks houtcome ⊢
    exact Tree.descends_of_step hup hlinks houtcome
  obtain ⟨rest, rfl⟩ := chain_head hchain
  obtain hdots | ⟨parent, n, dots, hpieces, hdots⟩ := last_name hup
  · rw [resolve_dots _ hdots] at houtcome
    cases houtcome
    rw [kind_directory.mpr T.root_isDir] at hkind
    cases hkind
  · by_cases hne : dots = []
    swap
    · have := (resolve_trailing (parent ++ [.name n]) (by simpa using hpieces) hne hdots).2
        i houtcome
      rw [hkind] at this
      cases this
    subst hne
    have hpath : path = ⟨true, parent ++ [.name n]⟩ := by
      rw [← hpieces, ← (componentChain_ok.mp hchain).1]
    rw [hpieces] at hdescends
    rw [FsTrust.directories] at htrusted
    obtain ⟨js₁, js₂, m, hfirst, hlast, hpassed⟩ := hdescends.split
    rw [hpassed] at htrusted hdescends
    cases hlast with
    | name entry noLink hnil =>
      cases hnil
      rw [← List.cons_append, List.dropLast_concat] at htrusted
      have hdir : T.IsDir m := Tree.isDir_of_lookup entry
      refine (verify_cons hchain).mpr ⟨?_, tail_accepted hpieces hdots hchain hfirst hdir htrusted⟩
      rw [hpath, lstat_of_descends hdescends]
      exact .present hkind hleaf

theorem verify_of_trailingLink (h : TrailingLink T path trustRoot missingLeaf) :
    verifyTrustedPath (fun _ => T.lstat) path trustRoot missingLeaf = .ok () := by
  obtain ⟨hallow, ⟨chain, hchain⟩, ⟨parent, n, dots, js, k, j, hpieces, hne, hdots, hdescends,
    htrusted, hlookup, _⟩,
    hdangling⟩ := h
  obtain ⟨rest, rfl⟩ := chain_head hchain
  have hnul : path.pieces.any nul = false := by
    rw [hpieces, List.any_append, noNul_of_descends hdescends, List.any_cons,
      noNul_of_descends (descends_dots T.root_isDir hdots)]
    simpa [nul] using T.noNul _ _ _ hlookup
  have hlast := (resolve_trailing (T := T) (parent ++ [.name n])
    (by simpa using hpieces) hne hdots).1
  refine (verify_cons hchain).mpr ⟨?_, tail_accepted hpieces hdots hchain hdescends
    (Tree.isDir_of_lookup hlookup)
    htrusted⟩
  rw [lstat_error hnul (by rw [hlast, hdangling])]
  exact .missing hallow

theorem not_sound_of_trailingLink (h : TrailingLink T path trustRoot missingLeaf) :
    ¬ Sound T path trustRoot missingLeaf := by
  obtain ⟨_, _, ⟨parent, n, dots, js, k, j, hpieces, _, _, hdescends, _, hlookup, target, hlink⟩,
    _⟩ := h
  obtain ⟨jump, hresolve⟩ := resolve_of_descends true hdescends (.name n :: dots)
  rw [FileTree.resolve, ← hpieces, Tree.step_link hlookup hlink (.inr rfl)] at hresolve
  have hlinks : (T.resolve true path).links ≠ [] := by
    rw [FileTree.resolve, hresolve]
    exact List.cons_ne_nil _ _
  rintro (⟨hnone, _⟩ | hpresent)
  · exact hlinks hnone
  · exact hlinks hpresent.noLink

/-- **The walk is sound and complete**, unless the path ends behind a link that leads nowhere. -/
theorem verify_sound_iff {ι : Type*} (T : FileTree ι) (path trustRoot : Path)
    (missingLeaf : MissingLeaf) (hparents : RealParents T trustRoot) :
    ((verifyTrustedPath (fun _ => T.lstat) path trustRoot missingLeaf = .ok () →
        Sound T path trustRoot missingLeaf) ∧
      (∀ chain, componentChain path trustRoot = .ok chain → Present T path trustRoot →
        verifyTrustedPath (fun _ => T.lstat) path trustRoot missingLeaf = .ok ())) ↔
    ¬ TrailingLink T path trustRoot missingLeaf := by
  constructor
  · rintro ⟨hsound, _⟩ hlink
    exact not_sound_of_trailingLink hlink (hsound (verify_of_trailingLink hlink))
  · intro hno
    exact ⟨sound_of_verify hparents hno, fun chain => verify_of_present⟩

end

/-! ## A link that leads nowhere -/

/-- In the root a file `f`, and a link `c` to a name that is not there. -/
def danglingNode : Fin 3 → Node (Fin 3) Name
  | 0 => .directory (fun n => if n = [102] then some 1 else if n = [99] then some 2 else none) 0
  | 1 => .file
  | 2 => .link ⟨false, [.name [100]]⟩

theorem danglingNode_noNul (i : Fin 3) (n : Name) (j : Fin 3)
    (h : Tree.lookup ⟨0, danglingNode⟩ i n = some j) : 0 ∉ n := by
  fin_cases i
  · simp only [Tree.lookup, danglingNode] at h
    split_ifs at h with hf hc
    · simp [hf]
    · simp [hc]
  · cases h
  · cases h

def dangling : FileTree (Fin 3) where
  root := 0
  node := danglingNode
  mode _ := 0o755
  uid _ := 0
  gid _ := 0
  root_isDir := ⟨_, _, rfl⟩
  noNul := danglingNode_noNul

/-- The file is accepted, and is what it is to be. -/
theorem verify_sound_file : RealParents dangling (.ofBytes [47]) ∧
    verifyTrustedPath (fun _ => dangling.lstat) (.ofBytes [47, 102])
      (.ofBytes [47]) .reject = .ok () ∧
    Sound dangling (.ofBytes [47, 102]) (.ofBytes [47]) .reject := by
  have hparents : RealParents dangling (.ofBytes [47]) := ⟨rfl, 0, rfl, dangling.root_isDir⟩
  refine ⟨hparents, rfl, ((verify_sound_iff dangling _ _ .reject hparents).mpr ?_).1 rfl⟩
  intro hlink
  cases hlink.allowed

/-- With a separator behind it the link is followed, and accepted. -/
theorem trailing_link_accepted : RealParents dangling (.ofBytes [47]) ∧
    verifyTrustedPath (fun _ => dangling.lstat) (.ofBytes [47, 99, 47])
      (.ofBytes [47]) .allow = .ok () ∧
    (dangling.resolve true (.ofBytes [47, 99, 47])).links = [2] ∧
    ¬ Sound dangling (.ofBytes [47, 99, 47]) (.ofBytes [47]) .allow := by
  refine ⟨⟨rfl, 0, rfl, dangling.root_isDir⟩, rfl, rfl, ?_⟩
  rintro (⟨hlinks, _⟩ | hpresent)
  · cases hlinks
  · cases hpresent.noLink

end ProtonWire.FsTrust
