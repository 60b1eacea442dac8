import Mathlib

/-!
# Names, links and files

A file system as the calls of a program see it. A name stands for a file, a directory or a link; two
names may stand for one file, its inode. A call goes from link to link, up to a bound.

* `Disk`, `locate`, `FileAt`: the names, where a call arrives, and the file there;
* `stat`, `read`, `write`, `rename`: the calls;
* **`fileAt_move_link`**: a link that takes the place of its twin leads where it led.
-/

namespace FileSystem

/-- What a name stands for. -/
inductive Entry (τ : Type*) where
  | file (inode : UInt64)
  | directory (inode : UInt64)
  | link (target : τ)
  deriving DecidableEq

/-- Names, inodes and their contents. -/
structure Disk (ν τ β : Type*) where
  entries : ν → Option (Entry τ)
  contents : UInt64 → β
  /-- The name a link leads to, from the name of the link. -/
  lead : ν → τ → ν
  /-- The directory of a name exists. -/
  creatable : ν → Bool

/-- How a call fails. -/
inductive IoError where
  | notFound
  | notDirectory
  | isDirectory
  | tooManyLinks
  deriving DecidableEq

namespace Disk

variable {ν τ β : Type*}

/-! ## Calls -/

/-- Where a call arrives over at most so many links, `none` beyond. -/
def follow (d : Disk ν τ β) : ℕ → ν → Option ν
  | 0, name =>
    match d.entries name with
    | some (.link _) => none
    | _ => some name
  | links + 1, name =>
    match d.entries name with
    | some (.link target) => follow d links (d.lead name target)
    | _ => some name

/-- The links a call goes over. -/
def maxLinks : ℕ := 40

/-- Where a call arrives. -/
def locate (d : Disk ν τ β) (name : ν) : Option ν := d.follow maxLinks name

/-- The inode at the end of a name. -/
def stat (d : Disk ν τ β) (name : ν) : Except IoError UInt64 :=
  match d.locate name with
  | none => .error .tooManyLinks
  | some place =>
    match d.entries place with
    | some (.file inode) => .ok inode
    | some (.directory inode) => .ok inode
    | _ => .error .notFound

/-- The content at the end of a name. -/
def read (d : Disk ν τ β) (name : ν) : Except IoError β :=
  match d.locate name with
  | none => .error .tooManyLinks
  | some place =>
    match d.entries place with
    | some (.file inode) => .ok (d.contents inode)
    | some (.directory _) => .error .isDirectory
    | _ => .error .notFound

variable [DecidableEq ν]

/-- Replace the content at the end of a name. A file that is created takes the inode. -/
def write (d : Disk ν τ β) (inode : UInt64) (content : β) (name : ν) :
    Except IoError (Disk ν τ β) :=
  match d.locate name with
  | none => .error .tooManyLinks
  | some place =>
    match d.entries place with
    | some (.file inode) => .ok { d with contents := Function.update d.contents inode content }
    | some (.directory _) => .error .isDirectory
    | _ =>
      if d.creatable place then
        .ok { d with
          entries := Function.update d.entries place (some (.file inode))
          contents := Function.update d.contents inode content }
      else .error .notFound

/-- What a name stands for takes the place of another. -/
def move (d : Disk ν τ β) (source destination : ν) : Disk ν τ β :=
  { d with entries := Function.update (Function.update d.entries source none) destination (d.entries source) }

/-- Rename a file or a link over a name. Where both stand for one file, nothing moves. -/
def rename (d : Disk ν τ β) (source destination : ν) : Except IoError (Disk ν τ β) :=
  match d.entries source, d.entries destination with
  | none, _ => .error .notFound
  | some (.directory _), _ => .error .notDirectory
  | some _, some (.directory _) => .error .isDirectory
  | some _, none => if d.creatable destination then .ok (d.move source destination)
    else .error .notFound
  | some (.file inode), some (.file other) => if inode = other then .ok d
    else .ok (d.move source destination)
  | some _, some _ => .ok (d.move source destination)

/-! ## Names and inodes -/

/-- Some name stands for the inode. -/
def InUse (d : Disk ν τ β) (inode : UInt64) : Prop :=
  ∃ name, d.entries name = some (.file inode) ∨ d.entries name = some (.directory inode)

/-- A call to the name arrives at a file. -/
def FileAt (d : Disk ν τ β) (name : ν) (inode : UInt64) : Prop :=
  ∃ place, d.locate name = some place ∧ d.entries place = some (.file inode)

variable {d d' : Disk ν τ β} {name place source destination : ν} {inode : UInt64} {content : β}

omit [DecidableEq ν] in
theorem follow_of_ne_link (h : ∀ target, d.entries name ≠ some (.link target)) (links : ℕ) :
    d.follow links name = some name := by
  cases links <;> rw [follow] <;> split
  · next target hname => exact absurd hname (h target)
  · rfl
  · next target hname => exact absurd hname (h target)
  · rfl

omit [DecidableEq ν] in
theorem follow_of_link {target : τ} (h : d.entries name = some (.link target)) (links : ℕ) :
    d.follow (links + 1) name = d.follow links (d.lead name target) := by
  rw [follow, h]

omit [DecidableEq ν] in
theorem follow_zero_of_link {target : τ} (h : d.entries name = some (.link target)) :
    d.follow 0 name = none := by
  rw [follow, h]

omit [DecidableEq ν] in
theorem ne_link_of_follow {links : ℕ} (h : d.follow links name = some place) (target : τ) :
    d.entries place ≠ some (.link target) := by
  induction links generalizing name with
  | zero =>
    by_cases hlink : ∃ target, d.entries name = some (.link target)
    · rw [follow_zero_of_link hlink.choose_spec] at h
      cases h
    · rw [follow_of_ne_link (not_exists.mp hlink)] at h
      cases h
      exact not_exists.mp hlink target
  | succ links ih =>
    by_cases hlink : ∃ target, d.entries name = some (.link target)
    · rw [follow_of_link hlink.choose_spec] at h
      exact ih h
    · rw [follow_of_ne_link (not_exists.mp hlink)] at h
      cases h
      exact not_exists.mp hlink target

omit [DecidableEq ν] in
theorem locate_of_ne_link (h : ∀ target, d.entries name ≠ some (.link target)) :
    d.locate name = some name :=
  follow_of_ne_link h maxLinks

omit [DecidableEq ν] in
theorem follow_mono {links more : ℕ} (hle : links ≤ more) (h : d.follow links name = some place) :
    d.follow more name = some place := by
  induction more generalizing links name with
  | zero => rwa [Nat.le_zero.mp hle] at h
  | succ more ih =>
    by_cases hlink : ∃ target, d.entries name = some (.link target)
    · obtain ⟨target, hlink⟩ := hlink
      cases links with
      | zero =>
        rw [follow_zero_of_link hlink] at h
        cases h
      | succ links =>
        rw [follow_of_link hlink] at h ⊢
        exact ih (by omega) h
    · rwa [follow_of_ne_link (not_exists.mp hlink)] at h ⊢

omit [DecidableEq ν] in
theorem locate_congr (hlinks : ∀ name target, d'.entries name = some (.link target) ↔
    d.entries name = some (.link target)) (hlead : d'.lead = d.lead) (name : ν) :
    d'.locate name = d.locate name := by
  have hfollow : ∀ links name, d'.follow links name = d.follow links name := by
    intro links
    induction links with
    | zero =>
      intro name
      by_cases hlink : ∃ target, d.entries name = some (.link target)
      · obtain ⟨target, hlink⟩ := hlink
        rw [follow_zero_of_link hlink, follow_zero_of_link ((hlinks name target).mpr hlink)]
      · have hne := not_exists.mp hlink
        rw [follow_of_ne_link hne, follow_of_ne_link fun target htarget =>
          hne target ((hlinks name target).mp htarget)]
    | succ links ih =>
      intro name
      by_cases hlink : ∃ target, d.entries name = some (.link target)
      · obtain ⟨target, hlink⟩ := hlink
        rw [follow_of_link hlink, follow_of_link ((hlinks name target).mpr hlink), hlead, ih]
      · have hne := not_exists.mp hlink
        rw [follow_of_ne_link hne, follow_of_ne_link fun target htarget =>
          hne target ((hlinks name target).mp htarget)]
  exact hfollow maxLinks name

/-! ## Files -/

omit [DecidableEq ν] in
theorem FileAt.stat (h : d.FileAt name inode) : d.stat name = .ok inode := by
  obtain ⟨place, hlocate, hplace⟩ := h
  rw [Disk.stat, hlocate]
  dsimp only
  rw [hplace]

omit [DecidableEq ν] in
theorem FileAt.read (h : d.FileAt name inode) : d.read name = .ok (d.contents inode) := by
  obtain ⟨place, hlocate, hplace⟩ := h
  rw [Disk.read, hlocate]
  dsimp only
  rw [hplace]

theorem FileAt.write (h : d.FileAt name inode) (fresh : UInt64) (content : β) :
    d.write fresh content name = .ok { d with
    contents := Function.update d.contents inode content } := by
  obtain ⟨place, hlocate, hplace⟩ := h
  rw [Disk.write, hlocate]
  dsimp only
  rw [hplace]

omit [DecidableEq ν] in
theorem FileAt.inUse (h : d.FileAt name inode) : d.InUse inode := by
  obtain ⟨place, -, hplace⟩ := h
  exact ⟨place, Or.inl hplace⟩

omit [DecidableEq ν] in
theorem FileAt.of_entry (h : d.entries name = some (.file inode)) : d.FileAt name inode := by
  refine ⟨name, locate_of_ne_link fun target hlink => ?_, h⟩
  rw [h] at hlink
  cases hlink

omit [DecidableEq ν] in
theorem FileAt.congr (h : d.FileAt name inode) (hentries : d'.entries = d.entries)
    (hlead : d'.lead = d.lead) :
    d'.FileAt name inode := by
  obtain ⟨place, hlocate, hplace⟩ := h
  exact ⟨place, by rwa [locate_congr (fun _ _ => by rw [hentries]) hlead], by rwa [hentries]⟩

omit [DecidableEq ν] in
/-- A name with a file at its end is that file, or a link. -/
theorem FileAt.entry (h : d.FileAt name inode) :
    d.entries name = some (.file inode) ∨ ∃ target, d.entries name = some (.link target) := by
  by_cases hlink : ∃ target, d.entries name = some (.link target)
  · exact Or.inr hlink
  · obtain ⟨place, hlocate, hplace⟩ := h
    rw [locate_of_ne_link fun target htarget => hlink ⟨target, htarget⟩] at hlocate
    cases hlocate
    exact Or.inl hplace

omit [DecidableEq ν] in
/-- Calls to two links that lead to one name arrive at one file. -/
theorem FileAt.of_twin {target : τ} (h : d.FileAt name inode)
    (hname : d.entries name = some (.link target)) {twin : ν}
    (htwin : d.entries twin = some (.link target))
    (hlead : d.lead twin target = d.lead name target) :
    d.FileAt twin inode := by
  obtain ⟨place, hlocate, hplace⟩ := h
  refine ⟨place, ?_, hplace⟩
  rw [locate, maxLinks, follow, hname] at hlocate
  rw [locate, maxLinks, follow, htwin]
  dsimp only at hlocate ⊢
  rwa [hlead]

theorem write_keeps {fresh : UInt64} (h : d.write fresh content name = .ok d') {other : ν}
    {entry : Entry τ}
    (hother : d.entries other = some entry) : d'.entries other = some entry ∧ d'.lead = d.lead := by
  unfold write at h
  split at h
  · cases h
  · next place hlocate =>
    split at h
    · cases h
      exact ⟨hother, rfl⟩
    · cases h
    · next hnone hdirectory =>
      split_ifs at h
      cases h
      refine ⟨?_, rfl⟩
      dsimp only
      rw [Function.update_of_ne, hother]
      rintro rfl
      -- where a call arrives there is no link
      cases entry with
      | file inode => exact hnone inode hother
      | directory inode => exact hdirectory inode hother
      | link target => exact ne_link_of_follow hlocate target hother

/-- A write to a name that stands for nothing creates a file. -/
theorem write_of_none (hname : d.entries name = none) (hcreatable : d.creatable name = true)
    (fresh : UInt64) (content : β) : d.write fresh content name = .ok { d with
      entries := Function.update d.entries name (some (.file fresh))
      contents := Function.update d.contents fresh content } := by
  rw [write, locate_of_ne_link fun target hlink => by rw [hname] at hlink; cases hlink]
  dsimp only
  rw [hname]
  exact if_pos hcreatable

theorem entry_of_write {fresh : UInt64} (hname : d.entries name = none)
    (h : d.write fresh content name = .ok d') :
    d'.entries name = some (.file fresh) ∧ d'.contents fresh = content := by
  rw [write, locate_of_ne_link fun target hlink => by rw [hname] at hlink; cases hlink] at h
  dsimp only at h
  rw [hname] at h
  dsimp only at h
  split_ifs at h
  cases h
  exact ⟨Function.update_self .., Function.update_self ..⟩

omit [DecidableEq ν] in
theorem stat_of_none (h : d.entries name = none) : d.stat name = .error .notFound := by
  rw [stat, locate_of_ne_link fun target hlink => by rw [h] at hlink; cases hlink]
  dsimp only
  rw [h]

omit [DecidableEq ν] in
theorem locate_of_notFound (h : d.stat name = .error .notFound) :
    ∃ place, d.locate name = some place ∧ d.entries place = none := by
  unfold stat at h
  split at h
  · cases h
  · next place hlocate =>
    refine ⟨place, hlocate, ?_⟩
    cases hplace : d.entries place with
    | none => rfl
    | some entry =>
      rw [hplace] at h
      cases entry with
      | file inode => cases h
      | directory inode => cases h
      | link target => exact absurd hplace (ne_link_of_follow hlocate target)

/-- A write to a name that leads to nothing creates the file where it leads. -/
theorem write_of_notFound (h : d.stat name = .error .notFound)
    (hcreatable : ∀ name, d.creatable name = true) (fresh : UInt64) (content : β) :
    ∃ d', d.write fresh content name = .ok d' ∧ d'.FileAt name fresh ∧
      d'.contents fresh = content := by
  obtain ⟨place, hlocate, hplace⟩ := locate_of_notFound h
  have hwrite : d.write fresh content name = .ok { d with
      entries := Function.update d.entries place (some (.file fresh))
      contents := Function.update d.contents fresh content } := by
    rw [write, hlocate]
    dsimp only
    rw [hplace]
    exact if_pos (hcreatable place)
  refine ⟨_, hwrite, ⟨place, ?_, Function.update_self ..⟩, Function.update_self ..⟩
  rw [← hlocate]
  refine locate_congr (fun other target => ?_) ?_ name
  swap
  · rfl
  by_cases heq : other = place
  · subst heq
    simp [hplace]
  · simp only [Function.update_of_ne heq]

theorem rename_cases (h : d.rename source destination = .ok d') :
    (∃ inode, d.entries source = some (.file inode) ∧
     d.entries destination = some (.file inode) ∧ d' = d) ∨
      (∀ inode, d.entries source = some (.file inode) →
       d.entries destination ≠ some (.file inode)) ∧
        d' = d.move source destination := by
  unfold rename at h
  split at h
  · cases h
  · cases h
  · cases h
  · next hnone =>
    split_ifs at h
    cases h
    exact Or.inr ⟨fun inode _ => by rw [hnone]; nofun, rfl⟩
  · next inode other hsource hdestination =>
    split_ifs at h with hsame
    · cases h
      exact Or.inl ⟨inode, hsource, by rw [hdestination, hsame], rfl⟩
    · cases h
      refine Or.inr ⟨fun inode' hinode hother => hsame ?_, rfl⟩
      rw [hsource] at hinode
      rw [hdestination] at hother
      cases hinode
      cases hother
      rfl
  · next hfiles hsource hdestination =>
    cases h
    refine Or.inr ⟨fun inode hinode hother => hfiles inode inode ?_ ?_, rfl⟩
    · exact Option.some.inj (hsource.symm.trans hinode)
    · exact Option.some.inj (hdestination.symm.trans hother)

theorem entry_of_rename (h : d.rename source destination = .ok d') :
    d'.entries destination = d.entries source ∧ d'.contents = d.contents ∧ d'.lead = d.lead := by
  rcases rename_cases h with ⟨inode, hsource, hdestination, rfl⟩ | ⟨-, rfl⟩
  · exact ⟨hdestination.trans hsource.symm, rfl, rfl⟩
  · exact ⟨Function.update_self .., rfl, rfl⟩

theorem rename_file (hsource : d.entries source = some (.file inode))
    (hdestination : ∀ inode, d.entries destination ≠ some (.directory inode))
    (hcreatable : d.creatable destination = true) : ∃ d', d.rename source destination = .ok d' := by
  rw [rename, hsource]
  cases hentry : d.entries destination with
  | none => exact ⟨_, if_pos hcreatable⟩
  | some entry =>
    cases entry with
    | file other =>
      by_cases hsame : inode = other
      · exact ⟨d, if_pos hsame⟩
      · exact ⟨_, if_neg hsame⟩
    | directory other => exact absurd hentry (hdestination other)
    | link target => exact ⟨_, rfl⟩

theorem rename_of_same (hsource : d.entries source = some (.file inode))
    (hdestination : d.entries destination = some (.file inode)) :
    d.rename source destination = .ok d := by
  rw [rename, hsource, hdestination]
  exact if_pos rfl

theorem rename_of_link {target : τ} (hsource : d.entries source = some (.link target))
    (hdestination : d.entries destination = some (.link target)) :
    d.rename source destination = .ok (d.move source destination) := by
  rw [rename, hsource, hdestination]

/-- **A link that takes the place of its twin leads where it led.** -/
theorem fileAt_move_link {target : τ} (h : d.FileAt destination inode)
    (hdestination : d.entries destination = some (.link target))
    (hsource : d.entries source = some (.link target))
    (hlead : d.lead source target = d.lead destination target) (hne : source ≠ destination) :
    (d.move source destination).FileAt destination inode := by
  obtain ⟨place, hlocate, hplace⟩ := h
  have hother : ∀ other, other ≠ source →
    (d.move source destination).entries other = d.entries other := by
    intro other hother
    by_cases heq : other = destination
    · rw [heq, hdestination, ← hsource]
      exact Function.update_self ..
    · rw [move]
      dsimp only
      rw [Function.update_of_ne heq, Function.update_of_ne hother]
  have hstart : d.follow 39 (d.lead source target) = some place := by
    rwa [locate, maxLinks, follow_of_link hdestination, ← hlead] at hlocate
  -- the shortest way from the target never comes to the name that is gone
  have hexists : ∃ links, d.follow links (d.lead source target) = some place := ⟨39, hstart⟩
  classical
  have hway : ∀ links, links ≤ Nat.find hexists → ∀ other, d.follow links other = some place →
      (d.move source destination).follow links other = some place := by
    intro links
    induction links with
    | zero =>
      intro _ other hfollow
      by_cases hlink : ∃ target, d.entries other = some (.link target)
      · rw [follow_zero_of_link hlink.choose_spec] at hfollow
        cases hfollow
      · have hne : other ≠ source := fun heq => hlink ⟨target, by rw [heq, hsource]⟩
        rw [follow_of_ne_link (by rw [hother other hne]; exact not_exists.mp hlink)]
        rwa [follow_of_ne_link (not_exists.mp hlink)] at hfollow
    | succ links ih =>
      intro hle other hfollow
      have hne : other ≠ source := by
        rintro rfl
        rw [follow_of_link hsource] at hfollow
        have := Nat.find_min' hexists hfollow
        omega
      by_cases hlink : ∃ target, d.entries other = some (.link target)
      · obtain ⟨next, hlink⟩ := hlink
        rw [follow_of_link hlink] at hfollow
        rw [follow_of_link ((hother other hne).trans hlink)]
        exact ih (by omega) _ hfollow
      · rw [follow_of_ne_link (by rw [hother other hne]; exact not_exists.mp hlink)]
        rwa [follow_of_ne_link (not_exists.mp hlink)] at hfollow
  have hle : Nat.find hexists ≤ 39 := Nat.find_min' hexists hstart
  have hend := follow_mono hle (hway _ le_rfl _ (Nat.find_spec hexists))
  have hplace' : place ≠ source := by
    rintro rfl
    rw [hsource] at hplace
    cases hplace
  refine ⟨place, ?_, (hother place hplace').trans hplace⟩
  rw [locate, maxLinks, follow_of_link ((hother destination (Ne.symm hne)).trans hdestination)]
  change (d.move source destination).follow 39 (d.lead destination target) = some place
  rwa [← hlead]

/-! ## Open files -/

/-- What a name shows: the content of a file, a directory, or where a link leads. -/
inductive Shown (τ β : Type*) where
  | file (content : β)
  | directory (inode : UInt64)
  | link (target : τ)

/-- What a name shows. -/
def shows (d : Disk ν τ β) (name : ν) : Option (Shown τ β) :=
  match d.entries name with
  | none => none
  | some (.file inode) => some (.file (d.contents inode))
  | some (.directory inode) => some (.directory inode)
  | some (.link target) => some (.link target)

/-- Replace the content of an open file. -/
def fill (d : Disk ν τ β) (file : UInt64) (content : β) : Disk ν τ β :=
  { d with contents := Function.update d.contents file content }

/-- A file that is created at a name. -/
def create (d : Disk ν τ β) (inode : UInt64) (place : ν) (empty : β) : Disk ν τ β :=
  { d with
    entries := Function.update d.entries place (some (.file inode))
    contents := Function.update d.contents inode empty }

/-- Open a new file at a name that stands for nothing (`O_EXCL`). -/
def openNew (d : Disk ν τ β) (inode : UInt64) (name : ν) (empty : β) :
    Option (UInt64 × Disk ν τ β) :=
  match d.entries name with
  | some _ => none
  | none => if d.creatable name then some (inode, d.create inode name empty) else none

/-- Open the file at the end of a name and empty it, or create it (`O_TRUNC`). -/
def openTruncate (d : Disk ν τ β) (inode : UInt64) (name : ν) (empty : β) :
    Option (UInt64 × Disk ν τ β) :=
  match d.locate name with
  | none => none
  | some place =>
    match d.entries place with
    | some (.file file) => some (file, d.fill file empty)
    | some (.directory _) => none
    | _ => if d.creatable place then some (inode, d.create inode place empty) else none

omit [DecidableEq ν] in
theorem shows_file {file : UInt64} (h : d.entries name = some (.file file)) :
    d.shows name = some (.file (d.contents file)) := by
  rw [shows, h]

omit [DecidableEq ν] in
theorem shows_fill {file : UInt64} (h : d.entries name = some (.file file)) (content : β) :
    (d.fill file content).shows name = some (.file content) := by
  rw [shows_file (d := d.fill file content) h]
  simp only [fill, Function.update_self]

omit [DecidableEq ν] in
theorem shows_fill_of_ne {file : UInt64} (h : d.entries name ≠ some (.file file)) (content : β) :
    (d.fill file content).shows name = d.shows name := by
  simp only [shows, fill]
  cases hname : d.entries name with
  | none => rfl
  | some entry =>
    cases entry with
    | file other =>
      dsimp only
      rw [Function.update_of_ne]
      rintro rfl
      exact h hname
    | directory other => rfl
    | link target => rfl

theorem fill_create (d : Disk ν τ β) (inode : UInt64) (place : ν) (empty content : β) :
    (d.create inode place empty).fill inode content = d.create inode place content := by
  simp only [fill, create, Function.update_idem]

omit [DecidableEq ν] in
theorem fill_fill (d : Disk ν τ β) (file : UInt64) (first second : β) :
    (d.fill file first).fill file second = d.fill file second := by
  simp only [fill, Function.update_idem]

/-- A file with an unused inode is the only one that appears. -/
theorem shows_create (hfresh : ¬ d.InUse inode) (place : ν) (empty : β) (name : ν) :
    (d.create inode place empty).shows name = if name = place then some (.file empty)
    else d.shows name := by
  by_cases heq : name = place
  · subst heq
    rw [if_pos rfl]
    simp only [shows, create, Function.update_self]
  · rw [if_neg heq]
    simp only [shows, create, Function.update_of_ne heq]
    cases hname : d.entries name with
    | none => rfl
    | some entry =>
      cases entry with
      | file other =>
        dsimp only
        rw [Function.update_of_ne]
        rintro rfl
        exact hfresh ⟨name, .inl hname⟩
      | directory other => rfl
      | link target => rfl

/-- What an opened name is: a file that was there, or one that is created. -/
theorem openTruncate_cases (d : Disk ν τ β) (inode : UInt64) (name : ν) (empty : β) :
    (∃ place file, d.locate name = some place ∧ d.entries place = some (.file file) ∧
      d.openTruncate inode name empty = some (file, d.fill file empty)) ∨
    (∃ place, d.locate name = some place ∧ d.entries place = none ∧ d.creatable place = true ∧
      d.openTruncate inode name empty = some (inode, d.create inode place empty)) ∨
    d.openTruncate inode name empty = none := by
  rw [openTruncate]
  cases hlocate : d.locate name with
  | none => exact .inr (.inr rfl)
  | some place =>
    dsimp only
    cases hplace : d.entries place with
    | none =>
      by_cases hcreatable : d.creatable place = true
      · exact .inr (.inl ⟨place, rfl, hplace, hcreatable, if_pos hcreatable⟩)
      · exact .inr (.inr (if_neg hcreatable))
    | some entry =>
      cases entry with
      | file file => exact .inl ⟨place, file, rfl, hplace, rfl⟩
      | directory other => exact .inr (.inr rfl)
      | link target => exact absurd hplace (ne_link_of_follow hlocate target)

/-- What is no directory is renamed over whatever is none. -/
theorem rename_ok {entry : Entry τ} (hsource : d.entries source = some entry)
    (hfile : ∀ inode, entry ≠ .directory inode)
    (hdestination : ∀ inode, d.entries destination ≠ some (.directory inode))
    (hcreatable : d.entries destination = none → d.creatable destination = true) :
    ∃ d', d.rename source destination = .ok d' := by
  cases entry with
  | directory inode => exact absurd rfl (hfile inode)
  | file inode =>
    cases hentry : d.entries destination with
    | none => exact rename_file hsource hdestination (hcreatable hentry)
    | some other =>
      rw [rename, hsource, hentry]
      cases other with
      | file other =>
        by_cases hsame : inode = other
        · exact ⟨d, if_pos hsame⟩
        · exact ⟨_, if_neg hsame⟩
      | directory other => exact absurd hentry (hdestination other)
      | link target => exact ⟨_, rfl⟩
  | link target =>
    rw [rename, hsource]
    cases hentry : d.entries destination with
    | none => exact ⟨_, if_pos (hcreatable hentry)⟩
    | some other =>
      cases other with
      | file other => exact ⟨_, rfl⟩
      | directory other => exact absurd hentry (hdestination other)
      | link target => exact ⟨_, rfl⟩

theorem rename_over_directory (hdestination : d.entries destination = some (.directory inode)) :
    ∃ error, d.rename source destination = .error error := by
  rw [rename, hdestination]
  cases d.entries source with
  | none => exact ⟨_, rfl⟩
  | some entry => cases entry <;> exact ⟨_, rfl⟩

end Disk

end FileSystem
