import ProtonWire.Ipc.Bind
import ProtonWire.Lib.Runs

/-!
# Who owns the public socket

The probe, the unlink and the publish are separate calls on names, so between two of them a name can
come to stand for something else: a start that probed a dead socket removes the one another daemon
has published since, and a start publishes the socket another process left under the staged name
they share.

* `SocketDir.Undisturbed`: the name such a call acts on still stands for what its process looked at
  or made;
* `SocketDir.Owned`: the invariant of the runs whose calls are all undisturbed;
* **`SocketDir.socket_of_server`**: along them the public path names the socket of the server bound
  to it, whatever the others do;
* `SocketDir.probed_then_replaced`: a server that lost its name.
-/

namespace ProtonWire

/-- The inode a process published under the public path, from its `hard_link` to its drop. -/
def BindPc.named : BindPc → Option ℕ
  | .removeStaged inode | .removeStaging inode | .pin inode | .chown inode | .serving inode =>
    some inode
  | _ => none

/-- The entry whose removal the probe authorized. -/
def BindPc.probed : BindPc → Option Entry
  | .unlink entry => some entry
  | _ => none

theorem BindPc.held_of_named {pc : BindPc} {inode : ℕ} (h : pc.named = some inode) :
    pc.held = some inode := by
  cases pc <;> simp_all [BindPc.named, BindPc.held]

namespace SocketDir

variable {P : Type*} [DecidableEq P] {w : SocketDir P} {p q : P}

/-! ## Updates -/

@[simp] theorem goto_self (w : SocketDir P) (p : P) (pc : BindPc) :
    ((w.goto p pc).process p).pc = pc := by
  simp [goto]

@[simp] theorem goto_of_ne (w : SocketDir P) {p q : P} (h : q ≠ p) (pc : BindPc) :
    (w.goto p pc).process q = w.process q := by
  simp [goto, h]

/-! ## The condition -/

/-- The name `p`'s call acts on still stands for what `p` inspected, or made, or for nothing. -/
def ActsOnOwn (w : SocketDir P) (p : P) : BindPc → Prop
  | .unlink probed => w.socketPath = none ∨ w.socketPath = some probed
  | .publish inode => w.stagedOf p = none ∨ w.stagedOf p = some inode
  | _ => True

/-- **The calls that meet no other process's.** Only the unlink of a start and its publish can fail
to. -/
def Undisturbed (w : SocketDir P) : Action P → Prop
  | .call p fails => fails = true ∨ w.ActsOnOwn p (w.process p).pc
  | _ => True

instance (w : SocketDir P) (p : P) (pc : BindPc) : Decidable (w.ActsOnOwn p pc) := by
  unfold ActsOnOwn
  split <;> infer_instance

instance (w : SocketDir P) (a : Action P) : Decidable (w.Undisturbed a) := by
  unfold Undisturbed
  split <;> infer_instance

/-- A directory before any of the processes has started. The inode that is given out next is in use
by no listener and named by no entry. -/
structure Untouched (w : SocketDir P) : Prop where
  idle : ∀ p, (w.process p).pc = .idle
  listening : ∀ inode ∈ w.listeners, inode < w.nextInode
  entry : ∀ inode, w.socketPath = some (.socket inode) → inode < w.nextInode

/-! ## The invariant -/

/-- **The invariant.** Listeners and names belong to one process each, and what a start may remove
is a socket no one listens on. -/
structure Owned (w : SocketDir P) : Prop where
  listening : ∀ inode ∈ w.listeners, inode < w.nextInode
  entry : ∀ inode, w.socketPath = some (.socket inode) → inode < w.nextInode
  held : ∀ p inode, (w.process p).pc.held = some inode → inode ∈ w.listeners
  apart : ∀ p q inode, (w.process p).pc.held = some inode →
    (w.process q).pc.held = some inode → p = q
  stale : ∀ p inode, (w.process p).pc.probed = some (.socket inode) →
    inode ∉ w.listeners ∧ inode < w.nextInode
  named : ∀ p inode, (w.process p).pc.named = some inode → w.socketPath = some (.socket inode)

omit [DecidableEq P] in
theorem Untouched.owned (h : w.Untouched) : w.Owned where
  listening := h.listening
  entry := h.entry
  held p inode hp := by simp [h.idle, BindPc.held] at hp
  apart p q inode hp := by simp [h.idle, BindPc.held] at hp
  stale p inode hp := by simp [h.idle, BindPc.probed] at hp
  named p inode hp := by simp [h.idle, BindPc.named] at hp

omit [DecidableEq P] in
theorem Owned.of_pc (h : w.Owned) {process : P → BindProcess}
    (hpc : ∀ p, (process p).pc = (w.process p).pc) (staging : ℕ → Option (Option ℕ)) :
    ({ w with staging := staging, process := process } : SocketDir P).Owned := by
  constructor
  case listening => exact h.listening
  case entry => exact h.entry
  all_goals simp only [hpc]
  case held => exact h.held
  case apart => exact h.apart
  case stale => exact h.stale
  case named => exact h.named

omit [DecidableEq P] in
theorem Owned.setStaging (h : w.Owned) (p : P) (dir : Option (Option ℕ)) :
    (w.setStaging p dir).Owned :=
  h.of_pc (fun _ => rfl) _

/-- `p` goes on with the listener it has, and the public path comes to name `path`. -/
theorem Owned.rename (h : w.Owned) {pc : BindPc} {path : Option Entry}
    (hheld : pc.held = (w.process p).pc.held)
    (hprobed : ∀ inode, pc.probed = some (.socket inode) → inode ∉ w.listeners ∧
     inode < w.nextInode)
    (hentry : ∀ inode, path = some (.socket inode) → inode < w.nextInode)
    (hself : ∀ inode, pc.named = some inode → path = some (.socket inode))
    (hother : ∀ q, q ≠ p → ∀ inode, (w.process q).pc.named = some inode →
     path = some (.socket inode)) :
    (({ w with socketPath := path } : SocketDir P).goto p pc).Owned := by
  have hsame : ∀ q, ((({ w with socketPath := path } : SocketDir P).goto p pc).process q).pc.held =
      (w.process q).pc.held := by
    intro q
    by_cases hq : q = p
    · rw [hq, goto_self, hheld]
    · rw [goto_of_ne _ hq]
  constructor
  case listening => exact h.listening
  case entry => exact hentry
  case held =>
    intro q inode hq
    rw [hsame] at hq
    exact h.held q inode hq
  case apart =>
    intro q r inode hq hr
    rw [hsame] at hq hr
    exact h.apart q r inode hq hr
  case stale =>
    intro q inode hq
    by_cases hqp : q = p
    · rw [hqp, goto_self] at hq
      exact hprobed inode hq
    · rw [goto_of_ne _ hqp] at hq
      exact h.stale q inode hq
  case named =>
    intro q inode hq
    by_cases hqp : q = p
    · rw [hqp, goto_self] at hq
      exact hself inode hq
    · rw [goto_of_ne _ hqp] at hq
      exact hother q hqp inode hq

/-- `p` goes on with the listener it has, and the public path is left alone. -/
theorem Owned.goto (h : w.Owned) {pc : BindPc} (hheld : pc.held = (w.process p).pc.held)
    (hnamed : pc.named = none ∨ pc.named = (w.process p).pc.named)
    (hprobed : ∀ inode, pc.probed = some (.socket inode) → inode ∉ w.listeners ∧
     inode < w.nextInode) :
    (w.goto p pc).Owned := by
  have hself : ∀ inode, pc.named = some inode → w.socketPath = some (.socket inode) := by
    intro inode hi
    rcases hnamed with hnone | hkeep
    · simp [hnone] at hi
    · exact h.named p inode (hkeep ▸ hi)
  exact h.rename hheld hprobed h.entry hself fun q _ => h.named q

theorem Owned.close (h : w.Owned) {inode : ℕ} (hp : (w.process p).pc.held = some inode)
    {pc : BindPc}
    (hheld : pc.held = none) (hprobed : pc.probed = none) : ((w.close inode).goto p pc).Owned where
  listening i hi := h.listening i (List.mem_of_mem_filter hi)
  entry := h.entry
  held q i hq := by
    by_cases hqp : q = p
    · simp [hqp, hheld] at hq
    · rw [goto_of_ne _ hqp] at hq
      refine List.mem_filter.mpr ⟨h.held q i hq, decide_eq_true fun hi => hqp ?_⟩
      exact h.apart q p inode (hi ▸ hq) hp
  apart q r i hq hr := by
    by_cases hqp : q = p
    · simp [hqp, hheld] at hq
    · by_cases hrp : r = p
      · simp [hrp, hheld] at hr
      · rw [goto_of_ne _ hqp] at hq
        rw [goto_of_ne _ hrp] at hr
        exact h.apart q r i hq hr
  stale q i hq := by
    by_cases hqp : q = p
    · simp [hqp, hprobed] at hq
    · rw [goto_of_ne _ hqp] at hq
      obtain ⟨hdead, hlt⟩ := h.stale q i hq
      exact ⟨fun hi => hdead (List.mem_of_mem_filter hi), hlt⟩
  named q i hq := by
    by_cases hqp : q = p
    · rw [hqp, goto_self] at hq
      exact absurd (BindPc.held_of_named hq) (by simp [hheld])
    · rw [goto_of_ne _ hqp] at hq
      exact h.named q i hq

theorem Owned.listen (h : w.Owned) (p : P) :
    (({ w with listeners := w.nextInode :: w.listeners, nextInode := w.nextInode + 1 } :
      SocketDir P).goto p
      (.chmodStaged w.nextInode)).Owned where
  listening i hi := by
    rcases List.mem_cons.mp hi with rfl | hi
    · exact Nat.lt_succ_self _
    · exact (h.listening i hi).trans (Nat.lt_succ_self _)
  entry i hi := (h.entry i hi).trans (Nat.lt_succ_self _)
  held q i hq := by
    by_cases hqp : q = p
    · rw [hqp, goto_self] at hq
      exact List.mem_cons.mpr (.inl (Option.some.inj hq).symm)
    · rw [goto_of_ne _ hqp] at hq
      exact List.mem_cons_of_mem _ (h.held q i hq)
  apart q r i hq hr := by
    -- no process holds the fresh inode yet
    have hother : ∀ s, s ≠ p → (w.process s).pc.held ≠ some w.nextInode := fun s _ hs =>
      Nat.lt_irrefl _ (h.listening _ (h.held s _ hs))
    by_cases hqp : q = p <;> by_cases hrp : r = p
    · rw [hqp, hrp]
    · rw [hqp, goto_self] at hq
      rw [goto_of_ne _ hrp, ← Option.some.inj hq] at hr
      exact absurd hr (hother r hrp)
    · rw [hrp, goto_self] at hr
      rw [goto_of_ne _ hqp, ← Option.some.inj hr] at hq
      exact absurd hq (hother q hqp)
    · rw [goto_of_ne _ hqp] at hq
      rw [goto_of_ne _ hrp] at hr
      exact h.apart q r i hq hr
  stale q i hq := by
    by_cases hqp : q = p
    · simp [hqp, BindPc.probed] at hq
    · rw [goto_of_ne _ hqp] at hq
      obtain ⟨hdead, hlt⟩ := h.stale q i hq
      refine ⟨fun hi => ?_, hlt.trans (Nat.lt_succ_self _)⟩
      rcases List.mem_cons.mp hi with rfl | hi
      · exact Nat.lt_irrefl _ hlt
      · exact hdead hi
  named q i hq := by
    by_cases hqp : q = p
    · simp [hqp, BindPc.named] at hq
    · rw [goto_of_ne _ hqp] at hq
      exact h.named q i hq

theorem Owned.publish (h : w.Owned) {inode : ℕ} (hp : (w.process p).pc = .publish inode)
    (hfree : w.socketPath = none) :
    (({ w with socketPath := some (.socket inode) } : SocketDir P).goto p
     (.removeStaged inode)).Owned := by
  have hmine : inode ∈ w.listeners := h.held p inode (by rw [hp]; rfl)
  refine h.rename (by rw [hp]; rfl) (by simp [BindPc.probed]) (fun i hi => ?_) (fun i hi => ?_)
    fun q _ i hq => absurd (h.named q i hq) (by simp [hfree])
  · obtain rfl : inode = i := by simpa using hi
    exact h.listening inode hmine
  · rw [← Option.some.inj hi]

theorem Owned.unlink (h : w.Owned) {entry : Entry} (hp : (w.process p).pc = .unlink entry)
    (hentry : w.socketPath = some entry) :
    (({ w with socketPath := none } : SocketDir P).goto p .clear).Owned := by
  refine h.rename (by rw [hp]; rfl) (by simp [BindPc.probed]) (by simp) (by simp [BindPc.named])
    fun q _ inode hq => ?_
  -- a named socket has a listener, and the probed one has none
  have hnamed : entry = .socket inode := Option.some.inj (hentry.symm.trans (h.named q inode hq))
  have hlive : inode ∈ w.listeners := h.held q inode (BindPc.held_of_named hq)
  exact absurd hlive (h.stale p inode (by rw [hp, hnamed]; rfl)).1

theorem Owned.drop (h : w.Owned) {inode : ℕ} (hp : (w.process p).pc = .serving inode)
    (path : Option Entry) (hpath : path = none ∨ path = w.socketPath) :
    (({ w with socketPath := path } : SocketDir P).goto p (.closing inode none)).Owned := by
  have hmine : w.socketPath = some (.socket inode) := h.named p inode (by rw [hp]; rfl)
  refine h.rename (by rw [hp]; rfl) (by simp [BindPc.probed]) (fun i hi => ?_)
    (by simp [BindPc.named])
    fun q hqp i hq => ?_
  · rcases hpath with rfl | rfl
    · cases hi
    · exact h.entry i hi
  · -- another server would be bound to the same inode
    have hi : inode = i := by simpa [hmine] using h.named q i hq
    exact absurd (h.apart q p i (BindPc.held_of_named hq) (by rw [hp, hi]; rfl)) hqp

/-! ## The steps keep it -/

theorem Owned.fail (h : w.Owned) (hheld : (w.process p).pc.held = none) (e : BindError) :
    (w.fail p e).1.Owned :=
  h.goto (by rw [hheld]; rfl) (.inl rfl) (by simp [BindPc.probed])

theorem Owned.abandon (h : w.Owned) {held : Option ℕ} (hheld : (w.process p).pc.held = held)
    (e : BindError) :
    (w.goto p (.abandon held e)).Owned :=
  h.goto (by rw [hheld]; rfl) (.inl rfl) (by simp [BindPc.probed])

theorem Owned.failed_close (h : w.Owned) {inode : ℕ} (hheld : (w.process p).pc.held = some inode)
    (e : Option BindError) : (w.goto p (.closing inode e)).Owned :=
  h.goto (by rw [hheld]; rfl) (.inl rfl) (by simp [BindPc.probed])

/-- A refused probe authorizes the removal of a socket no one listens on. -/
theorem Owned.probe (h : w.Owned) (hp : (w.process p).pc = .probe) : (w.probe p).1.Owned := by
  have hfail : ∀ e, (w.fail p e).1.Owned := h.fail (by rw [hp]; rfl)
  unfold SocketDir.probe
  split
  · rename_i entry hentry hrefused
    refine h.goto (by rw [hp]; rfl) (.inl rfl) fun inode hi => ?_
    obtain rfl : entry = .socket inode := Option.some.inj hi
    refine ⟨fun hlive => ?_, h.entry inode hentry⟩
    simp [SocketDir.connect, hentry, hlive] at hrefused
  · exact hfail _
  · exact hfail _

theorem Owned.before_listen (h : w.Owned) {pc : BindPc} (hheld : (w.process p).pc.held = none)
    (hpc : pc.held = none) (hprobed : pc.probed = none) : (w.goto p pc).Owned := by
  refine h.goto (by rw [hheld, hpc]) (.inl ?_) (by simp [hprobed])
  cases hn : pc.named with
  | none => rfl
  | some inode => simp [BindPc.held_of_named hn] at hpc

theorem Owned.judge (h : w.Owned) (hp : (w.process p).pc = .judge) : (w.judge p).1.Owned := by
  have hheld : (w.process p).pc.held = none := by rw [hp]; rfl
  unfold SocketDir.judge
  split
  · exact h.fail hheld _
  · exact h.before_listen hheld rfl rfl
  · exact h.before_listen hheld rfl rfl
  · exact h.fail hheld _

theorem Owned.followLink (h : w.Owned) (hp : (w.process p).pc = .follow) :
    (w.followLink p).1.Owned := by
  have hheld : (w.process p).pc.held = none := by rw [hp]; rfl
  unfold SocketDir.followLink
  split
  case h_1 | h_2 => exact h.before_listen hheld rfl rfl
  all_goals exact h.fail hheld _

theorem Owned.unlink_step (h : w.Owned) {probed : Entry} (hp : (w.process p).pc = .unlink probed)
    (hok : w.socketPath = none ∨ w.socketPath = some probed) : (w.unlink p).1.Owned := by
  have hheld : (w.process p).pc.held = none := by rw [hp]; rfl
  unfold SocketDir.unlink
  split
  · exact h.fail hheld _
  · exact h.fail hheld _
  · rename_i entry _ hentry
    exact h.unlink hp (hok.resolve_left (by simp [hentry]))

theorem Owned.clear (h : w.Owned) (hp : (w.process p).pc = .clear) (fails : Bool) :
    (w.clear p fails).1.Owned := by
  have hnext : (w.goto p .makeStaging).Owned := h.before_listen (by rw [hp]; rfl) rfl rfl
  refine hnext.of_pc (fun q => ?_) _
  by_cases hq : q = p <;> simp [SocketDir.goto, hq]

theorem Owned.listen_step (h : w.Owned) (hp : (w.process p).pc = .listen) :
    (w.listen p).1.Owned := by
  have hheld : (w.process p).pc.held = none := by rw [hp]; rfl
  unfold SocketDir.listen
  split
  · exact (h.setStaging p _).listen p
  · exact h.abandon hheld _

theorem Owned.publish_step (h : w.Owned) {inode : ℕ} (hp : (w.process p).pc = .publish inode)
    (hok : w.stagedOf p = none ∨ w.stagedOf p = some inode) : (w.publish p inode).1.Owned := by
  unfold SocketDir.publish
  split
  · rename_i staged hfree hstaged
    obtain rfl : inode = staged := by simpa [hstaged, eq_comm] using hok
    exact h.publish hp hfree
  · exact h.abandon (by rw [hp]; rfl) _

omit [DecidableEq P] in
theorem Owned.unstaged (h : w.Owned) (p : P) (fails : Bool) (dir : Option (Option ℕ)) :
    (if fails then w else w.setStaging p dir).Owned := by
  split
  · exact h
  · exact h.setStaging p dir

omit [DecidableEq P] in
theorem pc_unstaged (w : SocketDir P) (p : P) (fails : Bool) (dir : Option (Option ℕ)) :
    ((if fails then w else w.setStaging p dir).process p).pc = (w.process p).pc := by
  split <;> rfl

/-- **A call keeps the invariant** when it is undisturbed. -/
theorem Owned.call (h : w.Owned) (fails : Bool)
    (hok : fails = true ∨ w.ActsOnOwn p (w.process p).pc) :
    (w.call p fails).1.Owned := by
  have hfail : (w.process p).pc.held = none → ∀ e, (w.fail p e).1.Owned := fun hheld e =>
    h.fail hheld e
  have hgoto : (w.process p).pc.held = none → ∀ {pc : BindPc}, pc.held = none → pc.probed = none →
      (w.goto p pc).Owned := fun hheld => h.before_listen hheld
  unfold SocketDir.call
  cases hp : (w.process p).pc with
  | idle | serving _ | dead => exact h
  | prepare =>
    rw [hp] at hfail hgoto
    dsimp only
    split
    · exact hfail rfl _
    · exact hgoto rfl rfl rfl
  | lookup =>
    rw [hp] at hfail hgoto
    dsimp only
    split
    · exact hfail rfl _
    · split <;> exact hgoto rfl rfl rfl
  | judge =>
    rw [hp] at hfail
    dsimp only
    split
    · exact hfail rfl _
    · exact h.judge hp
  | follow =>
    rw [hp] at hfail
    dsimp only
    split
    · exact hfail rfl _
    · exact h.followLink hp
  | probe =>
    rw [hp] at hfail
    dsimp only
    split
    · exact hfail rfl _
    · exact h.probe hp
  | unlink probed =>
    rw [hp] at hfail hok
    dsimp only
    split
    · exact hfail rfl _
    · rename_i hdone
      exact h.unlink_step hp (hok.resolve_left hdone)
  | clear => exact h.clear hp fails
  | makeStaging =>
    rw [hp] at hfail
    dsimp only
    split
    · exact hfail rfl _
    · exact (h.setStaging p _).before_listen (congrArg BindPc.held hp) rfl rfl
  | chmodStaging =>
    rw [hp] at hgoto
    dsimp only
    split <;> exact hgoto rfl rfl rfl
  | listen =>
    rw [hp] at hgoto
    dsimp only
    split
    · exact hgoto rfl rfl rfl
    · exact h.listen_step hp
  | chmodStaged inode =>
    dsimp only
    split
    · exact h.abandon (congrArg BindPc.held hp) _
    · exact h.goto (by rw [hp]; rfl) (.inl rfl) (by simp [BindPc.probed])
  | publish inode =>
    rw [hp] at hok
    dsimp only
    split
    · exact h.abandon (congrArg BindPc.held hp) _
    · rename_i hdone
      exact h.publish_step hp (hok.resolve_left hdone)
  | removeStaged inode | removeStaging inode =>
    exact (h.unstaged p fails _).goto (by rw [pc_unstaged, hp]; rfl)
      (.inr (by rw [pc_unstaged, hp]; rfl))
      (by simp [BindPc.probed])
  | pin inode =>
    dsimp only
    split
    · exact h.failed_close (congrArg BindPc.held hp) _
    · split <;> exact h.goto (by rw [hp]; rfl) (.inr (by rw [hp]; rfl)) (by simp [BindPc.probed])
  | chown inode =>
    dsimp only
    split
    · exact h.failed_close (congrArg BindPc.held hp) _
    · exact h.goto (by rw [hp]; rfl) (.inr (by rw [hp]; rfl)) (by simp [BindPc.probed])
  | abandon held error =>
    have hheld := congrArg BindPc.held ((pc_unstaged w p fails none).trans hp)
    cases held with
    | none => exact (h.unstaged p fails none).fail hheld _
    | some inode => exact (h.unstaged p fails none).failed_close hheld _
  | closing inode error => cases error <;> exact h.close (congrArg BindPc.held hp) rfl rfl

theorem Owned.drop_step (h : w.Owned) (p : P) (fails : Bool) : (w.drop p fails).Owned := by
  unfold SocketDir.drop
  split
  · rename_i inode hp
    have hmine : w.socketPath = some (.socket inode) := h.named p inode (by rw [hp]; rfl)
    refine h.drop hp _ ?_
    cases fails with
    | true => exact .inr rfl
    | false => exact .inl (by simp [hmine])
  · exact h

theorem Owned.crash (h : w.Owned) (p : P) : (w.crash p).Owned := by
  unfold SocketDir.crash
  split
  · rename_i hheld
    exact h.before_listen hheld rfl rfl
  · rename_i inode hheld
    exact h.close hheld rfl rfl

/-- **One step.** -/
theorem Owned.step (h : w.Owned) (a : Action P) (hok : w.Undisturbed a) : (w.step a).1.Owned := by
  cases a with
  | start p =>
    unfold SocketDir.step
    dsimp only
    split
    · rename_i hp
      exact h.before_listen (by rw [hp]; rfl) rfl rfl
    · exact h
  | call p fails => exact h.call fails hok
  | drop p fails => exact h.drop_step p fails
  | crash p => exact h.crash p

/-- **Every run.** -/
theorem Untouched.run (h : w.Untouched) (as : List (Action P))
    (has : Machine.Along SocketDir.step Undisturbed w as) :
    (Machine.run SocketDir.step w as).1.Owned :=
  Machine.run_inv_of_steps Undisturbed (fun w _ => w.Owned)
  (fun _ _ a hok h => h.step a hok) w h.owned as has.at_step

/-! ## Serving -/

/-- The process an action is of. -/
def Action.actor : Action P → P
  | .start p | .call p _ | .drop p _ | .crash p => p

theorem step_of_ne (w : SocketDir P) (a : Action P) {q : P} (h : q ≠ a.actor) :
    (w.step a).1.process q = w.process q := by
  have hgoto : ∀ (v : SocketDir P) (pc : BindPc), (v.goto a.actor pc).process q = v.process q :=
    fun v pc => goto_of_ne v h pc
  cases a with
  | start p =>
    unfold SocketDir.step
    dsimp only
    split
    · exact hgoto w _
    · rfl
  | call p fails =>
    show (w.call p fails).1.process q = w.process q
    have hne : q ≠ p := h
    unfold SocketDir.call SocketDir.judge SocketDir.followLink SocketDir.probe SocketDir.unlink
      SocketDir.clear
      SocketDir.listen SocketDir.publish
    cases (w.process p).pc <;> dsimp only <;> (repeat' split) <;>
      simp [SocketDir.fail, SocketDir.serve, SocketDir.setStaging, SocketDir.close, hne]
  | drop p fails =>
    show (w.drop p fails).process q = w.process q
    unfold SocketDir.drop
    split
    · exact hgoto _ _
    · rfl
  | crash p =>
    show (w.crash p).process q = w.process q
    unfold SocketDir.crash
    split <;> exact hgoto _ _

theorem serving_step {inode : ℕ} (hp : (w.process p).pc = .serving inode) (a : Action P)
    (hdrop : ∀ fails, a ≠ .drop p fails) (hcrash : a ≠ .crash p) :
    ((w.step a).1.process p).pc = .serving inode := by
  by_cases h : p = a.actor
  · cases a with
    | start q => 
      obtain rfl : p = q := h
      simp [SocketDir.step, hp]
    | call q fails =>
      obtain rfl : p = q := h
      simp [SocketDir.step, SocketDir.call, hp]
    | drop q fails => exact absurd (by rw [h]; rfl) (hdrop fails)
    | crash q => exact absurd (by rw [h]; rfl) hcrash
  · rw [step_of_ne w a h, hp]

theorem serving_of_returned {inode : ℕ} (a : Action P) (h : (p, .ok inode) ∈ (w.step a).2) :
    ((w.step a).1.process p).pc = .serving inode := by
  have hserve : ∀ q i, (p, Except.ok inode) ∈ (w.serve q i).2 →
      ((w.serve q i).1.process p).pc = .serving inode := by
    intro q i hret
    obtain ⟨rfl, rfl⟩ : p = q ∧ inode = i := by simpa [SocketDir.serve] using hret
    exact goto_self _ _ _
  cases a with
  | start q =>
    unfold SocketDir.step at h
    dsimp only at h
    split at h <;> cases h
  | drop q fails => cases h
  | crash q => cases h
  | call q fails =>
    change ((w.call q fails).1.process p).pc = .serving inode
    change _ ∈ (w.call q fails).2 at h
    revert h
    unfold SocketDir.call SocketDir.judge SocketDir.followLink SocketDir.probe SocketDir.unlink
      SocketDir.clear
      SocketDir.listen SocketDir.publish
    cases (w.process q).pc <;> dsimp only <;> (repeat' split) <;>
      first | exact hserve _ _ | simp [SocketDir.fail]

/-! ## The public socket -/

/-- **One server owns the public socket**: the public path names its inode, there is no second
server, and no further undisturbed step, of a start or a drop of another process above all, takes
the name away. -/
structure Exclusive (w : SocketDir P) : Prop where
  named : ∀ p inode, (w.process p).pc = .serving inode → w.socketPath = some (.socket inode)
  alone : ∀ p q inode inode', (w.process p).pc = .serving inode →
    (w.process q).pc = .serving inode' → p = q
  returned : ∀ a p inode, (p, .ok inode) ∈ (w.step a).2 →
    ((w.step a).1.process p).pc = .serving inode
  kept : ∀ a p inode, w.Undisturbed a → (w.process p).pc = .serving inode →
    (∀ fails, a ≠ .drop p fails) →
    a ≠ .crash p →
      ((w.step a).1.process p).pc = .serving inode ∧ (w.step a).1.socketPath = some (.socket inode)

theorem Owned.exclusive (h : w.Owned) : w.Exclusive where
  named p inode hp := h.named p inode (by rw [hp]; rfl)
  alone p q inode inode' hp hq := by
    have hsame : inode = inode' := by
      simpa [h.named p inode (by rw [hp]; rfl)] using h.named q inode' (by rw [hq]; rfl)
    exact h.apart p q inode (by rw [hp]; rfl) (by rw [hq, hsame]; rfl)
  returned a p inode hret := serving_of_returned a hret
  kept a p inode hok hp hdrop hcrash := by
    have hstill := serving_step hp a hdrop hcrash
    exact ⟨hstill, (h.step a hok).named p inode (by rw [hstill]; rfl)⟩

/-- **The public socket belongs to one live daemon, along every run of undisturbed calls.** -/
theorem socket_of_server (w : SocketDir P) (hw : w.Untouched) (as : List (Action P))
    (has : Machine.Along SocketDir.step Undisturbed w as) :
    (Machine.run SocketDir.step w as).1.Exclusive :=
  (hw.run as has).exclusive

/-! ## Runs that are disturbed -/

/-- A directory in which a daemon died, and two that have not started. -/
def afterCrash : SocketDir (Fin 2) where
  socketPath := some (.socket 0)
  staging _ := none
  listeners := []
  nextInode := 1
  process _ := ⟨.idle, 0, 0, false⟩

theorem untouched_afterCrash : afterCrash.Untouched where
  idle _ := rfl
  listening := by simp [afterCrash]
  entry := by simp [afterCrash]

/-- `n` calls of `p` in a row. -/
def calls {P : Type*} (p : P) (n : ℕ) : List (Action P) := List.replicate n (.call p false)

/-- The first daemon replaces the dead socket, and the second is refused. -/
theorem socket_of_server_restart :
    let w := (Machine.run SocketDir.step afterCrash
      (.start 0 :: calls 0 15 ++ .start 1 :: calls 1 4)).1
    w.Exclusive ∧ (w.process 0).pc = .serving 1 ∧ (w.process 1).pc = .idle :=
  ⟨socket_of_server afterCrash untouched_afterCrash _ (by decide +kernel), by decide +kernel⟩

/-- Both probe the dead socket; the first replaces it and serves, then the second removes what it
finds. -/
theorem probed_then_replaced :
    ¬ ∀ w : SocketDir (Fin 2), w.Untouched → ∀ as p inode,
      ((Machine.run SocketDir.step w as).1.process p).pc = .serving inode →
        (Machine.run SocketDir.step w as).1.socketPath = some (.socket inode) := by
  intro h
  have hserved := h afterCrash untouched_afterCrash
    (.start 0 :: calls 0 4 ++ .start 1 :: calls 1 15 ++ calls 0 1) 1 1 (by decide +kernel)
  revert hserved
  decide +kernel

/-- Two processes number their staging directories alike: the first publishes the socket of the
second. -/
example :
    let w := (Machine.run SocketDir.step { afterCrash with socketPath := none }
      (.start 0 :: calls 0 7 ++ .start 1 :: calls 1 6 ++ calls 0 4)).1
    ((w.process 0).pc, w.socketPath) = (.serving 1, some (.socket 2)) := by
  decide +kernel

end SocketDir

end ProtonWire
