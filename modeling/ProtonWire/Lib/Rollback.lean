import Mathlib

/-!
# Undoing what an executor changed

Operations act on a state by `effect`. An executor keeps a state of its own, of which the acted-on
state is a view, and may refuse any call.

* `replay`, `undo`, `changing`: a list of operations, what undoes it, and the operations of a list
  that change the state they meet;
* **`replay_undo_changing`**: undoing the operations that changed the state restores it;
* `execAll`: every operation is tried, and the refusals are collected;
* `Honours`: the flag of a call says whether the view changed, and a refused call changes nothing;
* **`Honours.execAll`**: without refusals, trying every operation is replaying the list.
-/

namespace Rollback

variable {S σ Op ε : Type*}

section Replay

variable (effect : Op → S → S) (inverse : Op → Op)

/-- The operations in order. -/
def replay (ops : List Op) (s : S) : S := ops.foldl (fun s op => effect op s) s

/-- The inverses in reverse order. -/
def undo (ops : List Op) : List Op := ops.reverse.map inverse

/-- The operations that change the state they meet. -/
def changing [DecidableEq S] : List Op → S → List Op
  | [], _ => []
  | op :: ops, s => if effect op s = s then changing ops s else op :: changing ops (effect op s)

@[simp] theorem replay_nil (s : S) : replay effect [] s = s := rfl

@[simp] theorem replay_cons (op : Op) (ops : List Op) (s : S) :
    replay effect (op :: ops) s = replay effect ops (effect op s) := rfl

theorem replay_append (ops ops' : List Op) (s : S) :
    replay effect (ops ++ ops') s = replay effect ops' (replay effect ops s) := List.foldl_append

@[simp] theorem undo_nil : undo inverse [] = [] := rfl

theorem undo_cons (op : Op) (ops : List Op) :
    undo inverse (op :: ops) = undo inverse ops ++ [inverse op] := by
  simp [undo]

theorem undo_append (ops ops' : List Op) :
    undo inverse (ops ++ ops') = undo inverse ops' ++ undo inverse ops := by
  simp [undo]

theorem mem_undo {op : Op} {ops : List Op} :
    op ∈ undo inverse ops ↔ ∃ op' ∈ ops, inverse op' = op := by
  simp [undo]

variable [DecidableEq S]

theorem changing_sublist (ops : List Op) (s : S) : (changing effect ops s).Sublist ops := by
  induction ops generalizing s with
  | nil => exact .slnil
  | cons op ops ih =>
    unfold changing
    split_ifs
    · exact (ih s).cons op
    · exact (ih _).cons_cons op

/-- The other operations change nothing. -/
theorem replay_changing (ops : List Op) (s : S) :
    replay effect (changing effect ops s) s = replay effect ops s := by
  induction ops generalizing s with
  | nil => rfl
  | cons op ops ih =>
    rw [changing, replay_cons]
    split_ifs with h
    · rw [ih, h]
    · rw [replay_cons, ih]

variable {effect inverse}

/-- **Undoing the operations that changed the state restores it.** -/
theorem replay_undo_changing (hinv : ∀ op s, effect op s ≠ s → effect (inverse op)
    (effect op s) = s) (ops : List Op) (s : S) :
    replay effect (undo inverse (changing effect ops s)) (replay effect ops s) = s := by
  induction ops generalizing s with
  | nil => rfl
  | cons op ops ih =>
    rw [changing, replay_cons]
    split_ifs with h
    · rw [h]
      exact ih s
    · rw [undo_cons, replay_append, ih]
      exact hinv op s h

end Replay

/-! ## Executors -/

/-- Try every operation, collecting the refusals. -/
def execAll (exec : Op → σ → Except ε Bool × σ) : List Op → σ → List (Op × ε) × σ
  | [], x => ([], x)
  | op :: ops, x =>
    match exec op x with
    | (.ok _, x) => execAll exec ops x
    | (.error error, x) => ((op, error) :: (execAll exec ops x).1, (execAll exec ops x).2)

/-- The executor's calls have the effects of their operations on a view of its state. -/
structure Honours (exec : Op → σ → Except ε Bool × σ) (view : σ → S) (effect : Op → S → S) :
    Prop where
  ok : ∀ op x flag, (exec op x).1 = .ok flag → view (exec op x).2 = effect op (view x)
  flag : ∀ op x flag, (exec op x).1 = .ok flag → (flag = true ↔ view (exec op x).2 ≠ view x)
  error : ∀ op x e, (exec op x).1 = .error e → view (exec op x).2 = view x

section Honours

variable {exec : Op → σ → Except ε Bool × σ} {view : σ → S} {effect : Op → S → S}
    {op : Op} {x y : σ}

theorem Honours.changed (h : Honours exec view effect) (hexec : exec op x = (.ok true, y)) :
    view y = effect op (view x) ∧ effect op (view x) ≠ view x := by
  have hok := h.ok op x true (by rw [hexec])
  have hflag := (h.flag op x true (by rw [hexec])).mp rfl
  rw [hok] at hflag
  rw [hexec] at hok
  exact ⟨hok, hflag⟩

theorem Honours.unchanged (h : Honours exec view effect) (hexec : exec op x = (.ok false, y)) :
    view y = view x ∧ effect op (view x) = view x := by
  have hok := h.ok op x false (by rw [hexec])
  have hflag : view (exec op x).2 = view x := by
    by_contra hne
    exact absurd ((h.flag op x false (by rw [hexec])).mpr hne) nofun
  rw [hexec] at hok hflag
  exact ⟨hflag, hok.symm.trans hflag⟩

theorem Honours.refused {e : ε} (h : Honours exec view effect) (hexec : exec op x = (.error e, y)) :
    view y = view x := by
  have herror := h.error op x e (by rw [hexec])
  rwa [hexec] at herror

/-- **Without refusals, trying every operation is replaying the list.** -/
theorem Honours.execAll (h : Honours exec view effect) (ops : List Op) (x : σ)
    (hclean : (execAll exec ops x).1 = []) :
    view (Rollback.execAll exec ops x).2 = replay effect ops (view x) := by
  induction ops generalizing x with
  | nil => rfl
  | cons op ops ih =>
    unfold Rollback.execAll at hclean ⊢
    rw [replay_cons]
    have hok := h.ok op x
    rcases hexec : exec op x with ⟨flag | flag, y⟩
    · rw [hexec] at hclean
      cases hclean
    · rw [hexec] at hclean hok
      rw [← hok flag rfl]
      exact ih y hclean

end Honours

end Rollback
