import Mathlib.Data.List.Perm.Basic
import Mathlib.Tactic

/-!
# Footprints of fallible steps

Which region of a state a step looks at and which part it changes, for any state
type: a region is given by how it is carried over from one state to another.
Steps that look at nothing the other changes can be taken in any order, and
neither can tell whether the other was taken.
-/
namespace AlienIdTransferHook.Locality

variable {σ ε β γ : Type*}

/-- `merge s t` has the region from `s` and everything else from `t`. -/
structure Region (σ : Type*) where
  merge : σ → σ → σ
  merge_self : ∀ s, merge s s = s
  merge_left : ∀ s t u, merge (merge s t) u = merge s u
  merge_right : ∀ s t u, merge s (merge t u) = merge s u

/-- Carrying the one over does not touch the other. -/
def Region.Apart (P Q : Region σ) : Prop :=
  ∀ s t u, P.merge s (Q.merge t u) = Q.merge t (P.merge s u)

theorem Region.Apart.symm {P Q : Region σ} (h : P.Apart Q) : Q.Apart P :=
  fun s t u => (h t s u).symm

/-- A region apart from the change is as it was before it. -/
lemma Region.Apart.merge_of_changed {P Q : Region σ} (h : P.Apart Q) {s s' : σ}
    (hs : P.merge s' s = s') : Q.merge s s' = s' := by
  have hswap : Q.merge s (P.merge s' s) = P.merge s' (Q.merge s s) := (h s' s s).symm
  rw [hs, Q.merge_self, hs] at hswap
  exact hswap

/-! ## Steps -/

/-- A step that the region decides and that happens inside it. -/
def Region.Confines (P : Region σ) (f : σ → Except ε σ) : Prop :=
  ∀ s t, f (P.merge s t) = (f s).map (P.merge · t)

/-- `f` looks at `reads` only and changes at most `writes`. -/
structure Footprint (f : σ → Except ε σ) (reads writes : Region σ) : Prop where
  confines : reads.Confines f
  changes : ∀ s s', f s = .ok s' → writes.merge s' s = s'

@[simp] theorem map_ok (f : β → γ) (b : β) : (.ok b : Except ε β).map f = .ok (f b) := rfl

@[simp] theorem map_error (f : β → γ) (e : ε) : (.error e : Except ε β).map f = .error e := rfl

/-- Outside its region a confined step changes nothing. -/
theorem Region.Confines.merge_eq {P : Region σ} {f : σ → Except ε σ} (h : P.Confines f)
    {s s' : σ} (hs : f s = .ok s') : P.merge s' s = s' := by
  have heq := h s s
  rw [P.merge_self, hs, map_ok] at heq
  exact (Except.ok.inj heq).symm

/-- The state after a step that is undone when it fails. -/
def attempt (f : σ → Except ε σ) (s : σ) : σ :=
  match f s with
  | .ok s' => s'
  | .error _ => s

/-- Whether a step succeeds and, if not, how it fails. -/
def verdict (f : σ → Except ε σ) (s : σ) : Except ε Unit := (f s).map fun _ => ()

/-- The steps in order, the failed ones undone. -/
def attemptAll (fs : List (σ → Except ε σ)) (s : σ) : σ := fs.foldl (fun s f => attempt f s) s

@[simp] theorem attemptAll_nil (s : σ) : attemptAll ([] : List (σ → Except ε σ)) s = s := rfl

@[simp] theorem attemptAll_cons (f : σ → Except ε σ) (fs : List (σ → Except ε σ)) (s : σ) :
    attemptAll (f :: fs) s = attemptAll fs (attempt f s) := rfl

lemma attempt_of_ok {f : σ → Except ε σ} {s s' : σ} (h : f s = .ok s') : attempt f s = s' := by
  rw [attempt, h]

lemma attempt_of_error {f : σ → Except ε σ} {s : σ} {e : ε} (h : f s = .error e) :
    attempt f s = s := by rw [attempt, h]

/-- A step that leaves nothing to do for its own repetition is absorbed by it, however often
it is repeated. -/
theorem attemptAll_replicate {f : σ → Except ε σ} {s : σ}
    (h : ∀ s₁ s₂, f s = .ok s₁ → f s₁ = .ok s₂ → s₂ = s₁) (n : ℕ) :
    attemptAll (List.replicate (n + 1) f) s = attempt f s := by
  have hagain : attempt f (attempt f s) = attempt f s := by
    cases hf : f s with
    | error e => rw [attempt_of_error hf, attempt_of_error hf]
    | ok s₁ =>
        rw [attempt_of_ok hf]
        cases hf₁ : f s₁ with
        | error e => exact attempt_of_error hf₁
        | ok s₂ => rw [attempt_of_ok hf₁, h s₁ s₂ hf hf₁]
  rw [List.replicate_succ, attemptAll_cons]
  induction n with
  | zero => rfl
  | succ n ih => rw [List.replicate_succ, attemptAll_cons, hagain, ih]

lemma Footprint.changes_attempt {f : σ → Except ε σ} {R W : Region σ} (h : Footprint f R W)
    (s : σ) : W.merge (attempt f s) s = attempt f s := by
  cases hf : f s with
  | ok s' => rw [attempt_of_ok hf]; exact h.changes s s' hf
  | error e => rw [attempt_of_error hf, W.merge_self]

/-! ## Independence -/

/-- Each step looks at nothing that the other one changes. -/
def Independent (f g : σ → Except ε σ) : Prop :=
  ∃ R W R' W' : Region σ, Footprint f R W ∧ Footprint g R' W' ∧ W.Apart R' ∧ W'.Apart R ∧
    W.Apart W'

theorem Independent.symm {f g : σ → Except ε σ} (h : Independent f g) : Independent g f := by
  obtain ⟨R, W, R', W', hf, hg, hWR, hWR', hWW⟩ := h
  exact ⟨R', W', R, W, hg, hf, hWR', hWR, hWW.symm⟩

/-- After the one step the other runs as it would have run before it. -/
lemma Independent.run_attempt {f g : σ → Except ε σ} (h : Independent f g) (s : σ) :
    ∃ P : Region σ, g (attempt f s) = (g s).map (P.merge · (attempt f s)) := by
  obtain ⟨R, W, R', W', hf, hg, hWR, -, -⟩ := h
  have hsame : R'.merge s (attempt f s) = attempt f s :=
    hWR.merge_of_changed (hf.changes_attempt s)
  refine ⟨R', ?_⟩
  have hrun := hg.confines s (attempt f s)
  rwa [hsame] at hrun

/-- Neither can tell whether the other was taken. -/
theorem Independent.verdict_attempt {f g : σ → Except ε σ} (h : Independent f g) (s : σ) :
    verdict g (attempt f s) = verdict g s := by
  obtain ⟨P, hP⟩ := h.run_attempt s
  rw [verdict, verdict, hP]
  cases g s <;> rfl

/-- The order of two independent steps does not matter. -/
theorem Independent.attempt_comm {f g : σ → Except ε σ} (h : Independent f g) (s : σ) :
    attempt g (attempt f s) = attempt f (attempt g s) := by
  cases hf : f s with
  | error e =>
      -- `f` fails after `g` as well
      obtain ⟨P, hP⟩ := h.symm.run_attempt s
      rw [hf] at hP
      rw [attempt_of_error hf, attempt_of_error hP]
  | ok s₁ =>
      cases hg : g s with
      | error e =>
          obtain ⟨P, hP⟩ := h.run_attempt s
          rw [hg] at hP
          rw [attempt_of_error hP, attempt_of_error hg]
      | ok s₂ =>
          obtain ⟨R, W, R', W', hF, hG, hWR, hWR', hWW⟩ := h
          have h₁ : W.merge s₁ s = s₁ := hF.changes s s₁ hf
          have h₂ : W'.merge s₂ s = s₂ := hG.changes s s₂ hg
          have hg₁ : g s₁ = .ok (R'.merge s₂ s₁) := by
            have hrun := hG.confines s s₁
            rwa [hWR.merge_of_changed h₁, hg] at hrun
          have hf₂ : f s₂ = .ok (R.merge s₁ s₂) := by
            have hrun := hF.confines s s₂
            rwa [hWR'.merge_of_changed h₂, hf] at hrun
          -- both orders end with each step's own changes on top of the other's
          have hleft : R'.merge s₂ s₁ = W.merge s₁ s₂ := by
            calc R'.merge s₂ s₁ = R'.merge s₂ (W.merge s₁ s) := by rw [h₁]
              _ = W.merge s₁ (R'.merge s₂ s) := (hWR s₁ s₂ s).symm
              _ = W.merge s₁ s₂ := by rw [hG.confines.merge_eq hg]
          have hright : R.merge s₁ s₂ = W'.merge s₂ s₁ := by
            calc R.merge s₁ s₂ = R.merge s₁ (W'.merge s₂ s) := by rw [h₂]
              _ = W'.merge s₂ (R.merge s₁ s) := (hWR' s₂ s₁ s).symm
              _ = W'.merge s₂ s₁ := by rw [hF.confines.merge_eq hf]
          have hmid : W.merge s₁ s₂ = W'.merge s₂ s₁ := by
            calc W.merge s₁ s₂ = W.merge s₁ (W'.merge s₂ s) := by rw [h₂]
              _ = W'.merge s₂ (W.merge s₁ s) := hWW s₁ s₂ s
              _ = W'.merge s₂ s₁ := by rw [h₁]
          rw [attempt_of_ok hf, attempt_of_ok hg₁, attempt_of_ok hg, attempt_of_ok hf₂, hleft,
            hright, hmid]

/-! ## Blocks of independent steps -/

/-- Any order of pairwise independent steps leads to the same state. -/
theorem attemptAll_perm {fs gs : List (σ → Except ε σ)} (h : fs.Perm gs)
    (hind : fs.Pairwise Independent) (s : σ) : attemptAll fs s = attemptAll gs s := by
  induction h generalizing s with
  | nil => rfl
  | cons f _ ih =>
      rw [attemptAll_cons, attemptAll_cons]
      exact ih (List.pairwise_cons.mp hind).2 _
  | swap f g fs =>
      obtain ⟨hg, -⟩ := List.pairwise_cons.mp hind
      rw [attemptAll_cons, attemptAll_cons, attemptAll_cons, attemptAll_cons,
        (hg f List.mem_cons_self).attempt_comm s]
  | trans h₁ _ ih₁ ih₂ =>
      rw [ih₁ hind s]
      exact ih₂ (hind.perm h₁ Independent.symm) s

/-- A step meets the same verdict before and after steps it is independent of. -/
theorem verdict_attemptAll {fs : List (σ → Except ε σ)} {g : σ → Except ε σ}
    (hind : ∀ f ∈ fs, Independent f g) (s : σ) :
    verdict g (attemptAll fs s) = verdict g s := by
  induction fs generalizing s with
  | nil => rfl
  | cons f fs ih =>
      rw [attemptAll_cons, ih (fun f' hf' => hind f' (List.mem_cons_of_mem _ hf')),
        (hind f List.mem_cons_self).verdict_attempt]

end AlienIdTransferHook.Locality
