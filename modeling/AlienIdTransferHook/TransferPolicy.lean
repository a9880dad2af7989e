import AlienIdTransferHook.History
import Mathlib.Data.Set.Insert
import Mathlib.Tactic

/-!
# Transfer policies

What the program maintains for one mint, over arbitrary keys and rules and
without accounts: an authority handed over in two steps, a rule that transfers
are checked against, whether that rule is published, and the wallets exempt from
it. The facts about whole runs are proved here; the ledger refines this system.
-/
namespace AlienIdTransferHook.TransferPolicy
open History

variable {κ ρ : Type*}

structure Policy (κ ρ : Type*) where
  authority : κ
  pending : Option κ
  rule : ρ
  published : Bool
  exempt : Set κ

/-- An operation names the key that performs it first. -/
inductive Op (κ ρ : Type*) where
  | create (actor : κ) (rule : ρ)
  | publish (actor : κ)
  | setRule (actor : κ) (rule : ρ)
  | nominate (actor : κ) (nominee : Option κ)
  | accept (actor : κ)
  | exempt (actor wallet : κ)
  | revoke (actor wallet : κ)

def Op.actor : Op κ ρ → κ
  | create a _ | publish a | setRule a _ | nominate a _ | accept a | exempt a _ | revoke a _ => a

/-- The operations that decide who holds the authority. -/
def Op.SetsAuthority : Op κ ρ → Prop
  | create _ _ | accept _ => True
  | _ => False

/-- The operations that decide who is nominated. -/
def Op.SetsPending : Op κ ρ → Prop
  | create _ _ | nominate _ _ | accept _ => True
  | _ => False

def Op.SetsRule : Op κ ρ → Prop
  | create _ _ | setRule _ _ => True
  | _ => False

def Op.OnWallet (w : κ) : Op κ ρ → Prop
  | exempt _ w' | revoke _ w' => w' = w
  | _ => False

inductive Step : Option (Policy κ ρ) → Op κ ρ → Option (Policy κ ρ) → Prop
  | create (a : κ) (r : ρ) : Step none (.create a r) (some ⟨a, none, r, false, ∅⟩)
  | publish (p : Policy κ ρ) (h : p.published = false) :
      Step (some p) (.publish p.authority) (some { p with published := true })
  | setRule (p : Policy κ ρ) (r : ρ) (h : p.published = true) :
      Step (some p) (.setRule p.authority r) (some { p with rule := r })
  | nominate (p : Policy κ ρ) (n : Option κ) :
      Step (some p) (.nominate p.authority n) (some { p with pending := n })
  | accept (p : Policy κ ρ) (a : κ) (h : p.pending = some a) :
      Step (some p) (.accept a) (some { p with authority := a, pending := none })
  | exempt (p : Policy κ ρ) (w : κ) (h : w ∉ p.exempt) :
      Step (some p) (.exempt p.authority w) (some { p with exempt := insert w p.exempt })
  | revoke (p : Policy κ ρ) (w : κ) (h : w ∈ p.exempt) :
      Step (some p) (.revoke p.authority w) (some { p with exempt := p.exempt \ {w} })

/-- An operation has one outcome. -/
lemma Step.unique {s s₁ s₂ : Option (Policy κ ρ)} {op : Op κ ρ} (h₁ : Step s op s₁)
    (h₂ : Step s op s₂) : s₁ = s₂ := by
  cases h₁ <;> cases h₂ <;> rfl

/-- Only the authority and the nominee can do anything to a policy. -/
lemma Step.actor_eq {p : Policy κ ρ} {op : Op κ ρ} {s' : Option (Policy κ ρ)}
    (h : Step (some p) op s') : op.actor = p.authority ∨ p.pending = some op.actor := by
  cases h with
  | accept _ a hpending => exact .inr hpending
  | _ => exact .inl rfl

/-- Only a rule and a nomination can be set twice in a row. -/
lemma Step.again {s s₁ s₂ : Option (Policy κ ρ)} {op : Op κ ρ} (h₁ : Step s op s₁)
    (h₂ : Step s₁ op s₂) : (∃ a r, op = .setRule a r) ∨ ∃ a n, op = .nominate a n := by
  cases h₁ with
  | setRule p r _ => exact .inl ⟨_, _, rfl⟩
  | nominate p n => exact .inr ⟨_, _, rfl⟩
  | create a r => cases h₂
  | publish p _ =>
      generalize heq : (Op.publish p.authority : Op κ ρ) = op at h₂
      cases h₂ <;> simp_all
  | accept p a _ =>
      cases h₂ with
      | accept _ _ h => cases h
  | exempt p w _ =>
      generalize heq : (Op.exempt p.authority w : Op κ ρ) = op at h₂
      cases h₂ <;> simp_all
  | revoke p w _ =>
      generalize heq : (Op.revoke p.authority w : Op κ ρ) = op at h₂
      cases h₂ <;> simp_all

/-- No policy at first. -/
def policySystem (κ ρ : Type*) : System (Option (Policy κ ρ)) (Op κ ρ) where
  start s := s = none
  step := Step

/-! ## Registers -/

/-- The keys that come to hold the authority. -/
def authorityRegister (κ ρ : Type*) : Register (policySystem κ ρ) (Option κ) where
  view s := s.map (·.authority)
  write
    | _, .create a _ => some (some a)
    | _, .accept a => some (some a)
    | _, _ => none
  initial := none
  view_start := by rintro _ rfl; rfl
  view_step := by rintro _ _ _ _ - (_ | _ | _ | _ | _ | _ | _) <;> rfl

/-- The nominee, if there is one. -/
def pendingRegister (κ ρ : Type*) : Register (policySystem κ ρ) (Option κ) where
  view s := s.bind (·.pending)
  write
    | _, .create _ _ => some none
    | _, .nominate _ n => some n
    | _, .accept _ => some none
    | _, _ => none
  initial := none
  view_start := by rintro _ rfl; rfl
  view_step := by rintro _ _ _ _ - (_ | _ | _ | _ | _ | _ | _) <;> rfl

def ruleRegister (κ ρ : Type*) : Register (policySystem κ ρ) (Option ρ) where
  view s := s.map (·.rule)
  write
    | _, .create _ r => some (some r)
    | _, .setRule _ r => some (some r)
    | _, _ => none
  initial := none
  view_start := by rintro _ rfl; rfl
  view_step := by rintro _ _ _ _ - (_ | _ | _ | _ | _ | _ | _) <;> rfl

/-- Whether `w` is exempt, as the operations on `w` leave it. -/
def exemptRegister (ρ : Type*) [DecidableEq κ] (w : κ) : Register (policySystem κ ρ) Prop where
  view s := ∃ p, s = some p ∧ w ∈ p.exempt
  write
    | _, .exempt _ w' => if w' = w then some True else none
    | _, .revoke _ w' => if w' = w then some False else none
    | _, _ => none
  initial := False
  view_start := by rintro _ rfl; simp
  view_step := by
    rintro _ _ _ _ - (_ | _ | _ | _ | _ | ⟨p, w', _⟩ | ⟨p, w', _⟩)
    case exempt =>
      by_cases hw : w' = w
      · simp [hw]
      · simp [hw, Ne.symm hw]
    case revoke =>
      by_cases hw : w' = w
      · simp [hw]
      · simp [hw, Ne.symm hw]
    all_goals simp

lemma authority_not_written {s : Option (Policy κ ρ)} {op : Op κ ρ}
    (h : (authorityRegister κ ρ).write s op = none) : ¬ op.SetsAuthority := by
  cases op <;> simp [authorityRegister, Op.SetsAuthority] at h ⊢

lemma pending_not_written {s : Option (Policy κ ρ)} {op : Op κ ρ}
    (h : (pendingRegister κ ρ).write s op = none) : ¬ op.SetsPending := by
  cases op <;> simp [pendingRegister, Op.SetsPending] at h ⊢

lemma rule_not_written {s : Option (Policy κ ρ)} {op : Op κ ρ}
    (h : (ruleRegister κ ρ).write s op = none) : ¬ op.SetsRule := by
  cases op <;> simp [ruleRegister, Op.SetsRule] at h ⊢

lemma exempt_not_written [DecidableEq κ] {w : κ} {s : Option (Policy κ ρ)} {op : Op κ ρ} :
    (exemptRegister ρ w).write s op = none ↔ ¬ op.OnWallet w := by
  cases op <;> simp [exemptRegister, Op.OnWallet]

/-! ## Runs -/

/-- A policy once created is never removed. -/
theorem reaches_none {h : List (Option (Policy κ ρ) × Op κ ρ)}
    (hr : Reaches (policySystem κ ρ) h none) : h = [] := by
  cases hr with
  | start _ => rfl
  | step _ he => cases he

/-- A creation is the first event of its run, so there is no second one. -/
theorem create_first {newer older : List (Option (Policy κ ρ) × Op κ ρ)}
    {s₀ s : Option (Policy κ ρ)} {a : κ} {r : ρ}
    (hr : Reaches (policySystem κ ρ) (newer ++ (s₀, .create a r) :: older) s) :
    s₀ = none ∧ older = [] := by
  obtain ⟨hold, _, hstep, -⟩ := hr.cut
  cases hstep
  exact ⟨rfl, reaches_none hold⟩

/-- A pending nomination was made by the authority of its time, and neither an
acceptance nor another nomination has come since. -/
theorem nominated {h : List (Option (Policy κ ρ) × Op κ ρ)} {p : Policy κ ρ} {a : κ}
    (hr : Reaches (policySystem κ ρ) h (some p)) (ha : p.pending = some a) :
    ∃ newer q older, h = newer ++ (some q, .nominate q.authority (some a)) :: older ∧
      ∀ e ∈ newer, ¬ e.2.SetsPending := by
  obtain ⟨newer, s₀, op, older, rfl, hw, hnone, hold⟩ :=
    (pendingRegister κ ρ).exists_write hr (by simp [pendingRegister, ha])
  obtain ⟨-, s₁, hstep, -⟩ := hr.cut
  have hwrite : (pendingRegister κ ρ).write s₀ op = some (some a) := by
    rw [hw]; simp [pendingRegister, ha]
  cases hstep with
  | nominate q n =>
      obtain rfl : n = some a := by simpa [pendingRegister] using hwrite
      exact ⟨newer, q, older, rfl, fun e he => pending_not_written (hnone e he)⟩
  | _ => simp [pendingRegister] at hwrite

/-- Whoever holds the authority created the policy, or accepted a nomination made by
the authority of its time, with no acceptance or other nomination in between. -/
theorem authority_provenance {h : List (Option (Policy κ ρ) × Op κ ρ)} {p : Policy κ ρ}
    (hr : Reaches (policySystem κ ρ) h (some p)) :
    (∃ newer r, h = newer ++ [(none, .create p.authority r)] ∧
      ∀ e ∈ newer, ¬ e.2.SetsAuthority) ∨
    ∃ newer q mid q₀ older,
      h = newer ++ (some q, .accept p.authority) ::
        (mid ++ (some q₀, .nominate q₀.authority (some p.authority)) :: older) ∧
      q.pending = some p.authority ∧ (∀ e ∈ newer, ¬ e.2.SetsAuthority) ∧
      ∀ e ∈ mid, ¬ e.2.SetsPending := by
  obtain ⟨newer, s₀, op, older, rfl, hw, hnone, hold⟩ :=
    (authorityRegister κ ρ).exists_write hr (by simp [authorityRegister])
  obtain ⟨-, s₁, hstep, -⟩ := hr.cut
  have hnewer : ∀ e ∈ newer, ¬ e.2.SetsAuthority :=
    fun e he => authority_not_written (hnone e he)
  cases hstep with
  | create a r =>
      obtain rfl : a = p.authority := by simpa [authorityRegister] using hw
      obtain rfl := reaches_none hold
      exact .inl ⟨newer, r, rfl, hnewer⟩
  | accept q a hq =>
      obtain rfl : a = p.authority := by simpa [authorityRegister] using hw
      obtain ⟨mid, q₀, older, rfl, hmid⟩ := nominated hold hq
      exact .inr ⟨newer, q, mid, q₀, older, rfl, hq, hnewer, hmid⟩
  | _ => simp [authorityRegister] at hw

/-- The rule is the one the newest creation or change of rule set. -/
theorem rule_provenance {h : List (Option (Policy κ ρ) × Op κ ρ)} {p : Policy κ ρ}
    (hr : Reaches (policySystem κ ρ) h (some p)) :
    ∃ newer s op older a, h = newer ++ (s, op) :: older ∧
      (op = .create a p.rule ∨ op = .setRule a p.rule) ∧ ∀ e ∈ newer, ¬ e.2.SetsRule := by
  obtain ⟨newer, s₀, op, older, rfl, hw, hnone, hold⟩ :=
    (ruleRegister κ ρ).exists_write hr (by simp [ruleRegister])
  have hnewer : ∀ e ∈ newer, ¬ e.2.SetsRule := fun e he => rule_not_written (hnone e he)
  cases op with
  | create a r =>
      obtain rfl : r = p.rule := by simpa [ruleRegister] using hw
      exact ⟨newer, s₀, _, older, a, rfl, .inl rfl, hnewer⟩
  | setRule a r =>
      obtain rfl : r = p.rule := by simpa [ruleRegister] using hw
      exact ⟨newer, s₀, _, older, a, rfl, .inr rfl, hnewer⟩
  | _ => simp [ruleRegister] at hw

/-- A wallet is exempt exactly when the newest operation on it exempted it. -/
theorem exempt_iff [DecidableEq κ] {h : List (Option (Policy κ ρ) × Op κ ρ)}
    {s : Option (Policy κ ρ)} {w : κ} (hr : Reaches (policySystem κ ρ) h s) :
    (∃ p, s = some p ∧ w ∈ p.exempt) ↔ ∃ newer q older,
      h = newer ++ (some q, .exempt q.authority w) :: older ∧
        ∀ e ∈ newer, ¬ e.2.OnWallet w := by
  constructor
  · intro hp
    have hview : (exemptRegister ρ w).view s = True := by simpa [exemptRegister] using hp
    obtain ⟨newer, s₀, op, older, rfl, hw, hnone, hold⟩ :=
      (exemptRegister ρ w).exists_write hr (by rw [hview]; simp [exemptRegister])
    rw [hview] at hw
    have hnewer : ∀ e ∈ newer, ¬ e.2.OnWallet w :=
      fun e he => exempt_not_written.mp (hnone e he)
    obtain ⟨-, s₁, hstep, -⟩ := hr.cut
    cases hstep with
    | exempt q w' hq =>
        obtain rfl : w' = w := by simpa [exemptRegister] using hw
        exact ⟨newer, q, older, rfl, hnewer⟩
    | revoke q w' hq => by_cases hw' : w' = w <;> simp [exemptRegister, hw'] at hw
    | _ => simp [exemptRegister] at hw
  · rintro ⟨newer, q, older, rfl, hnewer⟩
    have hview := (exemptRegister ρ w).view_of_write hr (b := True) (by simp [exemptRegister])
      fun e he => exempt_not_written.mpr (hnewer e he)
    simpa [exemptRegister] using hview

end AlienIdTransferHook.TransferPolicy
