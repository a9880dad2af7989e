import Mathlib.Logic.Function.Basic
import Mathlib.Data.List.Basic
import Mathlib.Tactic

/-!
# The Solana runtime under an Anchor program

Accounts, program-derived addresses, the system program and the checks the
runtime makes around an instruction, for any program. The hash, the curve test
and the rent schedule are parameters: nothing below depends on their values.
An address without an account is an account with no lamports, owned by the
system program and empty. Lamports are natural numbers: the total supply is far
below the 64-bit bound, so no sum of balances overflows.
-/
namespace AlienIdTransferHook.Solana

/-- A 32-byte address. -/
structure Pubkey where
  bytes : List UInt8
  length_bytes : bytes.length = 32
  deriving DecidableEq

/-- `Pubkey::default()`, 32 zero bytes. -/
def Pubkey.default : Pubkey := ⟨List.replicate 32 0, rfl⟩

/-- The system program's id is the all-zero key. -/
def systemProgram : Pubkey := Pubkey.default

theorem Pubkey.ext_bytes {k k' : Pubkey} (h : k.bytes = k'.bytes) : k = k' := by
  cases k; cases k'; simpa using h

/-- A key in front of some bytes can be told from them. -/
theorem Pubkey.append_inj {k k' : Pubkey} {r r' : List UInt8} :
    k.bytes ++ r = k'.bytes ++ r' ↔ k = k' ∧ r = r' := by
  constructor
  · intro h
    obtain ⟨hk, hr⟩ := List.append_inj h (k.length_bytes.trans k'.length_bytes.symm)
    exact ⟨ext_bytes hk, hr⟩
  · rintro ⟨rfl, rfl⟩
    rfl

/-! ## Errors -/

/-- Anchor's own errors, under the framework's names. -/
inductive AnchorError where
  | accountNotEnoughKeys | accountNotSigner | accountNotInitialized
  | accountOwnedByWrongProgram | accountDiscriminatorNotFound
  | accountDiscriminatorMismatch | accountDidNotDeserialize | accountDidNotSerialize
  | invalidProgramId | tryingToInitPayerAsProgramAccount
  | constraintMut | constraintRaw | constraintSeeds | constraintClose
  | constraintRentExempt | constraintTokenMint
  deriving DecidableEq, Repr

/-- What makes an instruction fail. A failed instruction is rolled back whole. -/
inductive ProgramError where
  | custom (code : ℕ)
  | anchor (e : AnchorError)
  | accountAlreadyInUse | resultWithNegativeLamports | invalidArgument
  | missingRequiredSignature | privilegeEscalation | invalidSeeds
  | externalAccountLamportSpend | externalAccountDataModified | readonlyModified
  | invalidAccountData | uninitializedAccount
  | library (code : ℕ)
  | panicked
  deriving DecidableEq, Repr

abbrev Outcome (α : Type) := Except ProgramError α

instance {α : Type} [DecidableEq α] : DecidableEq (Outcome α)
  | .ok a, .ok b => decidable_of_iff (a = b) (by simp)
  | .error e, .error e' => decidable_of_iff (e = e') (by simp)
  | .ok _, .error _ => .isFalse nofun
  | .error _, .ok _ => .isFalse nofun

/-- `require!` and every check of that shape. -/
def require (p : Prop) [Decidable p] (e : ProgramError) : Outcome Unit :=
  if p then .ok () else .error e

/-- A value that has to be there. -/
def expect {α : Type} (x : Option α) (e : ProgramError) : Outcome α :=
  match x with
  | some a => .ok a
  | none => .error e

@[simp] theorem require_eq_ok {p : Prop} [Decidable p] {e : ProgramError} {u : Unit} :
    require p e = .ok u ↔ p := by
  unfold require; split_ifs with h <;> simp [h]

@[simp] theorem expect_eq_ok {α : Type} {x : Option α} {e : ProgramError} {a : α} :
    expect x e = .ok a ↔ x = some a := by
  cases x <;> simp [expect]

theorem require_pos {p : Prop} [Decidable p] {e : ProgramError} (h : p) :
    require p e = .ok () := by simp [h]

theorem require_neg {p : Prop} [Decidable p] {e : ProgramError} (h : ¬ p) :
    require p e = .error e := by simp [require, h]

lemma exists_eq_ok {α : Type} {x : Outcome α} (h : x.isOk = true) : ∃ a, x = .ok a := by
  cases x with
  | ok a => exact ⟨a, rfl⟩
  | error e => cases h

/-- A computation succeeds when its first step does and the rest does after it. -/
theorem bind_eq_ok {α β : Type} {x : Outcome α} {f : α → Outcome β} {b : β} :
    (x >>= f) = .ok b ↔ ∃ a, x = .ok a ∧ f a = .ok b := by
  cases x <;> simp [bind, Except.bind]

/-- A computation fails in its first step or in the rest. -/
theorem bind_eq_error {α β : Type} {x : Outcome α} {f : α → Outcome β} {e : ProgramError} :
    (x >>= f) = .error e ↔ x = .error e ∨ ∃ a, x = .ok a ∧ f a = .error e := by
  cases x <;> simp [bind, Except.bind]

@[simp] theorem require_eq_error {p : Prop} [Decidable p] {e e' : ProgramError} :
    require p e = .error e' ↔ ¬ p ∧ e = e' := by
  unfold require; split_ifs with h <;> simp [h]

@[simp] theorem expect_eq_error {α : Type} {x : Option α} {e e' : ProgramError} :
    expect x e = .error e' ↔ x = none ∧ e = e' := by
  cases x <;> simp [expect]

@[simp] theorem pure_eq_ok {α : Type} {a b : α} :
    (pure a : Outcome α) = .ok b ↔ a = b := by simp [pure, Except.pure]

@[simp] theorem ok_bind {α β : Type} (a : α) (f : α → Outcome β) :
    ((.ok a : Outcome α) >>= f) = f a := rfl

@[simp] theorem error_bind {α β : Type} (e : ProgramError) (f : α → Outcome β) :
    ((.error e : Outcome α) >>= f) = .error e := rfl

/-- A check in front of a computation. -/
theorem require_bind_eq_ok {β : Type} {p : Prop} [Decidable p] {e : ProgramError}
    {f : Unit → Outcome β} {b : β} : (require p e >>= f) = .ok b ↔ p ∧ f () = .ok b := by
  unfold require; split_ifs with h <;> simp [h]

/-- Whatever goes wrong is one of these errors. -/
def FailsWith {α : Type} (P : ProgramError → Prop) (x : Outcome α) : Prop :=
  ∀ e, x = .error e → P e

namespace FailsWith
variable {α β : Type} {P : ProgramError → Prop} {e : ProgramError}

theorem bind {x : Outcome α} {f : α → Outcome β} (hx : FailsWith P x)
    (hf : ∀ a, FailsWith P (f a)) : FailsWith P (x >>= f) := by
  intro e h
  rcases bind_eq_error.mp h with h | ⟨a, -, h⟩
  · exact hx e h
  · exact hf a e h

theorem of_require {p : Prop} [Decidable p] (h : P e) : FailsWith P (require p e) := by
  intro e' he
  rw [← (require_eq_error.mp he).2]
  exact h

theorem of_expect {x : Option α} (h : P e) : FailsWith P (expect x e) := by
  intro e' he
  rw [← (expect_eq_error.mp he).2]
  exact h

theorem of_ok (a : α) : FailsWith P (.ok a) := fun _ h => by cases h

end FailsWith

/-- A required value in front of a computation. -/
theorem expect_bind_eq_ok {α β : Type} {x : Option α} {e : ProgramError}
    {f : α → Outcome β} {b : β} :
    (expect x e >>= f) = .ok b ↔ ∃ a, x = some a ∧ f a = .ok b := by
  simp [bind_eq_ok]

/-! ## Accounts -/

structure Account where
  lamports : ℕ
  owner : Pubkey
  data : List UInt8
  deriving DecidableEq

/-- System-owned and empty, with any balance: what a donation leaves behind. -/
def Account.Unallocated (a : Account) : Prop := a.owner = systemProgram ∧ a.data = []

instance (a : Account) : Decidable a.Unallocated := inferInstanceAs (Decidable (_ ∧ _))

structure Ledger where
  account : Pubkey → Account
  unixTimestamp : ℤ

namespace Ledger

theorem ext_account {l l' : Ledger} (h : ∀ k, l.account k = l'.account k)
    (ht : l.unixTimestamp = l'.unixTimestamp) : l = l' := by
  cases l; cases l'
  simp only [mk.injEq]
  exact ⟨funext h, ht⟩

def set (l : Ledger) (k : Pubkey) (a : Account) : Ledger :=
  { l with account := Function.update l.account k a }

def debit (l : Ledger) (k : Pubkey) (n : ℕ) : Ledger :=
  l.set k { l.account k with lamports := (l.account k).lamports - n }

def credit (l : Ledger) (k : Pubkey) (n : ℕ) : Ledger :=
  l.set k { l.account k with lamports := (l.account k).lamports + n }

@[simp] theorem account_set_self (l : Ledger) (k : Pubkey) (a : Account) :
    (l.set k a).account k = a := by simp [set]

theorem account_set_of_ne (l : Ledger) {k k' : Pubkey} (a : Account) (h : k' ≠ k) :
    (l.set k a).account k' = l.account k' := by simp [set, h]

theorem account_debit_of_ne (l : Ledger) {k k' : Pubkey} (n : ℕ) (h : k' ≠ k) :
    (l.debit k n).account k' = l.account k' := account_set_of_ne _ _ h

theorem account_credit_of_ne (l : Ledger) {k k' : Pubkey} (n : ℕ) (h : k' ≠ k) :
    (l.credit k n).account k' = l.account k' := account_set_of_ne _ _ h

@[simp] theorem owner_debit (l : Ledger) (k k' : Pubkey) (n : ℕ) :
    ((l.debit k n).account k').owner = (l.account k').owner := by
  by_cases h : k' = k
  · subst h; simp [debit]
  · rw [account_debit_of_ne _ _ h]

@[simp] theorem data_debit (l : Ledger) (k k' : Pubkey) (n : ℕ) :
    ((l.debit k n).account k').data = (l.account k').data := by
  by_cases h : k' = k
  · subst h; simp [debit]
  · rw [account_debit_of_ne _ _ h]

@[simp] theorem owner_credit (l : Ledger) (k k' : Pubkey) (n : ℕ) :
    ((l.credit k n).account k').owner = (l.account k').owner := by
  by_cases h : k' = k
  · subst h; simp [credit]
  · rw [account_credit_of_ne _ _ h]

@[simp] theorem data_credit (l : Ledger) (k k' : Pubkey) (n : ℕ) :
    ((l.credit k n).account k').data = (l.account k').data := by
  by_cases h : k' = k
  · subst h; simp [credit]
  · rw [account_credit_of_ne _ _ h]

theorem debit_zero (l : Ledger) (k : Pubkey) : l.debit k 0 = l := by
  refine ext_account (fun k' => ?_) rfl
  by_cases h : k' = k
  · subst h; simp [debit]
  · rw [account_debit_of_ne _ _ h]

theorem credit_zero (l : Ledger) (k : Pubkey) : l.credit k 0 = l := by
  refine ext_account (fun k' => ?_) rfl
  by_cases h : k' = k
  · subst h; simp [credit]
  · rw [account_credit_of_ne _ _ h]

@[simp] theorem set_set (l : Ledger) (k : Pubkey) (a b : Account) :
    (l.set k a).set k b = l.set k b := by simp [set]

theorem set_account (l : Ledger) (k : Pubkey) : l.set k (l.account k) = l := by simp [set]

end Ledger

/-- `src` pays `n` and the account at `dst` is written anew. -/
def Ledger.opened (l : Ledger) (src dst : Pubkey) (n : ℕ) (a : Account) : Ledger :=
  (l.debit src n).set dst a

/-! ## Program-derived addresses -/

/-- The chain and the program deployed on it. -/
structure Host where
  programId : Pubkey
  hash : List UInt8 → Pubkey
  onCurve : Pubkey → Bool
  /-- `Rent::minimum_balance`. -/
  minimumBalance : ℕ → ℕ
  programId_ne : programId ≠ systemProgram

/-- b"ProgramDerivedAddress" -/
def pdaMarker : List UInt8 :=
  [80, 114, 111, 103, 114, 97, 109, 68, 101, 114, 105, 118, 101, 100, 65, 100, 100, 114, 101,
    115, 115]

/-- What is hashed: the seeds run together, then the program and the marker. -/
def pdaPreimage (seeds : List (List UInt8)) (programId : Pubkey) : List UInt8 :=
  seeds.flatten ++ (programId.bytes ++ pdaMarker)

namespace Host

/-- `Pubkey::create_program_address`. -/
def createProgramAddress (H : Host) (seeds : List (List UInt8)) (programId : Pubkey) :
    Option Pubkey :=
  if seeds.length > 16 ∨ ∃ s ∈ seeds, s.length > 32 then none
  else
    let k := H.hash (pdaPreimage seeds programId)
    if H.onCurve k then none else some k

/-- Tries the bumps `n`, `n - 1`, … , 1 and returns the first that works. -/
def findBump {α : Type} (f : UInt8 → Option α) : ℕ → Option (α × UInt8)
  | 0 => none
  | n + 1 =>
      match f (UInt8.ofNat (n + 1)) with
      | some k => some (k, UInt8.ofNat (n + 1))
      | none => findBump f n

/-- `Pubkey::find_program_address`; the library panics where this is `none`. -/
def findProgramAddress (H : Host) (seeds : List (List UInt8)) (programId : Pubkey) :
    Option (Pubkey × UInt8) :=
  findBump (fun b => H.createProgramAddress (seeds ++ [[b]]) programId) 255

lemma findBump_succ {α : Type} {f : UInt8 → Option α} {n : ℕ} {k : α}
    (h : f (UInt8.ofNat (n + 1)) = some k) :
    findBump f (n + 1) = some (k, UInt8.ofNat (n + 1)) := by
  rw [findBump, h]

lemma findBump_some {α : Type} {f : UInt8 → Option α} {n : ℕ} {k : α} {b : UInt8}
    (h : findBump f n = some (k, b)) : f b = some k := by
  induction n with
  | zero => simp [findBump] at h
  | succ n ih =>
      unfold findBump at h
      split at h
      · rename_i k' hk
        obtain ⟨rfl, rfl⟩ : k' = k ∧ UInt8.ofNat (n + 1) = b := by simpa using h
        exact hk
      · exact ih h

theorem createProgramAddress_of_find {H : Host} {seeds : List (List UInt8)} {p k : Pubkey}
    {b : UInt8} (h : H.findProgramAddress seeds p = some (k, b)) :
    H.createProgramAddress (seeds ++ [[b]]) p = some k := findBump_some h

theorem hash_of_create {H : Host} {seeds : List (List UInt8)} {p k : Pubkey}
    (h : H.createProgramAddress seeds p = some k) : H.hash (pdaPreimage seeds p) = k := by
  unfold createProgramAddress at h
  split_ifs at h
  obtain ⟨-, hk⟩ : H.onCurve _ = false ∧ H.hash (pdaPreimage seeds p) = k := by simpa using h
  exact hk

end Host

end AlienIdTransferHook.Solana
