import AlienIdTransferHook.Solana

/-!
# The system program and Anchor's account constraints

The system program's instructions as a program reaches them by CPI, and what
Anchor 0.32.1 generates for the attributes used in this repository: typed
loading, `seeds`/`bump`, `init`, `realloc`, `close` and the write-back on exit.
Each operation comes with the lemma that says what its success amounts to.
-/
namespace AlienIdTransferHook.Solana

/-- The signer and writable flags the runtime holds for an instruction's keys. -/
structure Privileges where
  signers : List Pubkey
  writable : List Pubkey

/-- `invoke_signed`: the callee also sees the signature of the derived address. -/
def Privileges.invokeSigned (H : Host) (p : Privileges) (seeds : List (List UInt8)) :
    Privileges :=
  { p with signers := (H.createProgramAddress seeds H.programId).toList ++ p.signers }

/-! ## System program -/

/-- `SystemInstruction::Transfer`. -/
def systemTransfer (p : Privileges) (l : Ledger) (src dst : Pubkey) (n : ℕ) :
    Outcome Ledger := do
  require (src ∈ p.signers) .missingRequiredSignature
  require (src ∈ p.writable ∧ dst ∈ p.writable) .privilegeEscalation
  require ((l.account src).data = []) .invalidArgument
  require ((l.account src).owner = systemProgram) .externalAccountLamportSpend
  require (n ≤ (l.account src).lamports) .resultWithNegativeLamports
  pure ((l.debit src n).credit dst n)

/-- `SystemInstruction::Allocate`. -/
def allocate (p : Privileges) (l : Ledger) (k : Pubkey) (space : ℕ) : Outcome Ledger := do
  require (k ∈ p.signers) .missingRequiredSignature
  require (k ∈ p.writable) .privilegeEscalation
  require ((l.account k).Unallocated) .accountAlreadyInUse
  pure (l.set k { l.account k with data := List.replicate space 0 })

/-- `SystemInstruction::Assign`. -/
def assign (p : Privileges) (l : Ledger) (k owner : Pubkey) : Outcome Ledger := do
  require (k ∈ p.signers) .missingRequiredSignature
  require (k ∈ p.writable) .privilegeEscalation
  require ((l.account k).owner = systemProgram) .externalAccountDataModified
  pure (l.set k { l.account k with owner := owner })

/-- `SystemInstruction::CreateAccount`: refused when the address holds lamports. -/
def createAccount (p : Privileges) (l : Ledger) (src dst : Pubkey) (lamports space : ℕ)
    (owner : Pubkey) : Outcome Ledger := do
  require ((l.account dst).lamports = 0) .accountAlreadyInUse
  let l ← allocate p l dst space
  let l ← assign p l dst owner
  systemTransfer p l src dst lamports

/-- A wallet the system program will take `n` lamports from. -/
structure Funded (p : Privileges) (l : Ledger) (k : Pubkey) (n : ℕ) : Prop where
  signer : k ∈ p.signers
  writable : k ∈ p.writable
  unallocated : (l.account k).Unallocated
  lamports : n ≤ (l.account k).lamports

theorem systemTransfer_eq_ok {p : Privileges} {l l' : Ledger} {src dst : Pubkey} {n : ℕ} :
    systemTransfer p l src dst n = .ok l' ↔
      Funded p l src n ∧ dst ∈ p.writable ∧ l' = (l.debit src n).credit dst n := by
  simp only [systemTransfer, require_bind_eq_ok, pure_eq_ok]
  constructor
  · rintro ⟨hs, ⟨hw, hd⟩, hempty, howner, hn, rfl⟩
    exact ⟨⟨hs, hw, ⟨howner, hempty⟩, hn⟩, hd, rfl⟩
  · rintro ⟨⟨hs, hw, ⟨howner, hempty⟩, hn⟩, hd, rfl⟩
    exact ⟨hs, ⟨hw, hd⟩, hempty, howner, hn, rfl⟩

theorem allocate_eq_ok {p : Privileges} {l l' : Ledger} {k : Pubkey} {space : ℕ} :
    allocate p l k space = .ok l' ↔ k ∈ p.signers ∧ k ∈ p.writable ∧
      (l.account k).Unallocated ∧
      l.set k { l.account k with data := List.replicate space 0 } = l' := by
  simp only [allocate, require_bind_eq_ok, pure_eq_ok]

theorem assign_eq_ok {p : Privileges} {l l' : Ledger} {k owner : Pubkey} :
    assign p l k owner = .ok l' ↔ k ∈ p.signers ∧ k ∈ p.writable ∧
      (l.account k).owner = systemProgram ∧
      l.set k { l.account k with owner := owner } = l' := by
  simp only [assign, require_bind_eq_ok, pure_eq_ok]

theorem Funded.congr {p : Privileges} {l l' : Ledger} {k : Pubkey} {n : ℕ}
    (h : l'.account k = l.account k) : Funded p l' k n ↔ Funded p l k n := by
  constructor
  · rintro ⟨hs, hw, hu, hn⟩
    exact ⟨hs, hw, by rwa [← h], by rwa [← h]⟩
  · rintro ⟨hs, hw, hu, hn⟩
    exact ⟨hs, hw, by rwa [h], by rwa [h]⟩

/-- Allocating, assigning and funding an address amounts to one write. -/
lemma fund_allocated (l : Ledger) (n space : ℕ) (owner : Pubkey) {src dst : Pubkey}
    (hne : src ≠ dst) :
    (((l.set dst { l.account dst with data := List.replicate space 0 }).set dst
      { l.account dst with data := List.replicate space 0, owner := owner }).debit src n).credit
        dst n = l.opened src dst n
          ⟨(l.account dst).lamports + n, owner, List.replicate space 0⟩ := by
  refine Ledger.ext_account (fun k => ?_) rfl
  by_cases hd : k = dst
  · subst hd
    simp [Ledger.opened, Ledger.credit, Ledger.account_debit_of_ne _ _ hne.symm]
  · by_cases hs : k = src
    · subst hs
      simp [Ledger.opened, Ledger.account_credit_of_ne _ _ hd, Ledger.account_set_of_ne _ _ hd,
        Ledger.debit]
    · simp [Ledger.opened, Ledger.account_credit_of_ne _ _ hd, Ledger.account_set_of_ne _ _ hd,
        Ledger.account_debit_of_ne _ _ hs]

theorem Funded.mono {p : Privileges} {l : Ledger} {k : Pubkey} {n m : ℕ}
    (h : Funded p l k n) (hmn : m ≤ n) : Funded p l k m :=
  ⟨h.signer, h.writable, h.unallocated, hmn.trans h.lamports⟩

/-- What a successful `CreateAccount` needs and leaves, for two different keys. -/
theorem createAccount_eq_ok {p : Privileges} {l l' : Ledger} {src dst : Pubkey}
    {lamports space : ℕ} {owner : Pubkey} (hne : src ≠ dst) :
    createAccount p l src dst lamports space owner = .ok l' ↔
      (l.account dst).lamports = 0 ∧ (l.account dst).Unallocated ∧ dst ∈ p.signers ∧
        dst ∈ p.writable ∧ Funded p l src lamports ∧
        l' = l.opened src dst lamports ⟨lamports, owner, List.replicate space 0⟩ := by
  simp only [createAccount, require_bind_eq_ok]
  simp only [bind_eq_ok, allocate_eq_ok, assign_eq_ok, systemTransfer_eq_ok]
  constructor
  · rintro ⟨hzero, _, ⟨hs, hw, hu, rfl⟩, _, ⟨-, -, -, rfl⟩, hf, -, rfl⟩
    rw [Funded.congr (l := l) (by simp [Ledger.account_set_of_ne _ _ hne])] at hf
    have heq := fund_allocated l lamports space owner hne
    rw [hzero, Nat.zero_add] at heq
    exact ⟨hzero, hu, hs, hw, hf, by simpa using heq⟩
  · rintro ⟨hzero, hu, hs, hw, hf, rfl⟩
    refine ⟨hzero, _, ⟨hs, hw, hu, rfl⟩, _, ⟨hs, hw, by simpa using hu.1, rfl⟩, ?_, hw, ?_⟩
    · rwa [Funded.congr (l := l) (by simp [Ledger.account_set_of_ne _ _ hne])]
    · have heq := fund_allocated l lamports space owner hne
      rw [hzero, Nat.zero_add] at heq
      simpa using heq.symm

/-! ## `init` -/

/-- Transfers `n` lamports if any are missing. -/
def topUp (p : Privileges) (l : Ledger) (payer k : Pubkey) (n : ℕ) : Outcome Ledger :=
  if n > 0 then systemTransfer p l payer k n else .ok l

/-- What `init` does once the address is checked: `create_account` for an address
without lamports, otherwise top up, allocate and assign. -/
def initAccount (H : Host) (p : Privileges) (l : Ledger) (payer k : Pubkey) (space : ℕ) :
    Outcome Ledger :=
  if (l.account k).lamports = 0 then
    createAccount p l payer k (H.minimumBalance space) space H.programId
  else do
    require (payer ≠ k) (.anchor .tryingToInitPayerAsProgramAccount)
    let l ← topUp p l payer k (max (H.minimumBalance space) 1 - (l.account k).lamports)
    let l ← allocate p l k space
    assign p l k H.programId

theorem topUp_ok {p : Privileges} {l l' : Ledger} {payer k : Pubkey} {n : ℕ}
    (h : topUp p l payer k n = .ok l') : l' = (l.debit payer n).credit k n := by
  unfold topUp at h
  split_ifs at h with hpos
  · exact (systemTransfer_eq_ok.mp h).2.2
  · have h0 : n = 0 := by omega
    rw [h0, Ledger.debit_zero, Ledger.credit_zero]
    exact (Except.ok.inj h).symm

lemma allocate_funded (l : Ledger) (n space : ℕ) (owner : Pubkey) {src dst : Pubkey}
    (hne : src ≠ dst) :
    (((l.debit src n).credit dst n).set dst
      { ((l.debit src n).credit dst n).account dst with
        data := List.replicate space 0, owner := owner }) =
      l.opened src dst n ⟨(l.account dst).lamports + n, owner, List.replicate space 0⟩ := by
  refine Ledger.ext_account (fun k => ?_) rfl
  by_cases hd : k = dst
  · subst hd
    simp [Ledger.opened, Ledger.credit, Ledger.account_debit_of_ne _ _ hne.symm]
  · simp [Ledger.opened, Ledger.account_credit_of_ne _ _ hd, Ledger.account_set_of_ne _ _ hd]

/-- A successful `init` met an unallocated address and leaves a zero-filled,
rent-exempt account of the program there; only the payer pays. -/
theorem initAccount_ok {H : Host} {p : Privileges} {l l' : Ledger} {payer k : Pubkey}
    {space : ℕ} (hne : payer ≠ k) (h : initAccount H p l payer k space = .ok l') :
    (l.account k).Unallocated ∧ k ∈ p.writable ∧ ∃ n lamports,
      H.minimumBalance space ≤ lamports ∧
      l' = l.opened payer k n ⟨lamports, H.programId, List.replicate space 0⟩ := by
  unfold initAccount at h
  split_ifs at h with hzero
  · obtain ⟨-, hu, -, hw, -, rfl⟩ := (createAccount_eq_ok hne).mp h
    exact ⟨hu, hw, _, _, le_rfl, rfl⟩
  · rw [require_bind_eq_ok] at h
    simp only [bind_eq_ok, allocate_eq_ok, assign_eq_ok] at h
    obtain ⟨-, l₁, hfund, _, ⟨-, hw, hu, rfl⟩, -, -, -, rfl⟩ := h
    obtain rfl := topUp_ok hfund
    set n := max (H.minimumBalance space) 1 - (l.account k).lamports
    refine ⟨⟨by simpa using hu.1, by simpa using hu.2⟩, hw, n, (l.account k).lamports + n,
      by omega, ?_⟩
    simpa using allocate_funded l n space H.programId hne

/-- `init` at an unallocated address succeeds for a payer with the rent, whatever
balance the address already holds. -/
theorem initAccount_succeeds {H : Host} {p : Privileges} {l : Ledger} {payer k : Pubkey}
    {space : ℕ} (hne : payer ≠ k) (hu : (l.account k).Unallocated) (hs : k ∈ p.signers)
    (hw : k ∈ p.writable) (hf : Funded p l payer (max (H.minimumBalance space) 1)) :
    ∃ l', initAccount H p l payer k space = .ok l' := by
  unfold initAccount
  split_ifs with hzero
  · exact ⟨_, (createAccount_eq_ok hne).mpr
      ⟨hzero, hu, hs, hw, hf.mono (le_max_left _ _), rfl⟩⟩
  · set n := max (H.minimumBalance space) 1 - (l.account k).lamports with hn
    have htop : topUp p l payer k n = .ok ((l.debit payer n).credit k n) := by
      unfold topUp
      split_ifs with hpos
      · exact systemTransfer_eq_ok.mpr ⟨hf.mono (by omega), hw, rfl⟩
      · rw [show n = 0 by omega, Ledger.debit_zero, Ledger.credit_zero]
    obtain ⟨l₂, halloc, howner⟩ : ∃ l₂,
        allocate p ((l.debit payer n).credit k n) k space = .ok l₂ ∧
          (l₂.account k).owner = systemProgram :=
      ⟨_, allocate_eq_ok.mpr ⟨hs, hw, ⟨by simpa using hu.1, by simpa using hu.2⟩, rfl⟩,
        by simpa using hu.1⟩
    refine ⟨l₂.set k { l₂.account k with owner := H.programId }, ?_⟩
    rw [require_pos hne, ok_bind, htop, ok_bind, halloc, ok_bind]
    exact assign_eq_ok.mpr ⟨hs, hw, howner, rfl⟩

/-! ## Typed accounts -/

/-- An `#[account]` type: its discriminator and its Borsh layout. -/
class AnchorAccount (α : Type) where
  discriminator : List UInt8
  serialize : α → List UInt8
  deserialize : List UInt8 → Option α
  size : ℕ
  length_discriminator : discriminator.length = 8
  length_serialize : ∀ a, (serialize a).length = size
  deserialize_serialize : ∀ a rest, deserialize (serialize a ++ rest) = some a

variable {α : Type} [AnchorAccount α]

open AnchorAccount

/-- The bytes an account of the type holds. -/
def image (a : α) : List UInt8 := discriminator α ++ serialize a

/-- `T::try_deserialize_unchecked`: the discriminator is not looked at. -/
def tryDeserializeUnchecked (α : Type) [AnchorAccount α] (data : List UInt8) : Outcome α := do
  require (8 ≤ data.length) .panicked
  expect (deserialize (data.drop 8)) (.anchor .accountDidNotDeserialize)

/-- `T::try_deserialize`. -/
def tryDeserialize (α : Type) [AnchorAccount α] (data : List UInt8) : Outcome α := do
  require (8 ≤ data.length) (.anchor .accountDiscriminatorNotFound)
  require (data.take 8 = discriminator α) (.anchor .accountDiscriminatorMismatch)
  expect (deserialize (data.drop 8)) (.anchor .accountDidNotDeserialize)

/-- `Account::<T>::try_from`. -/
def loadAccount (α : Type) [AnchorAccount α] (H : Host) (l : Ledger) (k : Pubkey) :
    Outcome α := do
  require (¬ ((l.account k).owner = systemProgram ∧ (l.account k).lamports = 0))
    (.anchor .accountNotInitialized)
  require ((l.account k).owner = H.programId) (.anchor .accountOwnedByWrongProgram)
  tryDeserialize α (l.account k).data

/-- The write-back of a mutable account when the handler has returned. -/
def exitAccount (l : Ledger) (k : Pubkey) (a : α) : Outcome Ledger := do
  require ((image a).length ≤ (l.account k).data.length) (.anchor .accountDidNotSerialize)
  pure (l.set k { l.account k with
    data := image a ++ (l.account k).data.drop (image a).length })

@[simp] theorem length_image (a : α) : (image a).length = 8 + size α := by
  simp [image, length_discriminator, length_serialize]

@[simp] theorem tryDeserialize_image (a : α) : tryDeserialize α (image a) = .ok a := by
  have h8 : (discriminator α).length = 8 := length_discriminator
  have hd := deserialize_serialize a []
  rw [List.append_nil] at hd
  unfold tryDeserialize
  rw [require_bind_eq_ok, require_bind_eq_ok, expect_eq_ok]
  refine ⟨by simp, ?_, ?_⟩
  · rw [image, List.take_left' h8]
  · rw [image, List.drop_left' h8, hd]

theorem loadAccount_eq_ok {H : Host} {l : Ledger} {k : Pubkey} {a : α} :
    loadAccount α H l k = .ok a ↔
      (l.account k).owner = H.programId ∧ tryDeserialize α (l.account k).data = .ok a := by
  simp only [loadAccount, require_bind_eq_ok]
  constructor
  · rintro ⟨-, howner, hdata⟩
    exact ⟨howner, hdata⟩
  · rintro ⟨howner, hdata⟩
    refine ⟨?_, howner, hdata⟩
    rintro ⟨hsys, -⟩
    exact H.programId_ne (howner.symm.trans hsys)

/-- Writing back to an account of exactly the type's size leaves the new image. -/
theorem exitAccount_of_size {l : Ledger} {k : Pubkey} {a : α}
    (h : (l.account k).data.length = 8 + size α) :
    exitAccount l k a = .ok (l.set k { l.account k with data := image a }) := by
  unfold exitAccount
  rw [require_pos (by simp [h]), ok_bind]
  simp [← h, pure, Except.pure]

/-! ## Constraints -/

/-- `Signer<'info>`. -/
def signer (p : Privileges) (k : Pubkey) : Outcome Unit :=
  require (k ∈ p.signers) (.anchor .accountNotSigner)

/-- `#[account(mut)]`. -/
def mutable (p : Privileges) (k : Pubkey) : Outcome Unit :=
  require (k ∈ p.writable) (.anchor .constraintMut)

/-- `Program<'info, System>`. -/
def systemProgramAccount (k : Pubkey) : Outcome Unit :=
  require (k = systemProgram) (.anchor .invalidProgramId)

/-- `seeds = seeds, bump = bump`: the address for the given bump. -/
def seedsWithBump (H : Host) (seeds : List (List UInt8)) (bump : UInt8) (k : Pubkey) :
    Outcome Unit :=
  require (H.createProgramAddress (seeds ++ [[bump]]) H.programId = some k)
    (.anchor .constraintSeeds)

/-- `seeds = seeds, bump`: the canonical address; returns its bump. -/
def seedsCanonical (H : Host) (seeds : List (List UInt8)) (k : Pubkey) : Outcome UInt8 := do
  let pda ← expect (H.findProgramAddress seeds H.programId) .panicked
  require (k = pda.1) (.anchor .constraintSeeds)
  pure pda.2

/-- `init, payer = payer, space = space, seeds = seeds, bump`. -/
def initConstraint (H : Host) (p : Privileges) (l : Ledger) (payer k : Pubkey) (space : ℕ)
    (seeds : List (List UInt8)) : Outcome (Ledger × UInt8) := do
  let bump ← seedsCanonical H seeds k
  let l ← initAccount H (p.invokeSigned H (seeds ++ [[bump]])) l payer k space
  mutable p k
  require (H.minimumBalance space ≤ (l.account k).lamports) (.anchor .constraintRentExempt)
  pure (l, bump)

/-- `realloc = space, realloc::payer = payer, realloc::zero = false`; the program's sizes
are far below what the runtime lets an account grow by. -/
def reallocConstraint (H : Host) (p : Privileges) (l : Ledger) (payer k : Pubkey)
    (space : ℕ) : Outcome Ledger :=
  let a := l.account k
  if a.data.length < space then do
    let l ← topUp p l payer k (H.minimumBalance space - a.lamports)
    pure (l.set k { l.account k with
      data := a.data ++ List.replicate (space - a.data.length) 0 })
  else if space < a.data.length then do
    require (H.minimumBalance space ≤ a.lamports) .panicked
    let l := l.opened k k (a.lamports - H.minimumBalance space)
      { a with lamports := H.minimumBalance space, data := a.data.take space }
    pure (l.credit payer (a.lamports - H.minimumBalance space))
  else .ok l

/-- The exit of a `close = dst` account. -/
def closeAccount (l : Ledger) (k dst : Pubkey) : Ledger :=
  (l.credit dst (l.account k).lamports).set k ⟨0, systemProgram, []⟩

/-- A write to an account's data; the runtime rejects it outside the program's own. -/
def writeData (H : Host) (l : Ledger) (k : Pubkey) (data : List UInt8) : Outcome Ledger := do
  require ((l.account k).owner = H.programId ∨ (l.account k).data = data)
    .externalAccountDataModified
  pure (l.set k { l.account k with data := data })

/-- The runtime's last check: only accounts passed as writable have changed. -/
def commit (p : Privileges) (keys : List Pubkey) (l l' : Ledger) : Outcome Ledger := do
  require (∀ k ∈ keys, l'.account k = l.account k ∨ k ∈ p.writable) .readonlyModified
  pure l'

theorem writeData_eq_ok {H : Host} {l l' : Ledger} {k : Pubkey} {data : List UInt8} :
    writeData H l k data = .ok l' ↔
      ((l.account k).owner = H.programId ∨ (l.account k).data = data) ∧
        l.set k { l.account k with data := data } = l' := by
  simp only [writeData, require_bind_eq_ok, pure_eq_ok]

theorem commit_eq_ok {p : Privileges} {keys : List Pubkey} {l l₁ l' : Ledger} :
    commit p keys l l₁ = .ok l' ↔
      (∀ k ∈ keys, l₁.account k = l.account k ∨ k ∈ p.writable) ∧ l₁ = l' := by
  simp only [commit, require_bind_eq_ok, pure_eq_ok]

theorem seedsCanonical_eq_ok {H : Host} {seeds : List (List UInt8)} {k : Pubkey} {b : UInt8} :
    seedsCanonical H seeds k = .ok b ↔
      H.findProgramAddress seeds H.programId = some (k, b) := by
  simp only [seedsCanonical, expect_bind_eq_ok, require_bind_eq_ok, pure_eq_ok]
  constructor
  · rintro ⟨⟨_, _⟩, hfind, rfl, rfl⟩
    exact hfind
  · intro hfind
    exact ⟨_, hfind, rfl, rfl⟩

theorem seedsCanonical_of_find {H : Host} {seeds : List (List UInt8)} {k : Pubkey} {b : UInt8}
    (h : H.findProgramAddress seeds H.programId = some (k, b)) :
    seedsCanonical H seeds k = .ok b := seedsCanonical_eq_ok.mpr h

theorem mem_invokeSigned {H : Host} {p : Privileges} {seeds : List (List UInt8)} {k : Pubkey}
    (h : H.createProgramAddress seeds H.programId = some k) :
    k ∈ (p.invokeSigned H seeds).signers := by
  simp [Privileges.invokeSigned, h]

theorem Funded.invokeSigned {H : Host} {p : Privileges} {l : Ledger} {k : Pubkey} {n : ℕ}
    (h : Funded p l k n) (seeds : List (List UInt8)) :
    Funded (p.invokeSigned H seeds) l k n :=
  ⟨by simp [Privileges.invokeSigned, h.signer], h.writable, h.unallocated, h.lamports⟩

theorem find_of_initConstraint {H : Host} {p : Privileges} {l : Ledger} {payer k : Pubkey}
    {space : ℕ} {seeds : List (List UInt8)} {opened : Ledger × UInt8}
    (h : initConstraint H p l payer k space seeds = .ok opened) :
    H.findProgramAddress seeds H.programId = some (k, opened.2) := by
  unfold initConstraint at h
  obtain ⟨b, hseeds, h⟩ := bind_eq_ok.mp h
  obtain ⟨l₁, -, h⟩ := bind_eq_ok.mp h
  simp only [mutable, require_bind_eq_ok, pure_eq_ok] at h
  obtain ⟨-, -, rfl⟩ := h
  exact seedsCanonical_eq_ok.mp hseeds

/-- A successful `init` constraint: the address is the canonical one, it was
unallocated, and it now holds a zero-filled account of the program. -/
theorem initConstraint_ok {H : Host} {p : Privileges} {l : Ledger} {payer k : Pubkey}
    {space : ℕ} {seeds : List (List UInt8)} {opened : Ledger × UInt8} (hne : payer ≠ k)
    (h : initConstraint H p l payer k space seeds = .ok opened) :
    (l.account k).Unallocated ∧ k ∈ p.writable ∧ ∃ n lamports,
      opened.1 = l.opened payer k n ⟨lamports, H.programId, List.replicate space 0⟩ := by
  unfold initConstraint at h
  obtain ⟨b, hseeds, h⟩ := bind_eq_ok.mp h
  obtain ⟨l₁, hinit, h⟩ := bind_eq_ok.mp h
  simp only [mutable, require_bind_eq_ok, pure_eq_ok] at h
  obtain ⟨hw, -, rfl⟩ := h
  obtain ⟨hu, -, n, lamports, -, rfl⟩ := initAccount_ok hne hinit
  exact ⟨hu, hw, n, lamports, rfl⟩

theorem initConstraint_succeeds {H : Host} {p : Privileges} {l : Ledger} {payer k : Pubkey}
    {space : ℕ} {seeds : List (List UInt8)} {b : UInt8} (hne : payer ≠ k)
    (hfind : H.findProgramAddress seeds H.programId = some (k, b))
    (hu : (l.account k).Unallocated) (hw : k ∈ p.writable)
    (hf : Funded p l payer (max (H.minimumBalance space) 1)) :
    ∃ l', initConstraint H p l payer k space seeds = .ok (l', b) := by
  obtain ⟨l', hinit⟩ := initAccount_succeeds hne hu
    (mem_invokeSigned (p := p) (Host.createProgramAddress_of_find hfind)) hw
    (hf.invokeSigned _)
  have hmin : H.minimumBalance space ≤ (l'.account k).lamports := by
    obtain ⟨-, -, n, lamports, hmin, rfl⟩ := initAccount_ok hne hinit
    simpa [Ledger.opened] using hmin
  refine ⟨l', ?_⟩
  unfold initConstraint
  rw [seedsCanonical_of_find hfind, ok_bind, hinit, ok_bind, mutable, require_pos hw, ok_bind,
    require_pos hmin, ok_bind]
  rfl

end AlienIdTransferHook.Solana
