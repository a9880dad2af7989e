import AlienIdTransferHook.InstructionSpecs
import Mathlib.Algebra.BigOperators.Group.Finset.Basic

/-!
# Where the lamports go

Every instruction that succeeds is a sequence of payments between the accounts it
was passed and of writes that leave the balance alone. Nothing is minted or burnt
that way, and only a signer or an account of the program ever pays.
-/
namespace AlienIdTransferHook
open Solana History

namespace Solana

/-! ## Payments and writes -/

/-- What may happen to the accounts `keys` while only `payers` give lamports away. -/
inductive Moves (keys : List Pubkey) (payers : Set Pubkey) (l : Ledger) : Ledger → Prop
  | refl : Moves keys payers l l
  | pay {l' : Ledger} {src dst : Pubkey} {n : ℕ} (h : Moves keys payers l l') (hs : src ∈ keys)
      (hd : dst ∈ keys) (hp : src ∈ payers) (hn : n ≤ (l'.account src).lamports) :
      Moves keys payers l ((l'.debit src n).credit dst n)
  | write {l' : Ledger} {k : Pubkey} {a : Account} (h : Moves keys payers l l') (hk : k ∈ keys)
      (ha : a.lamports = (l'.account k).lamports) : Moves keys payers l (l'.set k a)

/-- The lamports on the accounts of `S`. -/
def Ledger.total (S : Finset Pubkey) (l : Ledger) : ℕ := ∑ k ∈ S, (l.account k).lamports

namespace Ledger
variable {S : Finset Pubkey} {l : Ledger} {k : Pubkey}

/-- A write replaces one balance in the total. -/
theorem total_set (h : k ∈ S) (a : Account) :
    (l.set k a).total S + (l.account k).lamports = l.total S + a.lamports := by
  have hrest : ∑ k' ∈ S.erase k, ((l.set k a).account k').lamports =
      ∑ k' ∈ S.erase k, (l.account k').lamports := by
    apply Finset.sum_congr rfl
    intro k' hk'
    rw [account_set_of_ne _ _ (Finset.ne_of_mem_erase hk')]
  have hnew := Finset.add_sum_erase S (fun k' => ((l.set k a).account k').lamports) h
  have hold := Finset.add_sum_erase S (fun k' => (l.account k').lamports) h
  simp only [account_set_self] at hnew
  simp only [total]
  omega

theorem total_set_of_not_mem (h : k ∉ S) (a : Account) : (l.set k a).total S = l.total S := by
  apply Finset.sum_congr rfl
  intro k' hk'
  rw [account_set_of_ne]
  rintro rfl
  exact h hk'

theorem total_debit (h : k ∈ S) {n : ℕ} (hn : n ≤ (l.account k).lamports) :
    (l.debit k n).total S + n = l.total S := by
  have hset := total_set (l := l) h
    { l.account k with lamports := (l.account k).lamports - n }
  simp only [debit] at hset ⊢
  omega

theorem total_credit (h : k ∈ S) (n : ℕ) : (l.credit k n).total S = l.total S + n := by
  have hset := total_set (l := l) h
    { l.account k with lamports := (l.account k).lamports + n }
  simp only [credit] at hset ⊢
  omega

end Ledger

namespace Moves
variable {keys : List Pubkey} {payers payers' : Set Pubkey} {l l' l'' : Ledger}

theorem mono (hsub : payers ⊆ payers') (h : Moves keys payers l l') :
    Moves keys payers' l l' := by
  induction h with
  | refl => exact .refl
  | pay _ hs hd hp hn ih => exact .pay ih hs hd (hsub hp) hn
  | write _ hk ha ih => exact .write ih hk ha

theorem trans (h : Moves keys payers l l') (h' : Moves keys payers l' l'') :
    Moves keys payers l l'' := by
  induction h' with
  | refl => exact h
  | pay _ hs hd hp hn ih => exact .pay ih hs hd hp hn
  | write _ hk ha ih => exact .write ih hk ha

theorem unixTimestamp_eq (h : Moves keys payers l l') : l'.unixTimestamp = l.unixTimestamp := by
  induction h with
  | refl => rfl
  | pay _ _ _ _ _ ih => exact ih
  | write _ _ _ ih => exact ih

/-- Nothing is minted and nothing is burnt. -/
theorem total_eq (h : Moves keys payers l l') {S : Finset Pubkey} (hS : ∀ k ∈ keys, k ∈ S) :
    l'.total S = l.total S := by
  induction h with
  | refl => rfl
  | @pay l' src dst n _ hs hd _ hn ih =>
      rw [Ledger.total_credit (hS _ hd), Ledger.total_debit (hS _ hs) hn]
      exact ih
  | @write l' k a _ hk ha ih =>
      have hset := Ledger.total_set (l := l') (hS _ hk) a
      omega

/-- Who is not among the payers loses nothing. -/
theorem lamports_le (h : Moves keys payers l l') {k : Pubkey} (hk : k ∉ payers) :
    (l.account k).lamports ≤ (l'.account k).lamports := by
  induction h with
  | refl => exact le_rfl
  | @pay l' src dst n _ _ _ hp _ ih =>
      have hsrc : k ≠ src := fun heq => hk (heq ▸ hp)
      by_cases hdst : k = dst
      · subst hdst
        simp only [Ledger.credit, Ledger.account_set_self, Ledger.account_debit_of_ne _ _ hsrc]
        omega
      · rwa [Ledger.account_credit_of_ne _ _ hdst, Ledger.account_debit_of_ne _ _ hsrc]
  | @write l' k' a _ _ ha ih =>
      by_cases heq : k = k'
      · subst heq
        rw [Ledger.account_set_self, ha]
        exact ih
      · rwa [Ledger.account_set_of_ne _ _ heq]

end Moves

/-! ## The system program and Anchor's constraints -/

section Primitives
variable {H : Host} {p : Privileges} {keys : List Pubkey} {l l' : Ledger} {k src dst : Pubkey}

lemma systemTransfer_moves (hs : src ∈ keys) (hd : dst ∈ keys) {n : ℕ}
    (h : systemTransfer p l src dst n = .ok l') : Moves keys {src} l l' := by
  obtain ⟨hf, -, rfl⟩ := systemTransfer_eq_ok.mp h
  exact .pay .refl hs hd rfl hf.lamports

lemma allocate_moves (hk : k ∈ keys) (payers : Set Pubkey) {space : ℕ}
    (h : allocate p l k space = .ok l') : Moves keys payers l l' := by
  obtain ⟨-, -, -, rfl⟩ := allocate_eq_ok.mp h
  exact .write .refl hk rfl

lemma assign_moves (hk : k ∈ keys) (payers : Set Pubkey) {owner : Pubkey}
    (h : assign p l k owner = .ok l') : Moves keys payers l l' := by
  obtain ⟨-, -, -, rfl⟩ := assign_eq_ok.mp h
  exact .write .refl hk rfl

lemma createAccount_moves (hs : src ∈ keys) (hd : dst ∈ keys) {lamports space : ℕ}
    {owner : Pubkey} (h : createAccount p l src dst lamports space owner = .ok l') :
    Moves keys {src} l l' := by
  rw [createAccount, require_bind_eq_ok] at h
  obtain ⟨l₁, hallocate, h⟩ := bind_eq_ok.mp h.2
  obtain ⟨l₂, hassign, htransfer⟩ := bind_eq_ok.mp h
  exact ((allocate_moves hd _ hallocate).trans (assign_moves hd _ hassign)).trans
    (systemTransfer_moves hs hd htransfer)

lemma topUp_moves (hs : src ∈ keys) (hk : k ∈ keys) {n : ℕ}
    (h : topUp p l src k n = .ok l') : Moves keys {src} l l' := by
  unfold topUp at h
  split_ifs at h
  · exact systemTransfer_moves hs hk h
  · exact Except.ok.inj h ▸ .refl

lemma initAccount_moves (hs : src ∈ keys) (hk : k ∈ keys) {space : ℕ}
    (h : initAccount H p l src k space = .ok l') : Moves keys {src} l l' := by
  unfold initAccount at h
  split_ifs at h
  · exact createAccount_moves hs hk h
  · rw [require_bind_eq_ok] at h
    obtain ⟨l₁, htop, h⟩ := bind_eq_ok.mp h.2
    obtain ⟨l₂, hallocate, hassign⟩ := bind_eq_ok.mp h
    exact ((topUp_moves hs hk htop).trans (allocate_moves hk _ hallocate)).trans
      (assign_moves hk _ hassign)

lemma initConstraint_moves (hs : src ∈ keys) (hk : k ∈ keys) {space : ℕ}
    {seeds : List (List UInt8)} {opened : Ledger × UInt8}
    (h : initConstraint H p l src k space seeds = .ok opened) : Moves keys {src} l opened.1 := by
  obtain ⟨b, -, h⟩ := bind_eq_ok.mp h
  obtain ⟨l₁, hinit, h⟩ := bind_eq_ok.mp h
  simp only [mutable, require_bind_eq_ok, pure_eq_ok] at h
  obtain ⟨-, -, rfl⟩ := h
  exact initAccount_moves hs hk hinit

/-- Shrinking gives the excess back; growing asks the payer for what is missing. -/
lemma reallocConstraint_moves (hs : src ∈ keys) (hk : k ∈ keys) {space : ℕ}
    (h : reallocConstraint H p l src k space = .ok l') : Moves keys {src, k} l l' := by
  unfold reallocConstraint at h
  dsimp only at h
  split_ifs at h
  · obtain ⟨l₁, htop, h⟩ := bind_eq_ok.mp h
    obtain rfl := pure_eq_ok.mp h
    exact .write ((topUp_moves hs hk htop).mono (by simp)) hk rfl
  · obtain ⟨hmin, h⟩ := require_bind_eq_ok.mp h
    obtain rfl := pure_eq_ok.mp h
    set a := l.account k
    set excess := a.lamports - H.minimumBalance space with hexcess
    have hshrunk : l.opened k k excess
        { a with lamports := H.minimumBalance space, data := a.data.take space } =
          (l.set k { a with data := a.data.take space }).debit k excess := by
      have hmin' : a.lamports - excess = H.minimumBalance space := by omega
      simp [Ledger.opened, Ledger.debit, hmin']
    rw [hshrunk]
    exact .pay (.write .refl hk rfl) hk hs (by simp) (by simp [hexcess])
  · exact Except.ok.inj h ▸ .refl

/-- Closing pays out the whole balance and wipes the account. -/
lemma closeAccount_moves (hk : k ∈ keys) (hd : dst ∈ keys) (hne : k ≠ dst) :
    Moves keys {k} l (closeAccount l k dst) := by
  set n := (l.account k).lamports with hn
  have hpaid : Moves keys {k} l ((l.debit k n).credit dst n) := .pay .refl hk hd rfl le_rfl
  have hclosed : closeAccount l k dst =
      ((l.debit k n).credit dst n).set k ⟨0, systemProgram, []⟩ := by
    refine Ledger.ext_account (fun k' => ?_) rfl
    by_cases hk' : k' = k
    · subst hk'
      simp [closeAccount]
    · by_cases hd' : k' = dst
      · subst hd'
        simp [closeAccount, Ledger.credit, Ledger.account_set_of_ne _ _ hk',
          Ledger.account_debit_of_ne _ _ hk', hn]
      · simp [closeAccount, Ledger.account_set_of_ne _ _ hk', Ledger.account_credit_of_ne _ _ hd',
          Ledger.account_debit_of_ne _ _ hk']
  rw [hclosed]
  apply Moves.write hpaid hk
  simp [Ledger.account_credit_of_ne _ _ hne, Ledger.debit, hn]

lemma exitAccount_moves {α : Type} [AnchorAccount α] (hk : k ∈ keys) (payers : Set Pubkey)
    {a : α} (h : exitAccount l k a = .ok l') : Moves keys payers l l' := by
  rw [exitAccount, require_bind_eq_ok, pure_eq_ok] at h
  obtain ⟨-, rfl⟩ := h
  exact .write .refl hk rfl

end Primitives

end Solana

/-! ## The instructions -/

variable {d : Deployment} {p : Privileges} {keys : List Pubkey} {l l' : Ledger}

/-- `initialize_config` is the `init` constraint followed by the write-back. -/
lemma initializeConfig_steps {credential schema sasProgram : Pubkey}
    (h : initializeConfig d p l keys credential schema sasProgram = .ok l') :
    ∃ a opened config, InitializeConfig.ofKeys keys = .ok a ∧ a.authority ∈ p.signers ∧
      initConstraint d.toHost p l a.authority a.config HookConfig.LEN
        (HookSeeds.config a.mint).toList = .ok opened ∧
      exitAccount opened.1 a.config
        (a.handler opened.2 config credential schema sasProgram) = .ok l' := by
  obtain ⟨a, hkeys, h⟩ := bind_eq_ok.mp h
  obtain ⟨opened, htry, h⟩ := bind_eq_ok.mp h
  obtain ⟨config, -, hexit⟩ := bind_eq_ok.mp h
  rw [InitializeConfig.tryAccounts, signer, require_bind_eq_ok] at htry
  obtain ⟨hsigned, htry⟩ := htry
  obtain ⟨mint, -, htry⟩ := bind_eq_ok.mp htry
  rw [systemProgramAccount, require_bind_eq_ok] at htry
  obtain ⟨opened', hinit, htry⟩ := bind_eq_ok.mp htry.2
  simp only [mutable, require_bind_eq_ok, pure_eq_ok] at htry
  obtain ⟨-, -, rfl⟩ := htry
  exact ⟨a, opened', config, hkeys, hsigned, hinit, hexit⟩

/-- So is `add_to_whitelist`. -/
lemma addToWhitelist_steps {wallet : Pubkey} (h : addToWhitelist d p l keys wallet = .ok l') :
    ∃ a opened entry, AddToWhitelist.ofKeys keys = .ok a ∧ a.authority ∈ p.signers ∧
      initConstraint d.toHost p l a.authority a.whitelistEntry WhitelistEntry.LEN
        (HookSeeds.whitelist a.mint wallet).toList = .ok opened ∧
      exitAccount opened.1 a.whitelistEntry (AddToWhitelist.handler opened.2 entry wallet) =
        .ok l' := by
  obtain ⟨a, hkeys, h⟩ := bind_eq_ok.mp h
  obtain ⟨opened, htry, h⟩ := bind_eq_ok.mp h
  obtain ⟨entry, -, hexit⟩ := bind_eq_ok.mp h
  rw [AddToWhitelist.tryAccounts, signer, require_bind_eq_ok] at htry
  obtain ⟨hsigned, htry⟩ := htry
  obtain ⟨config, -, htry⟩ := bind_eq_ok.mp htry
  obtain ⟨mint, -, htry⟩ := bind_eq_ok.mp htry
  rw [systemProgramAccount, require_bind_eq_ok] at htry
  obtain ⟨opened', hinit, htry⟩ := bind_eq_ok.mp htry.2
  simp only [mutable, seedsWithBump, require_bind_eq_ok, pure_eq_ok] at htry
  obtain ⟨-, -, -, rfl⟩ := htry
  exact ⟨a, opened', entry, hkeys, hsigned, hinit, hexit⟩

lemma initializeConfig_moves {credential schema sasProgram : Pubkey}
    (h : initializeConfig d p l keys credential schema sasProgram = .ok l') :
    ∃ a ∈ keys, a ∈ p.signers ∧ Moves keys {a} l l' := by
  obtain ⟨a, opened, config, hkeys, hsigned, hinit, hexit⟩ := initializeConfig_steps h
  obtain ⟨rest, hrest⟩ := InitializeConfig.ofKeys_eq_ok hkeys
  have ha : a.authority ∈ keys := by simp [hrest]
  have hc : a.config ∈ keys := by simp [hrest]
  exact ⟨a.authority, ha, hsigned,
    (initConstraint_moves ha hc hinit).trans (exitAccount_moves hc _ hexit)⟩

lemma updateConfig_moves {credential schema sasProgram : Pubkey} (payers : Set Pubkey)
    (h : updateConfig d p l keys credential schema sasProgram = .ok l') :
    Moves keys payers l l' := by
  obtain ⟨a, config, bump, metas, data, hkeys, -, -, -, -, -, -, -, hexit⟩ := updateConfig_ok h
  obtain ⟨rest, hrest⟩ := UpdateConfig.ofKeys_eq_ok hkeys
  have hc : a.config ∈ keys := by simp [hrest]
  have hl : a.extraAccountMetaList ∈ keys := by simp [hrest]
  have hlist : Moves keys payers l (l.set a.extraAccountMetaList
      { l.account a.extraAccountMetaList with data := data }) := .write .refl hl rfl
  exact hlist.trans (exitAccount_moves hc payers hexit)

lemma initializeExtraAccountMetaList_moves
    (h : initializeExtraAccountMetaList d p l keys = .ok l') :
    ∃ a ∈ keys, a ∈ p.signers ∧ Moves keys {a} l l' := by
  obtain ⟨a, config, bump, metas, size, l₁, data, hkeys, hsigned, -, -, -, -, -, -, hcreate, -,
    rfl⟩ := initializeExtraAccountMetaList_ok h
  obtain ⟨rest, hrest⟩ := InitializeExtraAccountMetaList.ofKeys_eq_ok hkeys
  have hp : a.payer ∈ keys := by simp [hrest]
  have hl : a.extraAccountMetaList ∈ keys := by simp [hrest]
  have hcreated : Moves keys {a.payer} l l₁ := by
    unfold InitializeExtraAccountMetaList.createIfEmpty at hcreate
    split_ifs at hcreate
    · exact createAccount_moves hp hl hcreate
    · exact Except.ok.inj hcreate ▸ .refl
  exact ⟨a.payer, hp, hsigned, .write hcreated hl rfl⟩

lemma transferAuthority_moves (h : transferAuthority d p l keys = .ok l') :
    ∃ a ∈ keys, ∃ k ∈ keys, a ∈ p.signers ∧ (l.account k).owner = d.programId ∧
      Moves keys {a, k} l l' := by
  obtain ⟨a, config, l₁, hkeys, hsigned, hload, -, -, hrealloc, hexit⟩ := transferAuthority_ok h
  obtain ⟨rest, hrest⟩ := TransferAuthority.ofKeys_eq_ok hkeys
  have ha : a.authority ∈ keys := by simp [hrest]
  have hc : a.config ∈ keys := by simp [hrest]
  exact ⟨a.authority, ha, a.config, hc, hsigned, (loadAccount_eq_ok.mp hload).1,
    (reallocConstraint_moves ha hc hrealloc).trans (exitAccount_moves hc _ hexit)⟩

lemma acceptAuthority_moves (payers : Set Pubkey) (h : acceptAuthority d p l keys = .ok l') :
    Moves keys payers l l' := by
  obtain ⟨a, config, hkeys, -, -, -, -, -, hexit⟩ := acceptAuthority_ok h
  obtain ⟨rest, hrest⟩ := AcceptAuthority.ofKeys_eq_ok hkeys
  exact exitAccount_moves (by simp [hrest]) payers hexit

lemma addToWhitelist_moves {wallet : Pubkey} (h : addToWhitelist d p l keys wallet = .ok l') :
    ∃ a ∈ keys, a ∈ p.signers ∧ Moves keys {a} l l' := by
  obtain ⟨a, opened, entry, hkeys, hsigned, hinit, hexit⟩ := addToWhitelist_steps h
  obtain ⟨rest, hrest⟩ := AddToWhitelist.ofKeys_eq_ok hkeys
  have ha : a.authority ∈ keys := by simp [hrest]
  have he : a.whitelistEntry ∈ keys := by simp [hrest]
  exact ⟨a.authority, ha, hsigned,
    (initConstraint_moves ha he hinit).trans (exitAccount_moves he _ hexit)⟩

/-- The entry's own payment is the closing one; the constraint on `close` keeps the
entry from being paid to itself, which would burn its balance. -/
lemma removeFromWhitelist_moves {wallet : Pubkey}
    (h : removeFromWhitelist d p l keys wallet = .ok l') :
    ∃ k ∈ keys, (l.account k).owner = d.programId ∧ Moves keys {k} l l' := by
  obtain ⟨a, hkeys, h⟩ := bind_eq_ok.mp h
  obtain ⟨⟨⟩, htry, h⟩ := bind_eq_ok.mp h
  obtain rfl := pure_eq_ok.mp h
  rw [RemoveFromWhitelist.tryAccounts, signer, require_bind_eq_ok] at htry
  obtain ⟨config, -, htry⟩ := bind_eq_ok.mp htry.2
  obtain ⟨entry, hentry, htry⟩ := bind_eq_ok.mp htry
  obtain ⟨mint, -, htry⟩ := bind_eq_ok.mp htry
  simp only [systemProgramAccount, mutable, seedsWithBump, require_bind_eq_ok,
    require_eq_ok] at htry
  obtain ⟨-, -, -, -, -, hne⟩ := htry
  obtain ⟨rest, hrest⟩ := RemoveFromWhitelist.ofKeys_eq_ok hkeys
  exact ⟨a.whitelistEntry, by simp [hrest], (loadAccount_eq_ok.mp hentry).1,
    closeAccount_moves (by simp [hrest]) (by simp [hrest]) hne⟩

namespace Call
variable {c : Call}

/-- The accounts that may give lamports away: signers and accounts of the program. -/
def payers (d : Deployment) (l : Ledger) (c : Call) : Set Pubkey :=
  {k | k ∈ c.accounts ∧ (k ∈ c.privileges.signers ∨ (l.account k).owner = d.programId)}

/-- A successful call, whatever accounts it was given, is payments and writes. -/
theorem process_moves (h : c.process d l = .ok l') :
    Moves c.accounts (c.payers d l) l l' := by
  obtain ⟨l₁, hrun, hcommit⟩ := bind_eq_ok.mp h
  obtain ⟨-, rfl⟩ := commit_eq_ok.mp hcommit
  have signed : ∀ {a}, a ∈ c.accounts → a ∈ c.privileges.signers →
      {a} ⊆ c.payers d l := by
    intro a ha hs
    exact Set.singleton_subset_iff.mpr ⟨ha, .inl hs⟩
  obtain ⟨instruction, keys, p⟩ := c
  cases instruction with
  | initializeConfig credential schema sasProgram =>
      obtain ⟨a, ha, hs, hmoves⟩ := initializeConfig_moves hrun
      exact hmoves.mono (signed ha hs)
  | updateConfig credential schema sasProgram => exact updateConfig_moves _ hrun
  | addToWhitelist w =>
      obtain ⟨a, ha, hs, hmoves⟩ := addToWhitelist_moves hrun
      exact hmoves.mono (signed ha hs)
  | removeFromWhitelist w =>
      obtain ⟨k, hk, howner, hmoves⟩ := removeFromWhitelist_moves hrun
      exact hmoves.mono (Set.singleton_subset_iff.mpr ⟨hk, .inr howner⟩)
  | transferAuthority =>
      obtain ⟨a, ha, k, hk, hs, howner, hmoves⟩ := transferAuthority_moves hrun
      refine hmoves.mono (Set.insert_subset ⟨ha, .inl hs⟩ ?_)
      exact Set.singleton_subset_iff.mpr ⟨hk, .inr howner⟩
  | acceptAuthority => exact acceptAuthority_moves _ hrun
  | initializeExtraAccountMetaList =>
      obtain ⟨a, ha, hs, hmoves⟩ := initializeExtraAccountMetaList_moves hrun
      exact hmoves.mono (signed ha hs)
  | transferHook amount =>
      obtain ⟨⟨⟩, -, hl⟩ := bind_eq_ok.mp hrun
      exact pure_eq_ok.mp hl ▸ .refl

/-- Whatever the ledger is and whatever is passed, nobody else loses anything. -/
theorem lamports_le (h : c.process d l = .ok l') {k : Pubkey} (hk : k ∉ c.payers d l) :
    (l.account k).lamports ≤ (l'.account k).lamports := (process_moves h).lamports_le hk

end Call

end AlienIdTransferHook
