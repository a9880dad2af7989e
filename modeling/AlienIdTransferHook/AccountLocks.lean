import AlienIdTransferHook.Locality
import AlienIdTransferHook.Lamports
import AlienIdTransferHook.Runs

/-!
# Account locks

The runtime runs transactions side by side when no account that one of them may
write is passed to the other. For that an instruction has to look at no account
it was not passed and to change none that was not passed as writable. Both are
shown for all eight instructions, from the system program's own upwards.
-/
namespace AlienIdTransferHook
open Solana Locality

namespace Solana

/-! ## Regions of a ledger -/

/-- `keys` from `l` and the other accounts from `t`, with the clock of `l`. -/
def Ledger.view (keys : List Pubkey) (l t : Ledger) : Ledger where
  account k := if k ∈ keys then l.account k else t.account k
  unixTimestamp := l.unixTimestamp

/-- `keys` from `l` and everything else from `t`. -/
def Ledger.patch (keys : List Pubkey) (l t : Ledger) : Ledger :=
  { l.view keys t with unixTimestamp := t.unixTimestamp }

namespace Ledger
variable {keys keys' : List Pubkey} {l t : Ledger} {k : Pubkey}

@[simp] theorem account_view (h : k ∈ keys) : (l.view keys t).account k = l.account k :=
  if_pos h

theorem account_view_of_not_mem (h : k ∉ keys) : (l.view keys t).account k = t.account k :=
  if_neg h

@[simp] theorem unixTimestamp_view : (l.view keys t).unixTimestamp = l.unixTimestamp := rfl

@[simp] theorem unixTimestamp_credit (n : ℕ) :
    (l.credit k n).unixTimestamp = l.unixTimestamp := rfl

theorem account_patch (h : k ∈ keys) : (l.patch keys t).account k = l.account k := if_pos h

theorem account_patch_of_not_mem (h : k ∉ keys) : (l.patch keys t).account k = t.account k :=
  if_neg h

/-- What an instruction with these accounts may look at. -/
def viewRegion (keys : List Pubkey) : Region Ledger where
  merge := view keys
  merge_self l := by
    refine ext_account (fun k => ?_) rfl
    simp [view]
  merge_left l t u := by
    refine ext_account (fun k => ?_) rfl
    by_cases hk : k ∈ keys <;> simp [view, hk]
  merge_right l t u := by
    refine ext_account (fun k => ?_) rfl
    by_cases hk : k ∈ keys <;> simp [view, hk]

/-- What an instruction that may write these accounts may change. -/
def patchRegion (keys : List Pubkey) : Region Ledger where
  merge := patch keys
  merge_self l := by
    refine ext_account (fun k => ?_) rfl
    simp [patch, view]
  merge_left l t u := by
    refine ext_account (fun k => ?_) rfl
    by_cases hk : k ∈ keys <;> simp [patch, view, hk]
  merge_right l t u := by
    refine ext_account (fun k => ?_) rfl
    by_cases hk : k ∈ keys <;> simp [patch, view, hk]

/-- Writes to accounts that are not looked at. -/
theorem patch_apart_view (h : ∀ k ∈ keys, k ∉ keys') :
    (patchRegion keys).Apart (viewRegion keys') := by
  intro l t u
  refine ext_account (fun k => ?_) rfl
  by_cases hk : k ∈ keys
  · simp [patchRegion, viewRegion, patch, view, hk, h k hk]
  · simp [patchRegion, viewRegion, patch, view, hk]

/-- Writes to different accounts. -/
theorem patch_apart_patch (h : ∀ k ∈ keys, k ∉ keys') :
    (patchRegion keys).Apart (patchRegion keys') := by
  intro l t u
  refine ext_account (fun k => ?_) rfl
  by_cases hk : k ∈ keys
  · simp [patchRegion, patch, view, hk, h k hk]
  · simp [patchRegion, patch, view, hk]

/-! ## Writes inside a region -/

theorem set_view (h : k ∈ keys) (a : Account) :
    (l.view keys t).set k a = (l.set k a).view keys t := by
  refine ext_account (fun k' => ?_) rfl
  by_cases hk : k' = k
  · subst hk
    simp [h]
  · by_cases hmem : k' ∈ keys
    · simp [hmem, account_set_of_ne _ _ hk]
    · simp [account_set_of_ne _ _ hk, account_view_of_not_mem hmem]

theorem debit_view (h : k ∈ keys) (n : ℕ) :
    (l.view keys t).debit k n = (l.debit k n).view keys t := by
  rw [debit, debit, account_view h, set_view h]

theorem credit_view (h : k ∈ keys) (n : ℕ) :
    (l.view keys t).credit k n = (l.credit k n).view keys t := by
  rw [credit, credit, account_view h, set_view h]

theorem opened_view {src : Pubkey} (hs : src ∈ keys) (h : k ∈ keys) (n : ℕ) (a : Account) :
    (l.view keys t).opened src k n a = (l.opened src k n a).view keys t := by
  rw [opened, opened, debit_view hs, set_view h]

end Ledger

/-! ## The system program and Anchor's constraints -/

lemma map_bind {α β γ : Type} (x : Outcome α) (f : α → Outcome β) (g : β → γ) :
    (x >>= f).map g = x >>= fun a => (f a).map g := by cases x <;> rfl

lemma bind_map {α β γ : Type} (x : Outcome α) (f : α → β) (g : β → Outcome γ) :
    x.map f >>= g = x >>= fun a => g (f a) := by cases x <;> rfl

lemma map_pure {α β : Type} (a : α) (f : α → β) : (pure a : Outcome α).map f = pure (f a) := rfl

section Primitives
variable {H : Host} {p : Privileges} {keys : List Pubkey} {l t : Ledger} {k src dst : Pubkey}

lemma systemTransfer_view (hs : src ∈ keys) (hd : dst ∈ keys) (n : ℕ) :
    systemTransfer p (l.view keys t) src dst n =
      (systemTransfer p l src dst n).map (·.view keys t) := by
  simp only [systemTransfer, Ledger.account_view hs, Ledger.debit_view hs, Ledger.credit_view hd,
    map_bind, map_pure]

lemma allocate_view (hk : k ∈ keys) (space : ℕ) :
    allocate p (l.view keys t) k space = (allocate p l k space).map (·.view keys t) := by
  simp only [allocate, Ledger.account_view hk, Ledger.set_view hk, map_bind, map_pure]

lemma assign_view (hk : k ∈ keys) (owner : Pubkey) :
    assign p (l.view keys t) k owner = (assign p l k owner).map (·.view keys t) := by
  simp only [assign, Ledger.account_view hk, Ledger.set_view hk, map_bind, map_pure]

lemma createAccount_view (hs : src ∈ keys) (hd : dst ∈ keys) (lamports space : ℕ)
    (owner : Pubkey) :
    createAccount p (l.view keys t) src dst lamports space owner =
      (createAccount p l src dst lamports space owner).map (·.view keys t) := by
  simp only [createAccount, Ledger.account_view hd, allocate_view hd, assign_view hd,
    systemTransfer_view hs hd, map_bind, bind_map]

lemma topUp_view (hs : src ∈ keys) (hk : k ∈ keys) (n : ℕ) :
    topUp p (l.view keys t) src k n = (topUp p l src k n).map (·.view keys t) := by
  unfold topUp
  split_ifs
  · exact systemTransfer_view hs hk n
  · rfl

lemma initAccount_view (hs : src ∈ keys) (hk : k ∈ keys) (space : ℕ) :
    initAccount H p (l.view keys t) src k space =
      (initAccount H p l src k space).map (·.view keys t) := by
  unfold initAccount
  rw [Ledger.account_view hk]
  split_ifs
  · exact createAccount_view hs hk _ _ _
  · simp only [topUp_view hs hk, allocate_view hk, assign_view hk, map_bind, bind_map]

lemma initConstraint_view (hs : src ∈ keys) (hk : k ∈ keys) (space : ℕ)
    (seeds : List (List UInt8)) :
    initConstraint H p (l.view keys t) src k space seeds =
      (initConstraint H p l src k space seeds).map fun o => (o.1.view keys t, o.2) := by
  simp only [initConstraint, initAccount_view hs hk, Ledger.account_view hk, map_bind, bind_map,
    map_pure]

lemma reallocConstraint_view (hs : src ∈ keys) (hk : k ∈ keys) (space : ℕ) :
    reallocConstraint H p (l.view keys t) src k space =
      (reallocConstraint H p l src k space).map (·.view keys t) := by
  simp only [reallocConstraint, Ledger.account_view hk]
  split_ifs
  · simp only [topUp_view hs hk, Ledger.account_view hk, Ledger.set_view hk, map_bind, bind_map,
      map_pure]
  · simp only [Ledger.opened_view hk hk, Ledger.credit_view hs, map_bind, map_pure]
  · rfl

lemma closeAccount_view (hk : k ∈ keys) (hd : dst ∈ keys) :
    closeAccount (l.view keys t) k dst = (closeAccount l k dst).view keys t := by
  simp only [closeAccount, Ledger.account_view hk, Ledger.credit_view hd, Ledger.set_view hk]

lemma writeData_view (hk : k ∈ keys) (data : List UInt8) :
    writeData H (l.view keys t) k data = (writeData H l k data).map (·.view keys t) := by
  simp only [writeData, Ledger.account_view hk, Ledger.set_view hk, map_bind, map_pure]

variable {α : Type} [AnchorAccount α]

lemma loadAccount_view (hk : k ∈ keys) :
    loadAccount α H (l.view keys t) k = loadAccount α H l k := by
  simp only [loadAccount, Ledger.account_view hk]

lemma exitAccount_view (hk : k ∈ keys) (a : α) :
    exitAccount (l.view keys t) k a = (exitAccount l k a).map (·.view keys t) := by
  simp only [exitAccount, Ledger.account_view hk, Ledger.set_view hk, map_bind, map_pure]

end Primitives

end Solana

/-! ## The instructions -/

variable {d : Deployment} {p : Privileges} {keys : List Pubkey} {l t : Ledger} {k : Pubkey}

lemma Deployment.interfaceAccount_view {α : Type} (unpack : List UInt8 → Outcome α)
    (hk : k ∈ keys) :
    d.interfaceAccount unpack (l.view keys t) k = d.interfaceAccount unpack l k := by
  simp only [interfaceAccount, Ledger.account_view hk]

lemma initializeConfig_view (credential schema sasProgram : Pubkey) :
    initializeConfig d p (l.view keys t) keys credential schema sasProgram =
      (initializeConfig d p l keys credential schema sasProgram).map (·.view keys t) := by
  unfold initializeConfig
  cases hkeys : InitializeConfig.ofKeys keys with
  | error e => rfl
  | ok a =>
      obtain ⟨rest, hrest⟩ := InitializeConfig.ofKeys_eq_ok hkeys
      have ha : a.authority ∈ keys := by simp [hrest]
      have hc : a.config ∈ keys := by simp [hrest]
      have hm : a.mint ∈ keys := by simp [hrest]
      simp only [ok_bind, InitializeConfig.tryAccounts, Deployment.interfaceMint,
        Deployment.interfaceAccount_view _ hm, initConstraint_view ha hc, Ledger.account_view hc,
        exitAccount_view hc, map_bind, bind_map, bind_assoc, pure_bind]

lemma updateConfig_view (credential schema sasProgram : Pubkey) :
    updateConfig d p (l.view keys t) keys credential schema sasProgram =
      (updateConfig d p l keys credential schema sasProgram).map (·.view keys t) := by
  unfold updateConfig
  cases hkeys : UpdateConfig.ofKeys keys with
  | error e => rfl
  | ok a =>
      obtain ⟨rest, hrest⟩ := UpdateConfig.ofKeys_eq_ok hkeys
      have hc : a.config ∈ keys := by simp [hrest]
      have hm : a.mint ∈ keys := by simp [hrest]
      have hl : a.extraAccountMetaList ∈ keys := by simp [hrest]
      simp only [ok_bind, UpdateConfig.tryAccounts, UpdateConfig.handler, Deployment.interfaceMint,
        Deployment.interfaceAccount_view _ hm, loadAccount_view hc, Ledger.account_view hl,
        writeData_view hl, exitAccount_view hc, map_bind, bind_map, bind_assoc, pure_bind]

lemma initializeExtraAccountMetaList_view :
    initializeExtraAccountMetaList d p (l.view keys t) keys =
      (initializeExtraAccountMetaList d p l keys).map (·.view keys t) := by
  unfold initializeExtraAccountMetaList
  cases hkeys : InitializeExtraAccountMetaList.ofKeys keys with
  | error e => rfl
  | ok a =>
      obtain ⟨rest, hrest⟩ := InitializeExtraAccountMetaList.ofKeys_eq_ok hkeys
      have hp : a.payer ∈ keys := by simp [hrest]
      have hl : a.extraAccountMetaList ∈ keys := by simp [hrest]
      have hm : a.mint ∈ keys := by simp [hrest]
      have hc : a.config ∈ keys := by simp [hrest]
      have hcreate : ∀ bump size, a.createIfEmpty d p (l.view keys t) bump size =
          (a.createIfEmpty d p l bump size).map (·.view keys t) := by
        intro bump size
        unfold InitializeExtraAccountMetaList.createIfEmpty
        rw [Ledger.account_view hl]
        split_ifs
        · exact createAccount_view hp hl _ _ _
        · rfl
      simp only [ok_bind, InitializeExtraAccountMetaList.tryAccounts,
        InitializeExtraAccountMetaList.handler, Deployment.interfaceMint,
        Deployment.interfaceAccount_view _ hm, loadAccount_view hc, hcreate,
        Ledger.account_view hl, writeData_view hl, map_bind, bind_map]

lemma transferAuthority_view :
    transferAuthority d p (l.view keys t) keys =
      (transferAuthority d p l keys).map (·.view keys t) := by
  unfold transferAuthority
  cases hkeys : TransferAuthority.ofKeys keys with
  | error e => rfl
  | ok a =>
      obtain ⟨rest, hrest⟩ := TransferAuthority.ofKeys_eq_ok hkeys
      have ha : a.authority ∈ keys := by simp [hrest]
      have hc : a.config ∈ keys := by simp [hrest]
      have hm : a.mint ∈ keys := by simp [hrest]
      simp only [ok_bind, TransferAuthority.tryAccounts, Deployment.interfaceMint,
        Deployment.interfaceAccount_view _ hm, loadAccount_view hc, reallocConstraint_view ha hc,
        exitAccount_view hc, map_bind, bind_map, bind_assoc, pure_bind]

lemma acceptAuthority_view :
    acceptAuthority d p (l.view keys t) keys =
      (acceptAuthority d p l keys).map (·.view keys t) := by
  unfold acceptAuthority
  cases hkeys : AcceptAuthority.ofKeys keys with
  | error e => rfl
  | ok a =>
      obtain ⟨rest, hrest⟩ := AcceptAuthority.ofKeys_eq_ok hkeys
      have hc : a.config ∈ keys := by simp [hrest]
      have hm : a.mint ∈ keys := by simp [hrest]
      simp only [ok_bind, AcceptAuthority.tryAccounts, Deployment.interfaceMint,
        Deployment.interfaceAccount_view _ hm, loadAccount_view hc, exitAccount_view hc, map_bind]

lemma addToWhitelist_view (wallet : Pubkey) :
    addToWhitelist d p (l.view keys t) keys wallet =
      (addToWhitelist d p l keys wallet).map (·.view keys t) := by
  unfold addToWhitelist
  cases hkeys : AddToWhitelist.ofKeys keys with
  | error e => rfl
  | ok a =>
      obtain ⟨rest, hrest⟩ := AddToWhitelist.ofKeys_eq_ok hkeys
      have ha : a.authority ∈ keys := by simp [hrest]
      have hc : a.config ∈ keys := by simp [hrest]
      have he : a.whitelistEntry ∈ keys := by simp [hrest]
      have hm : a.mint ∈ keys := by simp [hrest]
      simp only [ok_bind, AddToWhitelist.tryAccounts, Deployment.interfaceMint,
        Deployment.interfaceAccount_view _ hm, loadAccount_view hc, initConstraint_view ha he,
        Ledger.account_view he, exitAccount_view he, map_bind, bind_map, bind_assoc, pure_bind]

lemma removeFromWhitelist_view (wallet : Pubkey) :
    removeFromWhitelist d p (l.view keys t) keys wallet =
      (removeFromWhitelist d p l keys wallet).map (·.view keys t) := by
  unfold removeFromWhitelist
  cases hkeys : RemoveFromWhitelist.ofKeys keys with
  | error e => rfl
  | ok a =>
      obtain ⟨rest, hrest⟩ := RemoveFromWhitelist.ofKeys_eq_ok hkeys
      have ha : a.authority ∈ keys := by simp [hrest]
      have hc : a.config ∈ keys := by simp [hrest]
      have he : a.whitelistEntry ∈ keys := by simp [hrest]
      have hm : a.mint ∈ keys := by simp [hrest]
      simp only [ok_bind, RemoveFromWhitelist.tryAccounts, Deployment.interfaceMint,
        Deployment.interfaceAccount_view _ hm, loadAccount_view hc, loadAccount_view he,
        closeAccount_view he ha, map_bind, map_pure]

lemma transferHook_view (amount : ℕ) :
    transferHook d (l.view keys t) keys amount = transferHook d l keys amount := by
  unfold transferHook
  cases hkeys : TransferHook.ofKeys keys with
  | error e => rfl
  | ok a =>
      obtain ⟨rest, hrest⟩ := TransferHook.ofKeys_eq_ok hkeys
      have hs : a.sourceToken ∈ keys := by simp [hrest]
      have hm : a.mint ∈ keys := by simp [hrest]
      have hd : a.destinationToken ∈ keys := by simp [hrest]
      have hc : a.config ∈ keys := by simp [hrest]
      have ha : a.attestation ∈ keys := by simp [hrest]
      have he : a.whitelistEntry ∈ keys := by simp [hrest]
      simp only [ok_bind, TransferHook.tryAccounts, TransferHook.handler,
        TransferHook.assertIsTransferring, TransferHook.whitelisted,
        TransferHook.verifyAttestation, TransferHook.checkAttestationAccounts,
        Deployment.interfaceMint, Deployment.interfaceTokenAccount,
        Deployment.interfaceAccount_view _ hm, Deployment.interfaceAccount_view _ hs,
        Deployment.interfaceAccount_view _ hd, loadAccount_view hc, Ledger.account_view hs,
        Ledger.account_view ha, Ledger.account_view he]
      rfl

namespace Call
variable {c : Call}

lemma run_view (c : Call) (l t : Ledger) :
    c.run d (l.view c.accounts t) = (c.run d l).map (·.view c.accounts t) := by
  obtain ⟨instruction, keys, p⟩ := c
  cases instruction with
  | initializeConfig credential schema sasProgram =>
      exact initializeConfig_view credential schema sasProgram
  | updateConfig credential schema sasProgram =>
      exact updateConfig_view credential schema sasProgram
  | addToWhitelist w => exact addToWhitelist_view w
  | removeFromWhitelist w => exact removeFromWhitelist_view w
  | transferAuthority => exact transferAuthority_view
  | acceptAuthority => exact acceptAuthority_view
  | initializeExtraAccountMetaList => exact initializeExtraAccountMetaList_view
  | transferHook amount => simp only [run, transferHook_view, map_bind, map_pure]

/-- A call as a step from ledger to ledger. -/
def step (d : Deployment) (c : Call) (l : Ledger) : Outcome Ledger := c.process d l

/-- An instruction looks at the accounts it was passed and at the clock, and at nothing
else: over any other ledger with these accounts it does the same. -/
theorem step_confined (c : Call) : (Ledger.viewRegion c.accounts).Confines (c.step d) := by
  intro l t
  have hcommit : ∀ l', commit c.privileges c.accounts (l.view c.accounts t)
      (l'.view c.accounts t) =
        (commit c.privileges c.accounts l l').map (·.view c.accounts t) := by
    intro l'
    have hiff : (∀ k ∈ c.accounts, (l'.view c.accounts t).account k =
        (l.view c.accounts t).account k ∨ k ∈ c.privileges.writable) ↔
        ∀ k ∈ c.accounts, l'.account k = l.account k ∨ k ∈ c.privileges.writable :=
      forall₂_congr fun k hk => by rw [Ledger.account_view hk, Ledger.account_view hk]
    simp only [commit, hiff, map_bind, map_pure]
  show c.process d (l.view c.accounts t) = (c.process d l).map (·.view c.accounts t)
  simp only [process, run_view, hcommit, bind_map, map_bind]

/-- The accounts a call may write. -/
def writeLocks (c : Call) : List Pubkey := c.accounts.filter (· ∈ c.privileges.writable)

lemma mem_writeLocks : k ∈ c.writeLocks ↔ k ∈ c.accounts ∧ k ∈ c.privileges.writable := by
  simp [writeLocks]

/-- Inside the accounts passed the runtime's check allows only writable ones to change. -/
theorem step_footprint (c : Call) :
    Footprint (c.step d) (Ledger.viewRegion c.accounts)
      (Ledger.patchRegion c.writeLocks) where
  confines := c.step_confined
  changes l l' h := by
    have hconfined : l'.view c.accounts l = l' := c.step_confined.merge_eq h
    have hclock : l'.unixTimestamp = l.unixTimestamp := (process_moves h).unixTimestamp_eq
    obtain ⟨l₁, -, hcommit⟩ := bind_eq_ok.mp h
    obtain ⟨hchanged, rfl⟩ := commit_eq_ok.mp hcommit
    refine Ledger.ext_account (fun k => ?_) hclock.symm
    show (l₁.patch c.writeLocks l).account k = l₁.account k
    by_cases hlock : k ∈ c.writeLocks
    · exact Ledger.account_patch hlock
    · rw [Ledger.account_patch_of_not_mem hlock]
      by_cases hk : k ∈ c.accounts
      · have hwritable : k ∉ c.privileges.writable := fun hw =>
          hlock (mem_writeLocks.mpr ⟨hk, hw⟩)
        exact ((hchanged k hk).resolve_right hwritable).symm
      · rw [← hconfined, Ledger.account_view_of_not_mem hk]

/-- What a call does is decided by the accounts it was passed and by the clock: where they
agree, it gives the same verdict and leaves the same accounts, and everything it was not
passed as writable stays as it is there. -/
theorem step_of_agreement {c : Call} (hagree : ∀ k ∈ c.accounts, t.account k = l.account k)
    (hclock : t.unixTimestamp = l.unixTimestamp) :
    verdict (c.step d) t = verdict (c.step d) l ∧
      ∀ l', c.step d l = .ok l' → ∃ t', c.step d t = .ok t' ∧
        (∀ k ∈ c.accounts, t'.account k = l'.account k) ∧
        ∀ k, k ∉ c.writeLocks → t'.account k = t.account k := by
  have hview : l.view c.accounts t = t := by
    refine Ledger.ext_account (fun k => ?_) hclock.symm
    by_cases hk : k ∈ c.accounts
    · rw [Ledger.account_view hk, hagree k hk]
    · exact Ledger.account_view_of_not_mem hk
  have hsame := c.step_confined (d := d) l t
  rw [show (Ledger.viewRegion c.accounts).merge l t = t from hview] at hsame
  constructor
  · rw [verdict, verdict, hsame]
    cases c.step d l <;> rfl
  · intro l' hl'
    rw [hl', map_ok] at hsame
    refine ⟨l'.view c.accounts t, hsame, fun k hk => Ledger.account_view hk, fun k hk => ?_⟩
    have hkept := c.step_footprint.changes _ _ hsame
    exact (congrArg (·.account k) hkept).symm.trans (Ledger.account_patch_of_not_mem hk)

open LocalChain in
/-- The third call of the local chain after a donation to an account it is not passed. -/
theorem step_of_agreement_donated :
    verdict (addToWhitelistCall.step chain) (published.credit listKey 5) =
        verdict (addToWhitelistCall.step chain) published ∧
      ∃ l', addToWhitelistCall.step chain (published.credit listKey 5) = .ok l' ∧
        (∀ k ∈ addToWhitelistCall.accounts, l'.account k = listed.account k) ∧
        ∀ k, k ∉ addToWhitelistCall.writeLocks →
          l'.account k = (published.credit listKey 5).account k := by
  have hkeys : listKey ∉ addToWhitelistCall.accounts := by decide +kernel
  have hagree : ∀ k ∈ addToWhitelistCall.accounts,
      (published.credit listKey 5).account k = published.account k := by
    intro k hk
    exact Ledger.account_credit_of_ne _ _ fun heq => hkeys (heq ▸ hk)
  obtain ⟨hverdict, hrun⟩ := step_of_agreement (d := chain) hagree
    (Ledger.unixTimestamp_credit 5)
  exact ⟨hverdict, hrun listed process_addToWhitelist⟩

/-! ## Calls side by side -/

/-- The runtime's condition for running two calls at the same time. -/
def NoConflict (c c' : Call) : Prop :=
  (∀ k ∈ c.writeLocks, k ∉ c'.accounts) ∧ ∀ k ∈ c'.writeLocks, k ∉ c.accounts

instance (c c' : Call) : Decidable (NoConflict c c') := inferInstanceAs (Decidable (_ ∧ _))

lemma NoConflict.independent {c c' : Call} (h : NoConflict c c') :
    Independent (c.step d) (c'.step d) :=
  ⟨_, _, _, _, c.step_footprint, c'.step_footprint, Ledger.patch_apart_view h.1,
    Ledger.patch_apart_view h.2,
    Ledger.patch_apart_patch fun k hk hk' => h.1 k hk (mem_writeLocks.mp hk').1⟩

/-- A block of calls without a conflict: in whatever order they run, each meets the
verdict it would have met alone, and the ledger they leave is the same. -/
theorem block_order_irrelevant {cs cs' : List Call} (hperm : cs.Perm cs')
    (hlocks : cs.Pairwise NoConflict) (l : Ledger) :
    attemptAll (cs.map (step d)) l = attemptAll (cs'.map (step d)) l ∧
      ∀ before c after, cs' = before ++ c :: after →
        verdict (c.step d) (attemptAll (before.map (step d)) l) =
          verdict (c.step d) l := by
  have hsymm : ∀ {c c' : Call}, NoConflict c c' → NoConflict c' c := fun h => ⟨h.2, h.1⟩
  constructor
  · refine attemptAll_perm (hperm.map _) ?_ l
    rw [List.pairwise_map]
    exact hlocks.imp NoConflict.independent
  · rintro before c after rfl
    refine verdict_attemptAll (fun f hf => ?_) l
    obtain ⟨c', hc', rfl⟩ := List.mem_map.mp hf
    have hpair := hlocks.perm hperm hsymm
    exact ((List.pairwise_append.mp hpair).2.2 c' hc' c List.mem_cons_self).independent

end Call

namespace LocalChain

/-- A second mint, whose mint authority is the successor. -/
def secondMint : Pubkey := key 13

def twoMints : Ledger :=
  genesis.set secondMint ⟨1461600, tokenProgram, mintData successor⟩

def secondConfigCall : Call :=
  ⟨.initializeConfig rule.credential rule.schema rule.sasProgram,
    [successor, pda (.config secondMint), secondMint, systemProgram],
    ⟨[successor], [successor, pda (.config secondMint)]⟩⟩

end LocalChain

open LocalChain in
/-- Each of two mints gets its config, whichever of the two calls runs first. -/
theorem Call.block_order_irrelevant_pair :
    (attemptAll ([initializeConfigCall, secondConfigCall].map (Call.step chain)) twoMints =
        attemptAll ([secondConfigCall, initializeConfigCall].map (Call.step chain)) twoMints ∧
      ∀ before c after, [secondConfigCall, initializeConfigCall] = before ++ c :: after →
        verdict (c.step chain) (attemptAll (before.map (Call.step chain)) twoMints) =
          verdict (c.step chain) twoMints) ∧
    (initializeConfigCall.process chain twoMints).isOk = true ∧
    (secondConfigCall.process chain twoMints).isOk = true :=
  ⟨Call.block_order_irrelevant (.swap _ _ _) (by decide +kernel) twoMints, by decide +kernel,
    by decide +kernel⟩

end AlienIdTransferHook
