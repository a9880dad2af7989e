import AlienIdTransferHook.Lamports
import AlienIdTransferHook.ConfigUpdate

/-!
# Lamport accounting over runs

The lamports on any set of accounts that contains what the calls were passed change
only by donations and by what other programs do. Opening a record costs the first
signer exactly the rent that is not there yet, and every record stays rent-exempt.
-/
namespace AlienIdTransferHook
open Solana History

variable {d : Deployment} {K : KeysInPlay d} {l l' : Ledger} {c : Call}

/-! ## Nothing is minted or burnt -/

/-- Lamports that an event brings to the accounts of `S` from outside the program. -/
def Event.inflow (S : Finset Pubkey) : Event → ℕ
  | .donated k n => if k ∈ S then n else 0
  | .written k a => if k ∈ S then a.lamports else 0
  | _ => 0

/-- Lamports that an event takes away from the accounts of `S`. -/
def Event.outflow (S : Finset Pubkey) (l : Ledger) : Event → ℕ
  | .written k _ => if k ∈ S then (l.account k).lamports else 0
  | _ => 0

/-- What has come in from outside during a run. -/
def received (S : Finset Pubkey) (h : List (Ledger × Event)) : ℕ :=
  (h.map fun e => e.2.inflow S).sum

/-- What other programs have taken during a run. -/
def withdrawn (S : Finset Pubkey) (h : List (Ledger × Event)) : ℕ :=
  (h.map fun e => e.2.outflow S e.1).sum

/-- The balance of one step. -/
lemma LedgerStep.total {e : Event} {S : Finset Pubkey} (h : LedgerStep K l e l')
    (hS : ∀ c, e = .invoked c → ∀ k ∈ c.accounts, k ∈ S) :
    l'.total S + e.outflow S l = l.total S + e.inflow S := by
  cases h with
  | invoked _ hok => exact (Call.process_moves hok).total_eq (hS _ rfl)
  | rejected => rfl
  | donated k n =>
      simp only [Event.outflow, Event.inflow]
      split_ifs with hk
      · exact Ledger.total_credit hk n
      · exact Ledger.total_set_of_not_mem hk _
  | @written k _ a =>
      simp only [Event.outflow, Event.inflow]
      split_ifs with hk
      · exact Ledger.total_set hk a
      · exact Ledger.total_set_of_not_mem hk a
  | ticked t => rfl

/-- Conservation: over every run, what the accounts hold and what was taken from them
is what they held at first and what they were given. -/
theorem lamports_conserved {h : List (Ledger × Event)} (hr : Reaches (hookSystem K) h l)
    {S : Finset Pubkey} (hS : ∀ e ∈ h, ∀ c, e.2 = .invoked c → ∀ k ∈ c.accounts, k ∈ S) :
    l.total S + withdrawn S h = (origin h l).total S + received S h := by
  induction hr with
  | start _ => rfl
  | @step h l l' e _ he ih =>
      have hstep := he.total (hS _ List.mem_cons_self)
      have hrest := ih fun e he => hS e (List.mem_cons_of_mem _ he)
      simp only [withdrawn, received, List.map_cons, List.sum_cons, origin] at hrest ⊢
      omega

open LocalChain in
/-- Three calls between six accounts and no donation: the total is the one at genesis. -/
theorem lamports_conserved_listed :
    listed.total {authority, configKey, listKey, entryKey, mint, systemProgram} =
      genesis.total {authority, configKey, listKey, entryKey, mint, systemProgram} := by
  have hkeys : ∀ c ∈ [addToWhitelistCall, initializeListCall, initializeConfigCall],
      ∀ k ∈ c.accounts, k ∈ [authority, configKey, listKey, entryKey, mint, systemProgram] := by
    decide +kernel
  have hconserved := lamports_conserved reaches_listed
    (S := {authority, configKey, listKey, entryKey, mint, systemProgram}) ?_
  · simpa only [withdrawn, received, List.map_cons, List.map_nil, List.sum_cons, List.sum_nil,
      Event.outflow, Event.inflow, origin, Nat.add_zero] using hconserved
  · intro e he c hc k hk
    have hc' : c ∈ [addToWhitelistCall, initializeListCall, initializeConfigCall] := by
      simp only [List.mem_cons, List.not_mem_nil, or_false] at he
      rcases he with rfl | rfl | rfl
      all_goals
        cases hc
        simp only [List.mem_cons, true_or, or_true]
    simpa only [Finset.mem_insert, Finset.mem_singleton, List.mem_cons, List.not_mem_nil,
      or_false] using hkeys c hc' k hk

/-! ## What a record costs -/

namespace Solana

/-- `init` costs the payer the rent that donations do not cover. -/
lemma initAccount_cost {H : Host} {p : Privileges} {payer k : Pubkey} {space : ℕ}
    (hne : payer ≠ k) (h : initAccount H p l payer k space = .ok l') :
    let n := H.minimumBalance space - (l.account k).lamports
    n ≤ (l.account payer).lamports ∧ l' = l.opened payer k n
      ⟨(l.account k).lamports + n, H.programId, List.replicate space 0⟩ := by
  intro n
  unfold initAccount at h
  split_ifs at h with hzero
  · obtain ⟨-, -, -, -, hf, rfl⟩ := (createAccount_eq_ok hne).mp h
    have hn : n = H.minimumBalance space := by simp [n, hzero]
    rw [hn, hzero, Nat.zero_add]
    exact ⟨hf.lamports, rfl⟩
  · rw [require_bind_eq_ok] at h
    simp only [bind_eq_ok, allocate_eq_ok, assign_eq_ok] at h
    obtain ⟨-, l₁, htop, _, ⟨-, -, -, rfl⟩, -, -, -, rfl⟩ := h
    -- the top-up aims at one lamport at least, which a funded address has anyway
    have hn : max (H.minimumBalance space) 1 - (l.account k).lamports = n := by omega
    rw [hn] at htop
    have hpaid : n ≤ (l.account payer).lamports := by
      unfold topUp at htop
      split_ifs at htop with hpos
      · exact (systemTransfer_eq_ok.mp htop).1.lamports
      · omega
    obtain rfl := topUp_ok htop
    exact ⟨hpaid, by simpa using allocate_funded l n space H.programId hne⟩

/-- `payer` has paid for the account at `k` the rent that was missing there, and no
other account has changed. -/
structure PaidFor (H : Host) (l l' : Ledger) (payer k : Pubkey) : Prop where
  paid : (l'.account payer).lamports +
    (H.minimumBalance (l'.account k).data.length - (l.account k).lamports) =
      (l.account payer).lamports
  funded : (l'.account k).lamports = (l.account k).lamports +
    (H.minimumBalance (l'.account k).data.length - (l.account k).lamports)
  others : ∀ k', k' ≠ payer → k' ≠ k → l'.account k' = l.account k'

lemma PaidFor.of_opened {H : Host} {payer k owner : Pubkey} {n : ℕ} {data : List UInt8}
    (hne : payer ≠ k) (hn : n = H.minimumBalance data.length - (l.account k).lamports)
    (hpaid : n ≤ (l.account payer).lamports) :
    PaidFor H l (l.opened payer k n ⟨(l.account k).lamports + n, owner, data⟩) payer k where
  paid := by
    simp only [Ledger.opened, Ledger.account_set_of_ne _ _ hne, Ledger.account_set_self,
      Ledger.debit, ← hn]
    omega
  funded := by simp only [Ledger.opened, Ledger.account_set_self, ← hn]
  others k' hpayer hk := by
    rw [Ledger.opened, Ledger.account_set_of_ne _ _ hk, Ledger.account_debit_of_ne _ _ hpayer]

/-- The `init` constraint and the first write-back, together. -/
lemma PaidFor.of_init {α : Type} [AnchorAccount α] {H : Host} {p : Privileges}
    {payer k : Pubkey} {space : ℕ} {seeds : List (List UInt8)} {opened : Ledger × UInt8} {a : α}
    (hne : payer ≠ k) (hspace : space = (image a).length)
    (hinit : initConstraint H p l payer k space seeds = .ok opened)
    (hexit : exitAccount opened.1 k a = .ok l') : PaidFor H l l' payer k := by
  obtain ⟨b, -, hinit⟩ := bind_eq_ok.mp hinit
  obtain ⟨l₁, hopened, hinit⟩ := bind_eq_ok.mp hinit
  simp only [mutable, require_bind_eq_ok, pure_eq_ok] at hinit
  obtain ⟨-, -, rfl⟩ := hinit
  obtain ⟨hpaid, rfl⟩ := initAccount_cost hne hopened
  rw [exitAccount_of_size (by simp [Ledger.opened, hspace])] at hexit
  have hl' := Except.ok.inj hexit
  simp only [Ledger.opened, Ledger.account_set_self, Ledger.set_set] at hl'
  rw [← hl']
  exact .of_opened hne (by rw [hspace]) hpaid

end Solana

section Opening
variable {p : Privileges} {keys : List Pubkey}

lemma initializeConfig_paid {credential schema sasProgram : Pubkey}
    (hsig : ∀ m, keys[2]? = some m → p.Unsigned d (.config m))
    (h : initializeConfig d p l keys credential schema sasProgram = .ok l') :
    ∃ a b, InitializeConfig.ofKeys keys = .ok a ∧ a.authority ∈ p.signers ∧
      d.find (.config a.mint) = some (a.config, b) ∧
      PaidFor d.toHost l l' a.authority a.config := by
  obtain ⟨a, opened, config, hkeys, hsigned, hinit, hexit⟩ := initializeConfig_steps h
  have hfind := find_of_initConstraint hinit
  obtain ⟨rest, rfl⟩ := InitializeConfig.ofKeys_eq_ok hkeys
  have hne : a.authority ≠ a.config := (hsig a.mint rfl).ne hfind hsigned
  exact ⟨a, opened.2, hkeys, hsigned, hfind,
    .of_init hne (HookConfig.length_image _).symm hinit hexit⟩

lemma addToWhitelist_paid {wallet : Pubkey}
    (hsig : ∀ m, keys[3]? = some m → p.Unsigned d (.whitelist m wallet))
    (h : addToWhitelist d p l keys wallet = .ok l') :
    ∃ a b, AddToWhitelist.ofKeys keys = .ok a ∧ a.authority ∈ p.signers ∧
      d.find (.whitelist a.mint wallet) = some (a.whitelistEntry, b) ∧
      PaidFor d.toHost l l' a.authority a.whitelistEntry := by
  obtain ⟨a, opened, entry, hkeys, hsigned, hinit, hexit⟩ := addToWhitelist_steps h
  have hfind := find_of_initConstraint hinit
  obtain ⟨rest, rfl⟩ := AddToWhitelist.ofKeys_eq_ok hkeys
  have hne : a.authority ≠ a.whitelistEntry := (hsig a.mint rfl).ne hfind hsigned
  exact ⟨a, opened.2, hkeys, hsigned, hfind,
    .of_init hne (WhitelistEntry.length_image _).symm hinit hexit⟩

/-- The handler creates the list account with its final size. -/
lemma initializeExtraAccountMetaList_paid (hinv : Inv K l)
    (hsig : ∀ m, keys[2]? = some m → p.Unsigned d (.extraAccountMetas m))
    (hm : ∀ m, keys[2]? = some m → m ∈ K.keys)
    (h : initializeExtraAccountMetaList d p l keys = .ok l') :
    ∃ a b, InitializeExtraAccountMetaList.ofKeys keys = .ok a ∧ a.payer ∈ p.signers ∧
      d.find (.extraAccountMetas a.mint) = some (a.extraAccountMetaList, b) ∧
      PaidFor d.toHost l l' a.payer a.extraAccountMetaList := by
  obtain ⟨a, config, b, metas, size, l₁, data, hkeys, hsigned, -, -, -, hlist, hmetas, hsize,
    hcreate, hinit, rfl⟩ := initializeExtraAccountMetaList_ok h
  obtain ⟨rest, rfl⟩ := InitializeExtraAccountMetaList.ofKeys_eq_ok hkeys
  have hne : a.payer ≠ a.extraAccountMetaList := (hsig a.mint rfl).ne hlist hsigned
  have hlen : metas.length = 6 := InitializeExtraAccountMetaList.length_accountMetas hmetas
  rw [d.resolution.sizeOf_executeEntry metas (by omega)] at hsize
  obtain rfl := Except.ok.inj hsize
  obtain ⟨hu, rfl, -⟩ := createIfEmpty_effect hinv (hm _ rfl) hne hlen hlist hcreate hinit
  rw [InitializeExtraAccountMetaList.createIfEmpty, if_pos hu.2] at hcreate
  obtain ⟨hzero, -, -, -, hf, rfl⟩ := (createAccount_eq_ok hne).mp hcreate
  refine ⟨a, b, hkeys, hsigned, hlist, ?_⟩
  have hpaid : PaidFor d.toHost l (l.opened a.payer a.extraAccountMetaList
      (d.minimumBalance (d.resolution.executeEntry metas).length -
        (l.account a.extraAccountMetaList).lamports)
        ⟨_, d.programId, d.resolution.executeEntry metas⟩)
      a.payer a.extraAccountMetaList :=
    .of_opened hne rfl
      (by simpa [hzero] using hf.lamports)
  simpa [Ledger.opened, hzero] using hpaid

end Opening

/-- Whenever a call brings a record into being, its first signer pays exactly the rent
that donations to the address do not cover, and no third account is touched. -/
lemma opening_paid (hinv : Inv K l) (ha : c.Admissible K) (hok : c.process d l = .ok l')
    {s : HookSeeds} {k : Pubkey} {b : UInt8} (hs : s ∈ c.writes) (hfind : d.find s = some (k, b))
    (hvacant : (l.account k).owner ≠ d.programId) :
    ∃ a, c.accounts.head? = some a ∧ a ∈ c.privileges.signers ∧
      PaidFor d.toHost l l' a k := by
  have heffect := effect_of_process hinv ha hok
  obtain ⟨l₁, hrun, hcommit⟩ := bind_eq_ok.mp hok
  obtain ⟨-, rfl⟩ := commit_eq_ok.mp hcommit
  have same : ∀ {k' b'}, d.find s = some (k', b') → k' = k :=
    fun hfind' => Deployment.find_unique hfind' hfind
  cases heffect with
  | initializeConfig =>
      obtain ⟨a, b', hkeys, hsigned, hfind', hpaid⟩ :=
        initializeConfig_paid (fun m hm => ha.unsigned (by simpa using ha.mint m hm)) hrun
      obtain ⟨rest, hrest⟩ := InitializeConfig.ofKeys_eq_ok hkeys
      obtain ⟨rfl, rfl, rfl, -⟩ : _ = a.authority ∧ _ = a.config ∧ _ = a.mint ∧ _ := by
        simpa using hrest
      obtain rfl := List.mem_singleton.mp hs
      exact ⟨_, rfl, hsigned, same hfind' ▸ hpaid⟩
  | initializeExtraAccountMetaList =>
      obtain ⟨a, b', hkeys, hsigned, hfind', hpaid⟩ :=
        initializeExtraAccountMetaList_paid hinv
          (fun m hm => ha.unsigned (by simpa using ha.mint m hm)) ha.mint hrun
      obtain ⟨rest, hrest⟩ := InitializeExtraAccountMetaList.ofKeys_eq_ok hkeys
      obtain ⟨hp, rfl, rfl, -⟩ : _ = a.payer ∧ _ = a.extraAccountMetaList ∧ _ = a.mint ∧ _ := by
        simpa using hrest
      obtain rfl := List.mem_singleton.mp hs
      exact ⟨_, congrArg some hp, hsigned, same hfind' ▸ hpaid⟩
  | addToWhitelist =>
      obtain ⟨a, b', hkeys, hsigned, hfind', hpaid⟩ := addToWhitelist_paid
        (fun m hm => ha.unsigned (by simp [ha.mint m hm, ha.wallet _ rfl])) hrun
      obtain ⟨rest, hrest⟩ := AddToWhitelist.ofKeys_eq_ok hkeys
      obtain ⟨hp, -, rfl, rfl, -⟩ : _ = a.authority ∧ _ ∧ _ = a.whitelistEntry ∧
          _ = a.mint ∧ _ := by simpa using hrest
      obtain rfl := List.mem_singleton.mp hs
      exact ⟨_, congrArg some hp, hsigned, same hfind' ▸ hpaid⟩
  | updateConfig hc _ hlist howner =>
      -- both records were there before
      rcases List.mem_cons.mp hs with rfl | hs
      · exact absurd (same hc.find ▸ hc.owner) hvacant
      · obtain rfl := List.mem_singleton.mp hs
        exact absurd (same hlist ▸ howner) hvacant
  | transferAuthority hc | acceptAuthority hc =>
      obtain rfl := List.mem_singleton.mp hs
      exact absurd (same hc.find ▸ hc.owner) hvacant
  | removeFromWhitelist _ _ _ hentry howner =>
      obtain rfl := List.mem_singleton.mp hs
      exact absurd (same hentry ▸ howner) hvacant
  | transferHook => simp [Call.writes] at hs

/-- `dst` has received the whole balance of the account at `k`, which is gone, and no
other account has changed. -/
structure PaidOut (l l' : Ledger) (k dst : Pubkey) : Prop where
  closed : l'.account k = ⟨0, systemProgram, []⟩
  received : (l'.account dst).lamports = (l.account dst).lamports + (l.account k).lamports
  others : ∀ k', k' ≠ dst → k' ≠ k → l'.account k' = l.account k'

lemma PaidOut.of_close {k dst : Pubkey} (hne : dst ≠ k) :
    PaidOut l (closeAccount l k dst) k dst where
  closed := Ledger.account_set_self ..
  received := by
    rw [closeAccount, Ledger.account_set_of_ne _ _ hne, Ledger.credit, Ledger.account_set_self]
  others k' hdst hk := by
    rw [closeAccount, Ledger.account_set_of_ne _ _ hk, Ledger.account_credit_of_ne _ _ hdst]

/-- Where a call moves lamports to: into a record that it opens, out of an entry that
it closes, or nowhere. -/
inductive Flow (d : Deployment) (l : Ledger) (c : Call) (l' : Ledger) : Prop
  | still (h : ∀ k, (l'.account k).lamports = (l.account k).lamports)
  | opened {s : HookSeeds} {k a : Pubkey} {b : UInt8} (hs : s ∈ c.writes)
      (hfind : d.find s = some (k, b)) (hvacant : (l.account k).owner ≠ d.programId)
      (hhead : c.accounts.head? = some a) (hsigned : a ∈ c.privileges.signers)
      (hpaid : PaidFor d.toHost l l' a k)
  | closed {m w k a : Pubkey} {b : UInt8} (hs : .whitelist m w ∈ c.writes)
      (hfind : d.find (.whitelist m w) = some (k, b)) (howner : (l.account k).owner = d.programId)
      (hhead : c.accounts.head? = some a) (hsigned : a ∈ c.privileges.signers)
      (hpaid : PaidOut l l' k a)

lemma set_lamports {k k' : Pubkey} {a : Account} (h : a.lamports = (l.account k).lamports) :
    ((l.set k a).account k').lamports = (l.account k').lamports := by
  by_cases hk : k' = k
  · subst hk
    rw [Ledger.account_set_self, h]
  · rw [Ledger.account_set_of_ne _ _ hk]

/-- Every call of every run moves lamports in one of these ways. -/
theorem lamport_flow {h : List (Ledger × Event)} (hr : Reaches (hookSystem K) h l)
    (ha : c.Admissible K) (hok : c.process d l = .ok l') : Flow d l c l' := by
  have hinv := inv_of_reaches hr
  have opened : ∀ {s k b}, s ∈ c.writes → d.find s = some (k, b) →
      (l.account k).Unallocated → Flow d l c l' := by
    intro s k b hs hfind hu
    have hvacant : (l.account k).owner ≠ d.programId :=
      fun howner => d.programId_ne (howner.symm.trans hu.1)
    obtain ⟨a, hhead, hsigned, hpaid⟩ := opening_paid hinv ha hok hs hfind hvacant
    exact .opened hs hfind hvacant hhead hsigned hpaid
  cases effect_of_process hinv ha hok with
  | initializeConfig _ hfind hu => exact opened (.head _) hfind hu
  | initializeExtraAccountMetaList _ _ hlist hu => exact opened (.head _) hlist hu
  | addToWhitelist _ _ _ hentry hu => exact opened (.head _) hentry hu
  | updateConfig hc _ hlist =>
      apply Flow.still
      intro k
      refine (set_lamports ?_).trans (set_lamports ?_)
      · rw [Ledger.account_set_of_ne _ _ (hc.ne_list hlist)]
      · rfl
  | transferAuthority | acceptAuthority => exact .still fun k => set_lamports rfl
  | removeFromWhitelist hc hsigned _ hentry howner =>
      have hne := (ha.unsigned (ha.covers (.head _))).ne hentry hsigned
      exact .closed (.head _) hentry howner rfl hsigned (.of_close hne)
  | transferHook => exact .still fun k => rfl

open LocalChain in
/-- The third call of the local chain, whichever way the lamports go. -/
theorem lamport_flow_listed : Flow chain published addToWhitelistCall listed :=
  lamport_flow reaches_published admissible_addToWhitelist process_addToWhitelist

/-! ## Adding a wallet and removing it again -/

/-- An account that was opened at a payer's cost and is closed to the payer is gone, and
the payer has got what was at the address before. -/
lemma closeAccount_opened {H : Host} {k a : Pubkey} {n : ℕ} {record : Account} (hne : a ≠ k)
    (hpaid : PaidFor H l (l.opened a k n record) a k) :
    closeAccount (l.opened a k n record) k a =
      (l.credit a (l.account k).lamports).set k ⟨0, systemProgram, []⟩ := by
  have hcost := hpaid.paid
  have hfunded := hpaid.funded
  simp only [Ledger.opened, Ledger.account_set_self, Ledger.account_set_of_ne _ _ hne,
    Ledger.debit] at hcost hfunded
  refine Ledger.ext_account (fun k' => ?_) rfl
  by_cases hk : k' = k
  · subst hk
    rw [closeAccount, Ledger.account_set_self, Ledger.account_set_self]
  rw [closeAccount, Ledger.account_set_of_ne _ _ hk, Ledger.account_set_of_ne _ _ hk]
  by_cases ha : k' = a
  · subst ha
    simp only [Ledger.opened, Ledger.credit, Ledger.debit, Ledger.account_set_self,
      Ledger.account_set_of_ne _ _ hne, Account.mk.injEq, and_true]
    omega
  · rw [Ledger.account_credit_of_ne _ _ ha, Ledger.account_credit_of_ne _ _ ha, Ledger.opened,
      Ledger.account_set_of_ne _ _ hk, Ledger.account_debit_of_ne _ _ ha]

/-- Adding a wallet and removing it again leaves the ledger as it was, but for the
lamports that were at the entry's address before: they are the authority's now. -/
theorem whitelist_round_trip {h : List (Ledger × Event)} (hr : Reaches (hookSystem K) h l)
    {add remove : Call} {l₁ l₂ : Ledger} {m w k : Pubkey} {b : UInt8}
    (hadd : add.instruction = .addToWhitelist w) (hm : add.mint = some m)
    (ha : add.Admissible K) (hok : add.process d l = .ok l₁)
    (hremove : remove.instruction = .removeFromWhitelist w) (hm' : remove.mint = some m)
    (ha' : remove.Admissible K) (hok' : remove.process d l₁ = .ok l₂)
    (hfind : d.find (.whitelist m w) = some (k, b)) :
    ∃ a, add.accounts.head? = some a ∧ remove.accounts.head? = some a ∧
      l₂ = (l.credit a (l.account k).lamports).set k ⟨0, systemProgram, []⟩ := by
  have hinv := inv_of_reaches hr
  have heffect := effect_of_process hinv ha hok
  have hwrites : .whitelist m w ∈ add.writes := by simp [Call.writes, hadd, hm]
  have hconfig : d.hookConfig l₁ m = d.hookConfig l m :=
    heffect.hookConfig_eq ha (ha.mint m hm) (by simp [Call.writes, hadd, hm])
  have heffect' := effect_of_process (heffect.inv hinv ha) ha' hok'
  obtain ⟨instruction, keys, p⟩ := add
  obtain ⟨instruction', keys', p'⟩ := remove
  obtain rfl : instruction = .addToWhitelist w := hadd
  obtain rfl : instruction' = .removeFromWhitelist w := hremove
  cases heffect with
  | @addToWhitelist _ kc _ ke _ rest c bump n lamports hc hsigned _ hentry hu =>
      obtain rfl := Option.some.inj hm
      obtain rfl := Deployment.find_unique hentry hfind
      obtain ⟨a, hhead, -, hpaid⟩ := opening_paid hinv ha hok hwrites hfind
        fun howner => d.programId_ne (howner.symm.trans hu.1)
      obtain rfl := Option.some.inj hhead
      have hne : c.authority ≠ ke := (ha.unsigned (ha.covers hwrites)).ne hfind hsigned
      cases heffect' with
      | removeFromWhitelist hc' _ _ hentry' =>
          obtain rfl := Option.some.inj hm'
          obtain rfl := Deployment.find_unique hentry' hfind
          -- the config is still the one that the addition read
          rw [hc'.hookConfig, hc.hookConfig] at hconfig
          obtain rfl := Option.some.inj hconfig
          exact ⟨_, rfl, rfl, closeAccount_opened hne hpaid⟩

namespace LocalChain

def removalCall : Call :=
  ⟨.removeFromWhitelist wallet, [authority, configKey, entryKey, mint, systemProgram],
    ⟨[authority], [authority, entryKey]⟩⟩

set_option maxRecDepth 2000 in
lemma admissible_removalCall : removalCall.Admissible keysInPlay :=
  admissible (by decide) (by decide) rfl (.inr rfl)

lemma removal_eval : (removalCall.process chain listed).isOk = true ∧
    published.account entryKey = ⟨0, systemProgram, []⟩ := by
  decide +kernel

end LocalChain

open LocalChain in
/-- Nothing was at the address before, so nothing is left of the two calls. -/
theorem whitelist_round_trip_removed : after removalCall listed = published := by
  have hfind : chain.find (.whitelist mint wallet) = some (entryKey, 255) := find_eq _
  have hadd : addToWhitelistCall.mint = some mint := rfl
  have hremove : removalCall.mint = some mint := rfl
  obtain ⟨a, -, -, heq⟩ := whitelist_round_trip reaches_published rfl hadd
    admissible_addToWhitelist process_addToWhitelist rfl hremove admissible_removalCall
    (process_after removal_eval.1) hfind
  rw [heq, removal_eval.2, Ledger.credit_zero, ← removal_eval.2, Ledger.set_account]

/-! ## Records stay rent-exempt -/

/-- Every list that there is has the size of six metas. -/
lemma Inv.length_list {m kl : Pubkey} {b : UInt8} {metas : List ExtraAccountMeta}
    (hinv : Inv K l) (hm : m ∈ K.keys) (hlist : d.find (.extraAccountMetas m) = some (kl, b))
    (howner : (l.account kl).owner = d.programId) (hlen : metas.length = 6) :
    (l.account kl).data.length = (d.resolution.executeEntry metas).length := by
  obtain ⟨-, c, -, himage⟩ :=
    hinv.slot (by simpa using hm) (Deployment.create_of_find hlist) howner
  exact length_of_listImage himage hlen

/-- The account holds the rent for its size. -/
def RentExempt (H : Host) (a : Account) : Prop := H.minimumBalance a.data.length ≤ a.lamports

/-- A record that a call finds in place keeps its size and its balance, or is closed. -/
lemma Effect.kept_record (hinv : Inv K l) (heffect : Effect K l c l') {s : HookSeeds}
    {k : Pubkey} {b : UInt8} (hs : s ∈ c.writes) (hfind : d.find s = some (k, b))
    (howner : (l.account k).owner = d.programId) (howner' : (l'.account k).owner = d.programId) :
    (l'.account k).lamports = (l.account k).lamports ∧
      (l'.account k).data.length = (l.account k).data.length := by
  have same : ∀ {k' b'}, d.find s = some (k', b') → k' = k :=
    fun hfind' => Deployment.find_unique hfind' hfind
  have vacant : ∀ {k'}, k' = k → ¬ (l.account k').Unallocated := by
    rintro _ rfl hu
    exact d.programId_ne (howner.symm.trans hu.1)
  cases heffect with
  | initializeConfig _ hfind' hu =>
      obtain rfl := List.mem_singleton.mp hs
      exact absurd hu (vacant (same hfind'))
  | initializeExtraAccountMetaList _ _ hlist hu =>
      obtain rfl := List.mem_singleton.mp hs
      exact absurd hu (vacant (same hlist))
  | addToWhitelist _ _ _ hentry hu =>
      obtain rfl := List.mem_singleton.mp hs
      exact absurd hu (vacant (same hentry))
  | updateConfig hc _ hlist _ hmetas =>
      have hkl := hc.ne_list hlist
      rcases List.mem_cons.mp hs with rfl | hs
      · obtain rfl := same hc.find
        rw [Ledger.account_set_self]
        exact ⟨rfl, by rw [HookConfig.length_image, hc.length_data]⟩
      · obtain rfl := List.mem_singleton.mp hs
        obtain rfl := same hlist
        rw [Ledger.account_set_of_ne _ _ hkl.symm, Ledger.account_set_self]
        exact ⟨rfl, (hinv.length_list hc.covered hlist howner
          (UpdateConfig.length_accountMetas hmetas)).symm⟩
  | transferAuthority hc | acceptAuthority hc =>
      obtain rfl := List.mem_singleton.mp hs
      obtain rfl := same hc.find
      rw [Ledger.account_set_self]
      exact ⟨rfl, by rw [HookConfig.length_image, hc.length_data]⟩
  | removeFromWhitelist _ _ _ hentry =>
      obtain rfl := List.mem_singleton.mp hs
      obtain rfl := same hentry
      rw [closeAccount, Ledger.account_set_self] at howner'
      exact absurd howner'.symm d.programId_ne
  | transferHook => simp [Call.writes] at hs

/-- In every reachable state the program's records hold the rent for their size. -/
theorem records_rent_exempt {h : List (Ledger × Event)} (hr : Reaches (hookSystem K) h l)
    {s : HookSeeds} {k : Pubkey} {b : UInt8} (hs : K.Covers s) (hfind : d.find s = some (k, b))
    (howner : (l.account k).owner = d.programId) : RentExempt d.toHost (l.account k) := by
  induction hr with
  | start hfresh =>
      have hu := hfresh k (KeysInPlay.derived_of_find hs hfind)
      exact absurd (howner.symm.trans hu.1) d.programId_ne
  | @step h l l' e hr he ih =>
      have hinv := inv_of_reaches hr
      cases he with
      | @invoked _ c ha hok =>
          have heffect := effect_of_process hinv ha hok
          by_cases hmem : s ∈ c.writes
          · by_cases hold : (l.account k).owner = d.programId
            · obtain ⟨hlamports, hlen⟩ := heffect.kept_record hinv hmem hfind hold howner
              rw [RentExempt, hlamports, hlen]
              exact ih hold
            · -- the call has opened the record
              obtain ⟨a, -, -, hpaid⟩ := opening_paid hinv ha hok hmem hfind hold
              have hfunded := hpaid.funded
              rw [RentExempt]
              omega
          · rw [heffect.account_eq ha hs hfind hmem] at howner ⊢
            exact ih howner
      | rejected => exact ih howner
      | donated k' n =>
          rw [Ledger.owner_credit] at howner
          have hexempt := ih howner
          rw [RentExempt, Ledger.data_credit]
          by_cases hk : k = k'
          · subst hk
            rw [Ledger.credit, Ledger.account_set_self]
            exact Nat.le_add_right_of_le hexempt
          · rw [Ledger.account_credit_of_ne _ _ hk]
            exact hexempt
      | @written k' hw a =>
          have hk : k ≠ k' := by
            rintro rfl
            exact hinv.not_derived_of_foreignWrite hw (KeysInPlay.derived_of_find hs hfind)
          rw [Ledger.account_set_of_ne _ _ hk] at howner ⊢
          exact ih howner
      | ticked t => exact ih howner

open LocalChain in
theorem records_rent_exempt_list : RentExempt chain.toHost (listed.account listKey) :=
  records_rent_exempt reaches_listed (s := .extraAccountMetas mint) (by simpa using mint_mem)
    (find_eq _) listed_eval.2.1

/-! ## Who takes no part -/

/-- What was sent to an account during a run. -/
def sentTo (k : Pubkey) (h : List (Ledger × Event)) : ℕ :=
  (h.map fun e => match e.2 with
    | .donated k' n => if k' = k then n else 0
    | _ => 0).sum

/-- Nobody acts for the account: it signs no call and no other program writes to it. -/
def Event.Spares (k : Pubkey) : Event → Prop
  | .invoked c => k ∉ c.privileges.signers
  | .written k' _ => k' ≠ k
  | _ => True

/-- Whatever accounts are passed to the program and in whatever order its instructions
come, an account that takes no part keeps its owner, its data and its lamports, and
gets what is sent to it. -/
theorem bystander_untouched {newer older : List (Ledger × Event)} {k : Pubkey}
    (hr : Reaches (hookSystem K) (newer ++ older) l) (hk : ¬ K.Derived k)
    (hspared : ∀ e ∈ newer, e.2.Spares k) :
    l.account k = { (origin newer l).account k with
      lamports := ((origin newer l).account k).lamports + sentTo k newer } := by
  induction newer generalizing l with
  | nil => rfl
  | cons entry newer ih =>
      obtain ⟨l₀, e⟩ := entry
      cases hr with
      | step hr hstep =>
          have hrest := ih hr fun e he => hspared e (List.mem_cons_of_mem _ he)
          have hnow : e.Spares k := hspared _ List.mem_cons_self
          have unmoved : ∀ {l : Ledger}, l.account k = l₀.account k →
              sentTo k ((l₀, e) :: newer) = sentTo k newer → l.account k =
                { (origin newer l₀).account k with lamports :=
                  ((origin newer l₀).account k).lamports + sentTo k ((l₀, e) :: newer) } := by
            intro l heq hsent
            rw [heq, hsent]
            exact hrest
          cases hstep with
          | invoked ha hok =>
              have heffect := effect_of_process (inv_of_reaches hr) ha hok
              refine unmoved ((heffect.account_cases fun s hs b hfind => ?_).resolve_right
                fun hsigned => hnow hsigned.1) (Nat.zero_add _)
              exact hk (KeysInPlay.derived_of_find (ha.covers hs) hfind)
          | rejected => exact unmoved rfl (Nat.zero_add _)
          | donated k' n =>
              by_cases heq : k' = k
              · subst heq
                simp only [Ledger.credit, Ledger.account_set_self, origin, sentTo,
                  List.map_cons, List.sum_cons, if_true]
                rw [hrest]
                simp only [sentTo, Account.mk.injEq, and_self, and_true]
                omega
              · apply unmoved (Ledger.account_credit_of_ne _ _ (Ne.symm heq))
                simp [sentTo, heq]
          | written _ a =>
              exact unmoved (Ledger.account_set_of_ne _ _ (Ne.symm hnow)) (Nat.zero_add _)
          | ticked t => exact unmoved rfl (Nat.zero_add _)

open LocalChain in
/-- The mint is passed to every instruction of the local chain and signs none. -/
theorem bystander_untouched_mint :
    (listed.credit mint 5).account mint = { genesis.account mint with
      lamports := (genesis.account mint).lamports + 5 } := by
  have hr : Reaches (hookSystem keysInPlay)
      ([(listed, .donated mint 5), (published, .invoked addToWhitelistCall),
        (configured, .invoked initializeListCall), (genesis, .invoked initializeConfigCall)] ++ [])
      (listed.credit mint 5) := reaches_listed.step (.donated listed mint 5)
  apply bystander_untouched hr (not_derived (k := mint) (by decide))
  intro e he
  simp only [List.mem_cons, List.not_mem_nil, or_false] at he
  rcases he with rfl | rfl | rfl | rfl
  · exact trivial
  · exact (by decide : mint ∉ addToWhitelistCall.privileges.signers)
  · exact (by decide : mint ∉ initializeListCall.privileges.signers)
  · exact (by decide : mint ∉ initializeConfigCall.privileges.signers)

end AlienIdTransferHook
