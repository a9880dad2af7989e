import AlienIdTransferHook.SetUp

/-!
# The set-up script among others

The script awaits two look-ups and up to two transactions, and between any two of them
other transactions may go through, those of other runs of the script included. What
can be said of a run that finishes is the same as if it had been alone.
-/
namespace AlienIdTransferHook
open Solana History

/-! ## The script by its awaits -/

/-- What the script awaits next. -/
inductive Stage
  | configInfo
  | configSent
  | listInfo
  | listSent
  | finished
  | thrown
  deriving DecidableEq

/-- The keys in `main`, up to its first look-up. -/
structure SetUpKeys where
  payer : Pubkey
  walienMint : Pubkey
  credentialPda : Pubkey
  schemaPda : Pubkey
  sasProgramId : Pubkey
  hookConfigPda : Pubkey
  extraAccountMetaListPda : Pubkey

/-- A transaction that fails makes the script throw. -/
def sendThen (d : Deployment) (payer : Pubkey) (l : Ledger) (ix : Option TransactionInstruction)
    (next : Stage) : Ledger × Stage :=
  match ix.bind (sendAndConfirm d payer l) with
  | some l' => (l', next)
  | none => (l, .thrown)

/-- `main` up to the next await. -/
def SetUpKeys.resume (d : Deployment) (keys : SetUpKeys) : Ledger × Stage → Ledger × Stage
  | (l, .configInfo) =>
      match getAccountInfo l keys.hookConfigPda with
      | none => (l, .configSent)
      | some _ => (l, .listInfo)
  | (l, .configSent) =>
      sendThen d keys.payer l (TransferHookSdk.initializeConfigIx d keys.payer keys.walienMint
        keys.credentialPda keys.schemaPda keys.sasProgramId) .listInfo
  | (l, .listInfo) =>
      match getAccountInfo l keys.extraAccountMetaListPda with
      | none => (l, .listSent)
      | some _ => (l, .finished)
  | (l, .listSent) =>
      sendThen d keys.payer l
        (TransferHookSdk.initializeExtraAccountMetaListIx d keys.payer keys.walienMint) .finished
  | (l, .finished) => (l, .finished)
  | (l, .thrown) => (l, .thrown)

variable {d : Deployment} {K : KeysInPlay d} {l l' : Ledger} {keys : SetUpKeys} {kl : Pubkey}
  {c b : UInt8}

/-- From its second look-up on. -/
lemma resume_list_alone (n : ℕ) : (keys.resume d)^[n + 2] (l, .listInfo) = (l', .finished) ↔
    sendIfMissing d keys.payer l keys.extraAccountMetaListPda
      (TransferHookSdk.initializeExtraAccountMetaListIx d keys.payer keys.walienMint) =
        some l' := by
  have hfinished : ∀ l, (keys.resume d)^[n] (l, .finished) = (l, .finished) :=
    fun l => Function.iterate_fixed rfl n
  have hthrown : ∀ l, (keys.resume d)^[n] (l, .thrown) = (l, .thrown) :=
    fun l => Function.iterate_fixed rfl n
  rw [Function.iterate_add_apply, sendIfMissing]
  cases hinfo : getAccountInfo l keys.extraAccountMetaListPda with
  | some a => simp [SetUpKeys.resume, hinfo, hfinished]
  | none =>
      cases hsent : (TransferHookSdk.initializeExtraAccountMetaListIx d keys.payer
          keys.walienMint).bind (sendAndConfirm d keys.payer l) with
      | some l₁ => simp [SetUpKeys.resume, sendThen, hinfo, hsent, hfinished]
      | none => simp [SetUpKeys.resume, sendThen, hinfo, hsent, hthrown]

/-- Alone, the script does what `setUp` does. -/
theorem resume_alone (hkc : d.find (.config keys.walienMint) = some (keys.hookConfigPda, c))
    (hlist : d.find (.extraAccountMetas keys.walienMint) =
      some (keys.extraAccountMetaListPda, b)) :
    (keys.resume d)^[4] (l, .configInfo) = (l', .finished) ↔
      setUp d keys.payer keys.walienMint keys.credentialPda keys.schemaPda keys.sasProgramId l =
        some l' := by
  rw [setUp_eq hkc hlist, sendIfMissing]
  cases hinfo : getAccountInfo l keys.hookConfigPda with
  | some a =>
      have hnext : keys.resume d (l, .configInfo) = (l, .listInfo) := by
        simp [SetUpKeys.resume, hinfo]
      rw [Function.iterate_succ_apply, hnext]
      exact resume_list_alone 1
  | none =>
      have hnext : keys.resume d (l, .configInfo) = (l, .configSent) := by
        simp [SetUpKeys.resume, hinfo]
      rw [Function.iterate_succ_apply, hnext, Function.iterate_succ_apply]
      cases hsent : (TransferHookSdk.initializeConfigIx d keys.payer keys.walienMint
          keys.credentialPda keys.schemaPda keys.sasProgramId).bind
            (sendAndConfirm d keys.payer l) with
      | some l₁ =>
          have hnext : keys.resume d (l, .configSent) = (l₁, .listInfo) := by
            simp [SetUpKeys.resume, sendThen, hsent]
          rw [hnext, resume_list_alone 0]
          simp [hsent]
      | none =>
          have hnext : keys.resume d (l, .configSent) = (l, .thrown) := by
            simp [SetUpKeys.resume, sendThen, hsent]
          rw [hnext]
          simp [hsent, SetUpKeys.resume]

/-! ## Every interleaving -/

/-- The script beside everything else that happens to the ledger. -/
def setUpSystem (K : KeysInPlay d) (keys : SetUpKeys) :
    System (Ledger × Stage) (Option Event) :=
  (hookSystem K).beside .configInfo fun s s' => s' = keys.resume d s

/-- A script that has sent something has made an admissible call, or has thrown. -/
lemma sendThen_cases {payer : Pubkey} {ix : Option TransactionInstruction} {next : Stage}
    {s : Ledger × Stage} (h : s = sendThen d payer l ix next) :
    s = (l, .thrown) ∨ s.2 = next ∧
      ∃ i, ix = some i ∧ (i.paidBy payer).process d l = .ok s.1 := by
  unfold sendThen at h
  cases hsent : ix.bind (sendAndConfirm d payer l) with
  | none => exact .inl (by rw [h, hsent])
  | some l₁ =>
      rw [hsent] at h
      obtain ⟨i, hi, hok⟩ := Option.bind_eq_some_iff.mp hsent
      subst h
      exact .inr ⟨rfl, i, hi, sendAndConfirm_eq_some.mp hok⟩

/-- Nothing removes an account at the address of a list. -/
lemma LedgerStep.list_stays {e : Event} {m : Pubkey} (hinv : Inv K l) (hm : m ∈ K.keys)
    (hlist : d.find (.extraAccountMetas m) = some (kl, b)) (hstep : LedgerStep K l e l')
    (h : l.account kl ≠ ⟨0, systemProgram, []⟩) : l'.account kl ≠ ⟨0, systemProgram, []⟩ := by
  cases hstep with
  | @invoked _ c ha hok =>
      have heffect := effect_of_process hinv ha hok
      by_cases hmem : .extraAccountMetas m ∈ c.writes
      · exact account_ne_of_owner (heffect.list_owner hlist hmem)
      · rwa [heffect.account_eq ha (by simpa using hm) hlist hmem]
  | rejected => exact h
  | donated k n =>
      by_cases hk : kl = k
      · subst hk
        intro habsent
        rw [Ledger.credit, Ledger.account_set_self, Account.mk.injEq] at habsent
        obtain ⟨hzero, howner, hdata⟩ := habsent
        exact h (absent_of_unallocated ⟨howner, hdata⟩ (by omega))
      · rwa [Ledger.account_credit_of_ne _ _ hk]
  | @written k hw a =>
      have hk : kl ≠ k := by
        rintro rfl
        exact hinv.not_derived_of_foreignWrite hw
          (KeysInPlay.derived_of_find (by simpa using hm) hlist)
      rwa [Ledger.account_set_of_ne _ _ hk]
  | ticked t => exact h

/-- What is known when the script has finished. -/
def ListThere (kl : Pubkey) (s : Ledger × Stage) : Prop :=
  s.2 = .finished → s.1.account kl ≠ ⟨0, systemProgram, []⟩

/-- The script itself keeps it, and what it does to the ledger is a step. -/
lemma resume_keeps {s : Ledger × Stage} (hinv : Inv K s.1) (hm : keys.walienMint ∈ K.keys)
    (hpayer : ¬ K.Derived keys.payer)
    (hkc : d.find (.config keys.walienMint) = some (keys.hookConfigPda, c))
    (hlist : d.find (.extraAccountMetas keys.walienMint) =
      some (keys.extraAccountMetaListPda, b))
    (h : ListThere keys.extraAccountMetaListPda s) :
    ListThere keys.extraAccountMetaListPda (keys.resume d s) ∧
      ((keys.resume d s).1 = s.1 ∨ ∃ e, LedgerStep K s.1 e (keys.resume d s).1) := by
  obtain ⟨l, stage⟩ := s
  cases stage with
  | configInfo =>
      cases hinfo : getAccountInfo l keys.hookConfigPda with
      | none => simp [SetUpKeys.resume, hinfo, ListThere]
      | some a => simp [SetUpKeys.resume, hinfo, ListThere]
  | configSent =>
      rcases sendThen_cases (s := keys.resume d (l, .configSent)) rfl with
        heq | ⟨hnext, i, hi, hok⟩
      · rw [heq]
        exact ⟨nofun, .inl rfl⟩
      · have ha := admissible_initializeConfigIx (K := K) hpayer hm hkc hi
        refine ⟨fun hfinished => ?_, .inr ⟨_, .invoked ha hok⟩⟩
        rw [hnext] at hfinished
        cases hfinished
  | listInfo =>
      cases hinfo : getAccountInfo l keys.extraAccountMetaListPda with
      | none => simp [SetUpKeys.resume, hinfo, ListThere]
      | some a =>
          have hthere : l.account keys.extraAccountMetaListPda ≠ ⟨0, systemProgram, []⟩ := by
            intro habsent
            rw [getAccountInfo_eq_none.mpr habsent] at hinfo
            cases hinfo
          simp [SetUpKeys.resume, hinfo, ListThere, hthere]
  | listSent =>
      rcases sendThen_cases (s := keys.resume d (l, .listSent)) rfl with heq | ⟨-, i, hi, hok⟩
      · rw [heq]
        exact ⟨nofun, .inl rfl⟩
      · have ha := admissible_initializeExtraAccountMetaListIx (K := K) hpayer hm hkc hlist hi
        refine ⟨fun _ => ?_, .inr ⟨_, .invoked ha hok⟩⟩
        refine account_ne_of_owner ((effect_of_process hinv ha hok).list_owner hlist ?_)
        rw [TransferHookSdk.initializeExtraAccountMetaListIx_eq hkc hlist] at hi
        obtain rfl := Option.some.inj hi
        simp [Call.writes, TransactionInstruction.paidBy, Call.mint]
  | finished => exact ⟨h, .inl rfl⟩
  | thrown => exact ⟨h, .inl rfl⟩

/-- It is known in every interleaving, and the ledger is one of the program's. -/
lemma listThere_of_reaches {h : List ((Ledger × Stage) × Option Event)} {s : Ledger × Stage}
    (hr : Reaches (setUpSystem K keys) h s) (hm : keys.walienMint ∈ K.keys)
    (hpayer : ¬ K.Derived keys.payer)
    (hkc : d.find (.config keys.walienMint) = some (keys.hookConfigPda, c))
    (hlist : d.find (.extraAccountMetas keys.walienMint) =
      some (keys.extraAccountMetaListPda, b)) :
    ListThere keys.extraAccountMetaListPda s ∧ ∃ h', Reaches (hookSystem K) h' s.1 := by
  have hstart : ∀ l, (hookSystem K).start l →
      ListThere keys.extraAccountMetaListPda (l, .configInfo) := by
    intro l _ hfinished
    cases hfinished
  refine Reaches.beside_invariant hstart ?_ ?_ hr
  · intro h' l e l' stage hr' hstep hkept hfinished
    exact LedgerStep.list_stays (inv_of_reaches hr') hm hlist hstep (hkept hfinished)
  · intro h' s s' hr' hown hkept
    rw [hown]
    exact resume_keeps (inv_of_reaches hr') hm hpayer hkc hlist hkept

/-- Whatever goes through before, between and after the script's own transactions, a run
that has finished leaves the mint set up, with nothing to do for another run, unless the
address of the list holds lamports without a list. -/
theorem finished_complete_iff {h : List ((Ledger × Stage) × Option Event)}
    (hr : Reaches (setUpSystem K keys) h (l, .finished)) (hm : keys.walienMint ∈ K.keys)
    (hpayer : ¬ K.Derived keys.payer)
    (hkc : d.find (.config keys.walienMint) = some (keys.hookConfigPda, c))
    (hlist : d.find (.extraAccountMetas keys.walienMint) =
      some (keys.extraAccountMetaListPda, b)) :
    (SetUpComplete d l keys.walienMint keys.extraAccountMetaListPda ∧
        setUp d keys.payer keys.walienMint keys.credentialPda keys.schemaPda keys.sasProgramId l =
          some l) ↔
      ¬ ((l.account keys.extraAccountMetaListPda).Unallocated ∧
        (l.account keys.extraAccountMetaListPda).lamports ≠ 0) := by
  obtain ⟨hthere, h', hr'⟩ := listThere_of_reaches hr hm hpayer hkc hlist
  have hinv := inv_of_reaches hr'
  rcases hinv.canonical (by simpa using hm) hlist with hu | ⟨howner, -⟩
  · refine iff_of_false ?_ ?_
    · rintro ⟨⟨config, -, howner, -⟩, -⟩
      exact d.programId_ne (howner.symm.trans hu.1)
    · rw [not_not]
      exact ⟨hu, fun hzero => hthere rfl (absent_of_unallocated hu hzero)⟩
  · obtain ⟨config, hconfig, himage⟩ := setUpComplete_of_owner hinv hm hlist howner
    have hc := hinv.configAt_of_find hm hconfig hkc
    refine iff_of_true ⟨⟨config, hconfig, himage⟩,
      setUp_idle hkc hlist (account_ne_of_owner hc.owner) howner⟩ ?_
    rintro ⟨hu, -⟩
    exact d.programId_ne (howner.symm.trans hu.1)

namespace LocalChain

def setUpKeys : SetUpKeys :=
  ⟨authority, mint, rule.credential, rule.schema, rule.sasProgram, configKey, listKey⟩

/-- The script has its config when somebody sends lamports to the list's address. -/
def configSetUp : Ledger × Stage :=
  setUpKeys.resume chain (setUpKeys.resume chain (genesis, .configInfo))

def raced : Ledger := configSetUp.1.credit listKey 890880

lemma raced_eval : configSetUp.2 = .listInfo ∧
    getAccountInfo raced listKey ≠ none := by
  decide +kernel

lemma reaches_raced : ∃ h, Reaches (setUpSystem keysInPlay setUpKeys) h (raced, .finished) := by
  have hbegin : Reaches (setUpSystem keysInPlay setUpKeys) [] (genesis, .configInfo) :=
    .start ⟨fresh_genesis, rfl⟩
  have hown : ∀ s, (setUpSystem keysInPlay setUpKeys).step s none (setUpKeys.resume chain s) :=
    fun _ => rfl
  have hdonated : ∀ (s : Ledger × Stage) k n,
      (setUpSystem keysInPlay setUpKeys).step s (some (.donated k n)) (s.1.credit k n, s.2) :=
    fun s k n => ⟨.donated s.1 k n, rfl⟩
  have hread : setUpKeys.resume chain (raced, configSetUp.2) = (raced, .finished) := by
    obtain ⟨hstage, hinfo⟩ := raced_eval
    obtain ⟨a, ha⟩ := Option.ne_none_iff_exists'.mp hinfo
    rw [hstage]
    simp only [SetUpKeys.resume, setUpKeys, ha]
  rw [← hread, raced, configSetUp]
  exact ⟨_, (((hbegin.step (hown _)).step (hown _)).step (hdonated _ _ _)).step (hown _)⟩

end LocalChain

open LocalChain in
/-- On the local chain the donation comes between the script's transactions. -/
theorem finished_complete_iff_raced :
    (SetUpComplete chain raced mint listKey ∧
        setUp chain authority mint rule.credential rule.schema rule.sasProgram raced =
          some raced) ↔
      ¬ ((raced.account listKey).Unallocated ∧ (raced.account listKey).lamports ≠ 0) := by
  obtain ⟨h, hr⟩ := reaches_raced
  have hiff := finished_complete_iff (b := 255) (c := 255) hr
  simp only [setUpKeys] at hiff
  exact hiff mint_mem (not_derived (k := authority) (by decide)) find_config find_list

end AlienIdTransferHook
