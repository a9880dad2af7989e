import AlienIdTransferHook.Frame

/-!
# The ledger refines the policy

Seen from one mint, every step of the ledger is an operation of its actor on the
mint's policy, or leaves the policy alone. The facts about policies over whole
runs thereby hold of the accounts.
-/
namespace AlienIdTransferHook
open Solana History TransferPolicy

variable {d : Deployment} {K : KeysInPlay d} {l l' : Ledger} {m : Pubkey}

theorem ConfigAt.policy {k : Pubkey} {c : HookConfig} (h : ConfigAt K l m k c) :
    policy K m l = some (policyOf K m l c) := by
  simp [AlienIdTransferHook.policy, h.hookConfig]

lemma exempt_congr
    (h : ∀ w ∈ K.keys, d.holds l' (.whitelist m w) = d.holds l (.whitelist m w)) :
    {w | w ∈ K.keys ∧ d.holds l' (.whitelist m w) = true} =
      {w | w ∈ K.keys ∧ d.holds l (.whitelist m w) = true} :=
  Set.ext fun w => and_congr_right fun hw => by rw [h w hw]

/-- A config over the same list and the same entries. -/
lemma policyOf_congr (hlist : d.holds l' (.extraAccountMetas m) = d.holds l (.extraAccountMetas m))
    (hentries : ∀ w ∈ K.keys, d.holds l' (.whitelist m w) = d.holds l (.whitelist m w))
    (c : HookConfig) : policyOf K m l' c = policyOf K m l c := by
  simp only [policyOf, hlist, exempt_congr hentries]

lemma policy_congr (hconfig : d.hookConfig l' m = d.hookConfig l m)
    (hlist : d.holds l' (.extraAccountMetas m) = d.holds l (.extraAccountMetas m))
    (hentries : ∀ w ∈ K.keys, d.holds l' (.whitelist m w) = d.holds l (.whitelist m w)) :
    policy K m l' = policy K m l := by
  simp only [policy, hconfig, funext (policyOf_congr hlist hentries)]

lemma holds_opened {s : HookSeeds} {k src : Pubkey} {b : UInt8} {n lamports : ℕ}
    {data : List UInt8} (hfind : d.find s = some (k, b)) :
    d.holds (l.opened src k n ⟨lamports, d.programId, data⟩) s = true := by
  simp [Deployment.holds, hfind, Ledger.opened]

lemma holds_eq_false {s : HookSeeds} {k : Pubkey} {b : UInt8} (hfind : d.find s = some (k, b))
    (hu : (l.account k).Unallocated) : d.holds l s = false := by
  simpa [Deployment.holds, hfind, hu.1] using d.programId_ne.symm

/-- Without a config nothing else is kept for the mint. -/
lemma Inv.holds_of_no_config {s : HookSeeds} (hinv : Inv K l) (hs : K.Covers s)
    (hne : s ≠ .config s.mint) (hnone : d.hookConfig l s.mint = none) :
    d.holds l s = false := by
  cases hfind : d.find s with
  | none => simp [Deployment.holds, hfind]
  | some pda =>
      rcases hinv.canonical hs hfind with hu | ⟨-, hcontent⟩
      · exact holds_eq_false hfind hu
      · have hconfig : ∃ c, d.hookConfig l s.mint = some c := by
          cases s with
          | config m => exact absurd rfl hne
          | extraAccountMetas m =>
              obtain ⟨c, hc, -⟩ := hcontent
              exact ⟨c, hc⟩
          | whitelist m w => exact hcontent.1
        simp [hnone] at hconfig

/-! ## Steps of the policy -/

/-- A call for another mint, or of the hook itself, leaves the policy alone. -/
theorem Effect.policy_idle {c : Call} (h : Effect K l c l') (ha : c.Admissible K)
    (hm : m ∈ K.keys) (hnot : ∀ s ∈ c.writes, s.mint ≠ m) :
    policy K m l' = policy K m l :=
  policy_congr (h.hookConfig_eq ha hm fun hs => hnot _ hs rfl)
    (h.holds_eq ha (by simpa using hm) fun hs => hnot _ hs rfl)
    fun w hw => h.holds_eq ha (by simp [hm, hw]) fun hs => hnot _ hs rfl

lemma nominee_of_ne {k : Pubkey} (h : k ≠ Pubkey.default) : nominee k = some k := by
  simp [nominee, h]

@[simp] lemma nominee_default : nominee Pubkey.default = none := by simp [nominee]

/-- Creation: nothing was there for the mint before. -/
lemma step_create {a k credential schema sasProgram : Pubkey} {b : UInt8} {n lamports : ℕ}
    (hinv : Inv K l) (hm : m ∈ K.keys) (hfind : d.find (.config m) = some (k, b))
    (hu : (l.account k).Unallocated) (hne : a ≠ Pubkey.default)
    (hother : ∀ s, K.Covers s → s ≠ .config m →
      d.holds (l.opened a k n ⟨lamports, d.programId, image
        (HookConfig.mk a credential schema sasProgram b Pubkey.default)⟩) s = d.holds l s) :
    Step (policy K m l) (.create a ⟨credential, schema, sasProgram⟩)
      (policy K m (l.opened a k n ⟨lamports, d.programId, image
        (HookConfig.mk a credential schema sasProgram b Pubkey.default)⟩)) := by
  have hc := configAt_opened l a n lamports
    (c := ⟨a, credential, schema, sasProgram, b, Pubkey.default⟩) hm hfind hne
  have hnone := (hinv.hookConfig_eq_none hm hfind).mpr hu
  have hlist : d.holds l (.extraAccountMetas m) = false :=
    hinv.holds_of_no_config (by simpa using hm) (by simp) hnone
  have hexempt : {w | w ∈ K.keys ∧ d.holds l (.whitelist m w) = true} = ∅ := by
    rw [Set.eq_empty_iff_forall_notMem]
    rintro w ⟨hw, hholds⟩
    rw [hinv.holds_of_no_config (s := .whitelist m w) (by simp [hm, hw]) (by simp) hnone] at hholds
    cases hholds
  have hpolicy : policyOf K m l ⟨a, credential, schema, sasProgram, b, Pubkey.default⟩ =
      ⟨a, none, ⟨credential, schema, sasProgram⟩, false, ∅⟩ := by
    simp only [policyOf, hlist, hexempt, nominee_default]
    rfl
  rw [hc.policy, policyOf_congr (hother _ (by simpa using hm) (by simp))
    (fun w hw => hother _ (by simp [hm, hw]) (by simp)), hpolicy]
  simp only [policy, hnone, Option.map_none]
  exact .create a _

/-- A change of the config alone, over the same list and the same entries. -/
lemma step_config {k : Pubkey} {c c' : HookConfig} {op : Op Pubkey Rule}
    (hc : ConfigAt K l m k c) (hc' : ConfigAt K l' m k c')
    (hlist : d.holds l' (.extraAccountMetas m) = d.holds l (.extraAccountMetas m))
    (hentries : ∀ w ∈ K.keys, d.holds l' (.whitelist m w) = d.holds l (.whitelist m w))
    (h : Step (some (policyOf K m l c)) op (some (policyOf K m l c'))) :
    Step (policy K m l) op (policy K m l') := by
  rw [hc.policy, hc'.policy, policyOf_congr hlist hentries]
  exact h

lemma policy_of_hookConfig_eq {k : Pubkey} {c : HookConfig} (hc : ConfigAt K l m k c)
    (h : d.hookConfig l' m = d.hookConfig l m) : policy K m l' = some (policyOf K m l' c) := by
  simp [policy, h, hc.hookConfig]

/-- The list appears under an unchanged config and over the same entries. -/
lemma step_publish {k : Pubkey} {c : HookConfig} (hc : ConfigAt K l m k c)
    (hconfig : d.hookConfig l' m = d.hookConfig l m)
    (hbefore : d.holds l (.extraAccountMetas m) = false)
    (hafter : d.holds l' (.extraAccountMetas m) = true)
    (hentries : ∀ w ∈ K.keys, d.holds l' (.whitelist m w) = d.holds l (.whitelist m w)) :
    Step (policy K m l) (.publish c.authority) (policy K m l') := by
  have hpolicy : policyOf K m l' c = { policyOf K m l c with published := true } := by
    simp only [policyOf, hafter, exempt_congr hentries]
  rw [hc.policy, policy_of_hookConfig_eq hc hconfig, hpolicy]
  exact .publish (policyOf K m l c) hbefore

/-- One entry appears under an unchanged config and over the same list. -/
lemma step_exempt {k w : Pubkey} {c : HookConfig} (hc : ConfigAt K l m k c) (hw : w ∈ K.keys)
    (hconfig : d.hookConfig l' m = d.hookConfig l m)
    (hlist : d.holds l' (.extraAccountMetas m) = d.holds l (.extraAccountMetas m))
    (hbefore : d.holds l (.whitelist m w) = false)
    (hafter : d.holds l' (.whitelist m w) = true)
    (hother : ∀ w' ∈ K.keys, w' ≠ w →
      d.holds l' (.whitelist m w') = d.holds l (.whitelist m w')) :
    Step (policy K m l) (.exempt c.authority w) (policy K m l') := by
  have hset : {w' | w' ∈ K.keys ∧ d.holds l' (.whitelist m w') = true} =
      insert w {w' | w' ∈ K.keys ∧ d.holds l (.whitelist m w') = true} := by
    ext w'
    by_cases hne : w' = w
    · subst hne
      simp [hw, hafter]
    · simp only [Set.mem_ofPred_eq, Set.mem_insert_iff, hne, false_or]
      exact and_congr_right fun hw' => by rw [hother w' hw' hne]
  have hstep : Step (some (policyOf K m l c)) (.exempt c.authority w)
      (some { policyOf K m l c with exempt := insert w (policyOf K m l c).exempt }) :=
    .exempt (policyOf K m l c) w (by simp [policyOf, hbefore])
  rw [hc.policy, policy_of_hookConfig_eq hc hconfig]
  simpa only [policyOf, hlist, hset] using hstep

/-- One entry disappears under an unchanged config and over the same list. -/
lemma step_revoke {k w : Pubkey} {c : HookConfig} (hc : ConfigAt K l m k c) (hw : w ∈ K.keys)
    (hconfig : d.hookConfig l' m = d.hookConfig l m)
    (hlist : d.holds l' (.extraAccountMetas m) = d.holds l (.extraAccountMetas m))
    (hbefore : d.holds l (.whitelist m w) = true)
    (hafter : d.holds l' (.whitelist m w) = false)
    (hother : ∀ w' ∈ K.keys, w' ≠ w →
      d.holds l' (.whitelist m w') = d.holds l (.whitelist m w')) :
    Step (policy K m l) (.revoke c.authority w) (policy K m l') := by
  have hset : {w' | w' ∈ K.keys ∧ d.holds l' (.whitelist m w') = true} =
      {w' | w' ∈ K.keys ∧ d.holds l (.whitelist m w') = true} \ {w} := by
    ext w'
    by_cases hne : w' = w
    · subst hne
      simp [hafter]
    · simp only [Set.mem_ofPred_eq, Set.mem_sdiff, Set.mem_singleton_iff, hne,
        not_false_eq_true, and_true]
      exact and_congr_right fun hw' => by rw [hother w' hw' hne]
  have hstep : Step (some (policyOf K m l c)) (.revoke c.authority w)
      (some { policyOf K m l c with exempt := (policyOf K m l c).exempt \ {w} }) :=
    .revoke (policyOf K m l c) w ⟨hw, hbefore⟩
  rw [hc.policy, policy_of_hookConfig_eq hc hconfig]
  simpa only [policyOf, hlist, hset] using hstep

/-- The operation of a call on the mint it names. -/
lemma op_eq {c : Call} {m₀ : Pubkey} {op op₀ : Op Pubkey Rule} (hmint : c.mint = some m₀)
    (hop : c.op m = some op) (hop₀ : c.op m₀ = some op₀) : m₀ = m ∧ op₀ = op := by
  by_cases hm : c.mint = some m
  · obtain rfl : m₀ = m := Option.some.inj (hmint.symm.trans hm)
    exact ⟨rfl, Option.some.inj (hop₀.symm.trans hop)⟩
  · simp [Call.op, hm] at hop

/-- A call for the mint performs its operation. -/
theorem Effect.policy_step {c : Call} {op : Op Pubkey Rule} (hinv : Inv K l)
    (h : Effect K l c l') (ha : c.Admissible K) (hop : c.op m = some op) :
    Step (policy K m l) op (policy K m l') := by
  have holds := fun s (hs : K.Covers s) hnot => h.holds_eq ha hs hnot
  have hookConfig := fun m (hm : m ∈ K.keys) hnot => h.hookConfig_eq ha hm hnot
  cases h with
  | initializeConfig hm hfind hu _ hne =>
      obtain ⟨rfl, rfl⟩ := op_eq rfl hop (by simp [Call.op, Call.mint]; rfl)
      exact step_create hinv hm hfind hu hne fun s hs hne =>
        holds s hs (by simpa [Call.writes, Call.mint])
  | @updateConfig p k m₀ kl _ credential schema sasProgram c b metas hc _ hlist howner _ =>
      obtain ⟨rfl, rfl⟩ := op_eq rfl hop (by simp [Call.op, Call.mint]; rfl)
      have hkl : kl ≠ k := (hc.ne_list hlist).symm
      have hpublished : d.holds l (.extraAccountMetas m₀) = true :=
        (Deployment.holds_iff hlist).mpr howner
      refine step_config hc (hc.rewritten { c with
          credential := credential, schema := schema, sasProgram := sasProgram } rfl
          hc.authority_ne (Ledger.account_set_self (l.set kl
            { l.account kl with data := d.resolution.executeEntry metas }) k _)) ?_
        (fun w hw => holds _ (by simp [hc.covered, hw]) (by simp [Call.writes, Call.mint])) ?_
      · rw [hpublished, Deployment.holds_iff hlist, Ledger.account_set_of_ne _ _ hkl]
        simpa using howner
      · exact .setRule (policyOf K m₀ l c) ⟨credential, schema, sasProgram⟩ hpublished
  | @initializeExtraAccountMetaList p k m₀ kl _ c b n lamports metas hc _ hlist hu _ =>
      obtain ⟨rfl, rfl⟩ := op_eq rfl hop (by simp [Call.op, Call.mint]; rfl)
      exact step_publish hc (hookConfig m₀ hc.covered (by simp [Call.writes, Call.mint]))
        (holds_eq_false hlist hu) (holds_opened hlist)
        fun w hw => holds _ (by simp [hc.covered, hw]) (by simp [Call.writes, Call.mint])
  | @transferAuthority p k m₀ a _ c hc _ =>
      obtain ⟨rfl, rfl⟩ := op_eq rfl hop (by simp [Call.op, Call.mint]; rfl)
      refine step_config hc (hc.rewritten { c with pendingAuthority := a } rfl hc.authority_ne
        (Ledger.account_set_self ..))
        (holds _ (by simpa using hc.covered) (by simp [Call.writes, Call.mint]))
        (fun w hw => holds _ (by simp [hc.covered, hw]) (by simp [Call.writes, Call.mint])) ?_
      exact .nominate (policyOf K m₀ l c) (nominee a)
  | @acceptAuthority p k m₀ _ c hc _ hne =>
      obtain ⟨rfl, rfl⟩ := op_eq rfl hop (by simp [Call.op, Call.mint]; rfl)
      refine step_config hc (hc.rewritten { c with
          authority := c.pendingAuthority, pendingAuthority := Pubkey.default } rfl hne
          (Ledger.account_set_self ..))
        (holds _ (by simpa using hc.covered) (by simp [Call.writes, Call.mint]))
        (fun w hw => holds _ (by simp [hc.covered, hw]) (by simp [Call.writes, Call.mint])) ?_
      have hstep := Step.accept (policyOf K m₀ l c) c.pendingAuthority (nominee_of_ne hne)
      simpa [policyOf, HookConfig.rule] using hstep
  | @addToWhitelist p k m₀ ke w _ c b n lamports hc _ hw hentry hu =>
      obtain ⟨rfl, rfl⟩ := op_eq rfl hop (by simp [Call.op, Call.mint]; rfl)
      exact step_exempt hc hw (hookConfig m₀ hc.covered (by simp [Call.writes, Call.mint]))
        (holds _ (by simpa using hc.covered) (by simp [Call.writes, Call.mint]))
        (holds_eq_false hentry hu) (holds_opened hentry)
        fun w' hw' hne =>
          holds _ (by simp [hc.covered, hw']) (by simp [Call.writes, Call.mint, hne])
  | @removeFromWhitelist p k m₀ ke w _ c b hc _ hw hentry howner =>
      obtain ⟨rfl, rfl⟩ := op_eq rfl hop (by simp [Call.op, Call.mint]; rfl)
      exact step_revoke hc hw (hookConfig m₀ hc.covered (by simp [Call.writes, Call.mint]))
        (holds _ (by simpa using hc.covered) (by simp [Call.writes, Call.mint]))
        ((Deployment.holds_iff hentry).mpr howner)
        (holds_eq_false hentry (by simp [closeAccount, Account.Unallocated]))
        fun w' hw' hne =>
          holds _ (by simp [hc.covered, hw']) (by simp [Call.writes, Call.mint, hne])
  | transferHook => simp [Call.op] at hop

/-- A call without an operation on the mint leaves its policy alone. -/
theorem Effect.policy_eq {c : Call} (h : Effect K l c l') (ha : c.Admissible K)
    (hm : m ∈ K.keys) (hop : c.op m = none) : policy K m l' = policy K m l := by
  by_cases hmint : c.mint = some m
  · cases h with
    | transferHook => rfl
    | _ => simp [Call.op, hmint] at hop
  · exact h.policy_idle ha hm fun s hs heq =>
      hmint (heq ▸ c.mint_of_mem_writes hs)

/-! ## Runs -/

theorem policy_of_fresh (hm : m ∈ K.keys) (h : K.Fresh l) : policy K m l = none := by
  have hinv : Inv K l := Inv.of_fresh h
  cases hfind : d.find (.config m) with
  | none =>
      have hnone : d.hookConfig l m = none := by
        simp [Deployment.hookConfig, Deployment.stored, hfind]
      simp [policy, hnone]
  | some pda =>
      have hu := h pda.1 (KeysInPlay.derived_of_find (by simpa using hm) hfind)
      simp [policy, (hinv.hookConfig_eq_none hm hfind).mpr hu]

lemma policy_of_sameContent (hm : m ∈ K.keys) (h : ∀ k, K.Derived k → SameContent l l' k) :
    policy K m l' = policy K m l := by
  have hslot : ∀ s, K.Covers s → ∀ k b, d.find s = some (k, b) → SameContent l l' k :=
    fun s hs k b hfind => h k (KeysInPlay.derived_of_find hs hfind)
  exact policy_congr (Deployment.hookConfig_congr (hslot _ (by simpa using hm)))
    (Deployment.holds_congr (hslot _ (by simpa using hm)))
    fun w hw => Deployment.holds_congr (hslot _ (by simp [hm, hw]))

/-- The ledger seen from mint `m`, as a run of the mint's policy. -/
def policySimulation (K : KeysInPlay d) {m : Pubkey} (hm : m ∈ K.keys) :
    Simulation (hookSystem K) (policySystem Pubkey Rule) where
  view := policy K m
  label := Event.op m
  view_start _ h := policy_of_fresh hm h
  view_step := by
    rintro _ l e l' hr hstep op hop
    have hinv := inv_of_reaches hr
    cases hstep with
    | invoked ha h => exact (effect_of_process hinv ha h).policy_step hinv ha hop
    | _ => cases hop
  view_idle := by
    rintro _ l e l' hr hstep hop
    have hinv := inv_of_reaches hr
    cases hstep with
    | invoked ha h => exact (effect_of_process hinv ha h).policy_eq ha hm hop
    | rejected => rfl
    | donated k n => exact policy_of_sameContent hm fun _ _ => .credit ..
    | @written k h a =>
        refine policy_of_sameContent hm fun k' hk' => ?_
        have hne : k' ≠ k := by
          rintro rfl
          exact hinv.not_derived_of_foreignWrite h hk'
        exact .set_of_ne hne a
    | ticked t => exact policy_of_sameContent hm fun _ _ => ⟨rfl, rfl⟩

theorem policy_reaches (hm : m ∈ K.keys) {h : List (Ledger × Event)}
    (hr : Reaches (hookSystem K) h l) :
    Reaches (policySystem Pubkey Rule) ((policySimulation K hm).image h) (policy K m l) :=
  (policySimulation K hm).reaches hr

end AlienIdTransferHook
