import AlienIdTransferHook.Effect

/-!
# Frame and preservation

A call changes the records of its own mint only, at most the ones its instruction
names, and beyond them the balance of the key that pays or is refunded. With that
frame the invariant is kept by every step, so it holds in every reachable state.
-/
namespace AlienIdTransferHook
open Solana History

variable {d : Deployment}

/-- The records a call may change. -/
def Call.writes (c : Call) : List HookSeeds :=
  match c.instruction, c.mint with
  | .initializeConfig .., some m | .transferAuthority, some m | .acceptAuthority, some m =>
      [.config m]
  | .updateConfig .., some m => [.config m, .extraAccountMetas m]
  | .initializeExtraAccountMetaList, some m => [.extraAccountMetas m]
  | .addToWhitelist w, some m | .removeFromWhitelist w, some m => [.whitelist m w]
  | _, _ => []

theorem Call.mint_of_mem_writes {c : Call} {s : HookSeeds} (h : s ∈ c.writes) :
    c.mint = some s.mint := by
  unfold writes at h
  split at h <;> simp only [List.mem_cons, List.not_mem_nil, or_false] at h
  case h_4 => obtain rfl | rfl := h <;> assumption
  all_goals subst h; assumption

variable {K : KeysInPlay d} {l l' : Ledger} {c : Call}

theorem Call.Admissible.covers {s : HookSeeds} (ha : c.Admissible K) (h : s ∈ c.writes) :
    K.Covers s := by
  have hm := ha.mint s.mint (c.mint_of_mem_writes h)
  have hw : ∀ m w, s = .whitelist m w → w ∈ K.keys := by
    rintro m w rfl
    refine ha.wallet w ?_
    unfold Call.writes at h
    split at h <;> simp at h
    all_goals simp [Call.wallet, *]
  cases s with
  | config m => exact K.covers_config.mpr hm
  | extraAccountMetas m => exact K.covers_extraAccountMetas.mpr hm
  | whitelist m w => exact K.covers_whitelist.mpr ⟨hm, hw m w rfl⟩

lemma opened_cases (l : Ledger) {src dst k : Pubkey} {n : ℕ} {a : Account} (hk : k ≠ dst) :
    (l.opened src dst n a).account k = l.account k ∨
      k = src ∧ SameContent l (l.opened src dst n a) k := by
  have hset : (l.opened src dst n a).account k = (l.debit src n).account k := by
    simp [Ledger.opened, Ledger.account_set_of_ne _ _ hk]
  by_cases hs : k = src
  · refine .inr ⟨hs, ?_⟩
    rw [SameContent, hset]
    simp
  · exact .inl (hset.trans (Ledger.account_debit_of_ne _ _ hs))

/-- The runtime accepts a change of the payer and of the opened account. -/
lemma commit_opened {p : Privileges} {accounts : List Pubkey} {src dst : Pubkey} {n : ℕ}
    {a : Account} (hsrc : src ∈ p.writable) (hdst : dst ∈ p.writable) :
    commit p accounts l (l.opened src dst n a) = .ok (l.opened src dst n a) := by
  refine commit_eq_ok.mpr ⟨fun k _ => ?_, rfl⟩
  by_cases hk : k = dst
  · exact .inr (hk ▸ hdst)
  · refine (opened_cases l hk).imp_right ?_
    rintro ⟨rfl, -⟩
    exact hsrc

lemma closeAccount_cases (l : Ledger) {k dst k' : Pubkey} (hk : k' ≠ k) :
    (closeAccount l k dst).account k' = l.account k' ∨
      k' = dst ∧ SameContent l (closeAccount l k dst) k' := by
  have hset : (closeAccount l k dst).account k' =
      (l.credit dst (l.account k).lamports).account k' := by
    simp [closeAccount, Ledger.account_set_of_ne _ _ hk]
  by_cases hs : k' = dst
  · refine .inr ⟨hs, ?_⟩
    rw [SameContent, hset]
    simp
  · exact .inl (hset.trans (Ledger.account_credit_of_ne _ _ hs))

/-- Outside the records it writes, a call changes at most a signer's balance. -/
theorem Effect.account_cases (h : Effect K l c l') {k : Pubkey}
    (hk : ∀ s ∈ c.writes, ∀ b, d.find s ≠ some (k, b)) :
    l'.account k = l.account k ∨ k ∈ c.privileges.signers ∧ SameContent l l' k := by
  have hne : ∀ {s k' b}, s ∈ c.writes → d.find s = some (k', b) → k ≠ k' := by
    rintro s k' b hs hfind rfl
    exact hk s hs b hfind
  cases h with
  | initializeConfig _ hfind _ hsigned =>
      exact (opened_cases l (hne (.head _) hfind)).imp_right
        fun ⟨heq, hsame⟩ => ⟨heq ▸ hsigned, hsame⟩
  | updateConfig hc _ hlist =>
      exact .inl (by rw [Ledger.account_set_of_ne _ _ (hne (.head _) hc.find),
        Ledger.account_set_of_ne _ _ (hne (.tail _ (.head _)) hlist)])
  | initializeExtraAccountMetaList _ hsigned hlist =>
      exact (opened_cases l (hne (.head _) hlist)).imp_right
        fun ⟨heq, hsame⟩ => ⟨heq ▸ hsigned, hsame⟩
  | transferAuthority hc _ =>
      exact .inl (Ledger.account_set_of_ne _ _ (hne (.head _) hc.find))
  | acceptAuthority hc _ _ =>
      exact .inl (Ledger.account_set_of_ne _ _ (hne (.head _) hc.find))
  | addToWhitelist _ hsigned _ hentry =>
      exact (opened_cases l (hne (.head _) hentry)).imp_right
        fun ⟨heq, hsame⟩ => ⟨heq ▸ hsigned, hsame⟩
  | removeFromWhitelist _ hsigned _ hentry =>
      exact (closeAccount_cases l (hne (.head _) hentry)).imp_right
        fun ⟨heq, hsame⟩ => ⟨heq ▸ hsigned, hsame⟩
  | transferHook => exact .inl rfl

theorem Effect.sameContent (h : Effect K l c l') {k : Pubkey}
    (hk : ∀ s ∈ c.writes, ∀ b, d.find s ≠ some (k, b)) : SameContent l l' k := by
  rcases h.account_cases hk with heq | ⟨-, hsame⟩
  · exact ⟨by rw [heq], by rw [heq]⟩
  · exact hsame

/-- No other record of the program changes, not even its balance. -/
theorem Effect.account_eq (h : Effect K l c l') (ha : c.Admissible K) {s : HookSeeds}
    {k : Pubkey} {b : UInt8} (hs : K.Covers s) (hfind : d.find s = some (k, b))
    (hnot : s ∉ c.writes) : l'.account k = l.account k := by
  refine (h.account_cases ?_).resolve_right
    fun hsigned => ha.unsigned hs k b hfind hsigned.1
  intro s' hs' b' hfind'
  refine K.find_ne (ha.covers hs') hs ?_ hfind' hfind rfl
  rintro rfl
  exact hnot hs'

theorem Effect.hookConfig_eq (h : Effect K l c l') (ha : c.Admissible K) {m : Pubkey}
    (hm : m ∈ K.keys) (hnot : .config m ∉ c.writes) :
    d.hookConfig l' m = d.hookConfig l m := by
  refine Deployment.hookConfig_congr fun k b hfind => ?_
  have heq := h.account_eq ha (by simpa using hm) hfind hnot
  exact ⟨by rw [heq], by rw [heq]⟩

theorem Effect.holds_eq (h : Effect K l c l') (ha : c.Admissible K) {s : HookSeeds}
    (hs : K.Covers s) (hnot : s ∉ c.writes) : d.holds l' s = d.holds l s := by
  refine Deployment.holds_congr fun k b hfind => ?_
  have heq := h.account_eq ha hs hfind hnot
  exact ⟨by rw [heq], by rw [heq]⟩

/-- A call that writes a list leaves one. -/
theorem Effect.list_owner (h : Effect K l c l') {m k : Pubkey} {b : UInt8}
    (hfind : d.find (.extraAccountMetas m) = some (k, b))
    (hmem : .extraAccountMetas m ∈ c.writes) : (l'.account k).owner = d.programId := by
  have hmint := c.mint_of_mem_writes hmem
  cases h with
  | updateConfig hc _ hlist howner =>
      obtain rfl := Option.some.inj hmint
      obtain rfl := Deployment.find_unique hlist hfind
      rw [Ledger.account_set_of_ne _ _ (hc.ne_list hlist).symm, Ledger.account_set_self]
      exact howner
  | initializeExtraAccountMetaList _ _ hlist =>
      obtain rfl := Option.some.inj hmint
      obtain rfl := Deployment.find_unique hlist hfind
      simp [Ledger.opened]
  | _ => simp [Call.writes, Call.mint] at hmem

/-! ## Preservation -/

/-- A record that a step leaves in order, with the rule of its mint. -/
lemma Effect.sound_of_untouched (hinv : Inv K l) (h : Effect K l c l') (ha : c.Admissible K)
    {k : Pubkey} (hk : ∀ s ∈ c.writes, ∀ b, d.find s ≠ some (k, b))
    (hkept : ∀ m, .config m ∈ c.writes → ∃ c', d.hookConfig l' m = some c')
    (hrule : ∀ m, .config m ∈ c.writes → .extraAccountMetas m ∉ c.writes →
      RuleKept d l l' m) : Sound K l' k := by
  refine (hinv k).congr (h.sameContent hk) (fun m hm => ?_) fun m b hs hfind => ?_
  · by_cases hw : .config m ∈ c.writes
    · exact fun _ _ => hkept m hw
    · exact (RuleKept.of_eq (h.hookConfig_eq ha hm hw)).configKept
  · by_cases hw : .config m ∈ c.writes
    · exact hrule m hw fun hlist => hk _ hlist b hfind
    · exact .of_eq (h.hookConfig_eq ha (by simpa using hs) hw)

lemma ConfigAt.sound {m k : Pubkey} {c : HookConfig} (h : ConfigAt K l m k c) : Sound K l k :=
  .slot (.config m) c.bump (by simpa using h.covered) h.find h.owner
    ⟨c, h.data, rfl, h.authority_ne⟩

lemma configAt_opened (l : Ledger) (src : Pubkey) (n lamports : ℕ) {m k : Pubkey}
    {c : HookConfig} (hm : m ∈ K.keys)
    (hfind : d.find (.config m) = some (k, c.bump)) (hne : c.authority ≠ Pubkey.default) :
    ConfigAt K (l.opened src k n ⟨lamports, d.programId, image c⟩) m k c :=
  ⟨hm, hfind, by simp [Ledger.opened], by simp [Ledger.opened], hne⟩

/-- The config after a step that rewrites it. -/
lemma ConfigAt.rewritten {m k : Pubkey} {c : HookConfig} (h : ConfigAt K l m k c)
    (c' : HookConfig) (hbump : c'.bump = c.bump) (hne : c'.authority ≠ Pubkey.default)
    (hk : l'.account k = { l.account k with data := image c' }) : ConfigAt K l' m k c' :=
  ⟨h.covered, by rw [hbump]; exact h.find, by rw [hk]; exact h.owner, by rw [hk], hne⟩

lemma RuleKept.of_configAt {m k : Pubkey} {c c' : HookConfig} (h : ConfigAt K l m k c)
    (h' : ConfigAt K l' m k c') (hrule : c'.rule = c.rule) : RuleKept d l l' m := by
  intro c₀ hc₀
  obtain rfl := Option.some.inj (h.hookConfig.symm.trans hc₀)
  exact ⟨c', h'.hookConfig, hrule⟩

/-- A step keeps the invariant when the records it writes are in order and it keeps
the rule of a mint whose list it leaves alone. -/
lemma Inv.of_effect (hinv : Inv K l) (h : Effect K l c l') (ha : c.Admissible K)
    (hwritten : ∀ s ∈ c.writes, ∀ k b, d.find s = some (k, b) → Sound K l' k)
    (hkept : ∀ m, .config m ∈ c.writes → ∃ c', d.hookConfig l' m = some c')
    (hrule : ∀ m, .config m ∈ c.writes → .extraAccountMetas m ∉ c.writes →
      RuleKept d l l' m) : Inv K l' := by
  intro k
  by_cases hk : ∃ s ∈ c.writes, ∃ b, d.find s = some (k, b)
  · obtain ⟨s, hs, b, hfind⟩ := hk
    exact hwritten s hs k b hfind
  · push Not at hk
    exact h.sound_of_untouched hinv ha hk hkept hrule

lemma sound_at {s : HookSeeds} {k : Pubkey} {b : UInt8} (hfind : d.find s = some (k, b))
    (h : Sound K l' k) : ∀ k b, d.find s = some (k, b) → Sound K l' k := by
  intro k' b' hk
  obtain ⟨rfl, rfl⟩ : k = k' ∧ b = b' := by simpa [hfind] using hk
  exact h

/-- The config of a call that rewrites it stays in place. -/
lemma Inv.of_config_rewritten {m k : Pubkey} {c₀ c₁ : HookConfig} (hinv : Inv K l)
    (h : Effect K l c l') (ha : c.Admissible K) (hwrites : c.writes = [.config m])
    (hc : ConfigAt K l m k c₀) (hc' : ConfigAt K l' m k c₁) (hrule : c₁.rule = c₀.rule) :
    Inv K l' := by
  have hm : ∀ m', .config m' ∈ c.writes → m' = m := by simp [hwrites]
  refine hinv.of_effect h ha ?_ (fun m' hm' => hm m' hm' ▸ ⟨c₁, hc'.hookConfig⟩)
    fun m' hm' _ => hm m' hm' ▸ .of_configAt hc hc' hrule
  rw [hwrites, List.forall_mem_singleton]
  exact sound_at hc.find hc'.sound

/-- A successful call keeps the invariant. -/
theorem Effect.inv (hinv : Inv K l) (h : Effect K l c l') (ha : c.Admissible K) :
    Inv K l' := by
  have h' := h
  cases h with
  | @initializeConfig p a k m _ credential schema sasProgram b n lamports _ hm hfind hu _ hne =>
      have hc := configAt_opened l a n lamports
        (c := ⟨a, credential, schema, sasProgram, b, Pubkey.default⟩) hm hfind hne
      refine hinv.of_effect h' ha (List.forall_mem_singleton.mpr (sound_at hfind hc.sound)) ?_ ?_
      · intro m' hm'
        obtain rfl : m' = m := by simpa [Call.writes, Call.mint] using hm'
        exact ⟨_, hc.hookConfig⟩
      · rintro m' hm' - c hc'
        obtain rfl : m' = m := by simpa [Call.writes, Call.mint] using hm'
        rw [(hinv.hookConfig_eq_none hm hfind).mpr hu] at hc'
        cases hc'
  | @updateConfig p k m kl _ credential schema sasProgram c b metas hc _ hlist howner hmetas =>
      have hkl : k ≠ kl := hc.ne_list hlist
      have hc' := hc.rewritten
        { c with credential := credential, schema := schema, sasProgram := sasProgram }
        rfl hc.authority_ne (Ledger.account_set_self (l.set kl
          { l.account kl with data := d.resolution.executeEntry metas }) k _)
      refine hinv.of_effect h' ha ?_ ?_ ?_
      · refine List.forall_mem_cons.mpr ⟨sound_at hc.find hc'.sound, ?_⟩
        refine List.forall_mem_singleton.mpr (sound_at hlist ?_)
        refine .slot _ b (by simpa using hc.covered) hlist ?_ ⟨_, hc'.hookConfig, metas, hmetas, ?_⟩
        · simpa [Ledger.account_set_of_ne _ _ hkl.symm] using howner
        · simp [Ledger.account_set_of_ne _ _ hkl.symm]
      · intro m' hm'
        obtain rfl : m' = m := by simpa [Call.writes, Call.mint] using hm'
        exact ⟨_, hc'.hookConfig⟩
      · intro m' hm' hlist'
        obtain rfl : m' = m := by simpa [Call.writes, Call.mint] using hm'
        simp [Call.writes, Call.mint] at hlist'
  | @initializeExtraAccountMetaList p k m kl _ c b _ _ metas hc _ hlist hu hmetas =>
      refine hinv.of_effect h' ha (List.forall_mem_singleton.mpr (sound_at hlist ?_))
        (by simp [Call.writes, Call.mint]) (by simp [Call.writes, Call.mint])
      · refine .slot _ b (by simpa using hc.covered) hlist (by simp [Ledger.opened]) ⟨c, ?_,
          metas, hmetas, by simp [Ledger.opened]⟩
        exact (h'.hookConfig_eq ha hc.covered (by simp [Call.writes, Call.mint])).trans
          hc.hookConfig
  | @transferAuthority p k m a _ c hc _ =>
      exact hinv.of_config_rewritten h' ha rfl hc
        (hc.rewritten { c with pendingAuthority := a } rfl hc.authority_ne
          (Ledger.account_set_self ..)) rfl
  | @acceptAuthority p k m _ c hc _ hne =>
      exact hinv.of_config_rewritten h' ha rfl hc
        (hc.rewritten { c with
          authority := c.pendingAuthority, pendingAuthority := Pubkey.default } rfl hne
          (Ledger.account_set_self ..)) rfl
  | @addToWhitelist p k m ke w _ c b _ _ hc _ hw hentry hu =>
      refine hinv.of_effect h' ha (List.forall_mem_singleton.mpr (sound_at hentry ?_))
        (by simp [Call.writes, Call.mint]) (by simp [Call.writes, Call.mint])
      refine .slot _ _ (by simp [hc.covered, hw]) hentry (by simp [Ledger.opened])
        ⟨⟨c, ?_⟩, by simp [Ledger.opened]⟩
      exact (h'.hookConfig_eq ha hc.covered (by simp [Call.writes, Call.mint])).trans
        hc.hookConfig
  | removeFromWhitelist hc _ hw hentry howner =>
      refine hinv.of_effect h' ha (List.forall_mem_singleton.mpr (sound_at hentry ?_))
        (by simp [Call.writes, Call.mint]) (by simp [Call.writes, Call.mint])
      exact .vacant (by simp [closeAccount, Account.Unallocated])
  | transferHook => exact hinv

/-- The invariant holds in every reachable state. -/
theorem inv_of_reaches {h : List (Ledger × Event)} (hr : Reaches (hookSystem K) h l) :
    Inv K l := by
  refine hr.invariant (fun _ => Inv.of_fresh) ?_
  rintro l e l' hinv hstep
  cases hstep with
  | invoked ha hok => exact (effect_of_process hinv ha hok).inv hinv ha
  | rejected => exact hinv
  | donated k n => exact hinv.donated k n
  | written h a => exact hinv.foreignWrite h a
  | ticked t => exact hinv.of_sameContent fun _ => ⟨rfl, rfl⟩

end AlienIdTransferHook
