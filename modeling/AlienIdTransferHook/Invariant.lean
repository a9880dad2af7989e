import AlienIdTransferHook.InstructionSpecs

/-!
# The invariant of the program's accounts

Every account the program owns is at the canonical address of one of its three
kinds and holds what that kind stores, and no one else is at its addresses. So a
program-owned account that passes a seeds check is the account it claims to be,
although most instructions check the bump that is stored in the account itself.
-/
namespace AlienIdTransferHook
open Solana

variable {d : Deployment}

/-! ## Reading by address -/

@[simp] theorem Outcome.toOption_eq_some {α : Type} {x : Outcome α} {a : α} :
    x.toOption = some a ↔ x = .ok a := by
  cases x <;> simp [Except.toOption]

namespace Deployment

theorem stored_eq_some {α : Type} [AnchorAccount α] {l : Ledger} {s : HookSeeds} {a : α} :
    d.stored α l s = some a ↔
      ∃ k b, d.find s = some (k, b) ∧ loadAccount α d.toHost l k = .ok a := by
  simp [stored, Option.bind_eq_some_iff]

theorem hookConfig_eq_some {l : Ledger} {m : Pubkey} {c : HookConfig} :
    d.hookConfig l m = some c ↔
      ∃ k b, d.find (.config m) = some (k, b) ∧ loadAccount HookConfig d.toHost l k = .ok c :=
  stored_eq_some

theorem holds_iff {l : Ledger} {s : HookSeeds} {k : Pubkey} {b : UInt8}
    (h : d.find s = some (k, b)) :
    d.holds l s = true ↔ (l.account k).owner = d.programId := by simp [holds, h]

/-- The bytes of an account list for the config: one `Execute` entry, its six metas. -/
def ListImage (d : Deployment) (c : HookConfig) (data : List UInt8) : Prop :=
  ∃ metas, InitializeExtraAccountMetaList.accountMetas d.resolution c = .ok metas ∧
    data = d.resolution.executeEntry metas

end Deployment

/-- Both handlers build their metas in the same way. -/
theorem UpdateConfig.accountMetas_eq (R : AccountResolution) (c : HookConfig) :
    UpdateConfig.accountMetas R c.credential c.schema c.sasProgram =
      InitializeExtraAccountMetaList.accountMetas R c := rfl

theorem InitializeExtraAccountMetaList.accountMetas_congr (R : AccountResolution)
    {c c' : HookConfig} (h : c'.rule = c.rule) : accountMetas R c' = accountMetas R c := by
  obtain ⟨hcredential, hschema, hsas⟩ : c'.credential = c.credential ∧ c'.schema = c.schema ∧
      c'.sasProgram = c.sasProgram := by simpa [HookConfig.rule] using h
  simp [accountMetas, hcredential, hschema, hsas]

/-- The three address configurations always fit, so the six metas are always built. -/
theorem InitializeExtraAccountMetaList.accountMetas_eq (R : AccountResolution)
    (c : HookConfig) : ∃ c₅ c₉ c₁₀, R.packSeeds [.literal configSeed, .accountKey 1] = .ok c₅ ∧
      R.packSeeds [.literal ATTESTATION_SEED, .accountKey 6, .accountKey 7, .accountKey 3] =
        .ok c₉ ∧
      R.packSeeds [.literal whitelistSeed, .accountKey 1, .accountKey 3] = .ok c₁₀ ∧
      accountMetas R c = .ok [⟨1, c₅, false, false⟩, ⟨0, c.credential, false, false⟩,
        ⟨0, c.schema, false, false⟩, ⟨0, c.sasProgram, false, false⟩,
        ⟨136, c₉, false, false⟩, ⟨1, c₁₀, false, false⟩] := by
  obtain ⟨c₅, h₅⟩ := R.packSeeds_ok [.literal configSeed, .accountKey 1] (by decide)
  obtain ⟨c₉, h₉⟩ := R.packSeeds_ok
    [.literal ATTESTATION_SEED, .accountKey 6, .accountKey 7, .accountKey 3] (by decide)
  obtain ⟨c₁₀, h₁₀⟩ := R.packSeeds_ok
    [.literal whitelistSeed, .accountKey 1, .accountKey 3] (by decide)
  refine ⟨c₅, c₉, c₁₀, h₅, h₉, h₁₀, ?_⟩
  unfold accountMetas AccountResolution.newWithSeeds AccountResolution.newExternalPdaWithSeeds
    AccountResolution.newWithPubkey
  rw [h₅, h₉, h₁₀]
  rfl

theorem InitializeExtraAccountMetaList.accountMetas_ok (R : AccountResolution)
    (c : HookConfig) : ∃ metas, accountMetas R c = .ok metas ∧ metas.length = 6 := by
  obtain ⟨_, _, _, -, -, -, hmetas⟩ := accountMetas_eq R c
  exact ⟨_, hmetas, rfl⟩

theorem InitializeExtraAccountMetaList.length_accountMetas {R : AccountResolution}
    {c : HookConfig} {metas : List ExtraAccountMeta} (h : accountMetas R c = .ok metas) :
    metas.length = 6 := by
  obtain ⟨metas', hok, hlen⟩ := accountMetas_ok R c
  obtain rfl : metas' = metas := Except.ok.inj (hok.symm.trans h)
  exact hlen

theorem UpdateConfig.length_accountMetas {R : AccountResolution}
    {credential schema sasProgram : Pubkey} {metas : List ExtraAccountMeta}
    (h : accountMetas R credential schema sasProgram = .ok metas) : metas.length = 6 :=
  InitializeExtraAccountMetaList.length_accountMetas
    (c := ⟨Pubkey.default, credential, schema, sasProgram, 0, Pubkey.default⟩) h

theorem Deployment.ListImage.congr {c c' : HookConfig} {data : List UInt8}
    (h : c'.rule = c.rule) (hl : d.ListImage c data) : d.ListImage c' data := by
  obtain ⟨metas, hmetas, rfl⟩ := hl
  exact ⟨metas, by rw [InitializeExtraAccountMetaList.accountMetas_congr _ h, hmetas], rfl⟩

/-! ## The invariant -/

/-- What the account with these seeds holds; its bump is the canonical one. -/
def Content (d : Deployment) (l : Ledger) (bump : UInt8) : HookSeeds → List UInt8 → Prop
  | .config _, data =>
      ∃ c : HookConfig, data = image c ∧ c.bump = bump ∧ c.authority ≠ Pubkey.default
  | .extraAccountMetas m, data => ∃ c, d.hookConfig l m = some c ∧ d.ListImage c data
  | .whitelist m w, data =>
      (∃ c, d.hookConfig l m = some c) ∧ data = image (WhitelistEntry.mk w bump)

/-- `k` is no address of the program, or nothing is there, or one of its records. -/
inductive Sound (K : KeysInPlay d) (l : Ledger) (k : Pubkey) : Prop
  | underived (hkey : ¬ K.Derived k)
  | vacant (hu : (l.account k).Unallocated)
  | slot (s : HookSeeds) (b : UInt8) (hs : K.Covers s) (hfind : d.find s = some (k, b))
      (howner : (l.account k).owner = d.programId)
      (hcontent : Content d l b s (l.account k).data)

def Inv (K : KeysInPlay d) (l : Ledger) : Prop := ∀ k, Sound K l k

/-- `HookConfig(m)` is `c`, stored at `k`. -/
structure ConfigAt (K : KeysInPlay d) (l : Ledger) (m k : Pubkey) (c : HookConfig) :
    Prop where
  covered : m ∈ K.keys
  find : d.find (.config m) = some (k, c.bump)
  owner : (l.account k).owner = d.programId
  data : (l.account k).data = image c
  authority_ne : c.authority ≠ Pubkey.default

variable {K : KeysInPlay d} {l l' : Ledger} {m k : Pubkey} {c : HookConfig}

theorem ConfigAt.load (h : ConfigAt K l m k c) : loadAccount HookConfig d.toHost l k = .ok c :=
  loadAccount_eq_ok.mpr ⟨h.owner, by rw [h.data, tryDeserialize_image]⟩

theorem ConfigAt.hookConfig (h : ConfigAt K l m k c) : d.hookConfig l m = some c :=
  Deployment.hookConfig_eq_some.mpr ⟨k, c.bump, h.find, h.load⟩

theorem ConfigAt.length_data (h : ConfigAt K l m k c) :
    (l.account k).data.length = HookConfig.LEN := by rw [h.data, HookConfig.length_image]

/-- The config and the account list of a mint have different addresses. -/
theorem ConfigAt.ne_list {kl : Pubkey} {b : UInt8} (h : ConfigAt K l m k c)
    (hlist : d.find (.extraAccountMetas m) = some (kl, b)) : k ≠ kl :=
  K.find_ne (by simpa using h.covered) (by simpa using h.covered) (by simp) h.find hlist

namespace Inv
variable {s : HookSeeds} {b : UInt8}

/-- A program-owned account with the address for some bump is the canonical one. -/
theorem slot (hinv : Inv K l) (hs : K.Covers s)
    (hcreate : d.createProgramAddress (s.toList ++ [[b]]) d.programId = some k)
    (howner : (l.account k).owner = d.programId) :
    d.find s = some (k, b) ∧ Content d l b s (l.account k).data := by
  cases hinv k with
  | underived hkey => exact absurd (.record hs hcreate) hkey
  | vacant hu => exact absurd (howner.symm.trans hu.1) d.programId_ne
  | slot s' b' hs' hfind _ hcontent =>
      obtain ⟨rfl, rfl⟩ := K.create_injective hs hs' hcreate (Deployment.create_of_find hfind)
      exact ⟨hfind, hcontent⟩

/-- At a canonical address there is nothing, or the program's record. -/
theorem canonical (hinv : Inv K l) (hs : K.Covers s) (hfind : d.find s = some (k, b)) :
    (l.account k).Unallocated ∨
      (l.account k).owner = d.programId ∧ Content d l b s (l.account k).data := by
  cases hinv k with
  | underived hkey => exact absurd (KeysInPlay.derived_of_find hs hfind) hkey
  | vacant hu => exact .inl hu
  | slot _ _ _ _ howner _ =>
      exact .inr ⟨howner, (hinv.slot hs (Deployment.create_of_find hfind) howner).2⟩

theorem unallocated_iff (hinv : Inv K l) (hs : K.Covers s) (hfind : d.find s = some (k, b)) :
    (l.account k).Unallocated ↔ (l.account k).owner ≠ d.programId := by
  constructor
  · intro hu howner
    exact d.programId_ne (howner.symm.trans hu.1)
  · intro howner
    exact (hinv.canonical hs hfind).resolve_right fun h => howner h.1

/-- A config that loads and passes its own seeds check is the mint's config. -/
theorem configAt (hinv : Inv K l) (hm : m ∈ K.keys)
    (hload : loadAccount HookConfig d.toHost l k = .ok c)
    (hcreate : d.createProgramAddress ((HookSeeds.config m).toList ++ [[c.bump]])
      d.programId = some k) : ConfigAt K l m k c := by
  obtain ⟨howner, hdata⟩ := loadAccount_eq_ok.mp hload
  obtain ⟨hfind, c', hdata', -, hne⟩ :=
    hinv.slot (by simpa using hm) hcreate howner
  rw [hdata', tryDeserialize_image] at hdata
  obtain rfl := Except.ok.inj hdata
  exact ⟨hm, hfind, howner, hdata', hne⟩

theorem exists_configAt (hinv : Inv K l) (hm : m ∈ K.keys) (h : d.hookConfig l m = some c) :
    ∃ k, ConfigAt K l m k c := by
  obtain ⟨k, b, hfind, hload⟩ := Deployment.hookConfig_eq_some.mp h
  obtain ⟨howner, hdata⟩ := loadAccount_eq_ok.mp hload
  obtain ⟨-, c', hdata', rfl, hne⟩ :=
    hinv.slot (by simpa using hm) (Deployment.create_of_find hfind) howner
  rw [hdata', tryDeserialize_image] at hdata
  obtain rfl := Except.ok.inj hdata
  exact ⟨k, hm, hfind, howner, hdata', hne⟩

theorem configAt_of_find (hinv : Inv K l) (hm : m ∈ K.keys) (h : d.hookConfig l m = some c)
    (hfind : d.find (.config m) = some (k, b)) : ConfigAt K l m k c := by
  obtain ⟨k', hc⟩ := hinv.exists_configAt hm h
  obtain ⟨rfl, -⟩ : k = k' ∧ b = c.bump := by simpa [hfind] using hc.find
  exact hc

theorem hookConfig_eq_none (hinv : Inv K l) (hm : m ∈ K.keys)
    (hfind : d.find (.config m) = some (k, b)) :
    d.hookConfig l m = none ↔ (l.account k).Unallocated := by
  have hs : K.Covers (.config m) := by simpa using hm
  constructor
  · intro hnone
    refine (hinv.canonical hs hfind).resolve_right ?_
    rintro ⟨howner, c, hdata, -, -⟩
    have hload : loadAccount HookConfig d.toHost l k = .ok c :=
      loadAccount_eq_ok.mpr ⟨howner, by rw [hdata, tryDeserialize_image]⟩
    rw [Deployment.hookConfig_eq_some.mpr ⟨k, b, hfind, hload⟩] at hnone
    cases hnone
  · intro hu
    rw [Option.eq_none_iff_forall_ne_some]
    intro c hc
    obtain ⟨k', b', hfind', hload⟩ := Deployment.hookConfig_eq_some.mp hc
    obtain ⟨rfl, rfl⟩ : k' = k ∧ b' = b := by simpa [hfind] using hfind'.symm
    exact (hinv.unallocated_iff hs hfind).mp hu (loadAccount_eq_ok.mp hload).1

/-- A whitelist entry that loads and passes its own seeds check is the wallet's entry. -/
theorem entryAt {w : Pubkey} {e : WhitelistEntry} (hinv : Inv K l) (hm : m ∈ K.keys)
    (hw : w ∈ K.keys) (hload : loadAccount WhitelistEntry d.toHost l k = .ok e)
    (hcreate : d.createProgramAddress ((HookSeeds.whitelist m w).toList ++ [[e.bump]])
      d.programId = some k) : d.find (.whitelist m w) = some (k, e.bump) :=
  (hinv.slot (by simp [hm, hw]) hcreate (loadAccount_eq_ok.mp hload).1).1

end Inv

/-! ## Establishing it -/

theorem Inv.of_fresh (h : K.Fresh l) : Inv K l := by
  intro k
  by_cases hk : K.Derived k
  · exact .vacant (h k hk)
  · exact .underived hk

/-- Owner and data are as they were; lamports may differ. -/
def SameContent (l l' : Ledger) (k : Pubkey) : Prop :=
  (l'.account k).owner = (l.account k).owner ∧ (l'.account k).data = (l.account k).data

theorem SameContent.credit (k₀ : Pubkey) (n : ℕ) : SameContent l (l.credit k₀ n) k :=
  ⟨Ledger.owner_credit .., Ledger.data_credit ..⟩

theorem SameContent.set_of_ne {k₀ : Pubkey} (h : k ≠ k₀) (a : Account) :
    SameContent l (l.set k₀ a) k := by
  rw [SameContent, Ledger.account_set_of_ne _ _ h]
  exact ⟨rfl, rfl⟩

theorem SameContent.trans {l₁ l₂ : Ledger} (h : SameContent l l₁ k)
    (h' : SameContent l₁ l₂ k) : SameContent l l₂ k := ⟨h'.1.trans h.1, h'.2.trans h.2⟩

theorem SameContent.loadAccount_eq_ok {α : Type} [AnchorAccount α] {H : Host} {a : α}
    (h : SameContent l l' k) : loadAccount α H l' k = .ok a ↔ loadAccount α H l k = .ok a := by
  rw [Solana.loadAccount_eq_ok, Solana.loadAccount_eq_ok, h.1, h.2]

theorem Deployment.stored_congr {α : Type} [AnchorAccount α] {s : HookSeeds}
    (h : ∀ k b, d.find s = some (k, b) → SameContent l l' k) :
    d.stored α l' s = d.stored α l s := by
  refine Option.ext fun a => ?_
  rw [stored_eq_some, stored_eq_some]
  constructor
  · rintro ⟨k, b, hfind, hload⟩
    exact ⟨k, b, hfind, (h k b hfind).loadAccount_eq_ok.mp hload⟩
  · rintro ⟨k, b, hfind, hload⟩
    exact ⟨k, b, hfind, (h k b hfind).loadAccount_eq_ok.mpr hload⟩

theorem Deployment.hookConfig_congr
    (h : ∀ k b, d.find (.config m) = some (k, b) → SameContent l l' k) :
    d.hookConfig l' m = d.hookConfig l m := stored_congr h

theorem Deployment.holds_congr {s : HookSeeds}
    (h : ∀ k b, d.find s = some (k, b) → SameContent l l' k) :
    d.holds l' s = d.holds l s := by
  cases hs : d.find s with
  | none => simp [holds, hs]
  | some pda => simp [holds, hs, (h pda.1 pda.2 hs).1]

/-- The config of `m`, if it existed, still does. -/
def ConfigKept (d : Deployment) (l l' : Ledger) (m : Pubkey) : Prop :=
  ∀ c, d.hookConfig l m = some c → ∃ c', d.hookConfig l' m = some c'

/-- The rule of `m`, once set, is the same afterwards. -/
def RuleKept (d : Deployment) (l l' : Ledger) (m : Pubkey) : Prop :=
  ∀ c, d.hookConfig l m = some c → ∃ c', d.hookConfig l' m = some c' ∧ c'.rule = c.rule

theorem RuleKept.of_eq (h : d.hookConfig l' m = d.hookConfig l m) : RuleKept d l l' m :=
  fun c hc => ⟨c, h.trans hc, rfl⟩

theorem RuleKept.configKept (h : RuleKept d l l' m) : ConfigKept d l l' m := by
  intro c hc
  obtain ⟨c', hc', -⟩ := h c hc
  exact ⟨c', hc'⟩

theorem Sound.congr (h : SameContent l l' k) (hkept : ∀ m ∈ K.keys, ConfigKept d l l' m)
    (hrule : ∀ m b, K.Covers (.extraAccountMetas m) →
      d.find (.extraAccountMetas m) = some (k, b) → RuleKept d l l' m)
    (hsound : Sound K l k) : Sound K l' k := by
  obtain ⟨howner, hdata⟩ := h
  cases hsound with
  | underived hkey => exact .underived hkey
  | vacant hu => exact .vacant ⟨howner.trans hu.1, hdata.trans hu.2⟩
  | slot s b hs hfind ho hcontent =>
      refine .slot s b hs hfind (howner.trans ho) ?_
      rw [hdata]
      cases s with
      | config m => exact hcontent
      | whitelist m w =>
          obtain ⟨⟨c, hc⟩, himage⟩ := hcontent
          exact ⟨hkept m (K.covers_whitelist.mp hs).1 c hc, himage⟩
      | extraAccountMetas m =>
          obtain ⟨c, hc, himage⟩ := hcontent
          obtain ⟨c', hc', hr⟩ := hrule m b hs hfind c hc
          exact ⟨c', hc', himage.congr hr⟩

/-- A step that rewrites one account soundly, and no rule, keeps the invariant. -/
theorem Inv.rewrite (hinv : Inv K l) (hother : ∀ k', k' ≠ k → SameContent l l' k')
    (hat : Sound K l' k) (hrule : ∀ m ∈ K.keys, RuleKept d l l' m) : Inv K l' := by
  intro k'
  by_cases hk : k' = k
  · exact hk ▸ hat
  · exact (hinv k').congr (hother k' hk) (fun m hm => (hrule m hm).configKept)
      fun m _ hm _ => hrule m (by simpa using hm)

/-- A step that changes no owner and no data keeps the invariant. -/
theorem Inv.of_sameContent (hinv : Inv K l) (h : ∀ k, SameContent l l' k) : Inv K l' := by
  have hrule : ∀ m, RuleKept d l l' m :=
    fun m => .of_eq (Deployment.hookConfig_congr fun k _ _ => h k)
  exact fun k => (hinv k).congr (h k) (fun m _ => (hrule m).configKept) fun m _ _ _ => hrule m

theorem Inv.donated (hinv : Inv K l) (k : Pubkey) (n : ℕ) : Inv K (l.credit k n) :=
  hinv.of_sameContent fun _ => .credit ..

/-- Another program can reach none of the records. -/
theorem Inv.not_derived_of_foreignWrite (hinv : Inv K l) (h : K.ForeignWrite l k) :
    ¬ K.Derived k := by
  intro hk
  cases hinv k with
  | underived hkey => exact hkey hk
  | vacant hu => exact h.signed hu.1 hk
  | slot _ _ _ _ howner _ => exact h.not_owned howner

theorem Inv.foreignWrite (hinv : Inv K l) (h : K.ForeignWrite l k) (a : Account) :
    Inv K (l.set k a) := by
  have hderived := hinv.not_derived_of_foreignWrite h
  have hsame : ∀ k', k' ≠ k → SameContent l (l.set k a) k' := fun k' hk => .set_of_ne hk a
  refine hinv.rewrite hsame (.underived hderived) fun m hm => .of_eq ?_
  refine Deployment.hookConfig_congr fun k' b hfind => hsame k' ?_
  rintro rfl
  exact hderived (KeysInPlay.derived_of_find (by simpa using hm) hfind)

end AlienIdTransferHook
