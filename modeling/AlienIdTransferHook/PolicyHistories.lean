import AlienIdTransferHook.PolicyCommands

/-!
# The histories of a policy

The ledger simulates the policy of each mint. Here is the converse: whatever operators
may do to the policy from here on, their commands do to the ledger, with nobody's help
but for the lamports they are sent.
-/
namespace AlienIdTransferHook
open Solana History TransferPolicy AdminCli

variable {d : Deployment} {K : KeysInPlay d} {l₀ l l' : Ledger} {m : Pubkey}
  {op : Op Pubkey Rule}

/-! ## The command of an operation -/

/-- How the actor of an operation on the policy of `m` asks for it. -/
def AdminCli.Commands.ofOp (m : Pubkey) : Op Pubkey Rule → Commands
  | .create _ r => .initializeConfig m r.credential r.schema r.sasProgram
  | .publish _ => .initExtraAccountMetaList m
  | .setRule _ r => .updateConfig m r.credential r.schema r.sasProgram
  | .nominate _ n => .transferAuthority m (n.getD Pubkey.default)
  | .accept _ => .acceptAuthority m
  | .exempt _ w => .addToWhitelist m w
  | .revoke _ w => .removeFromWhitelist m w

namespace AdminCli.Commands

@[simp] lemma mint_ofOp (m : Pubkey) (op : Op Pubkey Rule) : (ofOp m op).mint = m := by
  cases op <;> rfl

lemma onWallet_of_ofOp {w : Pubkey} (h : (ofOp m op).wallet = some w) : op.OnWallet w := by
  cases op with
  | exempt a w' | revoke a w' => exact Option.some.inj h
  | _ => cases h

/-- The default key stands for no nominee, so it cannot be nominated. -/
lemma op_ofOp (h : ∀ a, op ≠ .nominate a (some Pubkey.default)) :
    (ofOp m op).op op.actor = op := by
  cases op with
  | nominate a n =>
      cases n with
      | none => simp [ofOp, Commands.op, Op.actor]
      | some k =>
          have hk : k ≠ Pubkey.default := by
            rintro rfl
            exact h a rfl
          simp [ofOp, Commands.op, Op.actor, nominee_of_ne hk]
  | _ => rfl

end AdminCli.Commands

/-- What a run consists of in which the operators are alone. -/
inductive Event.Administered (d : Deployment) : Event → Prop
  | funded (a : Pubkey) (n : ℕ) : Administered d (.donated a n)
  | sent {a : Pubkey} {cmd : Commands} {ix : TransactionInstruction}
      (h : cmd.request d a = some ix) : Administered d (.invoked (ix.paidBy a))

/-! ## Who can perform an operation -/

/-- In the state `l` there is somebody to perform the operation on the policy of `m`: the
actor has a wallet, a config is created by the mint authority, and no nomination names the
zero key, which the program reads as nobody. -/
structure Performable (K : KeysInPlay d) (l : Ledger) (m : Pubkey) (op : Op Pubkey Rule) :
    Prop where
  underived : ¬ K.Derived op.actor
  user : op.actor ≠ systemProgram
  wallet : (l.account op.actor).Unallocated
  keys : ∀ w, op.OnWallet w → w ∈ K.keys
  nominee : ∀ a, op ≠ .nominate a (some Pubkey.default)
  create : ∀ a r, op = .create a r →
    ∃ mint, d.interfaceMint l m = .ok mint ∧ mint.mintAuthority = some a

/-- The mint is one, its records have addresses, and nobody has sent lamports to the
address of the list before it was there. -/
structure Operable (K : KeysInPlay d) (l : Ledger) (m : Pubkey) : Prop where
  mint_mem : m ∈ K.keys
  underived : ¬ K.Derived m
  mint : ∃ mint, d.interfaceMint l m = .ok mint
  addresses : ∀ s, K.Covers s → ∃ k b, d.find s = some (k, b) ∧ k ≠ systemProgram
  list : ∀ k b, d.find (.extraAccountMetas m) = some (k, b) →
    (l.account k).owner = d.programId ∨ (l.account k).lamports = 0

/-- What the operators' own doings keep: everybody else's accounts, and the list. -/
structure Kept (K : KeysInPlay d) (m : Pubkey) (l₀ l : Ledger) : Prop where
  content : ∀ k, ¬ K.Derived k → SameContent l₀ l k
  list : ∀ k b, d.find (.extraAccountMetas m) = some (k, b) →
    (l.account k).owner = d.programId ∨ (l.account k).lamports = 0

/-- A mint is read from its owner and its data. -/
lemma interfaceMint_of_sameContent {mint : Mint} (htoken : systemProgram ∉ d.token.ids)
    (h : SameContent l l' m) (hmint : d.interfaceMint l m = .ok mint) :
    d.interfaceMint l' m = .ok mint := by
  simp only [Deployment.interfaceMint, Deployment.interfaceAccount, require_bind_eq_ok] at hmint ⊢
  obtain ⟨-, howner, hdata⟩ := hmint
  have hne : (l.account m).owner ≠ systemProgram := by
    intro heq
    exact htoken (heq ▸ howner)
  rw [h.1, h.2]
  exact ⟨fun hsystem => hne hsystem.1, howner, hdata⟩

namespace Kept

lemma credit {k : Pubkey} (h : Kept K m l₀ l) (hm : m ∈ K.keys) (hk : ¬ K.Derived k) (n : ℕ) :
    Kept K m l₀ (l.credit k n) where
  content k' hk' := (h.content k' hk').trans (.credit ..)
  list k' b hfind := by
    have hne : k' ≠ k := by
      rintro rfl
      exact hk (KeysInPlay.derived_of_find (by simpa using hm) hfind)
    rw [Ledger.account_credit_of_ne _ _ hne]
    exact h.list k' b hfind

lemma effect {c : Call} (h : Kept K m l₀ l) (hm : m ∈ K.keys) (ha : c.Admissible K)
    (heffect : Effect K l c l') : Kept K m l₀ l' where
  content k hk := by
    refine (h.content k hk).trans (heffect.sameContent fun s hs b hfind => ?_)
    exact hk (KeysInPlay.derived_of_find (ha.covers hs) hfind)
  list k b hfind := by
    by_cases hmem : .extraAccountMetas m ∈ c.writes
    · exact .inl (heffect.list_owner hfind hmem)
    · rw [heffect.account_eq ha (by simpa using hm) hfind hmem]
      exact h.list k b hfind

end Kept

lemma Operable.kept (h : Operable K l m) : Kept K m l l := ⟨fun _ _ => ⟨rfl, rfl⟩, h.list⟩

/-! ## A single operation -/

/-- Enough for any record of a mint. -/
lemma exists_rent (d : Deployment) : ∃ n, max (d.minimumBalance HookConfig.LEN) 1 ≤ n ∧
    (∀ size, d.resolution.sizeOf 6 = .ok size → d.minimumBalance size ≤ n) ∧
    max (d.minimumBalance WhitelistEntry.LEN) 1 ≤ n := by
  obtain ⟨listRent, hlist⟩ : ∃ n, ∀ size, d.resolution.sizeOf 6 = .ok size →
      d.minimumBalance size ≤ n := by
    cases hsize : d.resolution.sizeOf 6 with
    | error e => exact ⟨0, fun _ h => nomatch h⟩
    | ok size =>
        refine ⟨d.minimumBalance size, ?_⟩
        rintro size' ⟨⟩
        exact le_rfl
  refine ⟨max (d.minimumBalance HookConfig.LEN) 1 + listRent +
    max (d.minimumBalance WhitelistEntry.LEN) 1, by omega, fun size hsize => ?_, by omega⟩
  have hrent := hlist size hsize
  omega

/-- With the lamports for it the actor can run the command. -/
lemma Performable.operator {n : ℕ} (h : Performable K l₀ m op) (h₀ : Operable K l₀ m)
    (htoken : systemProgram ∉ d.token.ids) (hkept : Kept K m l₀ l)
    (hconfig : max (d.minimumBalance HookConfig.LEN) 1 ≤ n)
    (hlist : ∀ size, d.resolution.sizeOf 6 = .ok size → d.minimumBalance size ≤ n)
    (hentry : max (d.minimumBalance WhitelistEntry.LEN) 1 ≤ n) :
    Operator K (l.credit op.actor n) m op.actor := by
  have hsame := (hkept.credit h₀.mint_mem h.underived n).content
  have hfunds : n ≤ ((l.credit op.actor n).account op.actor).lamports := by
    rw [Ledger.credit, Ledger.account_set_self]
    exact Nat.le_add_left n _
  obtain ⟨howner, hdata⟩ := hsame _ h.underived
  obtain ⟨mint, hmint⟩ := h₀.mint
  exact ⟨h₀.mint_mem, h.underived, h.user, ⟨howner.trans h.wallet.1, hdata.trans h.wallet.2⟩,
    hconfig.trans hfunds, fun size hsize => (hlist size hsize).trans hfunds, hentry.trans hfunds,
    ⟨mint, interfaceMint_of_sameContent htoken (hsame m h₀.underived) hmint⟩,
    h₀.addresses⟩

/-- What an operation needs besides the policy is there. -/
lemma Performable.prepared {q : Option (Policy Pubkey Rule)} (h : Performable K l₀ m op)
    (h₀ : Operable K l₀ m) (htoken : systemProgram ∉ d.token.ids) (hkept : Kept K m l₀ l)
    (hstep : Step (policy K m l) op q) : (Commands.ofOp m op).Prepared d l op.actor := by
  cases op with
  | create a r =>
      obtain ⟨mint, hmint, hauthority⟩ := h.create a r rfl
      exact ⟨mint, interfaceMint_of_sameContent htoken (hkept.content m h₀.underived) hmint,
        hauthority⟩
  | publish a =>
      intro k b hfind
      apply (hkept.list k b hfind).resolve_left
      intro howner
      generalize hpolicy : policy K m l = s at hstep
      cases hstep with
      | publish p hpublished =>
          obtain ⟨config, -, rfl⟩ := Option.map_eq_some_iff.mp hpolicy
          rw [policyOf, (Deployment.holds_iff hfind).mpr howner] at hpublished
          cases hpublished
  | _ => trivial

/-- Whatever the policy lets an operator do, a donation and a command do. -/
lemma Performable.taken {h : List (Ledger × Event)} {q : Option (Policy Pubkey Rule)}
    (hop : Performable K l₀ m op) (h₀ : Operable K l₀ m) (htoken : systemProgram ∉ d.token.ids)
    (hr : Reaches (hookSystem K) h l) (hkept : Kept K m l₀ l)
    (hstep : Step (policy K m l) op q) :
    ∃ newer l', Reaches (hookSystem K) (newer ++ h) l' ∧ Kept K m l₀ l' ∧ policy K m l' = q ∧
      (policySimulation K h₀.mint_mem).image newer = [(policy K m l, op)] ∧
      ∀ e ∈ newer, e.2.Administered d := by
  obtain ⟨n, hconfig, hlist, hentry⟩ := exists_rent d
  have hdonated : LedgerStep K l (.donated op.actor n) (l.credit op.actor n) := .donated l _ n
  have hr₁ := hr.step hdonated
  have hinv₁ := inv_of_reaches hr₁
  have hpolicy : policy K m (l.credit op.actor n) = policy K m l :=
    (policySimulation K h₀.mint_mem).view_idle h _ _ _ hr hdonated rfl
  have hkept₁ := hkept.credit h₀.mint_mem hop.underived n
  have hoperator := hop.operator h₀ htoken hkept hconfig hlist hentry
  have hwallet : ∀ w, (Commands.ofOp m op).wallet = some w → w ∈ K.keys :=
    fun w hw => hop.keys w (Commands.onWallet_of_ofOp hw)
  rw [← hpolicy] at hstep
  have hprepared := hop.prepared h₀ htoken hkept₁ hstep
  have hmint := Commands.mint_ofOp m op
  have hasked := Commands.op_ofOp (m := m) hop.nominee
  rw [← hmint] at hoperator
  obtain ⟨l', hrun⟩ := hoperator.goes_through hinv₁ hwallet (by rwa [hmint, hasked]) hprepared
  have hdone := (hoperator.performed hinv₁ hwallet hrun).1
  rw [hmint, hasked] at hdone
  obtain ⟨ix, hix, hok⟩ := run_eq_some.mp hrun
  obtain ⟨ha, hmeant⟩ := hoperator.sent hwallet hix
  rw [hmint, hasked] at hmeant
  have hlabel : (policySimulation K h₀.mint_mem).label (.invoked (ix.paidBy op.actor)) =
      some op := hmeant
  refine ⟨[(l.credit op.actor n, .invoked (ix.paidBy op.actor)), (l, .donated op.actor n)], l',
    hr₁.step (.invoked ha hok), hkept₁.effect h₀.mint_mem ha (effect_of_process hinv₁ ha hok),
    hdone.unique hstep, ?_, ?_⟩
  · rw [(policySimulation K h₀.mint_mem).image_cons hlabel, ← hpolicy]
    rfl
  · intro e he
    simp only [List.mem_cons, List.not_mem_nil, or_false] at he
    rcases he with rfl | rfl
    · exact .sent hix
    · exact .funded _ _

/-! ## Whole histories -/

/-- From every reachable state in which a mint is operable, every continuation of its
policy's history by operations that somebody can perform (the mint authority for a create,
and nobody nominates the zero key) is the history of a run of the ledger, made of the
performers' commands and of lamports sent to them. -/
theorem histories_realised {h : List (Ledger × Event)}
    {g : List (Option (Policy Pubkey Rule) × Op Pubkey Rule)} {q : Option (Policy Pubkey Rule)}
    (hr : Reaches (hookSystem K) h l) (hl : Operable K l m) (htoken : systemProgram ∉ d.token.ids)
    (hg : Reaches (policySystem Pubkey Rule)
      (g ++ (policySimulation K hl.mint_mem).image h) q)
    (hops : ∀ e ∈ g, Performable K l m e.2) :
    ∃ newer l', Reaches (hookSystem K) (newer ++ h) l' ∧ policy K m l' = q ∧
      (policySimulation K hl.mint_mem).image newer = g ∧
      ∀ e ∈ newer, e.2.Administered d := by
  obtain ⟨newer, l', hr', -, hq, himage, hused⟩ :=
    (policySimulation K hl.mint_mem).realises (fun _ _ hs hs' => hs.trans hs'.symm)
      (fun _ _ _ _ => Step.unique) (Kept K m l) (Performable K l m) (Event.Administered d)
      (fun hr hkept hop hstep => hop.taken hl htoken hr hkept hstep) hr hl.kept hg hops
  exact ⟨newer, l', hr', hq, himage, hused⟩

namespace LocalChain

lemma genesis_eval :
    chain.interfaceMint genesis mint = .ok ⟨some authority⟩ ∧
      (genesis.account listKey).lamports = 0 ∧
      (genesis.account authority).Unallocated ∧ (genesis.account successor).Unallocated ∧
      systemProgram ∉ chain.token.ids := by
  decide +kernel

lemma operable_genesis : Operable keysInPlay genesis mint where
  mint_mem := mint_mem
  underived := not_derived (by decide)
  mint := ⟨_, genesis_eval.1⟩
  addresses s hs := ⟨pda s, 255, find_eq s, pda_ne hs⟩
  list k b hfind := by
    have heq : chain.find (.extraAccountMetas mint) = some (listKey, 255) := find_eq _
    obtain rfl := Deployment.find_unique heq hfind
    exact .inr genesis_eval.2.1

/-- The authority hands over to the successor, who publishes the list. -/
def handover : List (Option (Policy Pubkey Rule) × Op Pubkey Rule) :=
  [(some ⟨successor, none, rule, false, ∅⟩, .publish successor),
    (some ⟨authority, some successor, rule, false, ∅⟩, .accept successor),
    (some ⟨authority, none, rule, false, ∅⟩, .nominate authority (some successor)),
    (none, .create authority rule)]

lemma reaches_handover : Reaches (policySystem Pubkey Rule) handover
    (some ⟨successor, none, rule, true, ∅⟩) :=
  .step (.step (.step (.step (.start rfl) (.create authority rule)) (.nominate _ _))
    (.accept _ successor rfl)) (.publish _ rfl)

lemma performable_handover : ∀ e ∈ handover, Performable keysInPlay genesis mint e.2 := by
  obtain ⟨hmint, -, hauthority, hsuccessor, -⟩ := genesis_eval
  intro e he
  simp only [handover, List.mem_cons, List.not_mem_nil, or_false] at he
  rcases he with rfl | rfl | rfl | rfl
  · exact ⟨not_derived (by decide), by decide, hsuccessor, fun _ h => h.elim, by simp, by simp⟩
  · exact ⟨not_derived (by decide), by decide, hsuccessor, fun _ h => h.elim, by simp, by simp⟩
  · exact ⟨not_derived (by decide), by decide, hauthority, fun _ h => h.elim,
      by simp; decide, by simp⟩
  · refine ⟨not_derived (by decide), by decide, hauthority, fun _ h => h.elim, by simp, ?_⟩
    rintro a r ⟨⟩
    exact ⟨_, hmint, rfl⟩

end LocalChain

open LocalChain in
/-- From genesis the two of them get there. -/
theorem histories_realised_handover :
    ∃ newer l', Reaches (hookSystem keysInPlay) (newer ++ []) l' ∧
      policy keysInPlay mint l' = some ⟨successor, none, rule, true, ∅⟩ ∧
      (policySimulation keysInPlay mint_mem).image newer = handover ∧
      ∀ e ∈ newer, e.2.Administered chain :=
  histories_realised (.start fresh_genesis) operable_genesis genesis_eval.2.2.2.2
    reaches_handover performable_handover

end AlienIdTransferHook
