import AlienIdTransferHook.Runs

/-!
# Address domains

Everything the program derives an address from: the seeds of its own three kinds
of account and those of an attestation. Seeds are hashed without separators. The
four families differ in length, and within a family every field has a fixed
place, so the bytes that are hashed determine the seeds.
-/
namespace AlienIdTransferHook
open Solana History

/-- The seeds of the program's own accounts and those of an attestation. -/
inductive PdaSeeds where
  | hook (s : HookSeeds)
  | attestation (credential schema nonce : Pubkey)
  deriving DecidableEq

namespace PdaSeeds

def toList : PdaSeeds → List (List UInt8)
  | hook s => s.toList
  | attestation credential schema nonce =>
      TransferHook.attestationSeeds credential schema nonce

/-- The seeds run together, the bump last. -/
def bytes (s : PdaSeeds) (bump : UInt8) : List UInt8 := (s.toList ++ [[bump]]).flatten

/-- The lengths of the four families. -/
theorem length_bytes (s : PdaSeeds) (b : UInt8) :
    (s.bytes b).length = match s with
      | hook (.config _) => 39
      | hook (.extraAccountMetas _) => 52
      | hook (.whitelist _ _) => 74
      | attestation _ _ _ => 108 := by
  cases s with
  | hook s => cases s <;> simp [bytes, toList, HookSeeds.toList, Pubkey.length_bytes,
      configSeed, extraAccountMetasSeed, whitelistSeed]
  | attestation c s n => simp [bytes, toList, TransferHook.attestationSeeds,
      Pubkey.length_bytes, ATTESTATION_SEED]

/-- In front of as many bytes the seeds and the bump can be read off. -/
theorem bytes_append_inj {s s' : PdaSeeds} {b b' : UInt8} {r r' : List UInt8}
    (hr : r.length = r'.length) (h : s.bytes b ++ r = s'.bytes b' ++ r') :
    s = s' ∧ b = b' ∧ r = r' := by
  have hlen : (s.bytes b).length = (s'.bytes b').length := by
    have htotal := congrArg List.length h
    rw [List.length_append, List.length_append] at htotal
    omega
  obtain ⟨hbytes, hrest⟩ := List.append_inj h hlen
  rw [length_bytes, length_bytes] at hlen
  have hfields : s = s' ∧ b = b' := by
    cases s with
    | hook s =>
        cases s' with
        | attestation => cases s <;> cases hlen
        | hook s' =>
            have hpre : pdaPreimage (s.toList ++ [[b]]) Pubkey.default =
                pdaPreimage (s'.toList ++ [[b']]) Pubkey.default :=
              congrArg (· ++ (Pubkey.default.bytes ++ pdaMarker)) hbytes
            obtain ⟨hs, hb⟩ := HookSeeds.preimage_injective hpre
            exact ⟨congrArg hook hs, hb⟩
    | attestation c s n =>
        cases s' with
        | hook s' => cases s' <;> cases hlen
        | attestation c' s' n' =>
            simp only [bytes, toList, TransferHook.attestationSeeds, List.cons_append,
              List.nil_append, List.flatten_cons, List.flatten_nil, List.append_nil] at hbytes
            have hkeys := List.append_cancel_left hbytes
            rw [Pubkey.append_inj, Pubkey.append_inj, Pubkey.append_inj] at hkeys
            obtain ⟨rfl, rfl, rfl, hb⟩ := hkeys
            exact ⟨rfl, (List.cons.inj hb).1⟩
  exact ⟨hfields.1, hfields.2, hrest⟩

theorem bytes_inj {s s' : PdaSeeds} {b b' : UInt8} :
    s.bytes b = s'.bytes b' ↔ s = s' ∧ b = b' := by
  constructor
  · intro h
    have happend : s.bytes b ++ [] = s'.bytes b' ++ [] := by rw [h]
    obtain ⟨hs, hb, -⟩ := bytes_append_inj rfl happend
    exact ⟨hs, hb⟩
  · rintro ⟨rfl, rfl⟩
    rfl

/-- What is hashed determines the seeds, the bump and the program. -/
theorem preimage_injective {s s' : PdaSeeds} {b b' : UInt8} {p p' : Pubkey}
    (h : pdaPreimage (s.toList ++ [[b]]) p = pdaPreimage (s'.toList ++ [[b']]) p') :
    s = s' ∧ b = b' ∧ p = p' := by
  have hbytes : s.bytes b ++ (p.bytes ++ pdaMarker) = s'.bytes b' ++ (p'.bytes ++ pdaMarker) := h
  have hlen : (p.bytes ++ pdaMarker).length = (p'.bytes ++ pdaMarker).length := by
    simp [Pubkey.length_bytes]
  obtain ⟨hs, hb, hrest⟩ := bytes_append_inj hlen hbytes
  exact ⟨hs, hb, (Pubkey.append_inj.mp hrest).1⟩

end PdaSeeds

/-- Seeds and programs of a run, without a collision among their addresses, whatever
the bump. -/
structure AddressesInPlay (d : Deployment) where
  addresses : Set (PdaSeeds × Pubkey)
  collisionFree : Set.InjOn d.hash
    {bs | ∃ a ∈ addresses, ∃ b : UInt8, bs = pdaPreimage (a.1.toList ++ [[b]]) a.2}

/-- Under the program's own id the seeds in play are those of `K`. -/
structure AddressesInPlay.Extends {d : Deployment} (A : AddressesInPlay d) (K : KeysInPlay d) :
    Prop where
  records : ∀ s, K.Covers s → (.hook s, d.programId) ∈ A.addresses
  own : ∀ s, (s, d.programId) ∈ A.addresses →
    (∃ s₀, s = .hook s₀ ∧ K.Covers s₀) ∨ s.toList ∈ K.others

variable {d : Deployment} {K : KeysInPlay d} {l : Ledger} {k p : Pubkey} {s : PdaSeeds}

theorem AddressesInPlay.Extends.derived {A : AddressesInPlay d} {b : UInt8} (hA : A.Extends K)
    (hs : (s, d.programId) ∈ A.addresses)
    (h : d.createProgramAddress (s.toList ++ [[b]]) d.programId = some k) : K.Derived k := by
  rcases hA.own s hs with ⟨s₀, rfl, hcovers⟩ | hother
  · exact .record hcovers h
  · exact .other hother h

/-- One address, one kind of account, one set of keys, one bump and one program. -/
theorem AddressesInPlay.create_injective (A : AddressesInPlay d) {s' : PdaSeeds}
    {b b' : UInt8} {p' : Pubkey} (hs : (s, p) ∈ A.addresses) (hs' : (s', p') ∈ A.addresses)
    (h : d.createProgramAddress (s.toList ++ [[b]]) p = some k)
    (h' : d.createProgramAddress (s'.toList ++ [[b']]) p' = some k) :
    s = s' ∧ b = b' ∧ p = p' := by
  have heq := (Host.hash_of_create h).trans (Host.hash_of_create h').symm
  exact PdaSeeds.preimage_injective
    (A.collisionFree ⟨(s, p), hs, b, rfl⟩ ⟨(s', p'), hs', b', rfl⟩ heq)

/-! ## The checks -/

/-- The account at `k` passes one of the program's checks as the account with the given
seeds under the given program. -/
inductive Accepted (d : Deployment) (l : Ledger) : Pubkey → PdaSeeds → Pubkey → Prop
  /-- A typed config with its stored bump, in every instruction but the first. -/
  | config {k m : Pubkey} {c : HookConfig} (hload : loadAccount HookConfig d.toHost l k = .ok c)
      (hseeds : seedsWithBump d.toHost (HookSeeds.config m).toList c.bump k = .ok ()) :
      Accepted d l k (.hook (.config m)) d.programId
  /-- The untyped list account. -/
  | list {k m : Pubkey} {b : UInt8}
      (hseeds : seedsCanonical d.toHost (HookSeeds.extraAccountMetas m).toList k = .ok b) :
      Accepted d l k (.hook (.extraAccountMetas m)) d.programId
  /-- The entry that `remove_from_whitelist` closes. -/
  | entry {k m w : Pubkey} {e : WhitelistEntry}
      (hload : loadAccount WhitelistEntry d.toHost l k = .ok e)
      (hseeds : seedsWithBump d.toHost (HookSeeds.whitelist m w).toList e.bump k = .ok ()) :
      Accepted d l k (.hook (.whitelist m w)) d.programId
  /-- The entry that lets the hook return early. -/
  | skipped {a : TransferHook} (h : a.whitelisted d l = .ok true) :
      Accepted d l a.whitelistEntry (.hook (.whitelist a.mint a.transferAuthority)) d.programId
  /-- The attestation, under whatever program the config names. -/
  | attestation {a : TransferHook} {c : HookConfig}
      (h : a.checkAttestationAccounts d l c = .ok ()) :
      Accepted d l a.attestation (.attestation c.credential c.schema a.transferAuthority)
        c.sasProgram

namespace Accepted

/-- Whatever the check, the address is the one for these seeds and some bump. -/
theorem exists_create (h : Accepted d l k s p) :
    ∃ b, d.createProgramAddress (s.toList ++ [[b]]) p = some k := by
  cases h with
  | config _ hseeds => exact ⟨_, require_eq_ok.mp hseeds⟩
  | list hseeds => exact ⟨_, Host.createProgramAddress_of_find (seedsCanonical_eq_ok.mp hseeds)⟩
  | entry _ hseeds => exact ⟨_, require_eq_ok.mp hseeds⟩
  | skipped h =>
      obtain ⟨-, b, hfind⟩ := TransferHook.whitelisted_eq_true.mp h
      exact ⟨b, Deployment.create_of_find hfind⟩
  | attestation h =>
      obtain ⟨-, -, -, ⟨b, hfind⟩, -⟩ := TransferHook.checkAttestationAccounts_eq_ok.mp h
      exact ⟨b, Host.createProgramAddress_of_find hfind⟩

/-- A program-owned account is looked up under the program itself: the attestation
check compares the owner with the program it derives the address for. -/
theorem program_eq (h : Accepted d l k s p) (howner : (l.account k).owner = d.programId) :
    p = d.programId := by
  cases h with
  | attestation h =>
      obtain ⟨-, -, -, -, hsas⟩ := TransferHook.checkAttestationAccounts_eq_ok.mp h
      exact hsas.symm.trans howner
  | _ => rfl

end Accepted

/-- A program-owned account that passes a check is the record with these seeds. -/
theorem Inv.slot_of_accepted {A : AddressesInPlay d} (hinv : Inv K l) (hA : A.Extends K)
    (hs : (s, p) ∈ A.addresses) (howner : (l.account k).owner = d.programId)
    (h : Accepted d l k s p) :
    ∃ s₀ b, s = .hook s₀ ∧ d.find s₀ = some (k, b) ∧ Content d l b s₀ (l.account k).data := by
  obtain ⟨b, hcreate⟩ := h.exists_create
  obtain rfl := h.program_eq howner
  cases hinv k with
  | underived hkey => exact absurd (hA.derived hs hcreate) hkey
  | vacant hu => exact absurd (howner.symm.trans hu.1) d.programId_ne
  | slot s₀ b₀ hs₀ hfind _ hcontent =>
      obtain ⟨rfl, -⟩ := A.create_injective hs (hA.records s₀ hs₀) hcreate
        (Deployment.create_of_find hfind)
      exact ⟨s₀, b₀, rfl, hfind, hcontent⟩

/-- The seed bytes of the four families never agree across families, and within one only
for equal arguments. So no account passes two of the program's checks as two different
accounts, and in every reachable state a program-owned account that passes a check is the
record it is taken for, never an attestation, whatever program the config names. -/
theorem pda_domains_disjoint (A : AddressesInPlay d) {h : List (Ledger × Event)}
    (hr : Reaches (hookSystem K) h l) (hA : A.Extends K) :
    (∀ (s s' : PdaSeeds) (b b' : UInt8), s.bytes b = s'.bytes b' ↔ s = s' ∧ b = b') ∧
      (∀ (l : Ledger) (k : Pubkey) (s s' : PdaSeeds) (p p' : Pubkey),
        (s, p) ∈ A.addresses → (s', p') ∈ A.addresses → Accepted d l k s p →
        Accepted d l k s' p' → s = s' ∧ p = p') ∧
      ∀ (k : Pubkey) (s : PdaSeeds) (p : Pubkey), (s, p) ∈ A.addresses →
        (l.account k).owner = d.programId → Accepted d l k s p →
        ∃ s₀ b, s = .hook s₀ ∧ d.find s₀ = some (k, b) ∧
          Content d l b s₀ (l.account k).data := by
  refine ⟨fun s s' b b' => PdaSeeds.bytes_inj, ?_, ?_⟩
  · intro l k s s' p p' hs hs' hacc hacc'
    obtain ⟨b, hcreate⟩ := hacc.exists_create
    obtain ⟨b', hcreate'⟩ := hacc'.exists_create
    obtain ⟨heq, -, hp⟩ := A.create_injective hs hs' hcreate hcreate'
    exact ⟨heq, hp⟩
  · intro k s p hs howner hacc
    exact (inv_of_reaches hr).slot_of_accepted hA hs howner hacc

namespace LocalChain

set_option maxRecDepth 4000 in
lemma hash_attestation (b : UInt8) :
    (hash (pdaPreimage (TransferHook.attestationSeeds rule.credential rule.schema wallet ++ [[b]])
      programId)).bytes = 161 :: b :: 3 :: 11 :: List.replicate 28 0 := rfl

/-- The wallet's attestation, with the hook program as the attestation service. -/
def ownAttestation : PdaSeeds := .attestation rule.credential rule.schema wallet

lemma hash_ne_attestation {s : HookSeeds} (hs : keysInPlay.Covers s) (b b' : UInt8) :
    hash (pdaPreimage (s.toList ++ [[b]]) programId) ≠
      hash (pdaPreimage (ownAttestation.toList ++ [[b']]) programId) := by
  intro heq
  have hbytes := congrArg Pubkey.bytes heq
  rw [hash_bytes hs] at hbytes
  have hhead : (digest s b ++ List.replicate 28 0).head? = some 161 := by
    rw [hbytes]
    rfl
  cases s <;> simp [digest] at hhead

/-- The records of the keys in play, beside the wallet's attestation, all under the
program itself. -/
def addressesInPlay : AddressesInPlay chain where
  addresses := {a | a.2 = programId ∧
    ((∃ s, a.1 = .hook s ∧ keysInPlay.Covers s) ∨ a.1 = ownAttestation)}
  collisionFree := by
    rintro _ ⟨⟨_, _⟩, ⟨rfl, hs⟩, b, rfl⟩ _ ⟨⟨_, _⟩, ⟨rfl, hs'⟩, b', rfl⟩ heq
    rcases hs with ⟨s, rfl, hs⟩ | rfl <;> rcases hs' with ⟨s', rfl, hs'⟩ | rfl
    · exact keysInPlay.collisionFree ⟨s, b, hs, rfl⟩ ⟨s', b', hs', rfl⟩ heq
    · exact absurd heq (hash_ne_attestation hs b b')
    · exact absurd heq.symm (hash_ne_attestation hs' b' b)
    · have hbytes := congrArg Pubkey.bytes heq
      have hb : (161 : UInt8) :: b :: 3 :: 11 :: List.replicate 28 0 =
          161 :: b' :: 3 :: 11 :: List.replicate 28 0 :=
        (hash_attestation b).symm.trans (hbytes.trans (hash_attestation b'))
      obtain rfl : b = b' := by simpa using hb
      rfl

lemma addressesInPlay_extends : addressesInPlay.Extends keysInPlay where
  records s hs := ⟨rfl, .inl ⟨s, rfl, hs⟩⟩
  own s hs := hs.2.imp_right fun heq => by
    obtain rfl : s = ownAttestation := heq
    rfl

end LocalChain

/-- The domains of the local chain, after its first whitelisting. -/
theorem pda_domains_disjoint_listed :
    (∀ (s s' : PdaSeeds) (b b' : UInt8), s.bytes b = s'.bytes b' ↔ s = s' ∧ b = b') ∧
      (∀ (l : Ledger) (k : Pubkey) (s s' : PdaSeeds) (p p' : Pubkey),
        (s, p) ∈ LocalChain.addressesInPlay.addresses →
        (s', p') ∈ LocalChain.addressesInPlay.addresses →
        Accepted LocalChain.chain l k s p → Accepted LocalChain.chain l k s' p' →
        s = s' ∧ p = p') ∧
      ∀ (k : Pubkey) (s : PdaSeeds) (p : Pubkey),
        (s, p) ∈ LocalChain.addressesInPlay.addresses →
        (LocalChain.listed.account k).owner = LocalChain.chain.programId →
        Accepted LocalChain.chain LocalChain.listed k s p →
        ∃ s₀ b, s = .hook s₀ ∧ LocalChain.chain.find s₀ = some (k, b) ∧
          Content LocalChain.chain LocalChain.listed b s₀ (LocalChain.listed.account k).data :=
  pda_domains_disjoint LocalChain.addressesInPlay LocalChain.reaches_listed
    LocalChain.addressesInPlay_extends

end AlienIdTransferHook
