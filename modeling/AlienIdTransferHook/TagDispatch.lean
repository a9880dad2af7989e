import AlienIdTransferHook.WireFields
import Mathlib.Tactic

/-!
# Dispatch on a tag

Readers with exactly the bytes they accept, how they are put together, and a table of
handlers searched for the first tag that the bytes begin with. With tags of one width
and no tag twice the order of the table does not matter, and the bytes tell the handler.
-/
namespace AlienIdTransferHook.TagDispatch
open ByteCodec WireFields

universe u

variable {α β : Type u}

/-- `read` takes `bytes` off the front as `a` exactly where they encode it. -/
def Exact (read : Reader α) (Encodes : α → List UInt8 → Prop) : Prop :=
  ∀ bs a rest, read bs = some (a, rest) ↔ ∃ bytes, Encodes a bytes ∧ bs = bytes ++ rest

/-- Nothing is read. -/
def always (a : α) : Reader α := fun bs => some (a, bs)

def andThen (first : Reader α) (second : Reader β) : Reader (α × β) := fun bs => do
  let (a, tail) ← first bs
  let (b, rest) ← second tail
  return ((a, b), rest)

def mapTo (f : α → β) (read : Reader α) : Reader β := fun bs => do
  let (a, rest) ← read bs
  return (f a, rest)

theorem Exact.always (a : α) : Exact (always a) fun a' bytes => a' = a ∧ bytes = [] := by
  intro bs a' rest
  simp only [TagDispatch.always, Option.some.injEq, Prod.mk.injEq]
  constructor
  · rintro ⟨rfl, rfl⟩
    exact ⟨[], ⟨rfl, rfl⟩, rfl⟩
  · rintro ⟨_, ⟨rfl, rfl⟩, rfl⟩
    exact ⟨rfl, rfl⟩

theorem Exact.andThen {first : Reader α} {second : Reader β} {P : α → List UInt8 → Prop}
    {Q : β → List UInt8 → Prop} (hfirst : Exact first P) (hsecond : Exact second Q) :
    Exact (andThen first second)
      fun ab bytes => ∃ x y, P ab.1 x ∧ Q ab.2 y ∧ bytes = x ++ y := by
  intro bs ab rest
  simp only [TagDispatch.andThen, Option.bind_eq_bind, Option.bind_eq_some_iff]
  constructor
  · rintro ⟨⟨a, tail⟩, ha, ⟨b, rest'⟩, hb, heq⟩
    obtain ⟨rfl, rfl⟩ := Prod.mk.inj (Option.some.inj heq)
    obtain ⟨x, hx, rfl⟩ := (hfirst _ _ _).mp ha
    obtain ⟨y, hy, rfl⟩ := (hsecond _ _ _).mp hb
    exact ⟨x ++ y, ⟨x, y, hx, hy, rfl⟩, (List.append_assoc ..).symm⟩
  · rintro ⟨_, ⟨x, y, hx, hy, rfl⟩, rfl⟩
    have ha := (hfirst (x ++ (y ++ rest)) ab.1 (y ++ rest)).mpr ⟨x, hx, rfl⟩
    have hb := (hsecond (y ++ rest) ab.2 rest).mpr ⟨y, hy, rfl⟩
    exact ⟨(ab.1, y ++ rest), by rw [List.append_assoc]; exact ha, (ab.2, rest), hb, rfl⟩

theorem Exact.mapTo {read : Reader α} {P : α → List UInt8 → Prop} (h : Exact read P)
    (f : α → β) : Exact (mapTo f read) fun b bytes => ∃ a, f a = b ∧ P a bytes := by
  intro bs b rest
  simp only [TagDispatch.mapTo, Option.bind_eq_bind, Option.bind_eq_some_iff]
  constructor
  · rintro ⟨⟨a, rest'⟩, ha, heq⟩
    obtain ⟨rfl, rfl⟩ := Prod.mk.inj (Option.some.inj heq)
    obtain ⟨bytes, hbytes, rfl⟩ := (h _ _ _).mp ha
    exact ⟨bytes, ⟨a, rfl, hbytes⟩, rfl⟩
  · rintro ⟨bytes, ⟨a, rfl, hbytes⟩, rfl⟩
    exact ⟨(a, rest), (h _ _ _).mpr ⟨bytes, hbytes, rfl⟩, rfl⟩

/-- A word of `k` bytes is read from its own encoding only. -/
theorem Exact.readLE (k : ℕ) :
    Exact (readLE k) fun n bytes => n < 256 ^ k ∧ bytes = toLE k n := by
  intro bs n rest
  constructor
  · intro h
    by_cases hk : k ≤ bs.length
    · have hword : (bs.take k).length = k := by simp [hk]
      obtain ⟨rfl, rfl⟩ : fromLE (bs.take k) = n ∧ bs.drop k = rest := by
        simpa [WireFields.readLE, readBytes, hk] using h
      have hlt := fromLE_lt (bs.take k)
      have hback := toLE_fromLE (bs.take k)
      rw [hword] at hlt hback
      exact ⟨bs.take k, ⟨hlt, hback.symm⟩, (List.take_append_drop k bs).symm⟩
    · simp [WireFields.readLE, readBytes, hk] at h
  · rintro ⟨_, ⟨hlt, rfl⟩, rfl⟩
    exact readLE_readsAs hlt rest

/-! ## Tables -/

/-- A tag, and what reads the bytes after it. -/
structure Handler (α : Type u) where
  tag : List UInt8
  read : Reader α
  Encodes : α → List UInt8 → Prop
  exact : Exact read Encodes

/-- The first handler whose tag the bytes begin with. -/
def lookup (table : List (Handler α)) (bs : List UInt8) : Option (Handler α) :=
  table.find? fun h => h.tag.isPrefixOf bs

lemma lookup_eq_none {table : List (Handler α)} {bs : List UInt8} :
    lookup table bs = none ↔ ∀ h ∈ table, ¬ h.tag <+: bs := by
  simp [lookup, List.find?_eq_none]

/-- Two tags of one width that the same bytes begin with are one. -/
lemma tag_unique {bs t t' : List UInt8} (ht : t <+: bs) (ht' : t' <+: bs)
    (hlen : t.length = t'.length) : t = t' := by
  rw [List.prefix_iff_eq_take.mp ht, List.prefix_iff_eq_take.mp ht', hlen]

/-- With tags of one width, none of them twice, at most one handler answers. -/
theorem lookup_eq_some {table : List (Handler α)} {width : ℕ}
    (hwidth : ∀ h ∈ table, h.tag.length = width) (hnodup : (table.map Handler.tag).Nodup)
    {bs : List UInt8} {h : Handler α} :
    lookup table bs = some h ↔ h ∈ table ∧ h.tag <+: bs := by
  constructor
  · intro hfound
    exact ⟨List.mem_of_find?_eq_some hfound, by simpa using List.find?_some hfound⟩
  · rintro ⟨hmem, htag⟩
    cases hfound : lookup table bs with
    | none => exact absurd htag (lookup_eq_none.mp hfound h hmem)
    | some h' =>
        have hmem' : h' ∈ table := List.mem_of_find?_eq_some hfound
        have htag' : h'.tag <+: bs := by simpa using List.find?_some hfound
        have heq := tag_unique htag' htag ((hwidth h' hmem').trans (hwidth h hmem).symm)
        rw [List.inj_on_of_nodup_map hnodup hmem' hmem heq]

/-- What a table makes of bytes: the handler they name reads what follows its tag. -/
theorem lookup_read {table : List (Handler α)} {width : ℕ}
    (hwidth : ∀ h ∈ table, h.tag.length = width) (hnodup : (table.map Handler.tag).Nodup)
    {bs : List UInt8} {a : α} :
    (∃ h rest, lookup table bs = some h ∧ h.read (bs.drop h.tag.length) = some (a, rest)) ↔
      ∃ h ∈ table, ∃ bytes, h.Encodes a bytes ∧ h.tag ++ bytes <+: bs := by
  constructor
  · rintro ⟨h, rest, hfound, hread⟩
    obtain ⟨hmem, tail, rfl⟩ := (lookup_eq_some hwidth hnodup).mp hfound
    rw [List.drop_left] at hread
    obtain ⟨bytes, hbytes, rfl⟩ := (h.exact _ _ _).mp hread
    exact ⟨h, hmem, bytes, hbytes, rest, by rw [List.append_assoc]⟩
  · rintro ⟨h, hmem, bytes, hbytes, rest, rfl⟩
    refine ⟨h, rest, (lookup_eq_some hwidth hnodup).mpr ⟨hmem, bytes ++ rest, by simp⟩, ?_⟩
    rw [List.append_assoc, List.drop_left]
    exact (h.exact _ _ _).mpr ⟨bytes, hbytes, rfl⟩

end AlienIdTransferHook.TagDispatch
