import AlienIdTransferHook.ByteCodec

/-!
# Fields in sequence

Readers of length-prefixed and fixed-size fields, and the walk along a layout
that reads one field for each of its types. A concatenation of fields each of
which reads back in front of any bytes reads back as a whole.
-/
namespace AlienIdTransferHook.WireFields
open ByteCodec

/-- What a field reads as, and the bytes after it. -/
abbrev Reader (α : Type*) := List UInt8 → Option (α × List UInt8)

/-- The bytes read as the value, whatever follows them. -/
def ReadsAs {α : Type*} (read : Reader α) (bytes : List UInt8) (value : α) : Prop :=
  ∀ rest, read (bytes ++ rest) = some (value, rest)

/-- `n` bytes. -/
def readBytes (n : ℕ) : Reader (List UInt8) := fun bs =>
  if n ≤ bs.length then some (bs.take n, bs.drop n) else none

/-- `k` bytes, least significant first. -/
def readLE (k : ℕ) : Reader ℕ := fun bs => do
  let (word, rest) ← readBytes k bs
  return (fromLE word, rest)

/-- A 32-bit length, and as many bytes. -/
def readSized : Reader (List UInt8) := fun bs => do
  let (n, rest) ← readLE 4 bs
  readBytes n rest

/-- One field for each type of a layout. -/
def readFields {τ β : Type*} (read : τ → Reader β) : List τ → Reader (List β)
  | [], bs => some ([], bs)
  | t :: ts, bs => do
    let (value, tail) ← read t bs
    let (values, rest) ← readFields read ts tail
    return (value :: values, rest)

theorem readBytes_readsAs (bytes : List UInt8) : ReadsAs (readBytes bytes.length) bytes bytes := by
  intro rest
  have hlen : bytes.length ≤ (bytes ++ rest).length := by simp
  rw [readBytes, if_pos hlen, List.take_left, List.drop_left]

theorem readLE_readsAs {k n : ℕ} (h : n < 256 ^ k) : ReadsAs (readLE k) (toLE k n) n := by
  intro rest
  have hword := readBytes_readsAs (toLE k n) rest
  rw [length_toLE] at hword
  simp [readLE, hword, fromLE_toLE, Nat.mod_eq_of_lt h]

theorem readSized_readsAs {bytes : List UInt8} (h : bytes.length < 2 ^ 32) :
    ReadsAs readSized (toLE 4 bytes.length ++ bytes) bytes := by
  intro rest
  have hlen := readLE_readsAs (k := 4) (n := bytes.length) (by omega) (bytes ++ rest)
  have hbytes := readBytes_readsAs bytes rest
  simp [readSized, List.append_assoc, hlen, hbytes]

/-- The field rule: what each field reads as, the sequence of them reads as. -/
theorem readFields_readsAs {τ β : Type*} {read : τ → Reader β}
    {fields : List (τ × List UInt8 × β)} (h : ∀ f ∈ fields, ReadsAs (read f.1) f.2.1 f.2.2) :
    ReadsAs (readFields read (fields.map (·.1))) (fields.flatMap (·.2.1))
      (fields.map (·.2.2)) := by
  induction fields with
  | nil => intro rest; rfl
  | cons f fields ih =>
      intro rest
      have hhead := h f (List.mem_cons_self ..) (fields.flatMap (·.2.1) ++ rest)
      have htail := ih (fun g hg => h g (List.mem_cons_of_mem _ hg)) rest
      simp [readFields, List.append_assoc, hhead, htail]

end AlienIdTransferHook.WireFields
