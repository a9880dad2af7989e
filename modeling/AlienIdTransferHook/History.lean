import Mathlib.Data.List.Basic
import Mathlib.Logic.Basic

/-!
# Histories of a labelled transition system

A history lists the events of a run, newest first, each with the state it met.
The two rules used everywhere else are proved here once: an invariant holds in
every reachable state, and a part of the state that only some events write has
the value of the newest such event.
-/
namespace AlienIdTransferHook.History

variable {σ ε β : Type*}

/-- Where a system may start and what each event may do to a state. -/
structure System (σ ε : Type*) where
  start : σ → Prop
  step : σ → ε → σ → Prop

/-- `Reaches S h s`: the run with history `h` ends in `s`. -/
inductive Reaches (S : System σ ε) : List (σ × ε) → σ → Prop
  | start {s : σ} (hs : S.start s) : Reaches S [] s
  | step {h : List (σ × ε)} {s s' : σ} {e : ε} (hr : Reaches S h s) (he : S.step s e s') :
      Reaches S ((s, e) :: h) s'

/-- An invariant of the start states that every step keeps holds after every run. -/
theorem Reaches.invariant {S : System σ ε} {Inv : σ → Prop} (hstart : ∀ s, S.start s → Inv s)
    (hstep : ∀ s e s', Inv s → S.step s e s' → Inv s') {h : List (σ × ε)} {s : σ}
    (hr : Reaches S h s) : Inv s := by
  induction hr with
  | start hs => exact hstart _ hs
  | step _ he ih => exact hstep _ _ _ ih he

/-- Cutting a history at one of its entries: the state recorded there is the one
the older part ends in, and the recorded event leads on from it. -/
theorem Reaches.cut {S : System σ ε} {newer older : List (σ × ε)} {s t : σ} {e : ε}
    (hr : Reaches S (newer ++ (s, e) :: older) t) :
    Reaches S older s ∧ ∃ s', S.step s e s' ∧ Reaches S ((s, e) :: older) s' := by
  induction newer generalizing t with
  | nil =>
      cases hr with
      | step hold he => exact ⟨hold, _, he, hold.step he⟩
  | cons p newer ih =>
      cases hr with
      | step hr' _ => exact ih hr'

/-- The state in which the run with history `h` into `s` began. -/
def origin (h : List (σ × ε)) (s : σ) : σ :=
  match h with
  | [] => s
  | (s₀, _) :: older => origin older s₀

theorem Reaches.to_origin {S : System σ ε} {newer older : List (σ × ε)} {s : σ}
    (hr : Reaches S (newer ++ older) s) : Reaches S older (origin newer s) := by
  induction newer generalizing s with
  | nil => exact hr
  | cons _ _ ih =>
      cases hr with
      | step hr _ => exact ih hr

/-- Where events have one outcome, runs with the same events end in the same state. -/
theorem Reaches.unique {S : System σ ε} (hstart : ∀ s s', S.start s → S.start s' → s = s')
    (hstep : ∀ s e s₁ s₂, S.step s e s₁ → S.step s e s₂ → s₁ = s₂) {h h' : List (σ × ε)}
    {s s' : σ} (hr : Reaches S h s) (hr' : Reaches S h' s')
    (heq : h.map Prod.snd = h'.map Prod.snd) : s = s' := by
  induction hr generalizing h' s' with
  | start hs =>
      cases hr' with
      | start hs' => exact hstart _ _ hs hs'
      | step _ _ => simp at heq
  | step _ he ih =>
      cases hr' with
      | start _ => simp at heq
      | step hr' he' =>
          obtain ⟨rfl, hevents⟩ := List.cons.inj heq
          obtain rfl := ih hr' hevents
          exact hstep _ _ _ _ he he'

/-- Two entries of one history are the same, or one of them is newer. -/
theorem entry_cases {α : Type*} {newer newer' older older' : List α} {a a' : α}
    (h : newer ++ a :: older = newer' ++ a' :: older') : a = a' ∨ a ∈ newer' ∨ a' ∈ newer := by
  rcases List.append_eq_append_iff.mp h with ⟨mid, rfl, hmid⟩ | ⟨mid, rfl, hmid⟩
  · cases mid with
    | nil => exact .inl (List.cons.inj hmid).1
    | cons e mid => exact .inr (.inl (by simp [(List.cons.inj hmid).1]))
  · cases mid with
    | nil => exact .inl (List.cons.inj hmid).1.symm
    | cons e mid => exact .inr (.inr (by simp [(List.cons.inj hmid).1]))

/-- A part of the state together with what each event writes to it. -/
structure Register (S : System σ ε) (β : Type*) where
  view : σ → β
  write : σ → ε → Option β
  initial : β
  view_start : ∀ s, S.start s → view s = initial
  view_step : ∀ h s e s', Reaches S h s → S.step s e s' →
    view s' = (write s e).getD (view s)

namespace Register
variable {S : System σ ε}

/-- The newest write in a history. -/
def last (R : Register S β) (h : List (σ × ε)) : Option β :=
  h.findSome? fun p => R.write p.1 p.2

/-- The register holds its newest write, or its initial value when there is none. -/
theorem view_eq_last (R : Register S β) {h : List (σ × ε)} {s : σ} (hr : Reaches S h s) :
    R.view s = (R.last h).getD R.initial := by
  induction hr with
  | start hs => exact R.view_start _ hs
  | @step h s s' e hr he ih =>
      rw [R.view_step h s e s' hr he, ih]
      cases hw : R.write s e with
      | none => simp [last, hw]
      | some b => simp [last, hw]

/-- A register that has left its initial value was written, and the newest
write splits the history: older events lead to it, newer ones do not write. -/
theorem exists_write (R : Register S β) {h : List (σ × ε)} {s : σ} (hr : Reaches S h s)
    (hne : R.view s ≠ R.initial) :
    ∃ newer s₀ e older, h = newer ++ (s₀, e) :: older ∧ R.write s₀ e = some (R.view s) ∧
      (∀ p ∈ newer, R.write p.1 p.2 = none) ∧ Reaches S older s₀ := by
  have hview := R.view_eq_last hr
  cases hl : R.last h with
  | none => exact absurd (by rw [hview, hl]; rfl) hne
  | some b =>
      obtain ⟨newer, ⟨s₀, e⟩, older, rfl, hw, hnone⟩ := List.findSome?_eq_some_iff.mp hl
      have hb : R.view s = b := by rw [hview, hl]; rfl
      exact ⟨newer, s₀, e, older, rfl, by rw [hb]; exact hw, hnone, hr.cut.1⟩

/-- The newest write of a history decides the register, whatever came before. -/
theorem view_of_write (R : Register S β) {newer older : List (σ × ε)} {s₀ t : σ} {e : ε}
    {b : β} (hr : Reaches S (newer ++ (s₀, e) :: older) t) (hw : R.write s₀ e = some b)
    (hnone : ∀ p ∈ newer, R.write p.1 p.2 = none) : R.view t = b := by
  have hlast : R.last (newer ++ (s₀, e) :: older) = some b := by
    simp [last, List.findSome?_append, List.findSome?_eq_none_iff.mpr hnone, hw]
  rw [R.view_eq_last hr, hlast]
  rfl

/-- Over a stretch that does not write it a register keeps its value. -/
theorem view_origin (R : Register S β) {newer older : List (σ × ε)} {t : σ}
    (hr : Reaches S (newer ++ older) t) (hnone : ∀ p ∈ newer, R.write p.1 p.2 = none) :
    R.view t = R.view (origin newer t) := by
  induction newer generalizing t with
  | nil => rfl
  | cons p newer ih =>
      obtain ⟨s, e⟩ := p
      cases hr with
      | step hr he =>
          rw [R.view_step _ s e t hr he, hnone (s, e) List.mem_cons_self]
          exact ih hr fun p hp => hnone p (List.mem_cons_of_mem _ hp)

end Register

/-! ## Simulation -/

/-- A view under which every step of `S` is a step of `T` or changes nothing. -/
structure Simulation {τ δ : Type*} (S : System σ ε) (T : System τ δ) where
  view : σ → τ
  label : ε → Option δ
  view_start : ∀ s, S.start s → T.start (view s)
  view_step : ∀ h s e s', Reaches S h s → S.step s e s' → ∀ d, label e = some d →
    T.step (view s) d (view s')
  view_idle : ∀ h s e s', Reaches S h s → S.step s e s' → label e = none → view s' = view s

namespace Simulation
variable {τ δ : Type*} {S : System σ ε} {T : System τ δ}

/-- The history of `T` that a history of `S` stands for. -/
def image (M : Simulation S T) (h : List (σ × ε)) : List (τ × δ) :=
  h.filterMap fun p => (M.label p.2).map (M.view p.1, ·)

theorem image_append (M : Simulation S T) (newer older : List (σ × ε)) :
    M.image (newer ++ older) = M.image newer ++ M.image older := List.filterMap_append

theorem image_cons (M : Simulation S T) {e : ε} {d : δ} (hl : M.label e = some d) (s : σ)
    (h : List (σ × ε)) : M.image ((s, e) :: h) = (M.view s, d) :: M.image h := by
  simp [image, hl]

/-- Every run of `S` is, under the view, a run of `T`. -/
theorem reaches (M : Simulation S T) {h : List (σ × ε)} {s : σ} (hr : Reaches S h s) :
    Reaches T (M.image h) (M.view s) := by
  induction hr with
  | start hs => exact .start (M.view_start _ hs)
  | @step h s s' e hr he ih =>
      cases hl : M.label e with
      | none =>
          rw [M.view_idle h s e s' hr he hl]
          simpa [image, hl] using ih
      | some d =>
          have hstep := M.view_step h s e s' hr he d hl
          rw [M.image_cons hl]
          exact ih.step hstep

/-- A register of the simulating system, read through the view. -/
def pull (M : Simulation S T) (R : Register T β) : Register S β where
  view s := R.view (M.view s)
  write s e := (M.label e).bind (R.write (M.view s))
  initial := R.initial
  view_start s hs := R.view_start _ (M.view_start s hs)
  view_step h s e s' hr hstep := by
    cases hl : M.label e with
    | none => rw [M.view_idle h s e s' hr hstep hl]; rfl
    | some d => exact R.view_step _ _ _ _ (M.reaches hr) (M.view_step h s e s' hr hstep d hl)

/-- What holds of the image holds of the labelled entries of the history. -/
theorem forall_label (M : Simulation S T) {h : List (σ × ε)} {P : δ → Prop}
    (himage : ∀ p ∈ M.image h, P p.2) {s : σ} {e : ε} {d : δ} (hmem : (s, e) ∈ h)
    (hlabel : M.label e = some d) : P d :=
  himage (M.view s, d) (List.mem_filterMap.mpr ⟨(s, e), hmem, by simp [hlabel]⟩)

/-- What holds of the labelled entries of the history holds of the image. -/
theorem forall_image (M : Simulation S T) {h : List (σ × ε)} {P : δ → Prop}
    (hlabel : ∀ p ∈ h, ∀ d, M.label p.2 = some d → P d) : ∀ p ∈ M.image h, P p.2 := by
  intro p hp
  obtain ⟨⟨s, e⟩, hmem, heq⟩ := List.mem_filterMap.mp hp
  obtain ⟨d, hd, rfl⟩ := Option.map_eq_some_iff.mp heq
  exact hlabel _ hmem d hd

/-- An entry of the image comes from an entry of the history, at the same place. -/
theorem exists_entry (M : Simulation S T) {h : List (σ × ε)} {newer older : List (τ × δ)}
    {t : τ} {d : δ} (himage : M.image h = newer ++ (t, d) :: older) :
    ∃ hnewer s e holder, h = hnewer ++ (s, e) :: holder ∧ M.label e = some d ∧
      M.view s = t ∧ M.image hnewer = newer ∧ M.image holder = older := by
  obtain ⟨l₁, l₂, rfl, hn, hrest⟩ := List.filterMap_eq_append_iff.mp himage
  obtain ⟨idle, ⟨s, e⟩, holder, rfl, hidle, hentry, ho⟩ := List.filterMap_eq_cons_iff.mp hrest
  obtain ⟨d', hd', heq⟩ := Option.map_eq_some_iff.mp hentry
  obtain ⟨rfl, rfl⟩ : M.view s = t ∧ d' = d := by simpa using heq
  refine ⟨l₁ ++ idle, s, e, holder, by simp, hd', rfl, ?_, ho⟩
  have hidle' : idle.filterMap (fun p => (M.label p.2).map (M.view p.1, ·)) = [] :=
    List.filterMap_eq_nil_iff.mpr hidle
  rw [image, List.filterMap_append, hn, hidle', List.append_nil]

/-- Where single steps of `T` can be taken by runs of `S`, so can all its runs. What makes
this possible is a property `Ready` of the states, kept along the way. -/
theorem realises (M : Simulation S T) (hstart : ∀ t t', T.start t → T.start t' → t = t')
    (hstep : ∀ t d t₁ t₂, T.step t d t₁ → T.step t d t₂ → t₁ = t₂)
    (Ready : σ → Prop) (Able : δ → Prop) (Used : ε → Prop)
    (htaken : ∀ {h s d t}, Reaches S h s → Ready s → Able d → T.step (M.view s) d t →
      ∃ newer s', Reaches S (newer ++ h) s' ∧ Ready s' ∧ M.view s' = t ∧
        M.image newer = [(M.view s, d)] ∧ ∀ e ∈ newer, Used e.2)
    {g : List (τ × δ)} {h : List (σ × ε)} {s : σ} {t : τ} (hr : Reaches S h s) (hs : Ready s)
    (hg : Reaches T (g ++ M.image h) t) (hable : ∀ e ∈ g, Able e.2) :
    ∃ newer s', Reaches S (newer ++ h) s' ∧ Ready s' ∧ M.view s' = t ∧ M.image newer = g ∧
      ∀ e ∈ newer, Used e.2 := by
  induction g generalizing t with
  | nil => exact ⟨[], s, hr, hs, (M.reaches hr).unique hstart hstep hg rfl, rfl, by simp⟩
  | cons entry g ih =>
      obtain ⟨t₀, d⟩ := entry
      cases hg with
      | step hg hd =>
          obtain ⟨older, s₀, hr₀, hs₀, rfl, himage, hused⟩ :=
            ih hg fun e he => hable e (List.mem_cons_of_mem _ he)
          obtain ⟨newer, s', hr', hs', hview, himage', hused'⟩ :=
            htaken hr₀ hs₀ (hable _ List.mem_cons_self) hd
          refine ⟨newer ++ older, s', by rwa [List.append_assoc], hs', hview, ?_, ?_⟩
          · rw [M.image_append, himage', himage, List.singleton_append]
          · intro e he
            exact (List.mem_append.mp he).elim (hused' e) (hused e)

end Simulation

/-! ## A program beside a system -/

section Beside
variable {π : Type*}

/-- A program with the control states `π` whose steps the steps of the system interleave. -/
def System.beside (S : System σ ε) (entry : π) (act : σ × π → σ × π → Prop) :
    System (σ × π) (Option ε) where
  start s := S.start s.1 ∧ s.2 = entry
  step s e s' :=
    match e with
    | some e => S.step s.1 e s'.1 ∧ s'.2 = s.2
    | none => act s s'

/-- What the program's own steps and everybody else's keep holds in every interleaving.
A program that acts by steps of the system does not lead out of its states. -/
theorem Reaches.beside_invariant {S : System σ ε} {entry : π} {act : σ × π → σ × π → Prop}
    {P : σ × π → Prop} (hstart : ∀ s, S.start s → P (s, entry))
    (hother : ∀ h s e s' p, Reaches S h s → S.step s e s' → P (s, p) → P (s', p))
    (hown : ∀ h s s', Reaches S h s.1 → act s s' → P s →
      P s' ∧ (s'.1 = s.1 ∨ ∃ e, S.step s.1 e s'.1))
    {h : List ((σ × π) × Option ε)} {s : σ × π} (hr : Reaches (S.beside entry act) h s) :
    P s ∧ ∃ h', Reaches S h' s.1 := by
  induction hr with
  | @start s hs =>
      obtain ⟨hs, hp⟩ := hs
      have hstarted := hstart s.1 hs
      rw [← hp] at hstarted
      exact ⟨hstarted, [], .start hs⟩
  | @step h s s' e hr he ih =>
      obtain ⟨hP, h', hr'⟩ := ih
      cases e with
      | some e =>
          obtain ⟨hstep, hp⟩ := he
          have hkept := hother h' s.1 e s'.1 s.2 hr' hstep hP
          rw [← hp] at hkept
          exact ⟨hkept, _, hr'.step hstep⟩
      | none =>
          obtain ⟨hkept, hsame | ⟨e, hstep⟩⟩ := hown h' s s' hr' he hP
          · exact ⟨hkept, h', hsame ▸ hr'⟩
          · exact ⟨hkept, _, hr'.step hstep⟩

end Beside

end AlienIdTransferHook.History
