import DotMatrix.Exec

/-!
# Running operations

How operations run one after another, and statements about every run of one.

* `Exec.bind_of_ok`, `Exec.bind_of_error` — the outcome of a sequence from that of its first part.
* `Exec.Then x Q s` — what holds when `x` has succeeded on `s`.
* `Exec.Always R x` — whatever state `x` starts from, `R` allows the state it ends in and what it
  reports on the way.  A relation with `Chains R` need only be checked for the parts of an
  operation (`Always.pure`, `Always.bind`, …).
-/

set_option autoImplicit false

namespace DotMatrix

variable {σ α β : Type}

/-! ## Outcomes -/

namespace Outcome

/-- The outcome with what was reported before it. -/
def after (o : Outcome σ α) (records : Array Record) : Outcome σ α :=
  { o with records := records ++ o.records }

@[simp] theorem after_empty (o : Outcome σ α) : o.after #[] = o := by
  simp [after]

@[simp] theorem after_after (o : Outcome σ α) (r s : Array Record) :
    (o.after s).after r = o.after (r ++ s) := by
  simp [after, Array.append_assoc]

@[simp] theorem result_after (o : Outcome σ α) (r : Array Record) :
    (o.after r).result = o.result := rfl

@[simp] theorem state_after (o : Outcome σ α) (r : Array Record) : (o.after r).state = o.state :=
  rfl

@[simp] theorem records_after (o : Outcome σ α) (r : Array Record) :
    (o.after r).records = r ++ o.records := rfl

end Outcome

namespace Exec

/-! ## Sequences -/

section

variable {x : Exec σ α} {s t : σ} {records : Array Record}

theorem bind_of_ok {a : α} (h : x s = ⟨.ok a, t, records⟩) (f : α → Exec σ β) :
    (x >>= f) s = (f a t).after records := by
  show Exec.bind x f s = _
  rw [Exec.bind, h]
  rfl

theorem bind_of_error {fault : Fault} (h : x s = ⟨.error fault, t, records⟩) (f : α → Exec σ β) :
    (x >>= f) s = ⟨.error fault, t, records⟩ := by
  show Exec.bind x f s = _
  rw [Exec.bind, h]

theorem bind_congr {y : Exec σ α} (h : x s = y s) (f : α → Exec σ β) :
    (x >>= f) s = (y >>= f) s := by
  show Exec.bind x f s = Exec.bind y f s
  rw [Exec.bind, Exec.bind, h]

/-- A sequence that succeeds is two operations that succeed. -/
theorem bind_eq_ok {f : α → Exec σ β} {b : β} (h : ((x >>= f) s).result = .ok b) :
    ∃ a, (x s).result = .ok a ∧ (f a (x s).state).result = .ok b ∧
      (x >>= f) s = (f a (x s).state).after (x s).records := by
  rcases hx : x s with ⟨fault | a, t, records⟩
  · rw [bind_of_error hx] at h
    cases h
  · rw [bind_of_ok hx] at h ⊢
    exact ⟨a, rfl, h, rfl⟩

/-- What such a sequence leaves is put together from what the two leave. -/
theorem bind_eq_ok_iff {f : α → Exec σ β} {b : β} {u : σ} :
    (x >>= f) s = ⟨.ok b, u, records⟩ ↔ ∃ a t before after,
      x s = ⟨.ok a, t, before⟩ ∧ f a t = ⟨.ok b, u, after⟩ ∧ records = before ++ after := by
  constructor
  · intro h
    rcases hx : x s with ⟨fault | a, t, before⟩
    · rw [bind_of_error hx] at h
      cases h
    · rw [bind_of_ok hx] at h
      rcases hf : f a t with ⟨result, u', after⟩
      rw [hf] at h
      cases h
      exact ⟨a, t, before, after, rfl, hf, rfl⟩
  · rintro ⟨a, t, before, after, hx, hf, rfl⟩
    rw [bind_of_ok hx, hf]
    rfl

/-- A sequence that fails does so in the first of two operations, or in the second. -/
theorem bind_eq_error {f : α → Exec σ β} {fault : Fault}
    (h : ((x >>= f) s).result = .error fault) :
    (x s).result = .error fault ∨
      ∃ a, (x s).result = .ok a ∧ (f a (x s).state).result = .error fault := by
  rcases hx : x s with ⟨fault | a, t, records⟩
  · rw [bind_of_error hx] at h
    cases h
    exact Or.inl rfl
  · rw [bind_of_ok hx] at h
    exact Or.inr ⟨a, rfl, h⟩

end

section

variable (s : σ)

@[simp] theorem pure_apply (a : α) : (pure a : Exec σ α) s = ⟨.ok a, s, #[]⟩ := rfl

@[simp] theorem fail_apply (fault : Fault) : (fail fault : Exec σ α) s = ⟨.error fault, s, #[]⟩ :=
  rfl

@[simp] theorem ofExcept_ok (a : α) : (ofExcept (.ok a) : Exec σ α) = pure a := rfl

@[simp] theorem modify_apply (f : σ → σ) : modify f s = ⟨.ok (), f s, #[]⟩ := rfl

@[simp] theorem bind_gets (f : σ → α) (k : α → Exec σ β) : (gets f >>= k) s = k (f s) s :=
  (bind_of_ok (x := gets f) rfl k).trans (Outcome.after_empty _)

@[simp] theorem bind_modify (f : σ → σ) (k : Unit → Exec σ β) :
    (modify f >>= k) s = k () (f s) :=
  (bind_of_ok (x := modify f) rfl k).trans (Outcome.after_empty _)

@[simp] theorem bind_report (notice : Notice) (k : Unit → Exec σ β) :
    (report notice >>= k) s = (k () s).after #[.notice notice] :=
  bind_of_ok (x := report notice) rfl k

end

/-! ## Operations that succeed -/

section

variable {x : Exec σ α} {s : σ}

/-- What holds when an operation has succeeded. -/
def Then (x : Exec σ α) (Q : α → σ → Prop) (s : σ) : Prop :=
  ∀ a, (x s).result = .ok a → Q a (x s).state

theorem Then.mono {P Q : α → σ → Prop} (h : x.Then P s) (hpq : ∀ a t, P a t → Q a t) :
    x.Then Q s := fun a ha ↦ hpq a _ (h a ha)

theorem Then.congr {y : Exec σ α} (h : y s = x s) {Q : α → σ → Prop} (hx : x.Then Q s) :
    y.Then Q s := by
  rw [Then, h]
  exact hx

/-- Sequences agree if what follows agrees where it is run. -/
theorem Then.bind_congr {f g : α → Exec σ β} (h : x.Then (fun a t ↦ f a t = g a t) s) :
    (x >>= f) s = (x >>= g) s := by
  rcases hx : x s with ⟨fault | a, t, records⟩
  · rw [bind_of_error hx, bind_of_error hx]
  · have hfg := h a
    rw [hx] at hfg
    rw [bind_of_ok hx, bind_of_ok hx, hfg rfl]

theorem result_bind_of_error {f : α → Exec σ β} {fault : Fault}
    (h : (x s).result = .error fault) : ((x >>= f) s).result = .error fault := by
  rcases hx : x s with ⟨fault' | a, t, records⟩ <;> rw [hx] at h
  · rw [bind_of_error hx]
    exact congrArg Except.error (Except.error.inj h)
  · cases h

/-- A sequence stops where its second part does, whenever that is not what should follow. -/
theorem result_bind_of_not_then {Q : α → σ → Prop} {f : α → Exec σ β} {fault : Fault}
    (h : ¬ x.Then Q s) (hf : ∀ a t, ¬ Q a t → (f a t).result = .error fault) :
    ((x >>= f) s).result = .error fault := by
  obtain ⟨a, ha⟩ := Classical.not_forall.1 h
  obtain ⟨ha, hq⟩ := Classical.not_imp.1 ha
  rcases hx : x s with ⟨fault' | b, t, records⟩ <;> rw [hx] at ha hq
  · cases ha
  · obtain rfl : b = a := Except.ok.inj ha
    rw [bind_of_ok hx]
    exact hf b t hq

/-- An invariant of both parts is one of the sequence. -/
theorem state_bind {I : σ → Prop} {f : α → Exec σ β} (hx : I (x s).state)
    (hf : ∀ a t, I t → I (f a t).state) : I ((x >>= f) s).state := by
  rcases h : x s with ⟨fault | a, t, records⟩ <;> rw [h] at hx
  · rwa [bind_of_error h]
  · rw [bind_of_ok h]
    exact hf a t hx

end

/-! ## Every run of an operation -/

/-- What `view` shows of the state stays as it is, and only faults that this accounts for stop the
operation. -/
def Looks {ν : Type} (view : σ → ν) (stops : ν → Fault → Prop) (x : Exec σ α) : Prop :=
  ∀ s, view (x s).state = view s ∧ ∀ fault, (x s).result = .error fault → stops (view s) fault

theorem Looks.pure {ν : Type} {view : σ → ν} {stops : ν → Fault → Prop} (a : α) :
    Looks view stops (Pure.pure a) := fun _ ↦ ⟨rfl, fun _ h ↦ by cases h⟩

theorem Looks.bind {ν : Type} {view : σ → ν} {stops : ν → Fault → Prop} {x : Exec σ α}
    {f : α → Exec σ β} (hx : Looks view stops x) (hf : ∀ a, Looks view stops (f a)) :
    Looks view stops (x >>= f) := by
  intro s
  obtain ⟨hs, he⟩ := hx s
  rcases ho : x s with ⟨fault | a, t, records⟩ <;> rw [ho] at hs he
  · rw [bind_of_error ho]
    exact ⟨hs, fun fault' h ↦ he fault' (by cases h; rfl)⟩
  · have hsame : view t = view s := hs
    obtain ⟨ht, hte⟩ := hf a t
    rw [hsame] at ht hte
    rw [bind_of_ok ho]
    exact ⟨ht, hte⟩

/-- Every run of `x` ends in a state and leaves records that `R` allows. -/
def Always (R : σ → Array Record → σ → Prop) (x : Exec σ α) : Prop :=
  ∀ s, R s (x s).records (x s).state

/-- A relation between states, by what is reported between them, that runs can be chained in. -/
structure Chains (R : σ → Array Record → σ → Prop) : Prop where
  refl : ∀ s, R s #[] s
  trans : ∀ {s t u records more}, R s records t → R t more u → R s (records ++ more) u

namespace Always

variable {R : σ → Array Record → σ → Prop}

theorem pure (h : Chains R) (a : α) : Always R (Pure.pure a : Exec σ α) := h.refl

theorem fail (h : Chains R) (fault : Fault) : Always R (Exec.fail fault : Exec σ α) := h.refl

theorem gets (h : Chains R) (f : σ → α) : Always R (Exec.gets f) := h.refl

theorem bind (h : Chains R) {x : Exec σ α} {f : α → Exec σ β} (hx : Always R x)
    (hf : ∀ a, Always R (f a)) : Always R (x >>= f) := by
  intro s
  have h1 := hx s
  rcases hs : x s with ⟨fault | a, t, records⟩
  · rw [bind_of_error hs]
    rwa [hs] at h1
  · rw [bind_of_ok hs]
    rw [hs] at h1
    exact h.trans h1 (hf a t)

end Always

end Exec

end DotMatrix
