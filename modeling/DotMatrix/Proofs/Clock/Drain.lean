import Mathlib.Algebra.GroupWithZero.Nat
import DotMatrix.Clock
import DotMatrix.Proofs.Exec

/-!
# Draining the clock

`Timed.drain` is a loop that runs for as long as something falls due, so what it does in a window
is described here by a relation: `Drains fire limit m firings o` says that the loop comes to an end
on `m` with the outcome `o`, and lists the events it fired on the way.

* `Drains.drain_eq` — the relation is about the loop: whoever drains with the outcome `o` is
  answered `o` by `Timed.drain`.
* `Drains.append`, `Drains.split` — a window can be cut anywhere.  Draining up to `limit` and then
  up to a later end is draining up to that end at once, with the same firings in the same order.
* `Returns fire duration m` — an advance by `duration` comes to an end.
* `returns_add_iff` and `advance_add` — the same two facts for `Timed.advance`.
-/

set_option autoImplicit false

namespace DotMatrix

variable {ε σ : Type}

/-! ## What is due -/

namespace Clock

/-- `event` waits at the front, with `rest` behind it, and is due before `limit`. -/
def Due (c : Clock ε) (limit : Nat) (event : Event ε) (rest : List (Event ε)) : Prop :=
  c.queue = event :: rest ∧ event.target < limit

theorem Due.mem {c : Clock ε} {limit : Nat} {event : Event ε} {rest : List (Event ε)}
    (h : c.Due limit event rest) : event ∈ c.queue := by
  rw [h.1]
  exact List.mem_cons_self

theorem Due.mem_of_rest {c : Clock ε} {limit : Nat} {event : Event ε} {rest : List (Event ε)}
    (h : c.Due limit event rest) {e : Event ε} (he : e ∈ rest) : e ∈ c.queue := by
  rw [h.1]
  exact List.mem_cons_of_mem event he

theorem popDue?_eq_some {c : Clock ε} {limit : Nat} {event : Event ε} {rest : List (Event ε)}
    (h : c.Due limit event rest) :
    c.popDue? limit = some (event.action, { c with now := event.target, queue := rest }) := by
  rw [popDue?, h.1]
  exact if_pos h.2

/-- Either nothing is due or the event at the front is. -/
theorem popDue?_eq_none_or (c : Clock ε) (limit : Nat) :
    c.popDue? limit = none ∨ ∃ event rest, c.Due limit event rest := by
  rw [popDue?]
  split
  · exact Or.inl rfl
  · rename_i event rest hq
    rcases Nat.lt_or_ge event.target limit with h | h
    · exact Or.inr ⟨event, rest, hq, h⟩
    · exact Or.inl (if_neg (Nat.not_lt.2 h))

/-- Nothing is due when every event that waits is later. -/
theorem popDue?_eq_none {c : Clock ε} {limit : Nat} (h : ∀ event ∈ c.queue, limit ≤ event.target) :
    c.popDue? limit = none := by
  rcases c.popDue?_eq_none_or limit with hn | ⟨event, rest, hd⟩
  · exact hn
  · exact absurd hd.2 (Nat.not_lt.2 (h event hd.mem))

theorem not_due_of_popDue?_eq_none {c : Clock ε} {limit : Nat} (h : c.popDue? limit = none)
    (event : Event ε) (rest : List (Event ε)) : ¬ c.Due limit event rest := by
  intro hd
  rw [popDue?_eq_some hd] at h
  cases h

end Clock

namespace Timed

/-- The machine at the moment of `event`, with only `rest` still waiting. -/
def taking (m : Timed ε σ) (event : Event ε) (rest : List (Event ε)) : Timed ε σ :=
  { m with clock := { m.clock with now := event.target, queue := rest } }

/-- The machine at another time. -/
def atTime (m : Timed ε σ) (time : Nat) : Timed ε σ :=
  { m with clock := { m.clock with now := time } }

@[simp] theorem now_taking (m : Timed ε σ) (event : Event ε) (rest : List (Event ε)) :
    (m.taking event rest).now = event.target := rfl

@[simp] theorem queue_taking (m : Timed ε σ) (event : Event ε) (rest : List (Event ε)) :
    (m.taking event rest).clock.queue = rest := rfl

@[simp] theorem body_taking (m : Timed ε σ) (event : Event ε) (rest : List (Event ε)) :
    (m.taking event rest).body = m.body := rfl

@[simp] theorem now_atTime (m : Timed ε σ) (time : Nat) : (m.atTime time).now = time := rfl

@[simp] theorem queue_atTime (m : Timed ε σ) (time : Nat) :
    (m.atTime time).clock.queue = m.clock.queue := rfl

@[simp] theorem body_atTime (m : Timed ε σ) (time : Nat) : (m.atTime time).body = m.body := rfl

@[simp] theorem popDue?_atTime (m : Timed ε σ) (time limit : Nat) :
    (m.atTime time).clock.popDue? limit = none ↔ m.clock.popDue? limit = none := by
  rw [Clock.popDue?, Clock.popDue?, queue_atTime]
  split
  · exact Iff.rfl
  · split <;> simp

/-- An event that fired. -/
structure Firing (ε σ : Type) where
  event : Event ε
  /-- The machine that its action was run on. -/
  before : Timed ε σ
  /-- The machine that its action left behind. -/
  after : Timed ε σ

/-! ## The loop as a relation -/

variable {fire : ε → Exec (Timed ε σ) Unit} {limit : Nat} {m : Timed ε σ}

/-- Firing what is due before `limit` on `m` comes to an end with the outcome `o`, and these are
the events that fired, in order. -/
inductive Drains (fire : ε → Exec (Timed ε σ) Unit) (limit : Nat) :
    Timed ε σ → List (Firing ε σ) → Outcome (Timed ε σ) Unit → Prop
  /-- Nothing is due, and the clock is set to the end of the window. -/
  | done {m : Timed ε σ} (h : m.clock.popDue? limit = none) :
      Drains fire limit m [] ⟨.ok (), m.atTime limit, #[]⟩
  /-- The first action fails, which ends the window early. -/
  | stop {m m' : Timed ε σ} {event : Event ε} {rest : List (Event ε)} {fault : Fault}
      {records : Array Record} (hd : m.clock.Due limit event rest)
      (hf : fire event.action (m.taking event rest) = ⟨.error fault, m', records⟩) :
      Drains fire limit m [⟨event, m.taking event rest, m'⟩] ⟨.error fault, m', records⟩
  /-- The first action succeeds, and the window goes on from where it left the machine. -/
  | next {m m' : Timed ε σ} {event : Event ε} {rest : List (Event ε)} {records : Array Record}
      {firings : List (Firing ε σ)} {o : Outcome (Timed ε σ) Unit}
      (hd : m.clock.Due limit event rest)
      (hf : fire event.action (m.taking event rest) = ⟨.ok (), m', records⟩)
      (h : Drains fire limit m' firings o) :
      Drains fire limit m (⟨event, m.taking event rest, m'⟩ :: firings) (o.after records)

/-- One turn of the loop. -/
theorem drain_of_due {event : Event ε} {rest : List (Event ε)}
    (hd : m.clock.Due limit event rest) (records : Array Record) :
    drain fire limit records m = match fire event.action (m.taking event rest) with
      | ⟨.ok (), m', more⟩ => drain fire limit (records ++ more) m'
      | ⟨.error fault, m', more⟩ => ⟨.error fault, m', records ++ more⟩ := by
  rw [drain, Clock.popDue?_eq_some hd]
  rfl

/-- **The relation is about the loop.** -/
theorem Drains.drain_eq {firings : List (Firing ε σ)} {o : Outcome (Timed ε σ) Unit}
    (h : Drains fire limit m firings o) :
    ∀ records : Array Record, drain fire limit records m = o.after records := by
  induction h with
  | done h =>
    intro records
    rw [drain, h]
    simp [Outcome.after, atTime]
  | @stop m m' event rest fault more hd hf =>
    intro records
    rw [drain_of_due hd, hf]
    rfl
  | @next m m' event rest more firings o hd hf _ ih =>
    intro records
    rw [drain_of_due hd, hf]
    exact (ih (records ++ more)).trans (Outcome.after_after o records more).symm

/-- What time it is does not matter to the loop: it sets the clock before it looks at it. -/
theorem Drains.of_atTime {time : Nat} {firings : List (Firing ε σ)}
    {o : Outcome (Timed ε σ) Unit} (h : Drains fire limit (m.atTime time) firings o) :
    Drains fire limit m firings o := by
  generalize hm : m.atTime time = m₁ at h
  cases h with
  | done h =>
    subst hm
    exact .done ((popDue?_atTime m time limit).1 h)
  | stop hd hf =>
    subst hm
    exact .stop hd hf
  | next hd hf h =>
    subst hm
    exact .next hd hf h

/-- What fired was run on the machine at its moment and left what it is said to have left. -/
theorem Drains.fired {firings : List (Firing ε σ)} {o : Outcome (Timed ε σ) Unit}
    (h : Drains fire limit m firings o) :
    ∀ f ∈ firings, ∃ result records, fire f.event.action f.before = ⟨result, f.after, records⟩ := by
  induction h with
  | done => exact fun f hf ↦ absurd hf List.not_mem_nil
  | stop hd hf =>
    intro f hmem
    obtain rfl := List.mem_singleton.1 hmem
    exact ⟨_, _, hf⟩
  | next hd hf _ ih =>
    intro f hmem
    rcases List.mem_cons.1 hmem with rfl | hmem
    · exact ⟨_, _, hf⟩
    · exact ih f hmem

/-- What waits when the window is over waited when it began, or a task that fired let it wait. -/
theorem Drains.mem_queue {firings : List (Firing ε σ)} {o : Outcome (Timed ε σ) Unit}
    (h : Drains fire limit m firings o) {e : Event ε} (he : e ∈ o.state.clock.queue) :
    e ∈ m.clock.queue ∨
      ∃ f ∈ firings, e ∈ f.after.clock.queue ∧ e ∉ f.before.clock.queue := by
  induction h with
  | done => exact Or.inl he
  | @stop m m' event rest fault records hd hf =>
    by_cases hrest : e ∈ rest
    · exact Or.inl (hd.mem_of_rest hrest)
    · exact Or.inr ⟨_, List.mem_cons_self, he, hrest⟩
  | @next m m' event rest records firings o hd hf _ ih =>
    rcases ih he with hafter | ⟨f, hmem, hf⟩
    · by_cases hrest : e ∈ rest
      · exact Or.inl (hd.mem_of_rest hrest)
      · exact Or.inr ⟨_, List.mem_cons_self, hafter, hrest⟩
    · exact Or.inr ⟨f, List.mem_cons_of_mem _ hmem, hf⟩

/-! ## Cutting a window -/

/-- A window that fails before `limit` fails in the same way when its end is later. -/
theorem Drains.of_error {limit' : Nat} (hle : limit ≤ limit') {firings : List (Firing ε σ)}
    {o : Outcome (Timed ε σ) Unit} (h : Drains fire limit m firings o) {fault : Fault}
    (he : o.result = .error fault) : Drains fire limit' m firings o := by
  induction h with
  | done => cases he
  | stop hd hf => exact .stop ⟨hd.1, Nat.lt_of_lt_of_le hd.2 hle⟩ hf
  | next hd hf _ ih => exact .next ⟨hd.1, Nat.lt_of_lt_of_le hd.2 hle⟩ hf (ih he)

/-- Draining up to `limit` and from there up to a later end is draining up to that end. -/
theorem Drains.append {limit' : Nat} (hle : limit ≤ limit') {firings firings' : List (Firing ε σ)}
    {o o' : Outcome (Timed ε σ) Unit} (h : Drains fire limit m firings o) (hok : o.result = .ok ())
    (h' : Drains fire limit' o.state firings' o') :
    Drains fire limit' m (firings ++ firings') (o'.after o.records) := by
  induction h with
  | done => simpa using h'.of_atTime
  | stop => cases hok
  | @next m m' event rest records firings o hd hf _ ih =>
    have h1 := Drains.next ⟨hd.1, Nat.lt_of_lt_of_le hd.2 hle⟩ hf (ih hok h')
    rwa [Outcome.after_after] at h1

/-- Draining up to an end can be interrupted at any earlier `limit`: the first part fails, and with
it the whole, or the whole goes on from where the first part ended. -/
theorem Drains.split {limit' : Nat} (hle : limit ≤ limit') {firings : List (Firing ε σ)}
    {o : Outcome (Timed ε σ) Unit} (h : Drains fire limit' m firings o) :
    ∃ first o₁, Drains fire limit m first o₁ ∧
      (o₁.result = .ok () → ∃ second o₂, Drains fire limit' o₁.state second o₂) := by
  induction h with
  | @done m h =>
    have hn : m.clock.popDue? limit = none := by
      rcases m.clock.popDue?_eq_none_or limit with h1 | ⟨event, rest, hd⟩
      · exact h1
      · have hd' : m.clock.Due limit' event rest := ⟨hd.1, Nat.lt_of_lt_of_le hd.2 hle⟩
        exact absurd hd' (Clock.not_due_of_popDue?_eq_none h event rest)
    exact ⟨[], _, .done hn, fun _ ↦ ⟨[], _, .done ((popDue?_atTime m limit limit').2 h)⟩⟩
  | @stop m m' event rest fault records hd hf =>
    rcases Nat.lt_or_ge event.target limit with ht | ht
    · exact ⟨_, _, .stop ⟨hd.1, ht⟩ hf, by rintro ⟨⟩⟩
    · have hn : m.clock.popDue? limit = none := by
        rw [Clock.popDue?, hd.1]
        exact if_neg (Nat.not_lt.2 ht)
      exact ⟨[], _, .done hn, fun _ ↦ ⟨_, _, .stop (m := m.atTime limit) hd hf⟩⟩
  | @next m m' event rest records firings o hd hf h ih =>
    rcases Nat.lt_or_ge event.target limit with ht | ht
    · obtain ⟨first, o₁, h₁, h₂⟩ := ih
      exact ⟨_, _, .next ⟨hd.1, ht⟩ hf h₁, h₂⟩
    · have hn : m.clock.popDue? limit = none := by
        rw [Clock.popDue?, hd.1]
        exact if_neg (Nat.not_lt.2 ht)
      exact ⟨[], _, .done hn, fun _ ↦ ⟨_, _, .next (m := m.atTime limit) hd hf h⟩⟩

/-! ## Coming to an end -/

/-- A loop comes to an end when every turn succeeds and uses up some of what is left to do; what
every turn keeps holds when it does. -/
theorem Drains.exists_of_work {P : Array Record → Timed ε σ → Prop} {work : Timed ε σ → Nat}
    (turn : ∀ {log m event rest}, P log m → m.clock.Due limit event rest →
      ∃ m' records, fire event.action (m.taking event rest) = ⟨.ok (), m', records⟩ ∧
        P (log ++ records) m' ∧ work m' < work m)
    {log : Array Record} (h : P log m) :
    ∃ firings last records, Drains fire limit m firings ⟨.ok (), last.atTime limit, records⟩ ∧
      firings.length ≤ work m ∧ last.clock.popDue? limit = none ∧ P (log ++ records) last := by
  generalize hn : work m = n
  induction n using Nat.strongRecOn generalizing m log with
  | ind n ih =>
    rcases m.clock.popDue?_eq_none_or limit with hnone | ⟨event, rest, hd⟩
    · exact ⟨[], m, #[], .done hnone, Nat.zero_le n, hnone, by rwa [Array.append_empty]⟩
    · obtain ⟨m', records, hf, hp, hlt⟩ := turn h hd
      obtain ⟨firings, last, more, hdrain, hlen, hnone, hlast⟩ :=
        ih (work m') (hn ▸ hlt) hp rfl
      refine ⟨_, last, records ++ more, .next hd hf hdrain, ?_, hnone, ?_⟩
      · rw [List.length_cons]
        omega
      · rwa [← Array.append_assoc]

/-! ## Letting time pass -/

/-- Letting `duration` cycles pass on `m` comes to an end. -/
def Returns (fire : ε → Exec (Timed ε σ) Unit) (duration : Nat) (m : Timed ε σ) : Prop :=
  ∃ firings o, Drains fire (m.now + duration) m firings o

/-- Letting time pass is draining the clock to the end of the window. -/
theorem Drains.advance_eq {duration : Nat} {firings : List (Firing ε σ)}
    {o : Outcome (Timed ε σ) Unit} (h : Drains fire (m.now + duration) m firings o) :
    advance fire duration m = o :=
  (h.drain_eq #[]).trans o.after_empty

/-- While every event that waits is later, only the time changes. -/
theorem advance_of_waiting {duration : Nat}
    (h : ∀ event ∈ m.clock.queue, m.now + duration ≤ event.target) :
    advance fire duration m = ⟨.ok (), m.atTime (m.now + duration), #[]⟩ :=
  (Drains.done (Clock.popDue?_eq_none h)).advance_eq

/-- A successful advance leaves the clock at the end of its window. -/
theorem Drains.now_of_ok {firings : List (Firing ε σ)} {o : Outcome (Timed ε σ) Unit}
    (h : Drains fire limit m firings o) (hok : o.result = .ok ()) : o.state.now = limit := by
  induction h with
  | done => rfl
  | stop => cases hok
  | next _ _ _ ih => exact ih hok

theorem returns_add_iff {a b : Nat} :
    Returns fire (a + b) m ↔ Returns fire a m ∧
      ((advance fire a m).result = .ok () → Returns fire b (advance fire a m).state) := by
  have hle : m.now + a ≤ m.now + (a + b) := by omega
  constructor
  · rintro ⟨firings, o, h⟩
    obtain ⟨first, o₁, h₁, h₂⟩ := h.split hle
    refine ⟨⟨first, o₁, h₁⟩, fun hok ↦ ?_⟩
    rw [h₁.advance_eq] at hok ⊢
    have hnow : o₁.state.now + b = m.now + (a + b) := by rw [h₁.now_of_ok hok]; omega
    rw [Returns, hnow]
    exact h₂ hok
  · rintro ⟨⟨first, o₁, h₁⟩, h₂⟩
    rw [h₁.advance_eq] at h₂
    rcases hr : o₁.result with fault | ⟨⟩
    · exact ⟨first, o₁, h₁.of_error hle hr⟩
    · obtain ⟨second, o₂, h₂⟩ := h₂ hr
      rw [h₁.now_of_ok hr, Nat.add_assoc] at h₂
      exact ⟨_, _, h₁.append hle hr h₂⟩

/-- **Time passes in one go or in two**: the outcome is the same, faults and records included. -/
theorem advance_add {a b : Nat} (h : Returns fire (a + b) m) :
    advance fire (a + b) m = (do advance fire a; advance fire b : Exec (Timed ε σ) Unit) m := by
  have hle : m.now + a ≤ m.now + (a + b) := by omega
  obtain ⟨⟨first, o₁, h₁⟩, h₂⟩ := returns_add_iff.1 h
  rw [h₁.advance_eq] at h₂
  obtain ⟨r, m₁, records⟩ := o₁
  rcases r with fault | ⟨⟩
  · rw [Exec.bind_of_error h₁.advance_eq]
    exact (h₁.of_error hle rfl).advance_eq
  · obtain ⟨second, o₂, h₂⟩ := h₂ rfl
    have hnow : m₁.now = m.now + a := h₁.now_of_ok rfl
    have h₃ : Drains fire (m.now + (a + b)) m₁ second o₂ := by
      rwa [hnow, Nat.add_assoc] at h₂
    rw [(h₁.append hle rfl h₃).advance_eq, Exec.bind_of_ok h₁.advance_eq, h₂.advance_eq]

/-! ## Letting time pass in pieces -/

/-- Every advance by one of the pieces comes to an end, one after another for as long as none
fails. -/
def ReturnsAll (fire : ε → Exec (Timed ε σ) Unit) : List Nat → Timed ε σ → Prop
  | [], _ => True
  | a :: pieces, m => Returns fire a m ∧
    ((advance fire a m).result = .ok () → ReturnsAll fire pieces (advance fire a m).state)

theorem returns_sum_iff (a : Nat) (pieces : List Nat) :
    Returns fire (a :: pieces).sum m ↔ ReturnsAll fire (a :: pieces) m := by
  induction pieces generalizing a m with
  | nil => simp [ReturnsAll]
  | cons b pieces ih =>
    rw [List.sum_cons, returns_add_iff, ReturnsAll]
    exact and_congr_right fun _ ↦ imp_congr_right fun _ ↦ ih b

/-- Time passes in any number of pieces. -/
theorem forM_advance (a : Nat) (pieces : List Nat) (h : Returns fire (a :: pieces).sum m) :
    (a :: pieces).forM (advance fire) m = advance fire (a :: pieces).sum m := by
  induction pieces generalizing a m with
  | nil =>
    show (advance fire a >>= fun _ ↦ pure ()) m = _
    rw [bind_pure_unit, List.sum_singleton]
  | cons b pieces ih =>
    rw [List.sum_cons] at h ⊢
    rw [advance_add h]
    show Exec.bind (advance fire a) (fun _ ↦ (b :: pieces).forM (advance fire)) m
      = Exec.bind (advance fire a) (fun _ ↦ advance fire (b :: pieces).sum) m
    have h₂ := (returns_add_iff.1 h).2
    rw [Exec.bind, Exec.bind]
    generalize advance fire a m = o at h₂
    obtain ⟨r, m₁, records⟩ := o
    rcases r with fault | ⟨⟩
    · rfl
    · dsimp only
      rw [ih b (h₂ rfl)]

end Timed

end DotMatrix
