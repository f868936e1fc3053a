import Mathlib.Logic.Function.Basic

/-!
# Tun2socks.Go.Deadline

Read deadlines: connections on which `SetReadDeadline(time.Now().Add(timeout))` is called again
and again, by whoever uses them.

A read that returns at or after the deadline of its connection returns a timeout, and one that
returns before it does not. Time passes on its own. What was done and when is kept in a log, and
`Kept` says what the log can contain: a read times out only when every deadline set before has
passed, and returns anything else only while the latest of them is ahead. What else happens can be
noted in the log, so that it has its place among the rest.
-/

namespace Tun2socks.Go.Deadline

/-- What is done to a connection `k`: its deadline is set, by `a`, or a read returns. -/
inductive Event (κ α : Type)
  | set (k : κ) (a : α)
  | read (k : κ)
  | timeout (k : κ)
  /-- something else, that `a` has done -/
  | note (a : α)
  deriving DecidableEq

/-- The time, the deadlines, and what has been done and when. -/
structure State (κ α : Type) where
  clock : Nat
  deadline : κ → Option Nat
  log : List (Nat × Event κ α)

namespace State

variable {κ α : Type}

/-- No deadline is set. -/
def start : State κ α := ⟨0, fun _ => none, []⟩

/-- The connection has a deadline, and it is not ahead. -/
def expired (s : State κ α) (k : κ) : Bool := (s.deadline k).any fun x => x ≤ s.clock

/-- The events that are possible now. -/
def allows (s : State κ α) : Event κ α → Bool
  | .set _ _ | .note _ => true
  | .read k => !s.expired k
  | .timeout k => s.expired k

/-- Time passes. -/
def pass (s : State κ α) (n : Nat) : State κ α := { s with clock := s.clock + n }

variable [DecidableEq κ]

/-- An event, at the time it is. -/
def record (timeout : Nat) (s : State κ α) (e : Event κ α) : State κ α :=
  { s with
    deadline :=
      match e with
      | .set k _ => Function.update s.deadline k (some (s.clock + timeout))
      | .read _ | .timeout _ | .note _ => s.deadline
    log := s.log ++ [(s.clock, e)] }

end State

variable {κ α : Type}

/-- What the log says, with deadlines `timeout` after the time at which they are set. -/
structure Kept (timeout : Nat) (s : State κ α) : Prop where
  past : ∀ p ∈ s.log, p.1 ≤ s.clock
  sorted : s.log.Pairwise fun p q => p.1 ≤ q.1
  /-- a deadline is the latest that was set -/
  of_deadline : ∀ k x, s.deadline k = some x → ∃ u a, (u, .set k a) ∈ s.log ∧ x = u + timeout
  of_set : ∀ u k a, (u, .set k a) ∈ s.log → ∃ x, s.deadline k = some x ∧ u + timeout ≤ x
  /-- a timeout: there was a deadline, and all those set before have passed -/
  timedOut : ∀ t k, (t, .timeout k) ∈ s.log →
    (∃ u a, (u, .set k a) ∈ s.log ∧ u + timeout ≤ t) ∧
      ∀ u a, (u, .set k a) ∈ s.log → u + timeout ≤ t ∨ t ≤ u
  /-- another result: there was no deadline, or the latest had not passed -/
  inTime : ∀ t k, (t, .read k) ∈ s.log → ∀ u a, (u, .set k a) ∈ s.log →
    t ≤ u ∨ ∃ u' a', (u', .set k a') ∈ s.log ∧ u' ≤ t ∧ t < u' + timeout

variable {timeout : Nat} {s : State κ α}

theorem kept_start : Kept timeout (State.start : State κ α) := by
  constructor
  · intro p hp
    cases hp
  · exact .nil
  · intro k x hx
    cases hx
  · intro u k a h
    cases h
  · intro t k h
    cases h
  · intro t k h
    cases h

theorem Kept.pass (h : Kept timeout s) (n : Nat) : Kept timeout (s.pass n) :=
  ⟨fun p hp => Nat.le_add_right_of_le (h.past p hp), h.sorted, h.of_deadline, h.of_set, h.timedOut,
    h.inTime⟩

/-- What stands behind in the log was not done earlier. -/
theorem Kept.later (h : Kept timeout s) {before after : List (Nat × Event κ α)}
    {p : Nat × Event κ α} (hlog : s.log = before ++ p :: after) : ∀ q ∈ after, p.1 ≤ q.1 := by
  have hsorted := h.sorted
  rw [hlog] at hsorted
  exact (List.pairwise_cons.mp (List.pairwise_append.mp hsorted).2.1).1

/-- The latest deadline, if it has not passed. -/
theorem Kept.of_not_expired (h : Kept timeout s) {k : κ} (hk : s.expired k = false) {u : Nat}
    {a : α} (hset : (u, .set k a) ∈ s.log) :
    ∃ u' a', (u', .set k a') ∈ s.log ∧ u' ≤ s.clock ∧ s.clock < u' + timeout := by
  obtain ⟨x, hx, -⟩ := h.of_set u k a hset
  obtain ⟨u', a', hset', rfl⟩ := h.of_deadline k x hx
  exact ⟨u', a', hset', h.past _ hset', by simpa [State.expired, hx] using hk⟩

/-- If it has passed, so have all others. -/
theorem Kept.of_expired (h : Kept timeout s) {k : κ} (hk : s.expired k = true) :
    (∃ u a, (u, .set k a) ∈ s.log ∧ u + timeout ≤ s.clock) ∧
      ∀ u a, (u, .set k a) ∈ s.log → u + timeout ≤ s.clock := by
  obtain ⟨x, hx, hle⟩ : ∃ x, s.deadline k = some x ∧ x ≤ s.clock := by
    simpa [State.expired, Option.any_eq_true] using hk
  constructor
  · obtain ⟨u, a, hset, rfl⟩ := h.of_deadline k x hx
    exact ⟨u, a, hset, hle⟩
  · intro u a hset
    obtain ⟨x', hx', hu⟩ := h.of_set u k a hset
    obtain rfl : x = x' := Option.some.inj (hx.symm.trans hx')
    exact Nat.le_trans hu hle

section Record

variable [DecidableEq κ]

@[simp] theorem mem_record {e : Event κ α} {p : Nat × Event κ α} :
    p ∈ (s.record timeout e).log ↔ p ∈ s.log ∨ p = (s.clock, e) := by
  simp [State.record]

theorem record_log (s : State κ α) (e : Event κ α) :
    (s.record timeout e).log = s.log ++ [(s.clock, e)] :=
  rfl

/-- A place in the log: it is the last, or was there before. -/
theorem record_split {e : Event κ α} {before after : List (Nat × Event κ α)}
    {p : Nat × Event κ α} (h : (s.record timeout e).log = before ++ p :: after) :
    (before = s.log ∧ p = (s.clock, e) ∧ after = []) ∨
      ∃ rest, after = rest ++ [(s.clock, e)] ∧ s.log = before ++ p :: rest := by
  rw [record_log] at h
  rcases List.eq_nil_or_concat after with rfl | ⟨rest, q, rfl⟩
  · obtain ⟨hbefore, hp⟩ := List.append_inj' h rfl
    exact .inl ⟨hbefore.symm, (List.singleton_inj.mp hp).symm, rfl⟩
  · rw [List.concat_eq_append, ← List.cons_append, ← List.append_assoc] at h
    obtain ⟨hlog, hq⟩ := List.append_inj' h rfl
    exact .inr ⟨rest, by rw [List.concat_eq_append, List.singleton_inj.mp hq], hlog⟩

theorem Kept.past_record (h : Kept timeout s) (e : Event κ α) :
    ∀ p ∈ (s.record timeout e).log, p.1 ≤ (s.record timeout e).clock := by
  intro p hp
  rcases mem_record.mp hp with hp | rfl
  · exact h.past p hp
  · exact Nat.le_refl _

theorem Kept.sorted_record (h : Kept timeout s) (e : Event κ α) :
    (s.record timeout e).log.Pairwise fun p q => p.1 ≤ q.1 := by
  rw [record_log, List.pairwise_append]
  refine ⟨h.sorted, List.pairwise_singleton .., fun p hp q hq => ?_⟩
  rw [List.mem_singleton.mp hq]
  exact h.past p hp

/-- A deadline is set. Whatever returned has returned by now. -/
theorem Kept.set (h : Kept timeout s) (k : κ) (a : α) :
    Kept timeout (s.record timeout (.set k a)) := by
  constructor
  · exact h.past_record _
  · exact h.sorted_record _
  · intro k' x hx
    by_cases hk : k' = k
    · subst hk
      simp only [State.record, Function.update_self, Option.some.injEq] at hx
      exact ⟨s.clock, a, by simp, hx.symm⟩
    · simp only [State.record, Function.update_of_ne hk] at hx
      obtain ⟨u, b, hset, hu⟩ := h.of_deadline k' x hx
      exact ⟨u, b, mem_record.mpr (.inl hset), hu⟩
  · intro u k' b hset
    by_cases hk : k' = k
    · subst hk
      refine ⟨s.clock + timeout, by simp [State.record], ?_⟩
      exact Nat.add_le_add_right (h.past_record _ _ hset) timeout
    · simp only [mem_record, Prod.mk.injEq, Event.set.injEq, hk, false_and, and_false, or_false]
        at hset
      obtain ⟨x, hx, hu⟩ := h.of_set u k' b hset
      exact ⟨x, by simpa [State.record, Function.update_of_ne hk] using hx, hu⟩
  · intro t k' ht
    simp only [mem_record, Prod.mk.injEq, reduceCtorEq, and_false, or_false] at ht
    obtain ⟨⟨u, b, hset, hu⟩, hall⟩ := h.timedOut t k' ht
    refine ⟨⟨u, b, mem_record.mpr (.inl hset), hu⟩, fun u b hset => ?_⟩
    rcases mem_record.mp hset with hset | heq
    · exact hall u b hset
    · cases heq
      exact .inr (h.past _ ht)
  · intro t k' ht u b hset
    simp only [mem_record, Prod.mk.injEq, reduceCtorEq, and_false, or_false] at ht
    rcases mem_record.mp hset with hset | heq
    · obtain hle | ⟨u', b', hset', hle⟩ := h.inTime t k' ht u b hset
      · exact .inl hle
      · exact .inr ⟨u', b', mem_record.mpr (.inl hset'), hle⟩
    · cases heq
      exact .inl (h.past _ ht)

/-- Nothing is set: a read returns before the deadline, if there is one, or times out at it, or
something is noted. -/
theorem Kept.observe (h : Kept timeout s) {e : Event κ α} (he : ∀ k a, e ≠ .set k a)
    (ha : s.allows e = true) : Kept timeout (s.record timeout e) := by
  have hset : ∀ {u k b}, (u, .set k b) ∈ (s.record timeout e).log ↔ (u, .set k b) ∈ s.log := by
    intro u k b
    rw [mem_record, or_iff_left]
    exact fun heq => he k b (Prod.mk.inj heq).2.symm
  have hdeadline : (s.record timeout e).deadline = s.deadline := by
    cases e with
    | set k a => exact absurd rfl (he k a)
    | read | timeout | note => rfl
  constructor
  · exact h.past_record _
  · exact h.sorted_record _
  · intro k x hx
    rw [hdeadline] at hx
    obtain ⟨u, b, hb, hu⟩ := h.of_deadline k x hx
    exact ⟨u, b, hset.mpr hb, hu⟩
  · rw [hdeadline]
    exact fun u k b hb => h.of_set u k b (hset.mp hb)
  · intro t k ht
    simp only [hset]
    rcases mem_record.mp ht with ht | heq
    · exact h.timedOut t k ht
    · cases heq
      obtain ⟨hsome, hall⟩ := h.of_expired ha
      exact ⟨hsome, fun u b hb => .inl (hall u b hb)⟩
  · intro t k ht u b hb
    simp only [hset] at hb ⊢
    rcases mem_record.mp ht with ht | heq
    · exact h.inTime t k ht u b hb
    · cases heq
      exact .inr (h.of_not_expired (by simpa [State.allows] using ha) hb)

/-- **Every event that is possible keeps the log right.** -/
theorem Kept.record (h : Kept timeout s) {e : Event κ α} (ha : s.allows e = true) :
    Kept timeout (s.record timeout e) := by
  cases e with
  | set k a => exact h.set k a
  | read | timeout | note => exact h.observe (by simp) ha

end Record

end Tun2socks.Go.Deadline
