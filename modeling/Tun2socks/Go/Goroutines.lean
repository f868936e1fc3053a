import Mathlib.Algebra.BigOperators.Group.Finset.Basic
import Mathlib.Data.Fintype.Basic
import Mathlib.Tactic.Abel

/-!
# Tun2socks.Go.Goroutines

Processes that run side by side over a shared state.

A run is a list of actions, each the next step of one process, so what is proved of every
list holds in every interleaving. What the outside answers to a pending call is part of the
action: a process depends on its own state and its answers only, and works on the shared
state by effects. Everything else that works on the shared state does so by `other`.

`run_process` is the rule for what ties one process to the shared state: its own steps keep it,
and those of the others do not reach it. `run_sum` is the rule for a shared total against what
each process has put into it.
-/

namespace Tun2socks.Go

/-- Processes with states `Λ` and answers `α`, one for each index, their effects `ε` on a
shared state `σ`, and the other steps `β` of that state. -/
structure Goroutines (ι Λ α ε σ β : Type) where
  next : Λ → α → Λ × Option ε
  effect : ι → ε → σ → σ
  other : β → σ → σ

namespace Goroutines

/-- The local state of every goroutine, and what they share. -/
structure State (ι Λ σ : Type) where
  proc : ι → Λ
  shared : σ

/-- A step of one goroutine, or of something else. -/
inductive Action (ι α β : Type)
  /-- process `i` takes its next step, with answer `a` -/
  | proc (i : ι) (a : α)
  | other (b : β)

variable {ι Λ α ε σ β : Type} (M : Goroutines ι Λ α ε σ β)

/-- What a step of process `i` does to the shared state. -/
def apply (i : ι) (e : Option ε) (g : σ) : σ := e.elim g fun e => M.effect i e g

@[simp] theorem apply_none (i : ι) (g : σ) : M.apply i none g = g := rfl

@[simp] theorem apply_some (i : ι) (e : ε) (g : σ) : M.apply i (some e) g = M.effect i e g := rfl

variable [DecidableEq ι]

/-- One step. -/
def step (s : State ι Λ σ) : Action ι α β → State ι Λ σ
  | .proc i a =>
    ⟨Function.update s.proc i (M.next (s.proc i) a).1, M.apply i (M.next (s.proc i) a).2 s.shared⟩
  | .other b => ⟨s.proc, M.other b s.shared⟩

/-- A run of steps, in the order of the scheduler. -/
def run (s : State ι Λ σ) (acts : List (Action ι α β)) : State ι Λ σ := acts.foldl M.step s

theorem run_cons (s : State ι Λ σ) (a : Action ι α β) (acts : List (Action ι α β)) :
    M.run s (a :: acts) = M.run (M.step s a) acts := rfl

theorem run_append (s : State ι Λ σ) (acts acts' : List (Action ι α β)) :
    M.run s (acts ++ acts') = M.run (M.run s acts) acts' :=
  List.foldl_append ..

variable {M}

/-- What every step keeps holds after every run. -/
theorem run_invariant {P : State ι Λ σ → Prop} (hstep : ∀ s a, P s → P (M.step s a))
    {s : State ι Λ σ} (hs : P s) (acts : List (Action ι α β)) : P (M.run s acts) :=
  List.foldlRecOn (motive := P) acts M.step hs fun s hs a _ => hstep s a hs

/-- What the steps of a process keep between it and the shared state, and no other step
reaches, holds after every run. -/
theorem run_process {P : Λ → σ → Prop} (i : ι)
    (own : ∀ l g a, P l g → P (M.next l a).1 (M.apply i (M.next l a).2 g))
    (frame : ∀ l g j e, j ≠ i → P l g → P l (M.effect j e g))
    (other : ∀ l g b, P l g → P l (M.other b g)) {s : State ι Λ σ}
    (hs : P (s.proc i) s.shared) (acts : List (Action ι α β)) :
    P ((M.run s acts).proc i) (M.run s acts).shared := by
  refine run_invariant (P := fun s => P (s.proc i) s.shared) ?_ hs acts
  intro s a h
  cases a with
  | other b => exact other _ _ b h
  | proc j a =>
    by_cases hj : j = i
    · subst hj
      simpa [step] using own _ _ a h
    · simp only [step, Function.update_of_ne (Ne.symm hj)]
      cases (M.next (s.proc j) a).2 with
      | none => exact h
      | some e => exact frame _ _ j e hj h

/-- A property of the states of a process alone. -/
theorem run_states {P : Λ → Prop} (own : ∀ l a, P l → P (M.next l a).1) {s : State ι Λ σ} {i : ι}
    (hs : P (s.proc i)) (acts : List (Action ι α β)) : P ((M.run s acts).proc i) :=
  run_process (P := fun l _ => P l) i (fun l _ a => own l a) (fun _ _ _ _ _ => id)
    (fun _ _ _ => id) hs acts

/-- A shared total, to which each step adds what it adds to the share of its process, is the
sum of the shares. `I` is what the steps need to know and is known of every reachable state. -/
theorem run_sum [Fintype ι] {A : Type} [AddCommGroup A] {I : ι → Λ → σ → Prop} {s : State ι Λ σ}
    (total : σ → A) (share : Λ → A)
    (inv : ∀ acts i, I i ((M.run s acts).proc i) (M.run s acts).shared)
    (own : ∀ i l g a, I i l g →
      total (M.apply i (M.next l a).2 g) - total g = share (M.next l a).1 - share l)
    (other : ∀ g b, total (M.other b g) = total g) (acts : List (Action ι α β)) :
    total (M.run s acts).shared - total s.shared =
      ∑ i, share ((M.run s acts).proc i) - ∑ i, share (s.proc i) := by
  induction acts using List.reverseRecOn with
  | nil => simp [run]
  | append_singleton acts a ih =>
    rw [run_append]
    have hinv := inv acts
    set s' := M.run s acts
    cases a with
    | other b =>
      rw [run_cons]
      simpa [run, step, other] using ih
    | proc i a =>
      -- only the share of `i` has changed
      have hsum : ∑ j, share ((M.step s' (.proc i a)).proc j) =
          ∑ j, share (s'.proc j) + (share (M.next (s'.proc i) a).1 - share (s'.proc i)) := by
        rw [← sub_eq_iff_eq_add', ← Finset.sum_sub_distrib, Finset.sum_eq_single i]
        · simp [step]
        · intro j _ hj
          simp [step, Function.update_of_ne hj]
        · intro hi
          exact absurd (Finset.mem_univ i) hi
      have hown := own i _ _ a (hinv i)
      rw [run_cons]
      change total (M.apply i (M.next (s'.proc i) a).2 s'.shared) - _ = _ - _
      rw [← sub_add_sub_cancel _ (total s'.shared), ih, hown]
      change _ = ∑ j, share ((M.step s' (.proc i a)).proc j) - _
      rw [hsum]
      abel

end Goroutines

end Tun2socks.Go
