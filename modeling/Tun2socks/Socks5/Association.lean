import Mathlib.Algebra.BigOperators.Group.Finset.Piecewise
import Mathlib.Algebra.Order.BigOperators.Group.Finset
import Mathlib.Data.Fintype.Card
import Mathlib.Tactic.Ring

/-!
# Tun2socks.Socks5.Association

The UDP association of `proxy/socks5/socks5.go`: the control connection `c` and the socket
`pc`, the goroutine that `DialUDP` leaves behind, and the calls of `socksPacketConn.Close`.

`Close` may be called more than once: by the session, through its tracker, and by requests of
the REST API. The server may end the control connection at any moment, and `DialUDP` itself may
still fail after it has started the goroutine. Whoever ends the association closes the control
connection first, so that the goroutine, which waits for the end of that connection, follows.
-/

namespace Tun2socks.Socks5

/-- The goroutine that `DialUDP` starts. -/
inductive Watcher
  /-- in `io.Copy(io.Discard, c)` -/
  | copying
  /-- before `c.Close()` -/
  | copied
  /-- before `pc.Close()` -/
  | closing
  | returned
  deriving DecidableEq

/-- `DialUDP` after it has started the goroutine. -/
inductive Dialing
  /-- before it looks at the address that the server has bound -/
  | running
  /-- before the deferred `c.Close()` -/
  | failing
  | failed
  | dialed
  deriving DecidableEq

/-- A call of `socksPacketConn.Close`. -/
inductive Closing
  | idle
  /-- before `pc.tcpConn.Close()` -/
  | begun
  /-- before `pc.PacketConn.Close()` -/
  | half
  | done
  deriving DecidableEq

/-- `κ` are the callers of `Close`. -/
structure Association (κ : Type) where
  /-- the control connection has reached its end, or has failed -/
  ended : Bool
  /-- `c` has been closed -/
  control : Bool
  /-- `pc` has been closed -/
  socket : Bool
  watcher : Watcher
  dial : Dialing
  closer : κ → Closing

/-- The goroutines. -/
inductive Association.Goroutine (κ : Type)
  | watcher
  /-- `DialUDP`; `ok` says what becomes of the bound address -/
  | dial (ok : Bool)
  | close (k : κ)

/-- What can happen to an association. -/
inductive Association.Action (κ : Type)
  /-- the server, or the network, ends the control connection -/
  | hangUp
  /-- `k` calls `Close` of the connection that `DialUDP` has returned -/
  | call (k : κ)
  | go (g : Association.Goroutine κ)

/-- A measure that falls as the watcher goes on. -/
def Watcher.rank : Watcher → Nat
  | copying => 3
  | copied => 2
  | closing => 1
  | returned => 0

/-- A measure that falls as the dial goes on. -/
def Dialing.rank : Dialing → Nat
  | running => 2
  | failing => 1
  | failed | dialed => 0

/-- A measure that falls as a `Close` goes on. -/
def Closing.rank : Closing → Nat
  | idle | begun => 2
  | half => 1
  | done => 0

namespace Association

variable {κ : Type}

/-- `DialUDP` has started the goroutine. -/
def start : Association κ := ⟨false, false, false, .copying, .running, fun _ => .idle⟩

/-- The goroutine is not blocked and has not returned. -/
def canMove (s : Association κ) : Goroutine κ → Bool
  | .watcher =>
    match s.watcher with
    | .copying => s.ended || s.control
    | .copied | .closing => true
    | .returned => false
  | .dial _ =>
    match s.dial with
    | .running | .failing => true
    | .failed | .dialed => false
  | .close k =>
    match s.closer k with
    | .begun | .half => true
    | .idle | .done => false

/-- Somebody has ended the association. -/
def Over (s : Association κ) : Prop :=
  s.ended = true ∨ s.dial = .failing ∨ s.dial = .failed ∨ ∃ k, s.closer k ≠ .idle

/-- How far somebody has come says what is closed, and nothing is closed but by somebody. -/
structure Inv (s : Association κ) : Prop where
  order : s.socket = true → s.control = true
  closing : s.watcher = .closing ∨ s.watcher = .returned → s.control = true
  returned : s.watcher = .returned → s.socket = true
  half : ∀ k, s.closer k = .half ∨ s.closer k = .done → s.control = true
  done : ∀ k, s.closer k = .done → s.socket = true
  failed : s.dial = .failed → s.control = true
  ends : s.control = true ∨ s.watcher ≠ .copying → s.Over

theorem inv_start : (start : Association κ).Inv where
  order h := h
  closing h := by simp [start] at h
  returned h := by simp [start] at h
  half k h := by simp [start] at h
  done k h := by simp [start] at h
  failed h := by simp [start] at h
  ends h := by simp [start] at h

variable [DecidableEq κ]

/-- The next step of a goroutine that can move. -/
def move (s : Association κ) : Goroutine κ → Association κ
  | .watcher =>
    match s.watcher with
    | .copying => { s with watcher := .copied }
    | .copied => { s with control := true, watcher := .closing }
    | .closing => { s with socket := true, watcher := .returned }
    | .returned => s
  | .dial ok =>
    match s.dial with
    | .running => { s with dial := if ok then .dialed else .failing }
    | .failing => { s with control := true, dial := .failed }
    | .failed | .dialed => s
  | .close k =>
    match s.closer k with
    | .begun => { s with control := true, closer := Function.update s.closer k .half }
    | .half => { s with socket := true, closer := Function.update s.closer k .done }
    | .idle | .done => s

/-- One step. -/
def step (s : Association κ) : Action κ → Association κ
  | .hangUp => { s with ended := true }
  | .call k =>
    if s.dial = .dialed ∧ s.closer k = .idle then
      { s with closer := Function.update s.closer k .begun }
    else s
  | .go g => if s.canMove g then s.move g else s

/-- A run of steps. -/
def run (s : Association κ) (acts : List (Action κ)) : Association κ := acts.foldl step s

/-- How often a goroutine has moved. -/
def moves (s : Association κ) : List (Action κ) → Nat
  | [] => 0
  | .go g :: acts => (if s.canMove g then 1 else 0) + (s.step (.go g)).moves acts
  | a :: acts => (s.step a).moves acts

variable {s : Association κ}

theorem Inv.watcher (h : s.Inv) (hmove : s.canMove .watcher = true) : (s.move .watcher).Inv := by
  simp only [canMove, move] at hmove ⊢
  cases hw : s.watcher with
  | copying =>
    rw [hw] at hmove
    refine ⟨h.order, by simp, by simp, h.half, h.done, h.failed, fun _ => ?_⟩
    -- the copy has returned, so the connection has ended or is closed
    obtain hended | hcontrol := Bool.or_eq_true_iff.mp hmove
    · exact .inl hended
    · exact h.ends (.inl hcontrol)
  | copied =>
    refine ⟨fun _ => rfl, fun _ => rfl, by simp, fun _ _ => rfl, h.done, fun _ => rfl, fun _ => ?_⟩
    exact h.ends (.inr (by simp [hw]))
  | closing =>
    have hcontrol := h.closing (.inl hw)
    refine ⟨fun _ => hcontrol, fun _ => hcontrol, fun _ => rfl, h.half, fun _ _ => rfl, h.failed,
      fun _ => ?_⟩
    exact h.ends (.inl hcontrol)
  | returned => exact h

theorem Inv.dial (h : s.Inv) (ok : Bool) : (s.move (.dial ok)).Inv := by
  simp only [move]
  cases hd : s.dial with
  | running =>
    cases ok with
    | true =>
      refine ⟨h.order, h.closing, h.returned, h.half, h.done, by simp, fun hover => ?_⟩
      obtain hended | hfail | hfail | hcloser := h.ends hover
      · exact .inl hended
      · simp [hd] at hfail
      · simp [hd] at hfail
      · exact .inr (.inr (.inr hcloser))
    | false =>
      exact ⟨h.order, h.closing, h.returned, h.half, h.done, by simp, fun _ => .inr (.inl rfl)⟩
  | failing =>
    exact ⟨fun _ => rfl, fun _ => rfl, h.returned, fun _ _ => rfl, h.done, fun _ => rfl,
      fun _ => .inr (.inr (.inl rfl))⟩
  | failed | dialed => exact h

/-- A caller that has begun to close has ended the association. -/
theorem over_update (s : Association κ) (k : κ) {c : Closing} (hc : c ≠ .idle) :
    { s with closer := Function.update s.closer k c }.Over :=
  .inr (.inr (.inr ⟨k, by simpa using hc⟩))

theorem of_update {f : κ → Closing} {j k : κ} {c x : Closing} (hc : c ≠ x)
    (h : Function.update f k c j = x) : f j = x := by
  by_cases hjk : j = k
  · rw [hjk, Function.update_self] at h
    exact absurd h hc
  · rwa [Function.update_of_ne hjk] at h

theorem Inv.close (h : s.Inv) (k : κ) : (s.move (.close k)).Inv := by
  simp only [move]
  cases hk : s.closer k with
  | begun =>
    exact ⟨fun _ => rfl, fun _ => rfl, h.returned, fun _ _ => rfl,
      fun j hj => h.done j (of_update (by simp) hj), fun _ => rfl,
      fun _ => over_update _ k (by simp)⟩
  | half =>
    have hcontrol := h.half k (.inl hk)
    exact ⟨fun _ => hcontrol, h.closing, fun _ => rfl, fun _ _ => hcontrol, fun _ _ => rfl,
      h.failed, fun _ => over_update _ k (by simp)⟩
  | idle | done => exact h

theorem Inv.call (h : s.Inv) (k : κ) : (s.step (.call k)).Inv := by
  simp only [step]
  split
  · exact ⟨h.order, h.closing, h.returned,
      fun j hj => h.half j (hj.imp (of_update (by simp)) (of_update (by simp))),
      fun j hj => h.done j (of_update (by simp) hj), h.failed, fun _ => over_update s k (by simp)⟩
  · exact h

theorem Inv.step (h : s.Inv) (a : Action κ) : (s.step a).Inv := by
  cases a with
  | hangUp =>
    exact ⟨h.order, h.closing, h.returned, h.half, h.done, h.failed, fun _ => .inl rfl⟩
  | call k => exact h.call k
  | go g =>
    simp only [Association.step]
    split
    · rename_i hmove
      cases g with
      | watcher => exact h.watcher hmove
      | dial ok => exact h.dial ok
      | close k => exact h.close k
    · exact h

theorem inv_run (acts : List (Action κ)) : (start.run acts : Association κ).Inv :=
  List.foldlRecOn (motive := Inv) acts step inv_start fun _ h a _ => h.step a

/-! ### The end of it -/

omit [DecidableEq κ] in
/-- Nobody has anything left to do: the association is over and closed, or nobody has touched
it. -/
theorem Inv.stuck (h : s.Inv) (hover : s.Over) (hstuck : ∀ g, s.canMove g = false) :
    s.control = true ∧ s.socket = true ∧ s.watcher = .returned := by
  have hwatcher := hstuck .watcher
  have hdial := hstuck (.dial true)
  simp only [canMove] at hwatcher hdial
  cases hw : s.watcher with
  | copying =>
    -- the goroutine waits, so the control connection is alive, and nobody can have ended it
    rw [hw] at hwatcher
    obtain ⟨hended, hcontrol⟩ := Bool.or_eq_false_iff.mp hwatcher
    obtain hover | hfail | hfail | ⟨k, hk⟩ := hover
    · simp [hended] at hover
    · simp [hfail] at hdial
    · simp [h.failed hfail] at hcontrol
    · have hcloser := hstuck (.close k)
      simp only [canMove] at hcloser
      cases hc : s.closer k with
      | idle => exact absurd hc hk
      | begun | half => simp [hc] at hcloser
      | done => simp [h.half k (.inr hc)] at hcontrol
  | copied | closing => simp [hw] at hwatcher
  | returned => exact ⟨h.closing (.inr hw), h.returned hw, rfl⟩

section Moves

variable [Fintype κ]

omit [DecidableEq κ] in
/-- The steps that the goroutines have left. -/
def size (s : Association κ) : Nat := s.watcher.rank + s.dial.rank + ∑ k, (s.closer k).rank

theorem sum_rank_update (f : κ → Closing) (k : κ) (c : Closing) :
    ∑ j, (Function.update f k c j).rank + (f k).rank = ∑ j, (f j).rank + c.rank := by
  rw [← Finset.add_sum_erase _ _ (Finset.mem_univ k),
    ← Finset.add_sum_erase _ (fun j => (f j).rank) (Finset.mem_univ k), Function.update_self]
  have hrest : ∑ j ∈ Finset.univ.erase k, (Function.update f k c j).rank =
      ∑ j ∈ Finset.univ.erase k, (f j).rank := by
    refine Finset.sum_congr rfl fun j hj => ?_
    rw [Function.update_of_ne (Finset.ne_of_mem_erase hj)]
  omega

/-- Every move is a step less. -/
theorem size_move {g : Goroutine κ} (hmove : s.canMove g = true) : (s.move g).size < s.size := by
  cases g with
  | watcher =>
    simp only [canMove, move] at hmove ⊢
    cases hw : s.watcher with
    | copying | copied | closing => simp [size, hw, Watcher.rank]
    | returned => simp [hw] at hmove
  | dial ok =>
    simp only [canMove, move] at hmove ⊢
    cases hd : s.dial with
    | running =>
      cases ok <;> simp [size, hd, Dialing.rank]
    | failing => simp [size, hd, Dialing.rank]
    | failed | dialed => simp [hd] at hmove
  | close k =>
    have hsum := sum_rank_update s.closer k
    simp only [canMove, move] at hmove ⊢
    cases hk : s.closer k with
    | begun =>
      have := hsum .half
      simp only [size, hk, Closing.rank] at this ⊢
      omega
    | half =>
      have := hsum .done
      simp only [size, hk, Closing.rank] at this ⊢
      omega
    | idle | done => simp [hk] at hmove

theorem size_call (s : Association κ) (k : κ) : (s.step (.call k)).size = s.size := by
  simp only [step]
  split
  · rename_i hcall
    have hsum := sum_rank_update s.closer k .begun
    simp only [size, hcall.2, Closing.rank] at hsum ⊢
    omega
  · rfl

theorem moves_add_size (s : Association κ) (acts : List (Action κ)) :
    s.moves acts + (s.run acts).size ≤ s.size := by
  induction acts generalizing s with
  | nil => simp [moves, run]
  | cons a acts ih =>
    have hrest : (s.step a).moves acts + (s.run (a :: acts)).size ≤ (s.step a).size := ih _
    cases a with
    | hangUp => exact hrest
    | call k =>
      rw [size_call] at hrest
      exact hrest
    | go g =>
      rw [moves]
      simp only [step] at hrest ⊢
      split
      · rename_i hmove
        have := size_move hmove
        rw [if_pos hmove] at hrest
        omega
      · rename_i hmove
        rw [if_neg hmove] at hrest
        omega

end Moves

/-- **An association ends as a whole.** Whoever ends it, the server, a `Close` or a failing
`DialUDP`, and whatever the order of the steps: the socket is never closed before the control
connection; as long as nobody has ended it nothing is closed; and the goroutines, which take a
bounded number of steps, have nothing left to do only when both are closed and the goroutine of
`DialUDP` has returned. -/
theorem association_ends [Fintype κ] (acts : List (Action κ)) :
    let s : Association κ := start.run acts
    (s.socket = true → s.control = true) ∧
      (¬ s.Over → s.control = false ∧ s.socket = false ∧ s.watcher = .copying) ∧
      (s.Over → (∀ g, s.canMove g = false) →
        s.control = true ∧ s.socket = true ∧ s.watcher = .returned) ∧
      (start : Association κ).moves acts ≤ 5 + 2 * Fintype.card κ := by
  intro s
  have h : s.Inv := inv_run acts
  refine ⟨h.order, fun hover => ?_, h.stuck, ?_⟩
  · have hcontrol : s.control = false := by
      by_contra hc
      exact hover (h.ends (.inl (by simpa using hc)))
    refine ⟨hcontrol, ?_, ?_⟩
    · by_contra hs
      simp [h.order (by simpa using hs)] at hcontrol
    · by_contra hw
      exact hover (h.ends (.inr hw))
  · have hsize : (start : Association κ).size = 5 + 2 * Fintype.card κ := by
      simp [size, start, Watcher.rank, Dialing.rank, Closing.rank, Nat.mul_comm]
    have := moves_add_size (start : Association κ) acts
    omega

end Association

end Tun2socks.Socks5
