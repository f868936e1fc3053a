import Tun2socks.Tunnel.Registry

/-!
# Tun2socks.Tunnel.Calls

How often the methods of a session's two connections have been called, read off the session's
own state: the origin is closed by the handler only, and each stream shuts down its two ends
after its copy loop.
-/

namespace Tun2socks.Tunnel

open Tun2socks.Go Tun2socks.Statistic

/-- The handler has returned, after both streams were done or without them. -/
def Handler.hasReturned : Handler → Bool
  | returned _ => true
  | _ => false

/-- The stream has called `CloseRead` on its source. -/
def Pc.hasClosedRead : Pc → Bool
  | readClosed _ | writeClosed _ | done _ => true
  | _ => false

/-- The stream has called `CloseWrite` on its target. -/
def Pc.hasClosedWrite : Pc → Bool
  | writeClosed _ | done _ => true
  | _ => false

theorem Stream.step_closes {G : Type} [Add G] [IntCast G] (s : Stream G) (dst : String)
    (d : Direction) (a : Answer) :
    ((s.step .tcp dst d a).1.pc.hasClosedRead.toNat = s.pc.hasClosedRead.toNat +
        if (s.step .tcp dst d a).2 = some (.call (source d) .closeRead) then 1 else 0) ∧
      (s.step .tcp dst d a).1.pc.hasClosedWrite.toNat = s.pc.hasClosedWrite.toNat +
        if (s.step .tcp dst d a).2 = some (.call (target d) .closeWrite) then 1 else 0 := by
  unfold Stream.step
  split
  · rename_i stage n _
    cases stage with
    | temp | total | own => simp [Stream.add]
  · simp
  · unfold Stream.go
    split <;> rename_i hpc <;> simp [hpc, Pc.hasClosedRead, Pc.hasClosedWrite]
  · split
    · rename_i hpc
      split
      · rename_i r _ _ _
        simp only [Stream.read, track_pc, hpc]
        obtain hgo | hgo | ⟨-, hgo⟩ | ⟨err, hgo⟩ := afterRead_cases dst d r .tcp <;>
          simp [hgo, Pc.hasClosedRead, Pc.hasClosedWrite]
      · simp
    · simp
  · split
    · rename_i n ew _ _ data er hpc
      simp only [Stream.write, track_pc, hpc]
      obtain ⟨-, ⟨-, hgo⟩ | ⟨hnet, -⟩⟩ | ⟨-, err, hgo⟩ := afterWrite_cases data er n ew .tcp
      · obtain hend | ⟨-, hend⟩ | ⟨e, hend⟩ := endRound_cases er <;>
          simp [hgo, hend, Pc.hasClosedRead, Pc.hasClosedWrite]
      · cases hnet
      · simp [hgo, Pc.hasClosedRead, Pc.hasClosedWrite]
    · simp

section Runs

variable {ι ρ υ G : Type} [Fintype ι] [DecidableEq ι] [DecidableEq ρ] [DecidableEq υ]
  [AddCommGroupWithOne G] {uuid : ι → υ} {i : ι}

/-- The history of calls, as the session's own state tells it. -/
structure Session.Calls (i : ι) (s : Session G) (g : Shared ι ρ υ G) : Prop where
  origin : g.calls i .origin .close = s.handler.hasReturned.toNat
  closeRead : s.network = .tcp →
    ∀ d, g.calls i (source d) .closeRead = (s.stream d).pc.hasClosedRead.toNat
  closeWrite : s.network = .tcp →
    ∀ d, g.calls i (target d) .closeWrite = (s.stream d).pc.hasClosedWrite.toNat

/-- A step counts as the call that it is. -/
theorem calls_apply (e : Option Effect) (g : Shared ι ρ υ G) (side : Side) (c : Call) :
    ((tunnel (G := G) uuid).apply i e g).calls i side c =
      g.calls i side c + if e = some (.call side c) then 1 else 0 := by
  cases e with
  | none => rfl
  | some e =>
    cases e with
    | call side' c' =>
      change (g.call i side' c').calls i side c = _
      simp only [Shared.call, true_and, Option.some.injEq, Effect.call.injEq]
      simp only [eq_comm]
    | join | leave | addTemp | addTotal => rfl

/-- A stream closes its own ends only. -/
theorem Stream.step_call {s : Stream G} {net : Network} {dst : String} {d : Direction} {a : Answer}
    {side : Side} {c : Call} (h : (s.step net dst d a).2 = some (.call side c)) :
    (c = .closeRead → side = source d) ∧ (c = .closeWrite → side = target d) := by
  unfold Stream.step at h
  split at h
  · rename_i stage n _
    cases stage with
    | temp | total | own => cases h
  · cases h
  · unfold Stream.go at h
    split at h
    · cases h
      exact ⟨nofun, nofun⟩
    · cases h
      exact ⟨nofun, nofun⟩
    · split at h
      · cases h
        exact ⟨fun _ => rfl, nofun⟩
      · cases h
    · cases h
      exact ⟨nofun, fun _ => rfl⟩
    · cases h
      exact ⟨nofun, nofun⟩
    · cases h
    · cases h
    · cases h
  · split at h
    · split at h <;> cases h
    · cases h
  · split at h <;> cases h

theorem Session.Calls.move {s s' : Session G} {e : Option Effect} {g : Shared ι ρ υ G}
    (h : s.Calls i g) (hm : Move s s' e) : s'.Calls i ((tunnel uuid).apply i e g) := by
  obtain ⟨horigin, hread, hwrite⟩ := h
  -- steps of the handler leave the streams alone
  have hstep : ∀ {h' : Handler} {e : Option Effect},
      (∀ side c, c ≠ .close → e ≠ some (.call side c)) →
      (h'.hasReturned.toNat = s.handler.hasReturned.toNat +
        if e = some (.call .origin .close) then 1 else 0) →
      { s with handler := h' }.Calls i ((tunnel uuid).apply i e g) := by
    intro h' e he horig
    refine ⟨?_, fun hnet d => ?_, fun hnet d => ?_⟩
    · rw [calls_apply, horigin, horig]
    · rw [calls_apply, if_neg (he _ _ (by decide))]
      exact hread hnet d
    · rw [calls_apply, if_neg (he _ _ (by decide))]
      exact hwrite hnet d
  cases hm with
  | dial b hh =>
    refine hstep (by simp) ?_
    cases b <;> simp [hh, Handler.hasReturned]
  | join hh => exact hstep (by simp) (by simp [hh, Handler.hasReturned])
  | wait hh hdone => exact hstep (by simp) (by simp [hh, Handler.hasReturned])
  | leave hh => exact hstep (by simp) (by simp [hh, Handler.hasReturned])
  | close hh =>
    refine hstep (fun side c hc heq => hc ?_) (by simp [hh, Handler.hasReturned])
    cases heq
    rfl
  | ret b hh =>
    refine hstep (fun side c hc heq => hc ?_) (by simp [hh, Handler.hasReturned])
    cases heq
    rfl
  | stream d a hh =>
    refine ⟨?_, fun hnet e => ?_, fun hnet e => ?_⟩
    · rw [calls_apply, if_neg]
      · exact horigin
      · intro heq
        have := Stream.step_quiet heq
        cases this
    · change s.network = .tcp at hnet
      rw [calls_apply, hread hnet e]
      dsimp only
      by_cases he : e = d
      · subst he
        rw [Function.update_self, hnet]
        exact ((s.stream e).step_closes s.dst e a).1.symm
      · rw [Function.update_of_ne he, if_neg]
        · rfl
        · intro heq
          exact he (source_injective ((Stream.step_call heq).1 rfl))
    · change s.network = .tcp at hnet
      rw [calls_apply, hwrite hnet e]
      dsimp only
      by_cases he : e = d
      · subst he
        rw [Function.update_self, hnet]
        exact ((s.stream e).step_closes s.dst e a).2.symm
      · rw [Function.update_of_ne he, if_neg]
        · rfl
        · intro heq
          exact he (target_injective ((Stream.step_call heq).2 rfl))
  | stay => exact ⟨horigin, hread, hwrite⟩

omit [Fintype ι] in
/-- Requests close remote connections, and call nothing else. -/
theorem Shared.Step.calls {g g' : Shared ι ρ υ G} (hstep : Shared.Step uuid g g') {side : Side}
    {c : Call} (hne : side = .origin ∨ c ≠ .close) : g'.calls i side c = g.calls i side c := by
  cases hstep with
  | close hr =>
    refine Shared.calls_call_of_ne ?_ g
    rintro ⟨-, rfl, rfl⟩
    rcases hne with hne | hne
    · cases hne
    · exact hne rfl
  | tick | request | visit | snapshot | finish | leave | stay => rfl

variable (network : ι → Network) (dst : ι → String)
  (acts : List (Goroutines.Action ι Act (Other ρ υ)))

end Runs

end Tun2socks.Tunnel
