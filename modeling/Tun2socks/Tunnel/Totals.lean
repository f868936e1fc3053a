import Tun2socks.Tunnel.System

/-!
# Tun2socks.Tunnel.Totals

The totals of the manager against those of the trackers.

A call on a tracked connection is counted three times, in three steps: in the manager's figure of
the second, in its total, and in the tracker's own total. Other calls get in between, so the
totals agree only when no call is being counted. `Stream.pushed` is the share of a tracker in
the manager's total at any time.
-/

namespace Tun2socks.Statistic.State

section

variable {ι G : Type} (s : State ι G)

/-- A change of the counters of `d` that leaves the total as it is. -/
theorem setTraffic_total {d : Direction} {t : Traffic G} (h : t.total = (s.traffic d).total)
    (e : Direction) : ((s.setTraffic d t).traffic e).total = (s.traffic e).total := by
  by_cases he : e = d
  · subst he
    simpa [setTraffic] using h
  · simp [setTraffic, Function.update_of_ne he]

end

variable {ι G : Type} [DecidableEq ι] [AddCommGroup G] (s : State ι G)

theorem handle_conn : (s.step .handle).conn = s.conn := by
  simp only [step, tick]
  split <;> rfl

theorem handle_total (e : Direction) :
    ((s.step .handle).traffic e).total = (s.traffic e).total := by
  simp only [step, tick]
  split
  · rfl
  · refine s.setTraffic_total ?_ e
    rfl
  · refine s.setTraffic_total ?_ e
    rfl
  · rfl
  · refine s.setTraffic_total ?_ e
    rfl

theorem push_conn {i : ι} (h : s.conn i = none) (d : Direction) (size : G) :
    (s.step (.push i d size)).conn = Function.update s.conn i (some (d, size)) := by
  simp only [step, h]

theorem push_total (i : ι) (d : Direction) (size : G) (e : Direction) :
    ((s.step (.push i d size)).traffic e).total = (s.traffic e).total := by
  simp only [step]
  split
  · rfl
  · refine s.setTraffic_total ?_ e
    rfl

/-- A connection is not touched by the calls of another. -/
theorem push_conn_of_ne {i j : ι} (h : i ≠ j) (d : Direction) (size : G) :
    (s.step (.push j d size)).conn i = s.conn i := by
  simp only [step]
  split
  · rfl
  · exact Function.update_of_ne h ..

theorem next_conn_of_ne {i j : ι} (h : i ≠ j) : (s.step (.next j)).conn i = s.conn i := by
  simp only [step]
  split
  · rfl
  · exact Function.update_of_ne h ..

theorem next_conn {i : ι} {d : Direction} {size : G} (h : s.conn i = some (d, size)) :
    (s.step (.next i)).conn = Function.update s.conn i none := by
  simp only [step, h]

theorem next_total {i : ι} {d : Direction} {size : G} (h : s.conn i = some (d, size))
    (e : Direction) :
    ((s.step (.next i)).traffic e).total = (s.traffic e).total + if e = d then size else 0 := by
  simp only [step, h, setTraffic]
  by_cases he : e = d
  · subst he
    rw [Function.update_self, if_pos rfl]
    rfl
  · rw [Function.update_of_ne he, if_neg he, add_zero]

end Tun2socks.Statistic.State

namespace Tun2socks.Tunnel

open Tun2socks.Go Tun2socks.Statistic

namespace Stream

variable {G : Type}

/-- What a step can do to the counting. -/
inductive Counts (d : Direction) : Stream G → Stream G → Option Effect → Prop
  | same {s s' : Stream G} {e : Option Effect} (hcount : s'.count = s.count)
      (hcounted : s'.counted = s.counted)
      (he : e = none ∨ ∃ side c, e = some (.call side c)) : Counts d s s' e
  | begin {s s' : Stream G} (n : Int) (hcount : s.count = none)
      (hcount' : s'.count = some (.temp, n)) (hcounted : s'.counted = s.counted ++ [n]) :
      Counts d s s' none
  | temp {s s' : Stream G} (n : Int) (hcount : s.count = some (.temp, n))
      (hcount' : s'.count = some (.total, n)) (hcounted : s'.counted = s.counted) :
      Counts d s s' (some (.addTemp d n))
  | total {s s' : Stream G} (n : Int) (hcount : s.count = some (.total, n))
      (hcount' : s'.count = some (.own, n)) (hcounted : s'.counted = s.counted) :
      Counts d s s' (some (.addTotal d))
  | own {s s' : Stream G} (n : Int) (hcount : s.count = some (.own, n))
      (hcount' : s'.count = none) (hcounted : s'.counted = s.counted) : Counts d s s' none

theorem track_counts {s s' : Stream G} (hc : s.count = none) (hc' : s'.count = s.count)
    (hcounted : s'.counted = s.counted) (d : Direction) (side : Side) (n : Int) :
    Counts d s (s'.track side n) none := by
  cases side with
  | origin => exact .same hc' hcounted (.inl rfl)
  | remote => exact .begin n hc rfl (by rw [← hcounted]; rfl)

theorem step_counts [Add G] [IntCast G] (s : Stream G) (net : Network) (dst : String)
    (d : Direction) (a : Answer) : Counts d s (s.step net dst d a).1 (s.step net dst d a).2 := by
  unfold step
  split
  · rename_i stage n hc
    cases stage with
    | temp => exact .temp n hc rfl rfl
    | total => exact .total n hc rfl rfl
    | own => exact .own n hc rfl rfl
  · exact .same rfl rfl (.inl rfl)
  · unfold go
    split
    · exact .same rfl rfl (.inr ⟨_, _, rfl⟩)
    · exact .same rfl rfl (.inr ⟨_, _, rfl⟩)
    · split
      · exact .same rfl rfl (.inr ⟨_, _, rfl⟩)
      · exact .same rfl rfl (.inl rfl)
    · exact .same rfl rfl (.inr ⟨_, _, rfl⟩)
    · exact .same rfl rfl (.inr ⟨_, _, rfl⟩)
    · exact .same rfl rfl (.inl rfl)
    · exact .same rfl rfl (.inl rfl)
    · exact .same rfl rfl (.inl rfl)
  · rename_i hc
    split
    · split
      · refine track_counts hc ?_ ?_ d _ _ <;> rfl
      · exact .same rfl rfl (.inl rfl)
    · exact .same rfl rfl (.inl rfl)
  · rename_i hc
    split
    · refine track_counts hc ?_ ?_ d _ _ <;> rfl
    · exact .same rfl rfl (.inl rfl)

/-- The number that is not in the manager's total yet. -/
def inFlight (s : Stream G) : Int :=
  match s.count with
  | some (.temp, n) | some (.total, n) => n
  | some (.own, _) | none => 0

/-- The share of the tracker in the manager's total. -/
def pushed [IntCast G] (s : Stream G) : G := ((s.counted.sum - s.inFlight : Int) : G)

end Stream

/-! ### The manager and one session -/

/-- What the manager knows of a stream: the number that is between the two additions of
`PushUploaded` or `PushDownloaded`. -/
def Stream.between {G : Type} [IntCast G] (s : Stream G) (d : Direction) : Option (Direction × G) :=
  match s.count with
  | some (.total, n) => some (d, (n : G))
  | some (.temp, _) | some (.own, _) | none => none

section Session

variable {ι ρ υ G : Type} [DecidableEq ι] [DecidableEq υ] [AddCommGroupWithOne G] {uuid : ι → υ}
  {i : ι}

/-- The manager is inside a call of a stream just where the stream is. -/
def Session.Pushes (i : ι) (s : Session G) (g : Shared ι ρ υ G) : Prop :=
  ∀ d, g.manager.conn (i, d) = (s.stream d).between d

theorem Session.Pushes.frame {s : Session G} {g : Shared ι ρ υ G} (h : s.Pushes i g) {j : ι}
    (hj : j ≠ i) (e : Effect) : s.Pushes i (Shared.effect uuid j e g) := by
  have hne : ∀ d d' : Direction, (i, d) ≠ (j, d') := fun d d' heq => hj (Prod.mk.inj heq).1.symm
  intro d
  rw [← h d]
  cases e with
  | join | leave | call => rfl
  | addTemp d' n => exact State.push_conn_of_ne _ (hne d d') _ _
  | addTotal d' => exact State.next_conn_of_ne _ (hne d d')

variable [DecidableEq ρ]

theorem Shared.Step.conn {g g' : Shared ι ρ υ G} (h : Step uuid g g') :
    g'.manager.conn = g.manager.conn := by
  cases h with
  | tick => exact g.manager.handle_conn
  | request | visit | snapshot | finish | leave | close | stay => rfl

theorem Shared.Step.total {g g' : Shared ι ρ υ G} (h : Step uuid g g') (d : Direction) :
    (g'.manager.traffic d).total = (g.manager.traffic d).total := by
  cases h with
  | tick => exact g.manager.handle_total d
  | request | visit | snapshot | finish | leave | close | stay => rfl

variable [Fintype ι]

/-- A step of a stream: the manager keeps up with it, and its totals move by the same
amount as the share of the stream. -/
theorem Stream.Counts.pushes {d : Direction} {t t' : Stream G} {e : Option Effect}
    (hc : Counts d t t' e) {g : Shared ι ρ υ G} (h : g.manager.conn (i, d) = t.between d) :
    ((tunnel uuid).apply i e g).manager.conn =
        Function.update g.manager.conn (i, d) (t'.between d) ∧
      ∀ d', (((tunnel uuid).apply i e g).manager.traffic d').total - (g.manager.traffic d').total =
        if d' = d then t'.pushed - t.pushed else 0 := by
  cases hc with
  | same hcount hcounted he =>
    have hm : ((tunnel uuid).apply i e g).manager = g.manager := by
      rcases he with rfl | ⟨side, c, rfl⟩ <;> rfl
    have hb : t'.between d = t.between d := by rw [between, between, hcount]
    have hp : t'.pushed = t.pushed := by rw [pushed, pushed, inFlight, inFlight, hcount, hcounted]
    rw [hm, hb, ← h, hp]
    simp
  | begin n hcount hcount' hcounted =>
    have hb : t'.between d = t.between d := by rw [between, between, hcount, hcount']
    have hp : t'.pushed = t.pushed := by
      simp [pushed, inFlight, hcount, hcount', hcounted]
    rw [hb, ← h, hp]
    simp
  | temp n hcount hcount' hcounted =>
    have hnone : g.manager.conn (i, d) = none := by rw [h, between, hcount]
    have hp : t'.pushed = t.pushed := by simp [pushed, inFlight, hcount, hcount', hcounted]
    have hb : t'.between d = some (d, (n : G)) := by rw [between, hcount']
    rw [hp, hb]
    refine ⟨State.push_conn _ hnone d _, fun d' => ?_⟩
    have := State.push_total g.manager (i, d) d (n : G) d'
    simp only [Goroutines.apply_some, tunnel, Shared.effect, this]
    simp
  | total n hcount hcount' hcounted =>
    have hsome : g.manager.conn (i, d) = some (d, (n : G)) := by rw [h, between, hcount]
    have hp : t'.pushed - t.pushed = (n : G) := by
      simp [pushed, inFlight, hcount, hcount', hcounted]
    have hb : t'.between d = none := by rw [between, hcount']
    rw [hp, hb]
    refine ⟨State.next_conn _ hsome, fun d' => ?_⟩
    have := State.next_total g.manager hsome d'
    simp only [Goroutines.apply_some, tunnel, Shared.effect, this]
    simp
  | own n hcount hcount' hcounted =>
    have hb : t'.between d = t.between d := by rw [between, between, hcount, hcount']
    have hp : t'.pushed = t.pushed := by
      simp [pushed, inFlight, hcount, hcount', hcounted]
    rw [hb, ← h, hp]
    simp

theorem Session.Move.pushes {s s' : Session G} {e : Option Effect} (hm : Move s s' e)
    {g : Shared ι ρ υ G} (h : s.Pushes i g) :
    s'.Pushes i ((tunnel uuid).apply i e g) ∧
      ∀ d, (((tunnel uuid).apply i e g).manager.traffic d).total - (g.manager.traffic d).total =
        (s'.stream d).pushed - (s.stream d).pushed := by
  cases hm with
  | stream d a hh =>
    have hcounts := (s.stream d).step_counts s.network s.dst d a
    obtain ⟨hconn, htotal⟩ := hcounts.pushes (h d)
    refine ⟨fun e => ?_, fun e => ?_⟩
    · rw [hconn]
      dsimp only
      by_cases he : e = d
      · subst he
        rw [Function.update_self, Function.update_self]
      · rw [Function.update_of_ne he, Function.update_of_ne (by simp [he])]
        exact h e
    · rw [htotal]
      dsimp only
      by_cases he : e = d
      · subst he
        rw [if_pos rfl, Function.update_self]
      · rw [if_neg he, Function.update_of_ne he, sub_self]
  | dial | join | wait | leave | close | ret | stay =>
    refine ⟨h, fun d => ?_⟩
    simp only [sub_self]
    exact sub_self _

end Session

/-! ### Runs -/

section Runs

variable {ι ρ υ G : Type} [Fintype ι] [DecidableEq ι] [DecidableEq ρ] [DecidableEq υ]
  [AddCommGroupWithOne G] {uuid : ι → υ} (network : ι → Network) (dst : ι → String)
  (acts : List (Goroutines.Action ι Act (Other ρ υ)))

theorem pushes_run (i : ι) :
    ((tunnelRun ρ υ G uuid network dst acts).proc i).Pushes i
      (tunnelRun ρ υ G uuid network dst acts).shared := by
  refine Goroutines.run_process (P := Session.Pushes i) i ?_ ?_ ?_ ?_ acts
  · intro s g a h
    exact ((s.next_move a).pushes h).1
  · intro s g j e hj h
    exact h.frame hj e
  · intro s g b h d
    rw [← h d]
    exact congrFun (Shared.other_step uuid b g).conn (i, d)
  · intro d
    simp only [tunnelStart, Session.new, Stream.between]
    cases network i <;> rfl

/-- The manager's total is what its trackers have put into it, in every interleaving. -/
theorem total_run (d : Direction) :
    ((tunnelRun ρ υ G uuid network dst acts).shared.manager.traffic d).total =
      ∑ i, (((tunnelRun ρ υ G uuid network dst acts).proc i).stream d).pushed := by
  have hsum := Goroutines.run_sum (M := tunnel uuid) (s := tunnelStart network dst)
    (fun g : Shared ι ρ υ G => (g.manager.traffic d).total)
    (fun s : Session G => (s.stream d).pushed) (pushes_run network dst)
    (fun i s g a h => ((s.next_move a).pushes h).2 d)
    (fun g b => (Shared.other_step uuid b g).total d) acts
  have hnew : ∀ i, (((tunnelStart network dst : Goroutines.State ι (Session G)
      (Shared ι ρ υ G)).proc i).stream d).pushed = 0 := by
    intro i
    simp only [tunnelStart, Session.new]
    cases network i <;> simp [Stream.pushed, Stream.inFlight, Stream.new]
  simp only [hnew, Finset.sum_const_zero, sub_zero] at hsum
  rw [tunnelRun, ← hsum]
  exact (sub_zero _).symm

/-- **The totals agree.** When no call is being counted, the manager's totals are the sums of
those of all trackers, of the sessions that have ended too. For TCP the total of a tracker is the
number of bytes that its connection gave, or took as long as no write has failed. -/
theorem totals_agree (acts : List (Goroutines.Action ι Act (Other ρ υ))) :
    let s := tunnelRun ρ υ G uuid network dst acts
    (∀ i d, ((s.proc i).stream d).count = none) →
      (∀ d, (s.shared.manager.traffic d).total = ∑ i, ((s.proc i).stream d).total) ∧
      ∀ i, network i = .tcp →
        ((s.proc i).stream .download).total =
          (((s.proc i).stream .download).reads.flatten.length : G) ∧
        (((s.proc i).stream .upload).reads =
            ((s.proc i).stream .upload).writes ++ ((s.proc i).stream .upload).pc.data →
          ((s.proc i).stream .upload).total =
            (((s.proc i).stream .upload).writes.flatten.length : G)) := by
  intro s hquiet
  have hsound : ∀ i, (s.proc i).Sound := fun i => sound_run network dst acts i
  have htotal : ∀ i d, ((s.proc i).stream d).total =
      ((((s.proc i).stream d).counted.sum : Int) : G) := by
    intro i d
    have htally := (hsound i).tallies d
    simpa only [Stream.Tallies, hquiet i d, Option.elim, Int.cast_zero, add_zero] using htally
  refine ⟨fun d => ?_, fun i htcp => ?_⟩
  · rw [total_run network dst acts d]
    refine Finset.sum_congr rfl fun i _ => ?_
    rw [htotal i d, Stream.pushed, Stream.inFlight, hquiet i d, sub_zero]
  · have hnet : (s.proc i).network = .tcp := (network_run network dst acts i).trans htcp
    have hmeasures := (hsound i).measures hnet
    refine ⟨?_, fun htaken => ?_⟩
    · rw [htotal, (hmeasures .download).download rfl, Int.cast_natCast]
    · rw [htotal, (hmeasures .upload).upload rfl htaken, Int.cast_natCast]

end Runs

/-- Two sessions of which one has read three bytes and the other has read two. -/
theorem totals_agree_two :
    let s := tunnelRun Unit Bool (BitVec 64) (id : Bool → Bool) (fun _ => .tcp)
      (fun _ => "192.0.2.1:80") ([.proc true (.dial none), .proc true .handler,
        .proc false (.dial none), .proc false .handler,
        .proc true (.stream .download (.read ⟨[1, 2, 3], none, none⟩)),
        .proc false (.stream .download (.read ⟨[4, 5], none, none⟩)),
        .proc true (.stream .download .step), .other .tick,
        .proc false (.stream .download .step), .proc false (.stream .download .step),
        .proc true (.stream .download .step), .other .tick,
        .proc true (.stream .download .step), .proc false (.stream .download .step)])
    (s.shared.manager.traffic .download).total = ∑ i, ((s.proc i).stream .download).total ∧
      (s.shared.manager.traffic .download).total = 5 := by
  intro s
  have hquiet : ∀ i d, ((s.proc i).stream d).count = none := by
    intro i d
    cases i <;> cases d <;> decide +kernel
  exact ⟨(totals_agree (fun _ => .tcp) (fun _ => "192.0.2.1:80") _ hquiet).1 .download,
    by decide +kernel⟩

end Tun2socks.Tunnel
