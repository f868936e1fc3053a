import Mathlib.Algebra.BigOperators.Group.List.Basic
import Mathlib.Algebra.Group.Basic
import Mathlib.Data.BitVec
import Mathlib.Tactic.Abel

/-!
# Tun2socks.Statistic.Manager

The traffic counters of `tunnel/statistic/manager.go`, with any number of connections
that push sizes and the goroutine `handle` that publishes the figures of each second.

Every operation on an atomic counter is one step, and a run is a list of actions, each the
next step of one goroutine. The counters are `int64` and wrap around; nothing here depends
on more than their being a commutative group, `BitVec 64` for the program.

A tick reads `temp` with a `Load` and clears it with a `Store(0)` two steps later. What is
added in between is neither published nor kept. The history field `lost` records it, and
`Accounted`, the invariant of all runs, says that nothing else is missing.
-/

namespace Tun2socks.Statistic

/-- The two directions that are counted. -/
inductive Direction
  | upload
  | download
  deriving DecidableEq

/-- The counters of one direction, and their history. -/
structure Traffic (G : Type) where
  /-- `uploadTemp` or `downloadTemp` -/
  temp : G
  /-- `uploadBlip` or `downloadBlip` -/
  blip : G
  /-- `uploadTotal` or `downloadTotal` -/
  total : G
  /-- history: the values stored in `blip` -/
  published : List G
  /-- history: the sizes added to `temp` -/
  added : List G
  /-- history: those of them added after the `Load` of a tick and before its `Store(0)` -/
  lost : List G

/-- Where `handle` stands. -/
inductive Handle (G : Type)
  /-- waiting for the ticker -/
  | idle
  /-- `temp.Load()` has returned `v` -/
  | loaded (d : Direction) (v : G)
  /-- `blip.Store(v)` is done, `temp.Store(0)` is not -/
  | stored (d : Direction)
  /-- done with the upload counters -/
  | uploadDone
  deriving DecidableEq

/-- Between the `Load` and the `Store(0)` of the counter. -/
def Handle.between {G : Type} (d : Direction) : Handle G → Bool
  | loaded d' _ => d' = d
  | stored d' => d' = d
  | idle | uploadDone => false

namespace Traffic

variable {G : Type} [AddCommGroup G]

/-- All counters zero, as `init` makes them. -/
def new : Traffic G := ⟨0, 0, 0, [], [], []⟩

/-- `temp.Add(size)`. -/
def add (t : Traffic G) (between : Bool) (size : G) : Traffic G :=
  { t with
    temp := t.temp + size
    added := t.added ++ [size]
    lost := if between then t.lost ++ [size] else t.lost }

/-- `total.Add(size)`. -/
def addTotal (t : Traffic G) (size : G) : Traffic G := { t with total := t.total + size }

/-- `blip.Store(v)`. -/
def publish (t : Traffic G) (v : G) : Traffic G :=
  { t with blip := v, published := t.published ++ [v] }

/-- `temp.Store(0)`. -/
def reset (t : Traffic G) : Traffic G := { t with temp := 0 }

end Traffic

/-! ### Runs -/

/-- The manager and the goroutines that use it: where `handle` stands, and for every
connection in a call of `PushUploaded` or `PushDownloaded` what it has still to add to
`total`. -/
structure State (ι G : Type) where
  traffic : Direction → Traffic G
  handle : Handle G
  conn : ι → Option (Direction × G)

/-- The goroutine that takes its next step. A connection begins a call with `push`. -/
inductive Action (ι G : Type)
  | push (i : ι) (d : Direction) (size : G)
  | next (i : ι)
  | handle

/-- Connection `i` calls `PushUploaded(size)`. -/
def pushUploaded {ι G : Type} (i : ι) (size : G) : Action ι G := .push i .upload size

/-- Connection `i` calls `PushDownloaded(size)`. -/
def pushDownloaded {ι G : Type} (i : ι) (size : G) : Action ι G := .push i .download size

namespace State

variable {ι G : Type} [AddCommGroup G]

/-- Nothing has been counted. -/
def start : State ι G := ⟨fun _ => .new, .idle, fun _ => none⟩

/-- `Now()`. -/
def now (s : State ι G) : G × G := ((s.traffic .upload).blip, (s.traffic .download).blip)

/-- Other counters of one direction. -/
def setTraffic (s : State ι G) (d : Direction) (t : Traffic G) : State ι G :=
  { s with traffic := Function.update s.traffic d t }

/-- The next step of `handle`. -/
def tick (s : State ι G) : State ι G :=
  match s.handle with
  | .idle => { s with handle := .loaded .upload (s.traffic .upload).temp }
  | .loaded d v => { s.setTraffic d ((s.traffic d).publish v) with handle := .stored d }
  | .stored .upload =>
    { s.setTraffic .upload (s.traffic .upload).reset with handle := .uploadDone }
  | .uploadDone => { s with handle := .loaded .download (s.traffic .download).temp }
  | .stored .download =>
    { s.setTraffic .download (s.traffic .download).reset with handle := .idle }

variable [DecidableEq ι]

/-- One step. A goroutine that cannot take the step asked for does nothing. -/
def step (s : State ι G) : Action ι G → State ι G
  | .push i d size =>
    match s.conn i with
    | some _ => s
    | none =>
      { s.setTraffic d ((s.traffic d).add (s.handle.between d) size) with
        conn := Function.update s.conn i (some (d, size)) }
  | .next i =>
    match s.conn i with
    | none => s
    | some (d, size) =>
      { s.setTraffic d ((s.traffic d).addTotal size) with conn := Function.update s.conn i none }
  | .handle => s.tick

/-- A run from the start. -/
def run (acts : List (Action ι G)) : State ι G := acts.foldl step start

end State

/-! ### What a step does to one direction -/

variable {ι G : Type} [AddCommGroup G]

/-- The ways in which a step can change the counters of direction `d` and where `handle`
stands with them. -/
inductive Move (d : Direction) : Handle G → Traffic G → Handle G → Traffic G → Prop
  | stay (h : Handle G) (t : Traffic G) : Move d h t h t
  | add (h : Handle G) (t : Traffic G) (size : G) : Move d h t h (t.add (h.between d) size)
  | addTotal (h : Handle G) (t : Traffic G) (size : G) : Move d h t h (t.addTotal size)
  | load {h : Handle G} (t : Traffic G) (hd : h.between d = false) :
      Move d h t (.loaded d t.temp) t
  | publish (v : G) (t : Traffic G) : Move d (.loaded d v) t (.stored d) (t.publish v)
  | reset {h : Handle G} (t : Traffic G) (hd : h.between d = false) :
      Move d (.stored d) t h t.reset
  /-- `handle` is at work on the other direction. -/
  | other {h h' : Handle G} (t : Traffic G) (hd : h.between d = false)
      (hd' : h'.between d = false) : Move d h t h' t

namespace State

/-- A change of the counters of `e` is a move of direction `e`, and seen from any other
direction nothing has happened. -/
theorem setTraffic_move (s : State ι G) {e : Direction} {t : Traffic G}
    (h : Move e s.handle (s.traffic e) s.handle t) (d : Direction) :
    Move d s.handle (s.traffic d) s.handle ((s.setTraffic e t).traffic d) := by
  dsimp only [setTraffic]
  by_cases hd : d = e
  · subst hd
    rwa [Function.update_self]
  · rw [Function.update_of_ne hd]
    exact .stay _ _

theorem tick_move (s : State ι G) (d : Direction) :
    Move d s.handle (s.traffic d) s.tick.handle (s.tick.traffic d) := by
  unfold tick
  cases hs : s.handle with
  | idle =>
    cases d with
    | upload => exact .load _ rfl
    | download => exact .other _ rfl rfl
  | uploadDone =>
    cases d with
    | upload => exact .other _ rfl rfl
    | download => exact .load _ rfl
  | loaded e v =>
    dsimp only [setTraffic]
    by_cases hd : d = e
    · subst hd
      rw [Function.update_self]
      exact .publish v _
    · rw [Function.update_of_ne hd]
      exact .other _ (decide_eq_false (Ne.symm hd)) (decide_eq_false (Ne.symm hd))
  | stored e =>
    cases e with
    | upload =>
      cases d with
      | upload => exact .reset _ rfl
      | download => exact .other _ rfl rfl
    | download =>
      cases d with
      | upload => exact .other _ rfl rfl
      | download => exact .reset _ rfl

variable [DecidableEq ι]

theorem step_move (s : State ι G) (a : Action ι G) (d : Direction) :
    Move d s.handle (s.traffic d) (s.step a).handle ((s.step a).traffic d) := by
  cases a with
  | push i e size =>
    rw [step]
    split
    · exact .stay _ _
    · exact s.setTraffic_move (.add _ _ size) d
  | next i =>
    rw [step]
    split
    · exact .stay _ _
    · exact s.setTraffic_move (.addTotal _ _ _) d
  | handle => exact s.tick_move d

/-- What holds of new counters and is kept by every move holds after every run. -/
theorem run_induction {P : Handle G → Traffic G → Prop} {d : Direction} (hstart : P .idle .new)
    (hmove : ∀ {h t h' t'}, Move d h t h' t' → P h t → P h' t') (acts : List (Action ι G)) :
    P (run acts).handle ((run acts).traffic d) :=
  List.foldlRecOn (motive := fun s => P s.handle (s.traffic d)) acts step hstart
    fun s hs a _ => hmove (s.step_move a d) hs

end State

/-! ### Where the sizes are -/

/-- What `handle` is still going to publish of a direction: the value it has loaded, if it
has loaded one, and the counter otherwise. -/
def Handle.pending (d : Direction) (temp : G) : Handle G → G
  | loaded d' v => if d' = d then v else temp
  | stored d' => if d' = d then 0 else temp
  | idle | uploadDone => temp

theorem Handle.pending_eq_temp {d : Direction} {h : Handle G} (hd : h.between d = false)
    (temp : G) : h.pending d temp = temp := by
  cases h with
  | idle | uploadDone => rfl
  | loaded e v => exact if_neg (of_decide_eq_false hd)
  | stored e => exact if_neg (of_decide_eq_false hd)

/-- From the `Load` on, the counter does not matter. -/
theorem Handle.pending_between {d : Direction} {h : Handle G} (hd : h.between d = true)
    (temp temp' : G) : h.pending d temp = h.pending d temp' := by
  cases h with
  | idle | uploadDone => cases hd
  | loaded e v =>
    obtain rfl : e = d := of_decide_eq_true hd
    rw [pending, pending, if_pos rfl, if_pos rfl]
  | stored e =>
    obtain rfl : e = d := of_decide_eq_true hd
    rw [pending, pending, if_pos rfl, if_pos rfl]

/-- Every size added has been published, is going to be, or was lost. -/
def Accounted (d : Direction) (h : Handle G) (t : Traffic G) : Prop :=
  t.published.sum + h.pending d t.temp + t.lost.sum = t.added.sum

theorem Accounted.add {d : Direction} {h : Handle G} {t : Traffic G} (ht : Accounted d h t)
    (size : G) : Accounted d h (t.add (h.between d) size) := by
  unfold Accounted at ht ⊢
  cases hd : h.between d with
  | false =>
    rw [Handle.pending_eq_temp hd] at ht ⊢
    simp only [Traffic.add, Bool.false_eq_true, if_false, List.sum_append, List.sum_singleton, ← ht]
    abel
  | true =>
    rw [Handle.pending_between hd _ t.temp]
    simp only [Traffic.add, if_true, List.sum_append, List.sum_singleton, ← ht]
    abel

theorem Move.accounted {d : Direction} {h h' : Handle G} {t t' : Traffic G}
    (hm : Move d h t h' t') (ht : Accounted d h t) : Accounted d h' t' := by
  cases hm with
  | stay => exact ht
  | add h t size => exact ht.add size
  | addTotal h t size => exact ht
  | load t hd =>
    rw [Accounted, Handle.pending_eq_temp hd] at ht
    rwa [Accounted, Handle.pending, if_pos rfl]
  | publish v t =>
    rw [Accounted, Handle.pending, if_pos rfl] at ht
    rw [Accounted, Handle.pending, if_pos rfl, add_zero]
    simpa only [Traffic.publish, List.sum_append, List.sum_singleton] using ht
  | reset t hd =>
    rw [Accounted, Handle.pending, if_pos rfl] at ht
    rwa [Accounted, Handle.pending_eq_temp hd]
  | other t hd hd' =>
    rw [Accounted, Handle.pending_eq_temp hd] at ht
    rwa [Accounted, Handle.pending_eq_temp hd']

theorem accounted_run [DecidableEq ι] (acts : List (Action ι G)) (d : Direction) :
    Accounted d (State.run acts).handle ((State.run acts).traffic d) :=
  State.run_induction (by simp [Accounted, Handle.pending, Traffic.new]) Move.accounted acts

/-- The last value published is the one that `Now` shows. -/
theorem blip_run [DecidableEq ι] (acts : List (Action ι G)) (d : Direction) :
    ((State.run acts).traffic d).blip = ((State.run acts).traffic d).published.getLastD 0 := by
  refine State.run_induction (P := fun _ t => t.blip = t.published.getLastD 0) (d := d) rfl ?_ acts
  intro h t h' t' hm ht
  cases hm with
  | publish v t => simp [Traffic.publish]
  | stay | add | addTotal | load | reset | other => exact ht

/-- **The figures add up exactly when nothing was lost.** Between two ticks the values
published and the counter make up all that was added, if and only if the sizes added
between the `Load` of a tick and its `Store(0)` sum up to zero. -/
theorem traffic_kept_iff [DecidableEq ι] (acts : List (Action ι G)) (d : Direction)
    (hidle : (State.run acts).handle = .idle) :
    ((State.run acts).traffic d).published.sum + ((State.run acts).traffic d).temp =
        ((State.run acts).traffic d).added.sum ↔
      ((State.run acts).traffic d).lost.sum = 0 := by
  have hacc := accounted_run acts d
  rw [Accounted, hidle, Handle.pending] at hacc
  rw [← hacc]
  exact left_eq_add

/-- A size pushed between two ticks is published by the next. -/
theorem traffic_kept_one :
    let s : State Unit (BitVec 64) := State.run (pushUploaded () 100 :: .next () ::
      List.replicate 6 .handle)
    s.handle = .idle ∧ (s.traffic .upload).published = [100] ∧
      (s.traffic .upload).published.sum + (s.traffic .upload).temp =
        (s.traffic .upload).added.sum :=
  ⟨by decide, by decide, (traffic_kept_iff _ _ (by decide)).mpr (by decide)⟩

/-- A hundred bytes are pushed and the tick loads them. Another fifty, pushed before the tick
clears the counter, are never published. -/
theorem traffic_lost_between :
    let s : State Unit (BitVec 64) := State.run ([pushUploaded () 100, .next (), .handle,
      pushUploaded () 50, .next ()] ++ List.replicate 5 .handle)
    s.handle = .idle ∧ (s.traffic .upload).published.sum + (s.traffic .upload).temp = 100 ∧
      (s.traffic .upload).added.sum = 150 := by
  decide

end Tun2socks.Statistic
