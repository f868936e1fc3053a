import Mathlib.Data.List.Nodup
import Tun2socks.Tunnel.Session

/-!
# Tun2socks.Tunnel.Queue

The way of a connection from the stack into the tunnel: the forwarders of `core/tcp.go` and
`core/udp.go`, the two unbuffered queues of `tunnel/tunnel.go`, and the goroutine `process`
that starts a handler for everything it takes from them.

A send on an unbuffered channel waits until `process` takes the connection, so both sides move in
one step. `select` chooses freely among what is ready: after `Close` it may still take
connections for a while. `ProcessAsync` may be called by any number of goroutines, and
`sync.Once` lets one of them start `process`; the others wait until that has been done.
-/

namespace Tun2socks.Tunnel

/-- Where the goroutine of a forwarder request stands. -/
inductive Request
  /-- in `r.CreateEndpoint` -/
  | creating
  /-- it has failed -/
  | failed
  /-- in `HandleTCP` or `HandleUDP`, which waits for `process` -/
  | sending
  | sent
  /-- `ok` if there was an endpoint -/
  | returned (ok : Bool)
  deriving DecidableEq

/-- `procOnce`, with the step of the goroutine `k` that runs its function. -/
inductive Once (κ : Type)
  | fresh
  /-- before `t.procCancel = cancel` -/
  | running (k : κ)
  /-- before `go t.process(ctx)` -/
  | stored (k : κ)
  | started (k : κ)
  | done
  deriving DecidableEq

/-- Where a goroutine that calls `ProcessAsync` stands. -/
inductive Caller
  | outside
  | inside
  | returned
  deriving DecidableEq

/-- Where `process` stands. -/
inductive Process (ι : Type)
  /-- not started -/
  | idle
  | select
  /-- a connection was taken, its handler is not started -/
  | received (i : ι)
  | returned
  deriving DecidableEq

/-- The requests are numbered by `ι`, the goroutines that call `ProcessAsync` by `κ`. -/
structure Queue (ι κ : Type) where
  network : ι → Network
  request : ι → Request
  caller : κ → Caller
  once : Once κ
  /-- `procCancel` is that of the context, and not the function that does nothing -/
  cancel : Bool
  /-- the context is cancelled -/
  cancelled : Bool
  process : Process ι
  /-- history: the arguments of `r.Complete` -/
  completes : ι → List Bool
  /-- history: the connections that a handler was started for -/
  handled : List ι

/-- What can happen to the queue. -/
inductive Queue.Action (ι κ : Type)
  /-- `CreateEndpoint` returns -/
  | create (i : ι) (ok : Bool)
  /-- the request completes -/
  | finish (i : ι)
  /-- `process` takes the connection of `i` -/
  | receive (i : ι)
  /-- `go t.handleTCPConn(conn)` or `go t.handleUDPConn(conn)` -/
  | spawn
  /-- `case <-ctx.Done()` -/
  | done
  | processAsync (k : κ)
  | close

/-- The request has handed over its connection. -/
def Request.delivered : Request → Bool
  | sent | returned true => true
  | creating | failed | sending | returned false => false

/-- The arguments of `r.Complete` so far: a reset if there is no endpoint. UDP requests are not
completed. -/
def Request.completes : Network → Request → List Bool
  | .tcp, returned ok => [!ok]
  | .tcp, _ | .udp, _ => []

/-- `process` was started. -/
def Once.hasStarted {κ : Type} : Once κ → Bool
  | fresh | running _ | stored _ => false
  | started _ | done => true

namespace Queue

variable {ι κ : Type}

/-- As `New` makes it, with the requests about to create their endpoints. -/
def start (network : ι → Network) : Queue ι κ :=
  ⟨network, fun _ => .creating, fun _ => .outside, .fresh, false, false, .idle, fun _ => [], []⟩

section

variable [DecidableEq ι]

/-- Another state of one request. -/
def move (s : Queue ι κ) (i : ι) (r : Request) : Queue ι κ :=
  { s with request := Function.update s.request i r }

/-- `r.Complete(sendReset)`, for a TCP request. -/
def complete (s : Queue ι κ) (i : ι) (sendReset : Bool) : Queue ι κ :=
  match s.network i with
  | .tcp => { s with completes := Function.update s.completes i (s.completes i ++ [sendReset]) }
  | .udp => s

end

/-- The next step of goroutine `k` in `ProcessAsync`. -/
def call [DecidableEq κ] (s : Queue ι κ) (k : κ) : Queue ι κ :=
  match s.caller k with
  | .outside => { s with caller := Function.update s.caller k .inside }
  | .returned => s
  | .inside =>
    match s.once with
    | .fresh => { s with once := .running k }
    | .running k' => if k' = k then { s with cancel := true, once := .stored k } else s
    | .stored k' => if k' = k then { s with process := .select, once := .started k } else s
    | .started k' => if k' = k then { s with once := .done } else s
    | .done => { s with caller := Function.update s.caller k .returned }

variable [DecidableEq ι] [DecidableEq κ]

/-- One step. -/
def step (s : Queue ι κ) : Action ι κ → Queue ι κ
  | .create i ok =>
    match s.request i with
    | .creating => s.move i (if ok then .sending else .failed)
    | _ => s
  | .finish i =>
    match s.request i with
    | .failed => (s.complete i true).move i (.returned false)
    | .sent => (s.complete i false).move i (.returned true)
    | _ => s
  | .receive i =>
    match s.process, s.request i with
    | .select, .sending => { s.move i .sent with process := .received i }
    | _, _ => s
  | .spawn =>
    match s.process with
    | .received i => { s with process := .select, handled := s.handled ++ [i] }
    | _ => s
  | .done =>
    match s.process with
    | .select => if s.cancelled then { s with process := .returned } else s
    | _ => s
  | .processAsync k => s.call k
  | .close => if s.cancel then { s with cancelled := true } else s

/-- A run of steps. -/
def run (s : Queue ι κ) (acts : List (Action ι κ)) : Queue ι κ := acts.foldl step s

/-! ### The invariant -/

omit [DecidableEq ι] [DecidableEq κ] in
/-- What holds in every run. -/
structure Inv (network : ι → Network) (s : Queue ι κ) : Prop where
  network_eq : s.network = network
  started : s.process = .idle ↔ s.once.hasStarted = false
  closed : s.process = .returned → s.cancelled = true
  /-- `process` has what was handed over -/
  taken : ∀ i, (s.request i).delivered = true ↔ i ∈ s.handled ∨ s.process = .received i
  nodup : s.handled.Nodup
  fresh : ∀ i, s.process = .received i → i ∉ s.handled
  completed : ∀ i, s.completes i = (s.request i).completes (network i)

variable {network : ι → Network} {s : Queue ι κ}

omit [DecidableEq ι] [DecidableEq κ] in
theorem inv_start : Inv network (start network : Queue ι κ) := by
  refine ⟨rfl, by simp [start, Once.hasStarted], nofun, fun i => ?_, List.nodup_nil, nofun,
    fun i => ?_⟩
  · simp [start, Request.delivered]
  · simp only [start]
    cases network i <;> rfl

omit [DecidableEq κ] in
/-- A request moves and nothing changes for the others. -/
theorem Inv.move (h : Inv network s) {i : ι} {r : Request} {completes : ι → List Bool}
    (hd : r.delivered = (s.request i).delivered)
    (hself : completes i = r.completes (network i))
    (hother : ∀ j ≠ i, completes j = s.completes j) :
    Inv network { s.move i r with completes := completes } := by
  refine ⟨h.network_eq, h.started, h.closed, fun j => ?_, h.nodup, h.fresh, fun j => ?_⟩
  · by_cases hj : j = i
    · subst hj
      simpa [Queue.move, hd] using h.taken j
    · simpa [Queue.move, Function.update_of_ne hj] using h.taken j
  · by_cases hj : j = i
    · subst hj
      simpa [Queue.move] using hself
    · simpa [Queue.move, Function.update_of_ne hj, hother j hj] using h.completed j

omit [DecidableEq κ] in
theorem Inv.finish (h : Inv network s) {i : ι} (ok : Bool)
    (hd : (s.request i).delivered = ok) (hr : ∀ b, s.request i ≠ .returned b) :
    Inv network ((s.complete i (!ok)).move i (.returned ok)) := by
  have hnone : s.completes i = [] := by
    rw [h.completed i]
    cases hi : s.request i with
    | returned b => exact absurd hi (hr b)
    | creating | failed | sending | sent => cases network i <;> rfl
  have hd' : (Request.returned ok).delivered = (s.request i).delivered := by
    rw [hd]
    cases ok <;> rfl
  cases hnet : network i with
  | tcp =>
    have hcomplete : s.complete i (!ok) =
        { s with completes := Function.update s.completes i (s.completes i ++ [!ok]) } := by
      rw [complete, h.network_eq, hnet]
    rw [hcomplete]
    refine h.move hd' ?_ fun j hj => Function.update_of_ne hj ..
    simp [hnone, hnet, Request.completes]
  | udp =>
    have hcomplete : s.complete i (!ok) = s := by
      rw [complete, h.network_eq, hnet]
    rw [hcomplete]
    refine h.move hd' ?_ fun _ _ => rfl
    rw [hnone, hnet]
    rfl

omit [DecidableEq κ] in
/-- `process` takes a connection that it did not have. -/
theorem Inv.receive (h : Inv network s) {i : ι} (hp : s.process = .select)
    (hi : s.request i = .sending) :
    Inv network { s.move i .sent with process := .received i } := by
  have hnew : i ∉ s.handled := by
    intro hmem
    have htaken := (h.taken i).mpr (.inl hmem)
    rw [hi] at htaken
    cases htaken
  refine ⟨h.network_eq, ?_, nofun, fun j => ?_, h.nodup, fun j hj => ?_, fun j => ?_⟩
  · have hnot : ¬ s.once.hasStarted = false := fun hs => by
      have := h.started.mpr hs
      rw [hp] at this
      cases this
    exact ⟨nofun, fun hs => absurd hs hnot⟩
  · by_cases hj : j = i
    · subst hj
      simp [Queue.move, Request.delivered]
    · have htaken := h.taken j
      rw [hp] at htaken
      simpa [Queue.move, Function.update_of_ne hj, Ne.symm hj] using htaken
  · obtain rfl : i = j := Process.received.inj hj
    exact hnew
  · have hcompleted := h.completed j
    by_cases hj : j = i
    · subst hj
      rw [hi] at hcompleted
      simp only [Queue.move, Function.update_self, hcompleted]
      cases network j <;> rfl
    · simpa [Queue.move, Function.update_of_ne hj] using hcompleted

omit [DecidableEq ι] [DecidableEq κ] in
theorem Inv.spawn (h : Inv network s) {i : ι} (hp : s.process = .received i) :
    Inv network { s with process := .select, handled := s.handled ++ [i] } := by
  refine ⟨h.network_eq, ?_, nofun, fun j => ?_, ?_, nofun, h.completed⟩
  · have hnot : ¬ s.once.hasStarted = false := fun hs => by
      have := h.started.mpr hs
      rw [hp] at this
      cases this
    exact ⟨nofun, fun hs => absurd hs hnot⟩
  · have htaken := h.taken j
    have hcomm : i = j ↔ j = i := eq_comm
    rw [hp] at htaken
    simpa [hcomm] using htaken
  · simpa using h.nodup.concat (h.fresh i hp)

omit [DecidableEq ι] in
/-- A step of `ProcessAsync` starts `process` at most once. -/
theorem Inv.call (h : Inv network s) (k : κ) : Inv network (s.call k) := by
  unfold Queue.call
  split
  · exact ⟨h.network_eq, h.started, h.closed, h.taken, h.nodup, h.fresh, h.completed⟩
  · exact h
  · split
    · rename_i honce
      have hidle := h.started
      rw [honce] at hidle
      exact ⟨h.network_eq, hidle, h.closed, h.taken, h.nodup, h.fresh, h.completed⟩
    · rename_i k' honce
      split
      · have hidle := h.started
        rw [honce] at hidle
        exact ⟨h.network_eq, hidle, h.closed, h.taken, h.nodup, h.fresh, h.completed⟩
      · exact h
    · rename_i k' honce
      split
      · have hidle : s.process = .idle := h.started.mpr (by rw [honce]; rfl)
        refine ⟨h.network_eq, ⟨nofun, nofun⟩, nofun, fun i => ?_, h.nodup, nofun, h.completed⟩
        have htaken := h.taken i
        rw [hidle] at htaken
        simpa using htaken
      · exact h
    · rename_i k' honce
      split
      · have hidle := h.started
        rw [honce] at hidle
        exact ⟨h.network_eq, hidle, h.closed, h.taken, h.nodup, h.fresh, h.completed⟩
      · exact h
    · exact ⟨h.network_eq, h.started, h.closed, h.taken, h.nodup, h.fresh, h.completed⟩

theorem Inv.step (h : Inv network s) (a : Action ι κ) : Inv network (s.step a) := by
  cases a with
  | create i ok =>
    simp only [Queue.step]
    split
    · rename_i hi
      have hcompleted := h.completed i
      rw [hi] at hcompleted
      refine h.move ?_ ?_ fun _ _ => rfl
      · rw [hi]
        cases ok <;> rfl
      · rw [hcompleted]
        cases ok <;> cases network i <;> rfl
    · exact h
  | finish i =>
    simp only [Queue.step]
    split
    · rename_i hi
      exact h.finish false (by rw [hi]; rfl) (by rw [hi]; nofun)
    · rename_i hi
      exact h.finish true (by rw [hi]; rfl) (by rw [hi]; nofun)
    · exact h
  | receive i =>
    simp only [Queue.step]
    split
    · rename_i hp hi
      exact h.receive hp hi
    · exact h
  | spawn =>
    simp only [Queue.step]
    split
    · rename_i hp
      exact h.spawn hp
    · exact h
  | done =>
    simp only [Queue.step]
    split
    · rename_i hp
      split
      · rename_i hc
        have hstarted := h.started
        have htaken := h.taken
        rw [hp] at hstarted htaken
        exact ⟨h.network_eq, by simpa using hstarted, fun _ => hc, by simpa using htaken, h.nodup,
          nofun, h.completed⟩
      · exact h
    · exact h
  | processAsync k => exact h.call k
  | close =>
    simp only [Queue.step]
    split
    · exact ⟨h.network_eq, h.started, fun _ => rfl, h.taken, h.nodup, h.fresh, h.completed⟩
    · exact h

theorem inv_run (network : ι → Network) (acts : List (Action ι κ)) :
    Inv network ((start network).run acts) :=
  List.foldlRecOn (motive := Inv network) acts step inv_start fun _ h a _ => h.step a

omit [DecidableEq ι] in
/-- Once `process` has returned, `ProcessAsync` does not start it again. -/
theorem Inv.call_returned (h : Inv network s) (hp : s.process = .returned) (k : κ) :
    (s.call k).process = .returned ∧ (s.call k).handled = s.handled ∧
      (s.call k).request = s.request := by
  unfold Queue.call
  split
  · exact ⟨hp, rfl, rfl⟩
  · exact ⟨hp, rfl, rfl⟩
  · split
    · exact ⟨hp, rfl, rfl⟩
    · split <;> exact ⟨hp, rfl, rfl⟩
    · rename_i honce
      have hidle : s.process = .idle := h.started.mpr (by rw [honce]; rfl)
      rw [hp] at hidle
      cases hidle
    · split <;> exact ⟨hp, rfl, rfl⟩
    · exact ⟨hp, rfl, rfl⟩

/-- Nothing is handed over any more. -/
theorem Inv.step_returned (h : Inv network s) (hp : s.process = .returned) (a : Action ι κ) :
    (s.step a).process = .returned ∧ (s.step a).handled = s.handled ∧
      ∀ i, ((s.step a).request i).delivered = (s.request i).delivered := by
  have hmove : ∀ {t : Queue ι κ} {i : ι} {r : Request}, t.process = .returned →
      t.handled = s.handled → t.request = s.request →
      r.delivered = (s.request i).delivered →
      (t.move i r).process = .returned ∧ (t.move i r).handled = s.handled ∧
        ∀ j, ((t.move i r).request j).delivered = (s.request j).delivered := by
    intro t i r htp hth htr hd
    refine ⟨htp, hth, fun j => ?_⟩
    by_cases hj : j = i
    · subst hj
      simpa [Queue.move] using hd
    · simp [Queue.move, Function.update_of_ne hj, htr]
  have hcomplete : ∀ (i : ι) (b : Bool), (s.complete i b).process = s.process ∧
      (s.complete i b).handled = s.handled ∧ (s.complete i b).request = s.request := by
    intro i b
    unfold complete
    split <;> exact ⟨rfl, rfl, rfl⟩
  cases a with
  | create i ok =>
    simp only [Queue.step]
    split
    · rename_i hi
      refine hmove hp rfl rfl ?_
      rw [hi]
      cases ok <;> rfl
    · exact ⟨hp, rfl, fun _ => rfl⟩
  | finish i =>
    simp only [Queue.step]
    split
    · rename_i hi
      obtain ⟨hcp, hch, hcr⟩ := hcomplete i true
      exact hmove (hcp.trans hp) hch hcr (by rw [hi]; rfl)
    · rename_i hi
      obtain ⟨hcp, hch, hcr⟩ := hcomplete i false
      exact hmove (hcp.trans hp) hch hcr (by rw [hi]; rfl)
    · exact ⟨hp, rfl, fun _ => rfl⟩
  | receive i => simp [Queue.step, hp]
  | spawn => simp [Queue.step, hp]
  | done => simp [Queue.step, hp]
  | processAsync k =>
    obtain ⟨hcp, hch, hcr⟩ := h.call_returned hp k
    exact ⟨hcp, hch, fun i => by rw [Queue.step, hcr]⟩
  | close =>
    simp only [Queue.step]
    split <;> exact ⟨hp, rfl, fun _ => rfl⟩

theorem Inv.run_returned (h : Inv network s) (hp : s.process = .returned)
    (acts : List (Action ι κ)) :
    (s.run acts).process = .returned ∧ (s.run acts).handled = s.handled ∧
      ∀ i, ((s.run acts).request i).delivered = (s.request i).delivered := by
  induction acts generalizing s with
  | nil => exact ⟨hp, rfl, fun _ => rfl⟩
  | cons a acts ih =>
    obtain ⟨hp', hh, hd⟩ := h.step_returned hp a
    obtain ⟨hp'', hh', hd'⟩ := ih (h.step a) hp'
    exact ⟨hp'', hh'.trans hh, fun i => (hd' i).trans (hd i)⟩

end Queue

/-! ### Runs -/

section Runs

variable {ι κ : Type} [DecidableEq ι] [DecidableEq κ] (network : ι → Network)

/-- **A closed tunnel stays closed.** Once `process` has returned, no further connection gets a
handler, whoever calls `ProcessAsync` again, and no request that waits or comes later is ever
taken. -/
theorem closed_for_good (acts more : List (Queue.Action ι κ)) :
    let s := (Queue.start network).run acts
    s.process = .returned →
      (s.run more).process = .returned ∧ (s.run more).handled = s.handled ∧
        ∀ i, ((s.run more).request i).delivered = (s.request i).delivered := by
  intro s hp
  exact (Queue.inv_run network acts).run_returned hp more

end Runs

/-- The tunnel is closed between two connections, and started again. -/
theorem closed_for_good_two :
    let s := (Queue.start (fun _ => .tcp) : Queue (Fin 2) Bool).run
      [.processAsync true, .processAsync true, .processAsync true, .processAsync true,
        .create 0 true, .receive 0, .spawn, .close, .done]
    s.process = .returned ∧
      (s.run [.processAsync false, .processAsync false, .create 1 true, .receive 1]).handled =
        s.handled ∧ s.handled = [0] := by
  intro s
  have hp : s.process = .returned := by decide +kernel
  exact ⟨hp, (closed_for_good (fun _ => .tcp) _ _ hp).2.1, by decide +kernel⟩

end Tun2socks.Tunnel
