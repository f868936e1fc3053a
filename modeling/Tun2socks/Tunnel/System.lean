import Tun2socks.Go.Goroutines
import Tun2socks.Tunnel.Streams

/-!
# Tun2socks.Tunnel.System

Any number of sessions, the statistics manager that they share, and the requests of the REST
API that close connections.

The manager's `connections` is a `sync.Map` from the text of a tracker's UUID to the tracker.
`Snapshot` ranges over it, and a `Range` is not atomic: it loads one key after the other, all
those that were there when it began and maybe others, while sessions join and leave.
`closeConnection` and `closeAllConnections` go through such a snapshot, which may be out of
date by then, and `Close` of a tracker is two steps, `Leave` and `Close` of its connection.
-/

namespace Tun2socks.Tunnel

open Tun2socks.Go Tun2socks.Statistic

/-- Where a request `DELETE /connections` or `DELETE /connections/{id}` stands. -/
inductive Rest (ι υ : Type)
  | idle
  /-- in `Snapshot`: the id asked for, the keys that `Range` has to visit, those it has
  visited, and the trackers it has found -/
  | ranging (id : Option υ) (must : υ → Bool) (visited : List υ) (found : List ι)
  /-- before `manager.Leave` of the next tracker -/
  | closing (todo : List ι)
  /-- after it, before `Close` of the connection -/
  | left (c : ι) (todo : List ι)
  | done

/-- The trackers that a request knows. -/
def Rest.trackers {ι υ : Type} : Rest ι υ → List ι
  | idle | done => []
  | ranging _ _ _ found => found
  | closing todo => todo
  | left c todo => c :: todo

/-- What the sessions, numbered by `ι`, and the requests, numbered by `ρ`, work on. -/
structure Shared (ι ρ υ G : Type) where
  manager : Statistic.State (ι × Direction) G
  connections : υ → Option ι
  /-- history: how often a method of a connection has been called -/
  calls : ι → Side → Call → Nat
  rest : ρ → Rest ι υ

/-- A step of the manager's `handle`, or of a request. -/
inductive Other (ρ υ : Type)
  | tick
  | request (r : ρ) (id : Option υ)
  | visit (r : ρ) (key : υ)
  | snapshot (r : ρ)
  | close (r : ρ)

namespace Shared

variable {ι ρ υ G : Type}

/-- Nothing has joined, been called or been asked for. -/
def start [AddCommGroup G] : Shared ι ρ υ G :=
  ⟨.start, fun _ => none, fun _ _ _ => 0, fun _ => .idle⟩

section Calls

variable [DecidableEq ι]

/-- Method `c` of a connection of session `i` is called. -/
def call (g : Shared ι ρ υ G) (i : ι) (side : Side) (c : Call) : Shared ι ρ υ G :=
  { g with
    calls := fun j s' c' => g.calls j s' c' + if j = i ∧ s' = side ∧ c' = c then 1 else 0 }

theorem calls_call_of_ne {i j : ι} {side side' : Side} {c c' : Call}
    (h : ¬ (i = j ∧ side' = side ∧ c' = c)) (g : Shared ι ρ υ G) :
    (g.call j side c).calls i side' c' = g.calls i side' c' := by
  simp [call, h]

@[simp] theorem calls_call_self (g : Shared ι ρ υ G) (i : ι) (side : Side) (c : Call) :
    (g.call i side c).calls i side c = g.calls i side c + 1 := by
  simp [call]

end Calls

section Connections

variable [DecidableEq υ]

/-- `connections.Store` or `connections.Delete`. -/
def set (g : Shared ι ρ υ G) (key : υ) (c : Option ι) : Shared ι ρ υ G :=
  { g with connections := Function.update g.connections key c }

@[simp] theorem connections_set_self (g : Shared ι ρ υ G) (key : υ) (c : Option ι) :
    (g.set key c).connections key = c :=
  Function.update_self ..

theorem connections_set_of_ne {key key' : υ} (h : key' ≠ key) (g : Shared ι ρ υ G)
    (c : Option ι) : (g.set key c).connections key' = g.connections key' :=
  Function.update_of_ne h ..

end Connections

section Requests

variable [DecidableEq ρ]

/-- Request `r` takes its next step, to `rest`. -/
def request (g : Shared ι ρ υ G) (r : ρ) (rest : Rest ι υ) : Shared ι ρ υ G :=
  { g with rest := Function.update g.rest r rest }

@[simp] theorem rest_request_self (g : Shared ι ρ υ G) (r : ρ) (rest : Rest ι υ) :
    (g.request r rest).rest r = rest :=
  Function.update_self ..

theorem rest_request_of_ne {r r' : ρ} (h : r' ≠ r) (g : Shared ι ρ υ G) (rest : Rest ι υ) :
    (g.request r rest).rest r' = g.rest r' :=
  Function.update_of_ne h ..

end Requests

variable [DecidableEq ι] [DecidableEq υ] (uuid : ι → υ)

/-- What a step of session `i` does. -/
def effect [AddCommGroup G] [IntCast G] (i : ι) (e : Effect) (g : Shared ι ρ υ G) :
    Shared ι ρ υ G :=
  match e with
  | .join => g.set (uuid i) (some i)
  | .leave => g.set (uuid i) none
  | .addTemp d n => { g with manager := g.manager.step (.push (i, d) d n) }
  | .addTotal d => { g with manager := g.manager.step (.next (i, d)) }
  | .call side c => g.call i side c

/-- The trackers that a request closes: all, or the first with the id asked for. -/
def targets (id : Option υ) (found : List ι) : List ι :=
  match id with
  | none => found
  | some id => (found.find? fun c => uuid c = id).toList

/-- The steps of the manager and of the requests. -/
def other [Fintype ι] [DecidableEq ρ] [AddCommGroup G] (b : Other ρ υ) (g : Shared ι ρ υ G) :
    Shared ι ρ υ G :=
  match b with
  | .tick => { g with manager := g.manager.step .handle }
  | .request r id =>
    match g.rest r with
    | .idle => g.request r (.ranging id (fun k => (g.connections k).isSome) [] [])
    | _ => g
  | .visit r key =>
    match g.rest r with
    | .ranging id must visited found =>
      if key ∈ visited then g
      else
        g.request r (.ranging id must (key :: visited) (found ++ (g.connections key).toList))
    | _ => g
  | .snapshot r =>
    match g.rest r with
    | .ranging id must visited found =>
      -- `Range` returns after it has visited every key that was there from the beginning
      if ∀ i, must (uuid i) = true → uuid i ∈ visited then
        g.request r (.closing (targets uuid id found))
      else g
    | _ => g
  | .close r =>
    match g.rest r with
    | .closing [] => g.request r .done
    | .closing (c :: todo) => (g.set (uuid c) none).request r (.left c todo)
    | .left c todo => (g.call c .remote .close).request r (.closing todo)
    | _ => g

/-- What the manager and the requests can do. -/
inductive Step [AddCommGroup G] [DecidableEq ρ] : Shared ι ρ υ G → Shared ι ρ υ G → Prop
  | tick (g : Shared ι ρ υ G) : Step g { g with manager := g.manager.step .handle }
  | request {g : Shared ι ρ υ G} {r : ρ} (id : Option υ) (h : g.rest r = .idle) :
      Step g (g.request r (.ranging id (fun k => (g.connections k).isSome) [] []))
  | visit {g : Shared ι ρ υ G} {r : ρ} {id : Option υ} {must : υ → Bool} {visited : List υ}
      {found : List ι} (key : υ) (h : g.rest r = .ranging id must visited found) :
      Step g (g.request r (.ranging id must (key :: visited)
        (found ++ (g.connections key).toList)))
  | snapshot {g : Shared ι ρ υ G} {r : ρ} {id : Option υ} {must : υ → Bool} {visited : List υ}
      {found : List ι} (h : g.rest r = .ranging id must visited found)
      (hall : ∀ i, must (uuid i) = true → uuid i ∈ visited) :
      Step g (g.request r (.closing (targets uuid id found)))
  | finish {g : Shared ι ρ υ G} {r : ρ} (h : g.rest r = .closing []) : Step g (g.request r .done)
  | leave {g : Shared ι ρ υ G} {r : ρ} {c : ι} {todo : List ι}
      (h : g.rest r = .closing (c :: todo)) :
      Step g ((g.set (uuid c) none).request r (.left c todo))
  | close {g : Shared ι ρ υ G} {r : ρ} {c : ι} {todo : List ι} (h : g.rest r = .left c todo) :
      Step g ((g.call c .remote .close).request r (.closing todo))
  | stay (g : Shared ι ρ υ G) : Step g g

theorem other_step [Fintype ι] [AddCommGroup G] [DecidableEq ρ] (b : Other ρ υ)
    (g : Shared ι ρ υ G) : Step uuid g (other uuid b g) := by
  cases b with
  | tick => exact .tick g
  | request r id =>
    simp only [other]
    split
    · rename_i h
      exact .request id h
    · exact .stay g
  | visit r key =>
    simp only [other]
    split
    · rename_i h
      split
      · exact .stay g
      · exact .visit key h
    · exact .stay g
  | snapshot r =>
    simp only [other]
    split
    · rename_i h
      split
      · rename_i hall
        exact .snapshot h hall
      · exact .stay g
    · exact .stay g
  | close r =>
    simp only [other]
    split
    · rename_i h
      exact .finish h
    · rename_i h
      exact .leave h
    · rename_i h
      exact .close h
    · exact .stay g

end Shared

/-- The sessions and what they share. -/
def tunnel {ι ρ υ G : Type} [Fintype ι] [DecidableEq ι] [DecidableEq ρ] [DecidableEq υ]
    [AddCommGroupWithOne G] (uuid : ι → υ) :
    Goroutines ι (Session G) Act Effect (Shared ι ρ υ G) (Other ρ υ) where
  next := Session.next
  effect := Shared.effect uuid
  other := Shared.other uuid

/-- Session `i` is about to dial. -/
def tunnelStart {ι ρ υ G : Type} [AddCommGroupWithOne G] (network : ι → Network)
    (dst : ι → String) : Goroutines.State ι (Session G) (Shared ι ρ υ G) :=
  ⟨fun i => .new (network i) (dst i), .start⟩

/-! ### What a session can do -/

namespace Session

variable {G : Type} [AddCommGroupWithOne G]

/-- The steps of a session, with what each does to its surroundings. -/
inductive Move : Session G → Session G → Option Effect → Prop
  | dial {s : Session G} (b : Bool) (h : s.handler = .dialing) :
      Move s { s with handler := if b then .dialed else .returning false } none
  | join {s : Session G} (h : s.handler = .dialed) :
      Move s { s with handler := .piping } (some .join)
  | wait {s : Session G} (h : s.handler = .piping)
      (hdone : ∀ d, (s.stream d).pc.isDone = true) : Move s { s with handler := .leaving } none
  | leave {s : Session G} (h : s.handler = .leaving) :
      Move s { s with handler := .closing } (some .leave)
  | close {s : Session G} (h : s.handler = .closing) :
      Move s { s with handler := .returning true } (some (.call .remote .close))
  | ret {s : Session G} (b : Bool) (h : s.handler = .returning b) :
      Move s { s with handler := .returned b } (some (.call .origin .close))
  | stream {s : Session G} (d : Direction) (a : Answer) (h : s.handler = .piping) :
      Move s
        { s with
          stream := Function.update s.stream d ((s.stream d).step s.network s.dst d a).1 }
        ((s.stream d).step s.network s.dst d a).2
  | stay (s : Session G) : Move s s none

theorem next_move (s : Session G) (a : Act) : Move s (s.next a).1 (s.next a).2 := by
  cases a with
  | dial err =>
    simp only [next]
    split
    · rename_i h
      cases err with
      | none => exact .dial true h
      | some e => exact .dial false h
    · exact .stay s
  | handler =>
    simp only [next, handle]
    split
    · rename_i h
      exact .join h
    · rename_i h
      split
      · rename_i hdone
        obtain ⟨hup, hdown⟩ := Bool.and_eq_true_iff.mp hdone
        refine .wait h fun d => ?_
        cases d with
        | upload => exact hup
        | download => exact hdown
      · exact .stay s
    · rename_i h
      exact .leave h
    · rename_i h
      exact .close h
    · rename_i b h
      exact .ret b h
    · exact .stay s
    · exact .stay s
  | stream d a =>
    simp only [next]
    split
    · rename_i h
      exact .stream d a h
    · exact .stay s

theorem next_network (s : Session G) (a : Act) : (s.next a).1.network = s.network := by
  have hmove := s.next_move a
  generalize (s.next a).1 = s', (s.next a).2 = e at hmove
  cases hmove <;> rfl

theorem next_dst (s : Session G) (a : Act) : (s.next a).1.dst = s.dst := by
  have hmove := s.next_move a
  generalize (s.next a).1 = s', (s.next a).2 = e at hmove
  cases hmove <;> rfl

end Session

/-! ### Runs -/

section Runs

variable {ι ρ υ G : Type} [Fintype ι] [DecidableEq ι] [DecidableEq ρ] [DecidableEq υ]
  [AddCommGroupWithOne G] {uuid : ι → υ}

variable (ρ υ G) in
/-- The states that the sessions and what they share can get into. -/
def tunnelRun (uuid : ι → υ) (network : ι → Network) (dst : ι → String)
    (acts : List (Goroutines.Action ι Act (Other ρ υ))) :
    Goroutines.State ι (Session G) (Shared ι ρ υ G) :=
  (tunnel uuid).run (tunnelStart network dst) acts

variable (network : ι → Network) (dst : ι → String)
  (acts : List (Goroutines.Action ι Act (Other ρ υ)))

theorem sound_run (i : ι) : ((tunnelRun ρ υ G uuid network dst acts).proc i).Sound :=
  Goroutines.run_states (fun _ a h => h.next a) (Session.sound_new _ _) acts

theorem network_run (i : ι) :
    ((tunnelRun ρ υ G uuid network dst acts).proc i).network = network i := by
  refine Goroutines.run_states (P := fun s : Session G => s.network = network i) ?_ rfl acts
  intro s a h
  exact (s.next_network a).trans h

theorem dst_run (i : ι) : ((tunnelRun ρ υ G uuid network dst acts).proc i).dst = dst i := by
  refine Goroutines.run_states (P := fun s : Session G => s.dst = dst i) ?_ rfl acts
  intro s a h
  exact (s.next_dst a).trans h

theorem records_run (i : ι) (d : Direction) :
    (((tunnelRun ρ υ G uuid network dst acts).proc i).stream d).Records (network i) (dst i) d := by
  have hsound : ((tunnelRun ρ υ G uuid network dst acts).proc i).Sound :=
    sound_run network dst acts i
  have hrec := hsound.records d
  rwa [network_run network dst acts i, dst_run network dst acts i] at hrec

/-- The copy loops of TCP do not write empty slices. -/
theorem reads_ne_nil_run {i : ι} (htcp : network i = .tcp) (d : Direction) :
    ∀ data ∈ (((tunnelRun ρ υ G uuid network dst acts).proc i).stream d).reads, data ≠ [] :=
  Stream.Records.ne_nil (htcp ▸ records_run network dst acts i d)

/-- **A session hands on what it was given.** Whatever the connections answer and whoever else
runs, each direction has written what the answers of its source oblige it to, in the same pieces
and the same order, but for one piece at most, which fits into the buffer. If its copy loop has
returned without an error, nothing is missing and the last answer reported the end of the
source. -/
theorem streams_relay (acts : List (Goroutines.Action ι Act (Other ρ υ))) :
    let s := tunnelRun ρ υ G uuid network dst acts
    ∀ i d, ∃ rest,
      ((s.proc i).stream d).answers.flatMap (Reading.owed · (dst i) d (network i)) =
          ((s.proc i).stream d).writes ++ rest ∧
        rest.length ≤ 1 ∧ (∀ data ∈ rest, data.length ≤ bufferSize (network i)) ∧
        (((s.proc i).stream d).pc.result = some none →
          rest = [] ∧ ∃ r, ((s.proc i).stream d).answers.getLast? = some r ∧
            (r.err = some .eof ∨ network i = .udp ∧ r.err = some .timeout)) := by
  intro s i d
  have hnet : (s.proc i).network = network i := network_run network dst acts i
  obtain ⟨⟨rest, hreads, howes⟩, hbounded, -, hended⟩ :=
    (show (s.proc i).Sound from sound_run network dst acts i).relays d
  rw [hnet] at hbounded hended
  refine ⟨rest, (records_run network dst acts i d).symm.trans hreads, howes.length_le,
    fun data hdata => hbounded data ?_, fun hres => ⟨howes.eq_nil hres, ?_⟩⟩
  · rw [hreads]
    exact List.mem_append_right _ hdata
  · -- the error that the loop has stopped at is that of the last answer
    obtain hend | ⟨hudp, hend⟩ := hended hres
    · obtain ⟨r, hr, herr⟩ := Option.bind_eq_some_iff.mp hend
      exact ⟨r, hr, .inl herr⟩
    · obtain ⟨r, hr, herr⟩ := Option.bind_eq_some_iff.mp hend
      exact ⟨r, hr, .inr ⟨hudp, herr⟩⟩

end Runs

end Tun2socks.Tunnel
