import Tun2socks.Tunnel.System

/-!
# Tun2socks.Tunnel.Registry

The list of connections, and who closes what.

`Phase` says what a session and the shared state know of each other. Before it has joined
nobody knows the session. After it has joined it is listed, or somebody has taken it from the
list, and that somebody has closed its connection or is about to. It never joins again, so a
snapshot that is out of date can only make a connection be closed once more.

All this needs the UUIDs to be different. `NewTCPTracker` and `NewUDPTracker` ignore the error of
`uuid.NewRandom`, which returns the same UUID whenever it fails.
-/

namespace Tun2socks.Tunnel

open Tun2socks.Go Tun2socks.Statistic

/-! ### The effects of a stream -/

/-- The effect has nothing to do with the list, and closes nothing. -/
def Effect.quiet : Effect → Bool
  | join | leave => false
  | addTemp .. | addTotal _ => true
  | call _ c => c ≠ .close

theorem Stream.step_quiet {G : Type} [Add G] [IntCast G] {s : Stream G} {net : Network}
    {dst : String} {d : Direction} {a : Answer} {e : Effect}
    (h : (s.step net dst d a).2 = some e) : e.quiet = true := by
  unfold Stream.step at h
  split at h
  · rename_i stage n _
    cases stage with
    | temp | total =>
      cases h
      rfl
    | own => cases h
  · cases h
  · unfold Stream.go at h
    split at h
    · cases h
      rfl
    · cases h
      rfl
    · split at h
      · cases h
        rfl
      · cases h
    · cases h
      rfl
    · cases h
      rfl
    · cases h
    · cases h
    · cases h
  · split at h
    · split at h <;> cases h
    · cases h
  · split at h <;> cases h

/-! ### Phases -/

namespace Shared

variable {ι ρ υ G : Type} (uuid : ι → υ) (i : ι)

/-- A request is between `Leave` and `Close` of tracker `i`. -/
def Closing (g : Shared ι ρ υ G) : Prop := ∃ r todo, g.rest r = .left i todo

/-- Nobody has heard of `i` yet. -/
structure Fresh (g : Shared ι ρ υ G) : Prop where
  none : g.connections (uuid i) = none
  uncalled : g.calls i .remote .close = 0
  unknown : ∀ r, i ∉ (g.rest r).trackers

/-- The list has `i`, and no request has begun to close it. -/
structure Listed (g : Shared ι ρ υ G) : Prop where
  some : g.connections (uuid i) = some i
  uncalled : g.calls i .remote .close = 0
  untouched : ¬ g.Closing i

/-- A request has taken `i` from the list. -/
structure Gone (g : Shared ι ρ υ G) : Prop where
  none : g.connections (uuid i) = none
  closes : 0 < g.calls i .remote .close ∨ g.Closing i

/-- A key leads to the tracker with that UUID. -/
def Keyed (g : Shared ι ρ υ G) : Prop := ∀ k j, g.connections k = some j → k = uuid j

/-- What is known of a session whose handler is at `h`. -/
def Phase (g : Shared ι ρ υ G) : Handler → Prop
  | .dialing | .dialed | .returning false | .returned false => g.Fresh uuid i
  | .piping | .leaving => g.Listed uuid i ∨ g.Gone uuid i
  | .closing => g.connections (uuid i) = none
  | .returning true | .returned true =>
    g.connections (uuid i) = none ∧ 0 < g.calls i .remote .close

variable {uuid i} {g g' : Shared ι ρ υ G}

/-- It depends on three things. -/
theorem Phase.congr (hconn : g'.connections (uuid i) = g.connections (uuid i))
    (hcalls : g'.calls i .remote .close = g.calls i .remote .close) (hrest : g'.rest = g.rest)
    {h : Handler} (hp : g.Phase uuid i h) : g'.Phase uuid i h := by
  have hfresh : g.Fresh uuid i → g'.Fresh uuid i := by
    intro hf
    exact ⟨hconn.trans hf.none, hcalls.trans hf.uncalled, hrest ▸ hf.unknown⟩
  have hclosing : g'.Closing i ↔ g.Closing i := by
    unfold Closing
    rw [hrest]
  cases h with
  | dialing | dialed => exact hfresh hp
  | piping | leaving =>
    refine hp.imp ?_ ?_
    · intro hl
      exact ⟨hconn.trans hl.some, hcalls.trans hl.uncalled, fun hc => hl.untouched (hclosing.mp hc)⟩
    · intro hg
      refine ⟨hconn.trans hg.none, ?_⟩
      rw [hcalls, hclosing]
      exact hg.closes
  | closing => exact hconn.trans hp
  | returning b | returned b =>
    cases b with
    | false => exact hfresh hp
    | true => exact ⟨hconn.trans hp.1, hcalls ▸ hp.2⟩

section Requests

variable [DecidableEq ρ]

/-- A step of a request that has not to do with `i`. -/
theorem Phase.request {r : ρ} {new : Rest ι υ} (hold : ∀ todo, g.rest r ≠ .left i todo)
    (hnew : ∀ todo, new ≠ .left i todo) (hfresh : g.Fresh uuid i → i ∉ new.trackers) {h : Handler}
    (hp : g.Phase uuid i h) : (g.request r new).Phase uuid i h := by
  have hclosing : (g.request r new).Closing i ↔ g.Closing i := by
    constructor
    · rintro ⟨r', todo, hr'⟩
      by_cases hr : r' = r
      · subst hr
        rw [rest_request_self] at hr'
        exact absurd hr' (hnew todo)
      · rw [rest_request_of_ne hr] at hr'
        exact ⟨r', todo, hr'⟩
    · rintro ⟨r', todo, hr'⟩
      have hr : r' ≠ r := by
        rintro rfl
        exact hold todo hr'
      exact ⟨r', todo, by rwa [rest_request_of_ne hr]⟩
  have hfr : g.Fresh uuid i → (g.request r new).Fresh uuid i := by
    intro hf
    refine ⟨hf.none, hf.uncalled, fun r' => ?_⟩
    by_cases hr : r' = r
    · subst hr
      rw [rest_request_self]
      exact hfresh hf
    · rw [rest_request_of_ne hr]
      exact hf.unknown r'
  cases h with
  | dialing | dialed => exact hfr hp
  | piping | leaving =>
    refine hp.imp ?_ ?_
    · intro hl
      exact ⟨hl.some, hl.uncalled, fun hc => hl.untouched (hclosing.mp hc)⟩
    · intro hg
      exact ⟨hg.none, hg.closes.imp id hclosing.mpr⟩
  | closing => exact hp
  | returning b | returned b =>
    cases b with
    | false => exact hfr hp
    | true => exact hp

end Requests

/-- Somebody has taken `i` from the list, and closed it or is about to. -/
theorem Phase.taken (hknown : ¬ g.Fresh uuid i) (hnone : g'.connections (uuid i) = none)
    (hcloses : 0 < g'.calls i .remote .close ∨ g'.Closing i)
    (hle : g.calls i .remote .close ≤ g'.calls i .remote .close) {h : Handler}
    (hp : g.Phase uuid i h) : g'.Phase uuid i h := by
  cases h with
  | dialing | dialed => exact absurd hp hknown
  | piping | leaving => exact .inr ⟨hnone, hcloses⟩
  | closing => exact hnone
  | returning b | returned b =>
    cases b with
    | false => exact absurd hp hknown
    | true => exact ⟨hnone, lt_of_lt_of_le hp.2 hle⟩

/-- What somebody is about to close is not listed. -/
theorem Phase.none_of_closing (hc : g.Closing i) {h : Handler} (hp : g.Phase uuid i h) :
    g.connections (uuid i) = none := by
  cases h with
  | dialing | dialed => exact hp.none
  | piping | leaving =>
    rcases hp with hl | hg
    · exact absurd hc hl.untouched
    · exact hg.none
  | closing => exact hp
  | returning b | returned b =>
    cases b with
    | false => exact hp.none
    | true => exact hp.1

/-- What is listed is open, and its session runs. -/
theorem Phase.of_listed (hs : g.connections (uuid i) = some i) {h : Handler}
    (hp : g.Phase uuid i h) : (h = .piping ∨ h = .leaving) ∧ g.calls i .remote .close = 0 := by
  have hne : g.connections (uuid i) ≠ none := by
    rw [hs]
    exact Option.some_ne_none i
  cases h with
  | piping =>
    rcases hp with hl | hg
    · exact ⟨.inl rfl, hl.uncalled⟩
    · exact absurd hg.none hne
  | leaving =>
    rcases hp with hl | hg
    · exact ⟨.inr rfl, hl.uncalled⟩
    · exact absurd hg.none hne
  | dialing | dialed => exact absurd hp.none hne
  | closing => exact absurd hp hne
  | returning b | returned b =>
    cases b with
    | false => exact absurd hp.none hne
    | true => exact absurd hp.1 hne

theorem targets_subset [DecidableEq υ] (id : Option υ) (found : List ι) :
    targets uuid id found ⊆ found := by
  intro c hc
  cases id with
  | none => exact hc
  | some id => exact List.mem_of_find?_eq_some (Option.mem_toList.mp hc)

theorem Phase.manager {h : Handler} (hp : g.Phase uuid i h)
    (m : Statistic.State (ι × Direction) G) :
    { g with manager := m }.Phase uuid i h := by
  refine hp.congr ?_ ?_ ?_ <;> rfl

theorem Phase.set [DecidableEq υ] (hinj : Function.Injective uuid) {j : ι} (hj : j ≠ i)
    {h : Handler}
    (hp : g.Phase uuid i h) (c : Option ι) : (g.set (uuid j) c).Phase uuid i h := by
  refine hp.congr ?_ ?_ ?_
  · exact connections_set_of_ne (fun h => hj (hinj h.symm)) g c
  · rfl
  · rfl

theorem Phase.call [DecidableEq ι] {j : ι} {side : Side} {c : Call}
    (hne : ¬ (i = j ∧ Side.remote = side ∧ Call.close = c)) {h : Handler}
    (hp : g.Phase uuid i h) : (g.call j side c).Phase uuid i h := by
  refine hp.congr ?_ ?_ ?_
  · rfl
  · exact calls_call_of_ne hne g
  · rfl

variable [DecidableEq ι] [DecidableEq υ]

section Steps

variable [DecidableEq ρ] [AddCommGroup G]

theorem Keyed.step (hk : g.Keyed uuid) (hstep : Step uuid g g') : g'.Keyed uuid := by
  cases hstep with
  | leave =>
    rename_i r c todo _
    intro k j hj
    by_cases hkc : k = uuid c
    · subst hkc
      simp [Shared.request, connections_set_self] at hj
    · exact hk k j ((connections_set_of_ne hkc g none).symm.trans hj)
  | tick | request | visit | snapshot | finish | close | stay => exact hk

/-- The requests keep to the phases. -/
theorem Phase.step (hinj : Function.Injective uuid) (hk : g.Keyed uuid) (hstep : Step uuid g g')
    {h : Handler} (hp : g.Phase uuid i h) : g'.Phase uuid i h := by
  cases hstep with
  | tick => exact hp.manager _
  | stay => exact hp
  | request id hr =>
    refine hp.request ?_ ?_ ?_
    · rw [hr]
      nofun
    · nofun
    · exact fun _ => List.not_mem_nil
  | visit key hr =>
    rename_i r _ _ _ _
    refine hp.request ?_ ?_ ?_
    · rw [hr]
      nofun
    · nofun
    · intro hf
      have hunknown := hf.unknown r
      rw [hr] at hunknown
      simp only [Rest.trackers, List.mem_append, not_or]
      refine ⟨hunknown, fun hmem => ?_⟩
      -- a key leads to `i` only if it is the UUID of `i`, and that leads nowhere
      have hkey := Option.mem_toList.mp hmem
      obtain rfl := hk _ _ hkey
      rw [hf.none] at hkey
      cases hkey
  | snapshot hr hall =>
    rename_i r _ _ _ _
    refine hp.request ?_ ?_ ?_
    · rw [hr]
      nofun
    · nofun
    · intro hf hmem
      have hunknown := hf.unknown r
      rw [hr] at hunknown
      exact hunknown (targets_subset _ _ hmem)
  | finish hr =>
    refine hp.request ?_ ?_ ?_
    · rw [hr]
      nofun
    · nofun
    · exact fun _ => List.not_mem_nil
  | leave hr =>
    rename_i r c todo
    by_cases hc : c = i
    · subst hc
      refine hp.taken ?_ ?_ (.inr ⟨r, todo, ?_⟩) ?_
      · intro hf
        exact hf.unknown r (by rw [hr]; exact List.mem_cons_self)
      · exact connections_set_self ..
      · exact rest_request_self ..
      · exact le_rfl
    · have hr' : (g.set (uuid c) none).rest r = .closing (c :: todo) := hr
      refine (hp.set hinj hc none).request ?_ ?_ ?_
      · rw [hr']
        nofun
      · intro todo' heq
        exact hc (Rest.left.inj heq).1
      · intro hf hmem
        exact hf.unknown r (by rw [hr']; exact hmem)
  | close hr =>
    rename_i r c todo
    by_cases hc : c = i
    · subst hc
      have hnone := hp.none_of_closing ⟨r, todo, hr⟩
      refine hp.taken ?_ ?_ (.inl ?_) ?_
      · intro hf
        exact hf.unknown r (by rw [hr]; exact List.mem_cons_self)
      · exact hnone
      · exact (Nat.succ_pos _).trans_eq (calls_call_self ..).symm
      · exact (Nat.le_succ _).trans_eq (calls_call_self ..).symm
    · have hr' : (g.call c .remote .close).rest r = .left c todo := hr
      refine (hp.call fun h => hc h.1.symm).request ?_ ?_ ?_
      · rw [hr']
        intro todo' heq
        exact hc (Rest.left.inj heq).1
      · nofun
      · intro hf hmem
        exact hf.unknown r (by rw [hr']; exact List.mem_cons_of_mem _ hmem)

end Steps

/-! ### The sessions keep to the phases -/

variable [AddCommGroupWithOne G]

theorem Keyed.effect (hk : g.Keyed uuid) (j : ι) (e : Effect) : (effect uuid j e g).Keyed uuid := by
  cases e with
  | join =>
    intro k c hc
    by_cases hkj : k = uuid j
    · subst hkj
      rw [Shared.effect, connections_set_self] at hc
      rw [Option.some.inj hc]
    · exact hk k c ((connections_set_of_ne hkj g (some j)).symm.trans hc)
  | leave =>
    intro k c hc
    by_cases hkj : k = uuid j
    · subst hkj
      rw [Shared.effect, connections_set_self] at hc
      cases hc
    · exact hk k c ((connections_set_of_ne hkj g none).symm.trans hc)
  | addTemp | addTotal | call => exact hk

/-- What another session does is none of the business of session `i`. -/
theorem Phase.frame (hinj : Function.Injective uuid) {j : ι} (hj : j ≠ i) (e : Effect)
    {h : Handler} (hp : g.Phase uuid i h) : (effect uuid j e g).Phase uuid i h := by
  cases e with
  | join => exact hp.set hinj hj _
  | leave => exact hp.set hinj hj _
  | addTemp d n => exact hp.manager _
  | addTotal d => exact hp.manager _
  | call side c => exact hp.call fun h => hj h.1.symm

theorem Phase.quiet {e : Effect} (he : e.quiet = true) {h : Handler} (hp : g.Phase uuid i h) :
    (effect uuid i e g).Phase uuid i h := by
  cases e with
  | join | leave => cases he
  | addTemp d n => exact hp.manager _
  | addTotal d => exact hp.manager _
  | call side c =>
    refine hp.call ?_
    rintro ⟨-, -, rfl⟩
    cases he

end Shared

open Shared in
/-- A step of the session itself. -/
theorem Session.Move.phase {ι ρ υ G : Type} [DecidableEq ι] [DecidableEq υ] [Fintype ι]
    [DecidableEq ρ] [AddCommGroupWithOne G] {uuid : ι → υ} {i : ι} {s s' : Session G}
    {e : Option Effect}
    (hm : Move s s' e) {g : Shared ι ρ υ G} (hp : g.Phase uuid i s.handler) :
    ((tunnel uuid).apply i e g).Phase uuid i s'.handler := by
  cases hm with
  | dial b h =>
    rw [h] at hp
    cases b with
    | true => exact hp
    | false => exact hp
  | join h =>
    rw [h] at hp
    refine .inl ⟨connections_set_self .., hp.uncalled, ?_⟩
    rintro ⟨r, todo, hr⟩
    exact hp.unknown r (by rw [show g.rest r = .left i todo from hr]; exact List.mem_cons_self)
  | wait h hdone =>
    rw [h] at hp
    exact hp
  | leave h => exact connections_set_self ..
  | close h =>
    rw [h] at hp
    exact ⟨hp, (Nat.succ_pos _).trans_eq (calls_call_self ..).symm⟩
  | ret b h =>
    rw [h] at hp
    have hp' : g.Phase uuid i (.returned b) := by
      cases b with
      | true => exact hp
      | false => exact hp
    exact hp'.call (by simp)
  | stream d a h =>
    cases he : ((s.stream d).step s.network s.dst d a).2 with
    | none => exact hp
    | some e => exact hp.quiet (Stream.step_quiet he)
  | stay => exact hp

section Runs

variable {ι ρ υ G : Type} [Fintype ι] [DecidableEq ι] [DecidableEq ρ] [DecidableEq υ]
  [AddCommGroupWithOne G] {uuid : ι → υ} {i : ι}

/-! ### Requests reach what was listed -/

/-- The request is going to come to tracker `i`. -/
def Rest.awaits (uuid : ι → υ) (i : ι) (id : Option υ) : Rest ι υ → Prop
  | ranging id' must visited found =>
    id' = id ∧ must (uuid i) = true ∧ (uuid i ∈ visited → i ∈ found)
  | closing todo | left _ todo => i ∈ todo
  | idle | done => False

/-- Tracker `i` is off the list, or request `r` is going to take it off. -/
def Shared.Pending (uuid : ι → υ) (i : ι) (id : Option υ) (r : ρ) (g : Shared ι ρ υ G) : Prop :=
  g.connections (uuid i) = none ∨ (g.rest r).awaits uuid i id

omit [Fintype ι] [DecidableEq ι] in
theorem Shared.mem_targets (hinj : Function.Injective uuid) {id : Option υ}
    (hid : id = none ∨ id = some (uuid i)) {found : List ι} (h : i ∈ found) :
    i ∈ targets uuid id found := by
  rcases hid with rfl | rfl
  · exact h
  · -- the first tracker with the UUID of `i` is `i`
    cases hc : found.find? fun c => uuid c = uuid i with
    | none => simpa using List.find?_eq_none.mp hc i h
    | some c =>
      have hci : uuid c = uuid i := by simpa using List.find?_some hc
      rw [targets, hc, hinj hci]
      exact List.mem_singleton_self i

omit [Fintype ι] in
/-- A step of the manager or of a request. -/
theorem Shared.Pending.step (hinj : Function.Injective uuid) {id : Option υ}
    (hid : id = none ∨ id = some (uuid i)) {r : ρ} {g g' : Shared ι ρ υ G}
    (hlisted : g.connections (uuid i) = none ∨ g.connections (uuid i) = some i)
    (hstep : Step uuid g g') (h : g.Pending uuid i id r) : g'.Pending uuid i id r := by
  -- the list is as it was, and so is request `r` if another one has moved
  have hother : ∀ (r' : ρ) (rest : Rest ι υ),
      (r' = r → g.connections (uuid i) ≠ none → (g.rest r).awaits uuid i id →
        rest.awaits uuid i id) → (g.request r' rest).Pending uuid i id r := by
    intro r' rest hmove
    rcases h with h | h
    · exact .inl h
    · by_cases hnone : g.connections (uuid i) = none
      · exact .inl hnone
      · right
        by_cases hr : r' = r
        · subst hr
          rw [rest_request_self]
          exact hmove rfl hnone h
        · rwa [rest_request_of_ne (Ne.symm hr)]
  cases hstep with
  | tick => exact h
  | stay => exact h
  | request id' hr' =>
    refine hother _ _ fun heq _ hawaits => ?_
    subst heq
    rw [hr'] at hawaits
    exact hawaits.elim
  | visit key hr' =>
    refine hother _ _ fun heq hne hawaits => ?_
    subst heq
    rw [hr'] at hawaits
    refine ⟨hawaits.1, hawaits.2.1, fun hmem => ?_⟩
    rcases List.mem_cons.mp hmem with rfl | hmem
    · rw [hlisted.resolve_left hne]
      simp
    · exact List.mem_append_left _ (hawaits.2.2 hmem)
  | snapshot hr' hall =>
    refine hother _ _ fun heq _ hawaits => ?_
    subst heq
    rw [hr'] at hawaits
    obtain ⟨rfl, hmust, hfound⟩ := hawaits
    exact mem_targets hinj hid (hfound (hall i hmust))
  | finish hr' =>
    refine hother _ _ fun heq _ hawaits => ?_
    subst heq
    rw [hr'] at hawaits
    cases hawaits
  | leave hr' =>
    rename_i r' c todo
    by_cases hc : c = i
    · subst hc
      exact .inl (connections_set_self ..)
    · have hsame : (g.set (uuid c) none).connections (uuid i) = g.connections (uuid i) :=
        connections_set_of_ne (fun h => hc (hinj h.symm)) g none
      refine (hother r' (.left c todo) fun heq _ hawaits => ?_).imp hsame.trans fun h => h
      subst heq
      rw [hr'] at hawaits
      exact (List.mem_cons.mp hawaits).resolve_left (Ne.symm hc)
  | close hr' =>
    rename_i r' c todo
    refine hother r' (.closing todo) fun heq _ hawaits => ?_
    subst heq
    rw [hr'] at hawaits
    exact hawaits

/-- The session has joined. -/
def Handler.joined : Handler → Bool
  | piping | leaving | closing | returning true | returned true => true
  | dialing | dialed | returning false | returned false => false

omit [Fintype ι] [DecidableEq ι] [DecidableEq ρ] [DecidableEq υ] [AddCommGroupWithOne G] in
theorem Shared.Phase.none_or_listed {g : Shared ι ρ υ G} {h : Handler} (hj : h.joined = true)
    (hp : g.Phase uuid i h) :
    g.connections (uuid i) = none ∨ g.connections (uuid i) = some i := by
  cases h with
  | piping | leaving => exact (hp.imp Listed.some Gone.none).symm
  | closing => exact .inl hp
  | dialing | dialed => cases hj
  | returning b | returned b =>
    cases b with
    | true => exact .inl hp.1
    | false => cases hj

/-- A step of the session itself. -/
theorem Session.Move.pending {id : Option υ} {r : ρ} {s s' : Session G} {e : Option Effect}
    (hm : Move s s' e) (hj : s.handler.joined = true) {g : Shared ι ρ υ G}
    (h : g.Pending uuid i id r) :
    s'.handler.joined = true ∧ ((tunnel uuid).apply i e g).Pending uuid i id r := by
  cases hm with
  | dial b hh | join hh =>
    rw [hh] at hj
    cases hj
  | wait hh hdone => exact ⟨rfl, h⟩
  | leave hh => exact ⟨rfl, .inl (Shared.connections_set_self ..)⟩
  | close hh => exact ⟨rfl, h⟩
  | ret b hh =>
    rw [hh] at hj
    cases b with
    | true => exact ⟨rfl, h⟩
    | false => cases hj
  | stream d a hh =>
    refine ⟨hj, ?_⟩
    cases he : ((s.stream d).step s.network s.dst d a).2 with
    | none => exact h
    | some e =>
      have hq := Stream.step_quiet he
      cases e with
      | join | leave => cases hq
      | addTemp | addTotal | call => exact h
  | stay => exact ⟨hj, h⟩

omit [DecidableEq ι] [DecidableEq ρ] [DecidableEq υ] [AddCommGroupWithOne G] [Fintype ι] in
/-- What is off the list has been closed, or is about to be. -/
theorem Shared.Phase.closes {g : Shared ι ρ υ G} {h : Handler} (hj : h.joined = true)
    (hnone : g.connections (uuid i) = none) (hp : g.Phase uuid i h) :
    0 < g.calls i .remote .close ∨ h = .closing ∨ g.Closing i := by
  cases h with
  | piping | leaving =>
    rcases hp with hl | hg
    · rw [hl.some] at hnone
      cases hnone
    · exact hg.closes.imp (fun h => h) .inr
  | closing => exact .inr (.inl rfl)
  | dialing | dialed => cases hj
  | returning b | returned b =>
    cases b with
    | true => exact .inl hp.2
    | false => cases hj

theorem Shared.Keyed.apply {g : Shared ι ρ υ G} (hk : g.Keyed uuid) (j : ι) (e : Option Effect) :
    ((tunnel uuid).apply j e g).Keyed uuid := by
  cases e with
  | none => exact hk
  | some e => exact hk.effect j e

/-! ### Every run -/

variable (network : ι → Network) (dst : ι → String)
  (acts : List (Goroutines.Action ι Act (Other ρ υ)))

theorem phase_run (hinj : Function.Injective uuid) (i : ι) :
    (tunnelRun ρ υ G uuid network dst acts).shared.Keyed uuid ∧
      (tunnelRun ρ υ G uuid network dst acts).shared.Phase uuid i
        ((tunnelRun ρ υ G uuid network dst acts).proc i).handler := by
  refine Goroutines.run_process
    (P := fun (l : Session G) (g : Shared ι ρ υ G) => g.Keyed uuid ∧ g.Phase uuid i l.handler)
    i ?_ ?_ ?_ ?_ acts
  · rintro l g a ⟨hk, hp⟩
    exact ⟨hk.apply i _, (l.next_move a).phase hp⟩
  · rintro l g j e hj ⟨hk, hp⟩
    exact ⟨hk.effect j e, hp.frame hinj hj e⟩
  · rintro l g b ⟨hk, hp⟩
    exact ⟨hk.step (Shared.other_step uuid b g), hp.step hinj hk (Shared.other_step uuid b g)⟩
  · exact ⟨nofun, rfl, rfl, fun r => List.not_mem_nil⟩

/-- **The list shows open connections of running sessions.** Whatever the sessions and the
requests do, a tracker is listed under its own UUID, its session is between `Join` and `Leave`,
and nobody has closed its connection. -/
theorem listed_open (acts : List (Goroutines.Action ι Act (Other ρ υ)))
    (hinj : Function.Injective uuid) :
    let s := tunnelRun ρ υ G uuid network dst acts
    ∀ k i, s.shared.connections k = some i →
      k = uuid i ∧ ((s.proc i).handler = .piping ∨ (s.proc i).handler = .leaving) ∧
        s.shared.calls i .remote .close = 0 := by
  intro s k i h
  obtain ⟨hk, hp⟩ := phase_run (G := G) network dst acts hinj i
  obtain rfl := hk k i h
  exact ⟨rfl, hp.of_listed h⟩

/-- What holds while request `r` runs, of a session that was listed when it began. -/
structure Reaches (uuid : ι → υ) (i : ι) (id : Option υ) (r : ρ) (l : Session G)
    (g : Shared ι ρ υ G) : Prop where
  keyed : g.Keyed uuid
  phase : g.Phase uuid i l.handler
  joined : l.handler.joined = true
  pending : g.Pending uuid i id r

theorem Reaches.run (hinj : Function.Injective uuid) {id : Option υ}
    (hid : id = none ∨ id = some (uuid i)) {r : ρ}
    {s : Goroutines.State ι (Session G) (Shared ι ρ υ G)}
    (h : Reaches uuid i id r (s.proc i) s.shared) :
    Reaches uuid i id r (((tunnel uuid).run s acts).proc i) ((tunnel uuid).run s acts).shared := by
  refine Goroutines.run_process (P := Reaches uuid i id r) i ?_ ?_ ?_ h acts
  · intro l g a h
    have hm := l.next_move a
    obtain ⟨hjoined, hpending⟩ := hm.pending h.joined h.pending
    exact ⟨h.keyed.apply i _, hm.phase h.phase, hjoined, hpending⟩
  · intro l g j e hj h
    refine ⟨h.keyed.effect j e, h.phase.frame hinj hj e, h.joined, ?_⟩
    have hne : uuid i ≠ uuid j := fun h => hj (hinj h.symm)
    cases e with
    | join => exact h.pending.imp (Shared.connections_set_of_ne hne g _).trans fun h => h
    | leave => exact h.pending.imp (Shared.connections_set_of_ne hne g _).trans fun h => h
    | addTemp | addTotal | call => exact h.pending
  · intro l g b h
    have hstep := Shared.other_step uuid b g
    exact ⟨h.keyed.step hstep, h.phase.step hinj h.keyed hstep, h.joined,
      h.pending.step hinj hid (h.phase.none_or_listed h.joined) hstep⟩

/-- **A request to close connections reaches what was listed.** When it returns, each connection
that was listed when it began, and that it was asked to close, is off the list, and its
`Close` has been called or is the next step of whoever took it off. -/
theorem delete_closes (hinj : Function.Injective uuid) {r : ρ} {id : Option υ}
    (hid : id = none ∨ id = some (uuid i))
    (hidle : (tunnelRun ρ υ G uuid network dst acts).shared.rest r = .idle)
    (hlisted : (tunnelRun ρ υ G uuid network dst acts).shared.connections (uuid i) = some i)
    (acts' : List (Goroutines.Action ι Act (Other ρ υ))) :
    let s := tunnelRun ρ υ G uuid network dst (acts ++ .other (.request r id) :: acts')
    s.shared.rest r = .done →
      s.shared.connections (uuid i) = none ∧
        (0 < s.shared.calls i .remote .close ∨ (s.proc i).handler = .closing ∨
          s.shared.Closing i) := by
  intro s hdone
  obtain ⟨hk, hp⟩ := phase_run (G := G) network dst acts hinj i
  have hrun := (hp.of_listed hlisted).1
  have hs : s = (tunnel uuid).run ((tunnel uuid).step (tunnelRun ρ υ G uuid network dst acts)
      (.other (.request r id))) acts' :=
    Goroutines.run_append ..
  set s₀ := tunnelRun ρ υ G uuid network dst acts
  have hbegin : Reaches uuid i id r (s₀.proc i) (Shared.other uuid (.request r id) s₀.shared) := by
    have hstep := Shared.other_step uuid (.request r id) s₀.shared
    refine ⟨hk.step hstep, hp.step hinj hk hstep, ?_, .inr ?_⟩
    · rcases hrun with h | h <;> rw [h] <;> rfl
    · simp only [Shared.other, hidle, Shared.rest_request_self]
      exact ⟨rfl, by simp [hlisted], fun hk => absurd hk List.not_mem_nil⟩
  have hend : Reaches uuid i id r (s.proc i) s.shared := by
    rw [hs]
    exact Reaches.run (s := (tunnel uuid).step s₀ (.other (.request r id))) acts' hinj hid hbegin
  have hnone : s.shared.connections (uuid i) = none := by
    rcases hend.pending with h | h
    · exact h
    · rw [hdone] at h
      exact h.elim
  exact ⟨hnone, hend.phase.closes hend.joined hnone⟩

end Runs

/-- Two sessions, one of which has joined. -/
theorem listed_open_two :
    let s := tunnelRun Unit (Fin 2) (BitVec 64) (id : Fin 2 → Fin 2) (fun _ => .tcp)
      (fun _ => "192.0.2.1:80") [.proc 0 (.dial none), .proc 1 (.dial none), .proc 0 .handler]
    s.shared.connections 0 = some 0 ∧ s.shared.calls 0 .remote .close = 0 := by
  intro s
  have h : s.shared.connections 0 = some 0 := by decide +kernel
  exact ⟨h,
    (listed_open (fun _ => .tcp) (fun _ => "192.0.2.1:80") _ Function.injective_id 0 0 h).2.2⟩

/-- Both have joined, and a request closes the second. -/
theorem delete_closes_two :
    let s := tunnelRun Unit (Fin 2) (BitVec 64) (id : Fin 2 → Fin 2) (fun _ => .tcp)
      (fun _ => "192.0.2.1:80") ([.proc 0 (.dial none), .proc 1 (.dial none), .proc 0 .handler,
        .proc 1 .handler] ++ .other (.request () (some 1)) :: [.other (.visit () 1),
        .other (.visit () 0), .other (.snapshot ()), .other (.close ()), .other (.close ()),
        .other (.close ())])
    s.shared.rest () = .done ∧ s.shared.connections 1 = none := by
  intro s
  have hdone : s.shared.rest () = .done := rfl
  exact ⟨hdone, (delete_closes (i := 1) (fun _ => .tcp) (fun _ => "192.0.2.1:80") _
    Function.injective_id (.inr rfl) rfl (by decide +kernel) _ hdone).1⟩

end Tun2socks.Tunnel
