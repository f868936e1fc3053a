import Mathlib.Algebra.Order.BigOperators.Group.List
import Mathlib.Data.List.TakeWhile
import Tun2socks.Engine.Engine

/-!
# Tun2socks.Engine.Lifecycle

How often the engine closes a device.

A device is closed by `stop` through `_defaultDevice`, and through the stack if gVisor closes
the endpoint of a NIC. From the moment it is opened, its own part in a run is a machine of
two references (`Life`): whether `_defaultDevice` still names it, and whether the stack
still does. `views_apply` says that the devices of an engine live side by side, each by the
same rules. What happens to one device is then read off the events after its opening, and what
happens to a descriptor off the devices that have it.

Three patterns of events break the rule that every descriptor is closed once. `ClosedTwice`: a
`TUN` is still the device of the engine at the second `stop` after its opening, or at the
first if the stack closes it too. `ClosedByBoth`: two devices on one descriptor are both reached
by a `stop`. `LeftOpen`: no device on a descriptor has been reached by one, since later `start`s
have taken the references away.
-/

namespace Tun2socks.Engine

variable (closesLink : Bool)

/-- Over a whole run no descriptor is closed twice, and a `stop` leaves no device open. -/
structure ClosesOnce (calls : List Call) : Prop where
  atMostOnce : ∀ fd, (run closesLink none .new calls).closes fd ≤ 1
  afterStop : ∀ before after, calls = before ++ .stop :: after →
    ∀ d ∈ (run closesLink none .new (before ++ [.stop])).devices,
      1 ≤ (run closesLink none .new (before ++ [.stop])).closes d.fd

/-! ### The life of a device -/

/-- A device, and who still refers to it: `_defaultDevice`, and a stack that is going to
close it. -/
structure Life where
  held : Bool
  linked : Bool
  device : Device
  deriving DecidableEq, Repr

/-- A `start` with this outcome leaves `_defaultStack` as it is. -/
def Setup.keepsStack : Setup → Bool
  | options => true
  | stack => false
  | running => false

/-- A `start` with this outcome binds the device to a stack that is going to close it. -/
def Setup.links (setup : Setup) : Bool :=
  match setup with
  | options => false
  | stack => false
  | running => closesLink

namespace Life

/-- A device that has just been opened. -/
def birth (driver : Driver) (fd : Nat) (setup : Setup) : Life :=
  ⟨true, setup.links closesLink, .new driver fd⟩

/-- `Device.close`, if it is called. -/
def closeIf (b : Bool) (d : Device) : Device := if b then d.close else d

/-- What an event means for a device opened before. -/
def step (l : Life) : Event → Life
  | .idle => l
  | .failed => { l with held := false }
  | .opened _ _ setup => { l with held := false, linked := l.linked && setup.keepsStack }
  | .stop => { l with linked := false, device := closeIf l.linked (closeIf l.held l.device) }

end Life

/-- The device that an event opens. -/
def births : Event → List Life
  | .opened driver fd setup => [.birth closesLink driver fd setup]
  | .idle => []
  | .failed => []
  | .stop => []

/-- The devices of an engine. -/
def views (s : State) : List Life :=
  s.devices.mapIdx fun i d => ⟨s.device = some i, closesLink && s.link = some i, d⟩

theorem getElem?_views (s : State) (i : Nat) :
    (views closesLink s)[i]? =
      s.devices[i]?.map fun d => ⟨s.device = some i, closesLink && s.link = some i, d⟩ := by
  rw [views, List.getElem?_mapIdx]

theorem map_device_views (s : State) : (views closesLink s).map Life.device = s.devices := by
  apply List.ext_getElem?
  intro i
  rw [List.getElem?_map, getElem?_views]
  cases s.devices[i]? <;> rfl

/-! ### Events on the devices of an engine -/

/-- A stack is bound to a device that exists. -/
def Linked (s : State) : Prop := ∀ i, s.link = some i → i < s.devices.length

@[simp] theorem closeDevice_device (s : State) (o : Option Nat) :
    (s.closeDevice o).device = s.device := by
  cases o <;> rfl

@[simp] theorem closeDevice_stack (s : State) (o : Option Nat) :
    (s.closeDevice o).stack = s.stack := by
  cases o <;> rfl

theorem getElem?_closeDevice (s : State) (o : Option Nat) (i : Nat) :
    (s.closeDevice o).devices[i]? = s.devices[i]?.map (Life.closeIf (o = some i)) := by
  cases o with
  | none =>
    rw [State.closeDevice]
    cases s.devices[i]? <;> rfl
  | some j =>
    rw [State.closeDevice, List.getElem?_modify]
    cases s.devices[i]? with
    | none => rfl
    | some d => by_cases hij : j = i <;> simp [hij, Life.closeIf]

/-- What `stop` does to each device, and to the stack. -/
theorem stop_eq (s : State) :
    (stop closesLink s).device = s.device ∧
    (stop closesLink s).link = (if closesLink then none else s.link) ∧
    ∀ i, (stop closesLink s).devices[i]? = s.devices[i]?.map fun d =>
      Life.closeIf (closesLink && s.link = some i) (Life.closeIf (s.device = some i) d) := by
  unfold stop State.wait
  rw [closeDevice_stack]
  cases hs : s.stack with
  | none =>
    have hlink : s.link = none := by rw [State.link, hs]; rfl
    refine ⟨closeDevice_device _ _, ?_, fun i => ?_⟩
    · rw [hlink, ite_self, State.link, closeDevice_stack, hs]
      rfl
    · dsimp only
      rw [getElem?_closeDevice, hlink]
      cases closesLink <;> rfl
  | some stack =>
    have hlink : s.link = stack.link := by rw [State.link, hs]; rfl
    cases closesLink with
    | false =>
      refine ⟨closeDevice_device _ _, ?_, fun i => ?_⟩
      · exact congrArg (Option.bind · Stack.link) (closeDevice_stack s s.device)
      · exact getElem?_closeDevice s s.device i
    | true =>
      refine ⟨?_, rfl, fun i => ?_⟩
      · exact (closeDevice_device _ _).trans (closeDevice_device _ _)
      · have hdevices := getElem?_closeDevice (s.closeDevice s.device) stack.link i
        rw [getElem?_closeDevice s s.device, Option.map_map, ← hlink] at hdevices
        dsimp only
        rw [← hlink]
        exact hdevices

theorem length_stop (s : State) : (stop closesLink s).devices.length = s.devices.length := by
  apply le_antisymm
  · rw [← List.getElem?_eq_none_iff, (stop_eq closesLink s).2.2]
    simp
  · rw [← List.getElem?_eq_none_iff]
    have := (stop_eq closesLink s).2.2 (stop closesLink s).devices.length
    rw [List.getElem?_eq_none (le_refl _)] at this
    simpa using this.symm

theorem linked_apply {s : State} (h : Linked s) (e : Event) : Linked (s.apply closesLink e) := by
  cases e with
  | idle => exact h
  | failed => exact h
  | opened driver fd setup =>
    intro i hi
    have hlen : (s.openDevice driver fd).devices.length = s.devices.length + 1 :=
      List.length_append
    cases setup with
    | options => exact Nat.lt_of_lt_of_eq (Nat.lt_succ_of_lt (h i hi)) hlen.symm
    | stack => cases hi
    | running =>
      obtain rfl := Option.some.inj hi
      exact Nat.lt_of_lt_of_eq (Nat.lt_succ_self _) hlen.symm
  | stop =>
    obtain ⟨-, hlink, -⟩ := stop_eq closesLink s
    intro i hi
    have hs : s.link = some i := by
      rw [State.apply, hlink] at hi
      split at hi
      · cases hi
      · exact hi
    exact Nat.lt_of_lt_of_eq (h i hs) (length_stop closesLink s).symm

theorem link_opened (s : State) (driver : Driver) (fd : Nat) (setup : Setup) :
    (s.apply closesLink (.opened driver fd setup)).link =
      match setup with
      | .options => s.link
      | .stack => none
      | .running => some s.devices.length := by
  cases setup <;> rfl

/-- **Devices live side by side.** -/
theorem views_apply {s : State} (h : Linked s) (e : Event) :
    views closesLink (s.apply closesLink e) =
      (views closesLink s).map (·.step e) ++ births closesLink e := by
  cases e with
  | idle => simp [State.apply, births, Life.step]
  | failed =>
    apply List.ext_getElem?
    intro i
    rw [births, List.append_nil, List.getElem?_map, getElem?_views, getElem?_views]
    rw [State.apply]
    cases s.devices[i]? <;> rfl
  | opened driver fd setup =>
    have hdevices : (s.apply closesLink (.opened driver fd setup)).devices =
        s.devices ++ [.new driver fd] := by
      cases setup <;> rfl
    have hdevice : (s.apply closesLink (.opened driver fd setup)).device =
        some s.devices.length := by
      cases setup <;> rfl
    rw [views, hdevices, hdevice, List.mapIdx_concat]
    congr 1
    · apply List.ext_getElem?
      intro i
      rw [List.getElem?_map, getElem?_views, List.getElem?_mapIdx]
      cases hd : s.devices[i]? with
      | none => rfl
      | some d =>
        have hne : s.devices.length ≠ i := (List.getElem?_eq_some_iff.mp hd).1.ne'
        rw [link_opened]
        cases setup <;> simp [Life.step, Setup.keepsStack, hne]
    · have hfree : s.link ≠ some s.devices.length := fun hl => (h _ hl).ne rfl
      rw [link_opened]
      cases setup <;> simp [births, Life.birth, Setup.links, hfree]
  | stop =>
    obtain ⟨hdevice, hlink, hdevices⟩ := stop_eq closesLink s
    apply List.ext_getElem?
    intro i
    rw [births, List.append_nil, List.getElem?_map, getElem?_views, getElem?_views, State.apply,
      hdevices, hdevice, hlink]
    cases s.devices[i]? with
    | none => rfl
    | some d => cases closesLink <;> rfl

/-! ### The devices of a run -/

/-- The devices that a run of events opens, as they are at its end. -/
def lives : List Event → List Life
  | [] => []
  | e :: es => (births closesLink e).map (es.foldl Life.step) ++ lives es

theorem views_foldl {s : State} (h : Linked s) (es : List Event) :
    views closesLink (es.foldl (State.apply closesLink) s) =
      (views closesLink s).map (es.foldl Life.step) ++ lives closesLink es := by
  induction es generalizing s with
  | nil => simp [lives]
  | cons e es ih =>
    rw [List.foldl_cons, ih (linked_apply closesLink h e), views_apply closesLink h e, lives,
      List.map_append, List.map_map, List.append_assoc]
    rfl

theorem devices_run (calls : List Call) :
    (run closesLink none .new calls).devices =
      (lives closesLink (events none calls)).map Life.device := by
  have hlinked : Linked .new := fun i hi => nomatch hi
  rw [run_eq, ← map_device_views closesLink, views_foldl closesLink hlinked]
  rfl

theorem mem_births {e : Event} {l : Life} :
    l ∈ births closesLink e ↔
      ∃ driver fd setup, e = .opened driver fd setup ∧ l = .birth closesLink driver fd setup := by
  cases e with
  | opened driver fd setup =>
    rw [births, List.mem_singleton]
    constructor
    · rintro rfl
      exact ⟨driver, fd, setup, rfl, rfl⟩
    · rintro ⟨_, _, _, heq, rfl⟩
      cases heq
      rfl
  | idle | failed | stop => simp [births]

theorem mem_lives {es : List Event} {l : Life} :
    l ∈ lives closesLink es ↔
      ∃ before driver fd setup after, es = before ++ .opened driver fd setup :: after ∧
        l = after.foldl Life.step (.birth closesLink driver fd setup) := by
  induction es with
  | nil => simp [lives]
  | cons e es ih =>
    rw [lives, List.mem_append, ih, List.mem_map]
    constructor
    · rintro (⟨l, hl, rfl⟩ | ⟨before, driver, fd, setup, after, rfl, rfl⟩)
      · obtain ⟨driver, fd, setup, rfl, rfl⟩ := (mem_births closesLink).mp hl
        exact ⟨[], driver, fd, setup, es, rfl, rfl⟩
      · exact ⟨e :: before, driver, fd, setup, after, rfl, rfl⟩
    · rintro ⟨before, driver, fd, setup, after, hes, rfl⟩
      cases before with
      | nil =>
        obtain ⟨rfl, rfl⟩ := List.cons.inj hes
        exact .inl ⟨_, (mem_births closesLink).mpr ⟨driver, fd, setup, rfl, rfl⟩, rfl⟩
      | cons e' before =>
        obtain ⟨rfl, rfl⟩ := List.cons.inj hes
        exact .inr ⟨before, driver, fd, setup, after, rfl, rfl⟩

/-- Two devices of a run are two of its openings. -/
theorem pairwise_lives {R : Life → Life → Prop} {es : List Event} :
    (lives closesLink es).Pairwise R ↔
      ∀ before driver fd setup mid driver' fd' setup' after,
        es = before ++ .opened driver fd setup :: (mid ++ .opened driver' fd' setup' :: after) →
        R ((mid ++ .opened driver' fd' setup' :: after).foldl Life.step
            (.birth closesLink driver fd setup))
          (after.foldl Life.step (.birth closesLink driver' fd' setup')) := by
  induction es with
  | nil => simp [lives]
  | cons e es ih =>
    rw [lives, List.pairwise_append, ih]
    constructor
    · rintro ⟨-, hrest, hfirst⟩ before driver fd setup mid driver' fd' setup' after hes
      cases before with
      | nil =>
        obtain ⟨rfl, rfl⟩ := List.cons.inj hes
        exact hfirst _ (List.mem_map_of_mem (List.mem_singleton_self _)) _
          ((mem_lives closesLink).mpr ⟨mid, driver', fd', setup', after, rfl, rfl⟩)
      | cons e' before =>
        obtain ⟨rfl, rfl⟩ := List.cons.inj hes
        exact hrest before driver fd setup mid driver' fd' setup' after rfl
    · intro h
      refine ⟨?_, fun before driver fd setup mid driver' fd' setup' after hes =>
        h (e :: before) driver fd setup mid driver' fd' setup' after (congrArg (e :: ·) hes), ?_⟩
      · cases e with
        | opened => exact List.pairwise_singleton ..
        | idle | failed | stop => exact .nil
      · intro l hl l' hl'
        obtain ⟨l₀, hl₀, rfl⟩ := List.mem_map.mp hl
        obtain ⟨driver, fd, setup, rfl, rfl⟩ := (mem_births closesLink).mp hl₀
        obtain ⟨mid, driver', fd', setup', after, rfl, rfl⟩ := (mem_lives closesLink).mp hl'
        exact h [] driver fd setup mid driver' fd' setup' after rfl

/-! ### Descriptors -/

section Sums

variable {α : Type} (key weight : α → Nat)

/-- Sums by key: none exceeds one if no weight does and no two elements with one key weigh
anything. -/
theorem sum_filter_le_one_iff (xs : List α) :
    (∀ k, ((xs.filter fun x => key x = k).map weight).sum ≤ 1) ↔
      (∀ x ∈ xs, weight x ≤ 1) ∧
        xs.Pairwise fun x y => key x = key y → ¬ (1 ≤ weight x ∧ 1 ≤ weight y) := by
  induction xs with
  | nil => simp
  | cons x xs ih =>
    have hcons : ∀ k, (((x :: xs).filter fun x => key x = k).map weight).sum =
        (if key x = k then weight x else 0) + ((xs.filter fun x => key x = k).map weight).sum := by
      intro k
      by_cases hk : key x = k <;> simp [hk]
    have hle : ∀ y ∈ xs, weight y ≤ ((xs.filter fun z => key z = key y).map weight).sum := by
      intro y hy
      exact List.single_le_sum (fun _ _ => Nat.zero_le _) _
        (List.mem_map_of_mem (List.mem_filter.mpr ⟨hy, by simp⟩))
    simp only [hcons, List.forall_mem_cons, List.pairwise_cons]
    constructor
    · intro h
      obtain ⟨hall, hpair⟩ := ih.mp fun k => le_trans (Nat.le_add_left _ _) (h k)
      have hx := h (key x)
      rw [if_pos rfl] at hx
      refine ⟨⟨by omega, hall⟩, fun y hy hkey => ?_, hpair⟩
      have := hle y hy
      rw [← hkey] at this
      omega
    · rintro ⟨⟨hx, hall⟩, hfirst, hpair⟩ k
      have hsum := ih.mpr ⟨hall, hpair⟩ k
      by_cases hk : key x = k
      · rw [if_pos hk]
        by_cases hzero : weight x = 0
        · omega
        · -- nobody else with this key weighs anything
          have hrest : ((xs.filter fun z => key z = k).map weight).sum = 0 := by
            refine List.sum_eq_zero fun w hw => ?_
            obtain ⟨y, hy, rfl⟩ := List.mem_map.mp hw
            obtain ⟨hmem, hkey⟩ := List.mem_filter.mp hy
            have := hfirst y hmem (hk.trans (of_decide_eq_true hkey).symm)
            omega
          omega
      · rw [if_neg hk]
        omega

/-- A sum by key is positive if an element with the key weighs something. -/
theorem one_le_sum_filter_iff (xs : List α) (k : Nat) :
    1 ≤ ((xs.filter fun x => key x = k).map weight).sum ↔ ∃ x ∈ xs, key x = k ∧ 1 ≤ weight x := by
  rw [Nat.one_le_iff_ne_zero, Ne, List.sum_eq_zero_iff]
  simp [Nat.one_le_iff_ne_zero, and_assoc]

end Sums

theorem closes_run (calls : List Call) (fd : Nat) :
    (run closesLink none .new calls).closes fd =
      (((lives closesLink (events none calls)).filter fun l => l.device.fd = fd).map
        fun l => l.device.closes).sum := by
  rw [State.closes, devices_run, List.filter_map, List.map_map]
  rfl

/-! ### One device -/

/-- The `start`s that assign `_defaultDevice`. -/
def Event.assignsDevice : Event → Bool
  | idle => false
  | failed => true
  | opened _ _ _ => true
  | stop => false

/-- The `start`s that assign `_defaultStack`. -/
def Event.assignsStack : Event → Bool
  | idle => false
  | failed => false
  | opened _ _ setup => !setup.keepsStack
  | stop => false

/-- The events after which nothing refers to a device any more; a device that a stack is
going to close is referred to until the next stack. -/
def Event.releases (linked : Bool) (e : Event) : Bool :=
  if linked then e.assignsStack else e.assignsDevice

theorem any_releases (linked : Bool) (es : List Event) :
    es.any (Event.releases linked) =
      (es.any Event.assignsDevice && (!linked || es.any Event.assignsStack)) := by
  cases linked with
  | false => exact (Bool.and_true _).symm
  | true =>
    change es.any Event.assignsStack = (es.any Event.assignsDevice && es.any Event.assignsStack)
    cases hstack : es.any Event.assignsStack with
    | false => exact (Bool.and_false _).symm
    | true =>
      obtain ⟨e, he, hassigns⟩ := List.any_eq_true.mp hstack
      have hdevice : es.any Event.assignsDevice = true := by
        refine List.any_eq_true.mpr ⟨e, he, ?_⟩
        cases e <;> first | rfl | cases hassigns
      rw [hdevice]
      rfl

/-- A `stop` comes before everything that releases the device. -/
def Reached (linked : Bool) (es : List Event) : Prop :=
  ∃ mid after, es = mid ++ .stop :: after ∧ .stop ∉ mid ∧ mid.any (Event.releases linked) = false

namespace Life

theorem closes_le_closeIf (b : Bool) (d : Device) : d.closes ≤ (closeIf b d).closes := by
  obtain ⟨driver, fd, closed, closes⟩ := d
  cases b <;> cases driver <;> cases closed <;> simp [closeIf, Device.close]

theorem closes_le_step (l : Life) (e : Event) : l.device.closes ≤ (l.step e).device.closes := by
  cases e with
  | idle => exact le_rfl
  | failed => exact le_rfl
  | opened driver fd setup => exact le_rfl
  | stop => exact le_trans (closes_le_closeIf _ _) (closes_le_closeIf _ _)

theorem closes_le_foldl (l : Life) (es : List Event) :
    l.device.closes ≤ (es.foldl step l).device.closes := by
  induction es generalizing l with
  | nil => exact le_rfl
  | cons e es ih => exact le_trans (closes_le_step l e) (ih _)

/-- Without a `stop` a device only loses its references. -/
theorem foldl_step_of_not_mem {es : List Event} (h : .stop ∉ es) (l : Life) :
    es.foldl step l = ⟨l.held && !es.any Event.assignsDevice,
      l.linked && !es.any Event.assignsStack, l.device⟩ := by
  induction es generalizing l with
  | nil => simp
  | cons e es ih =>
    rw [List.mem_cons, not_or] at h
    rw [List.foldl_cons, ih h.2]
    cases e with
    | idle => rfl
    | failed => simp [step, Event.assignsDevice, Event.assignsStack]
    | opened driver fd setup => simp [step, Event.assignsDevice, Event.assignsStack, Bool.and_assoc]
    | stop => exact absurd rfl h.1

variable (driver : Driver) (fd : Nat) (setup : Setup)

/-- The first `stop` closes a device, unless it has been released. -/
theorem closes_first_stop {mid : List Event} (h : .stop ∉ mid) :
    ((mid ++ [Event.stop]).foldl step (birth closesLink driver fd setup)).device.closes = 0 ↔
      mid.any (Event.releases (setup.links closesLink)) = true := by
  rw [List.foldl_append, foldl_step_of_not_mem h, any_releases]
  cases mid.any Event.assignsDevice <;> cases mid.any Event.assignsStack <;>
    cases hl : setup.links closesLink <;> cases driver <;>
      simp [step, closeIf, birth, hl, Device.new, Device.close]

/-- Nothing closes a device that nothing refers to. -/
theorem foldl_step_of_released {l : Life} (hheld : l.held = false) (hlinked : l.linked = false)
    (es : List Event) : (es.foldl step l).device = l.device := by
  induction es generalizing l with
  | nil => rfl
  | cons e es ih =>
    obtain ⟨held, linked, device⟩ := l
    obtain rfl : held = false := hheld
    obtain rfl : linked = false := hlinked
    cases e with
    | idle | failed | opened | stop => exact ih rfl rfl

/-- **A device is closed** exactly if a `stop` reaches it before it is released. -/
theorem one_le_closes_iff (es : List Event) :
    1 ≤ (es.foldl step (birth closesLink driver fd setup)).device.closes ↔
      Reached (setup.links closesLink) es := by
  constructor
  · intro hpos
    by_cases hstop : .stop ∈ es
    · obtain ⟨mid, after, rfl, hmid⟩ := List.eq_append_cons_of_mem hstop
      refine ⟨mid, after, rfl, hmid, Bool.eq_false_iff.mpr fun hany => ?_⟩
      -- released before the first `stop`: nothing refers to the device any more
      rw [any_releases, Bool.and_eq_true, Bool.or_eq_true, Bool.not_eq_true'] at hany
      obtain ⟨hdevice, hstack⟩ := hany
      rw [List.foldl_append, foldl_step_of_not_mem hmid, foldl_step_of_released] at hpos
      · cases hpos
      · simp [hdevice]
      · rcases hstack with hlinks | hassigns
        · simp [birth, hlinks]
        · simp [hassigns]
    · rw [foldl_step_of_not_mem hstop] at hpos
      cases hpos
  · rintro ⟨mid, after, rfl, hmid, hany⟩
    rw [List.append_cons, List.foldl_append]
    refine le_trans (Nat.one_le_iff_ne_zero.mpr fun hzero => ?_) (closes_le_foldl _ _)
    rw [closes_first_stop closesLink driver fd setup hmid, hany] at hzero
    cases hzero

theorem driver_closeIf (b : Bool) (d : Device) : (closeIf b d).driver = d.driver := by
  obtain ⟨driver, fd, closed, closes⟩ := d
  cases b <;> cases driver <;> cases closed <;> rfl

theorem driver_step (l : Life) (e : Event) : (l.step e).device.driver = l.device.driver := by
  cases e with
  | idle => rfl
  | failed => rfl
  | opened driver fd setup => rfl
  | stop => exact (driver_closeIf _ _).trans (driver_closeIf _ _)

/-- An `FD` knows whether it has been closed. -/
theorem closes_fd {l : Life} (hfd : l.device.driver = .fd)
    (h : l.device.closes = l.device.closed.toNat) (es : List Event) :
    (es.foldl step l).device.closes = (es.foldl step l).device.closed.toNat := by
  induction es generalizing l with
  | nil => exact h
  | cons e es ih =>
    refine ih ((driver_step l e).trans hfd) ?_
    obtain ⟨held, linked, driver, fd, closed, closes⟩ := l
    obtain rfl : driver = .fd := hfd
    obtain rfl : closes = closed.toNat := h
    cases e <;> first
      | rfl
      | cases held <;> cases linked <;> cases closed <;> rfl

/-- The closings of a `TUN` that have happened or that its stack has in store. -/
def due (l : Life) : Nat := l.device.closes + l.linked.toNat

theorem closes_le_due (l : Life) : l.device.closes ≤ l.due := Nat.le_add_right _ _

theorem linked_foldl {l : Life} (h : l.linked = false) (es : List Event) :
    (es.foldl step l).linked = false := by
  induction es generalizing l with
  | nil => exact h
  | cons e es ih =>
    apply ih
    cases e with
    | idle => exact h
    | failed => exact h
    | opened driver fd setup =>
      rw [step, h]
      rfl
    | stop => rfl

theorem due_stop {l : Life} (htun : l.device.driver = .tun) (hheld : l.held = true) :
    (l.step .stop).due = l.due + 1 := by
  obtain ⟨held, linked, driver, fd, closed, closes⟩ := l
  obtain rfl : driver = .tun := htun
  obtain rfl : held = true := hheld
  cases linked <;> rfl

/-- While a `TUN` is the device of the engine, each `stop` closes it once more, and the first
one through the stack too. -/
theorem foldl_step_of_held {es : List Event} (hes : ∀ e ∈ es, e.assignsDevice = false)
    {l : Life} (htun : l.device.driver = .tun) (hheld : l.held = true) :
    (es.foldl step l).due = l.due + es.count .stop ∧
      (0 < es.count .stop → (es.foldl step l).linked = false) := by
  induction es generalizing l with
  | nil => exact ⟨rfl, fun h => absurd h (Nat.lt_irrefl 0)⟩
  | cons e es ih =>
    have htail : ∀ e ∈ es, e.assignsDevice = false := fun e he => hes e (List.mem_cons_of_mem _ he)
    cases e with
    | idle =>
      rw [List.count_cons_of_ne (by decide)]
      exact ih htail htun hheld
    | failed => cases hes _ List.mem_cons_self
    | opened driver fd setup => cases hes _ List.mem_cons_self
    | stop =>
      obtain ⟨hdue, -⟩ := ih (l := l.step .stop) htail ((driver_step l _).trans htun) hheld
      rw [List.foldl_cons, hdue, due_stop htun hheld, List.count_cons_self]
      exact ⟨by omega, fun _ => linked_foldl rfl es⟩

theorem due_step_le {l : Life} (htun : l.device.driver = .tun) {e : Event}
    (h : l.held = false ∨ e.assignsDevice = true) :
    (l.step e).held = false ∧ (l.step e).due ≤ l.due := by
  obtain ⟨held, linked, driver, fd, closed, closes⟩ := l
  obtain rfl : driver = .tun := htun
  cases e with
  | idle => exact ⟨h.resolve_right Bool.false_ne_true, le_rfl⟩
  | failed => exact ⟨rfl, le_rfl⟩
  | opened driver fd setup =>
    refine ⟨rfl, Nat.add_le_add_left ?_ _⟩
    cases linked <;> cases setup <;> simp [step, Setup.keepsStack]
  | stop =>
    obtain rfl : held = false := h.resolve_right Bool.false_ne_true
    cases linked <;> exact ⟨rfl, le_rfl⟩

/-- Once a `TUN` is not the device of the engine, only its stack can close it. -/
theorem due_foldl_le {l : Life} (htun : l.device.driver = .tun) (hheld : l.held = false)
    (es : List Event) : (es.foldl step l).due ≤ l.due := by
  induction es generalizing l with
  | nil => exact le_rfl
  | cons e es ih =>
    obtain ⟨hheld', hle⟩ := due_step_le htun (e := e) (.inl hheld)
    exact le_trans (ih ((driver_step l e).trans htun) hheld') hle

theorem driver_foldl (l : Life) (es : List Event) :
    (es.foldl step l).device.driver = l.device.driver := by
  induction es generalizing l with
  | nil => rfl
  | cons e es ih => exact (ih _).trans (driver_step l e)

/-- The events before the next device, and the rest. -/
theorem exists_until_device (es : List Event) :
    ∃ mid rest, es = mid ++ rest ∧ (∀ e ∈ mid, e.assignsDevice = false) ∧
      ∀ e, rest.head? = some e → e.assignsDevice = true := by
  induction es with
  | nil => exact ⟨[], [], rfl, by simp, by simp⟩
  | cons e es ih =>
    cases he : e.assignsDevice with
    | true =>
      refine ⟨[], e :: es, rfl, by simp, fun e' hhead => ?_⟩
      obtain rfl := Option.some.inj hhead
      exact he
    | false =>
      obtain ⟨mid, rest, rfl, hmid, hrest⟩ := ih
      exact ⟨e :: mid, rest, rfl, List.forall_mem_cons.mpr ⟨he, hmid⟩, hrest⟩

/-- From the next device on, a `TUN` is closed no more than is due. -/
theorem closes_le_due_of_device {l : Life} (htun : l.device.driver = .tun) {rest : List Event}
    (hrest : ∀ e, rest.head? = some e → e.assignsDevice = true) :
    (rest.foldl step l).device.closes ≤ l.due := by
  cases rest with
  | nil => exact closes_le_due l
  | cons e rest =>
    obtain ⟨hheld, hle⟩ := due_step_le htun (.inr (hrest e rfl))
    have hfold := due_foldl_le ((driver_step l e).trans htun) hheld rest
    exact le_trans (closes_le_due _) (le_trans hfold hle)

/-- **A device is closed twice** exactly if it is a `TUN` and there are too many `stop`s
before the next device. -/
theorem atMostOnce_iff (es : List Event) :
    (es.foldl step (birth closesLink driver fd setup)).device.closes ≤ 1 ↔
      ¬ (driver = .tun ∧ ∃ mid after, es = mid ++ after ∧
        (∀ e ∈ mid, e.assignsDevice = false) ∧
        2 ≤ mid.count .stop + (setup.links closesLink).toNat) := by
  cases driver with
  | fd =>
    refine iff_of_true ?_ (fun h => nomatch h.1)
    rw [closes_fd rfl rfl]
    exact Bool.toNat_le _
  | tun =>
    have hbirth : (birth closesLink .tun fd setup).due = (setup.links closesLink).toNat :=
      Nat.zero_add _
    have hlinks := Bool.toNat_le (setup.links closesLink)
    constructor
    · rintro hle ⟨-, mid, after, rfl, hmid, hcount⟩
      obtain ⟨hdue, hlinked⟩ :=
        foldl_step_of_held hmid (l := birth closesLink .tun fd setup) rfl rfl
      rw [hbirth, due, hlinked (by omega), Bool.toNat_false] at hdue
      rw [List.foldl_append] at hle
      have := le_trans (closes_le_foldl _ after) hle
      omega
    · intro h
      obtain ⟨mid, rest, rfl, hmid, hrest⟩ := exists_until_device es
      obtain ⟨hdue, -⟩ := foldl_step_of_held hmid (l := birth closesLink .tun fd setup) rfl rfl
      have hcount : mid.count .stop + (setup.links closesLink).toNat < 2 := by
        by_contra hlt
        exact h ⟨rfl, mid, rest, rfl, hmid, by omega⟩
      have hle := closes_le_due_of_device ((driver_foldl _ mid).trans rfl) hrest
        (l := mid.foldl step (birth closesLink .tun fd setup))
      rw [List.foldl_append]
      omega

theorem fd_closeIf (b : Bool) (d : Device) : (closeIf b d).fd = d.fd := by
  obtain ⟨driver, fd, closed, closes⟩ := d
  cases b <;> cases driver <;> cases closed <;> rfl

/-- A device keeps its descriptor. -/
theorem fd_foldl (l : Life) (es : List Event) : (es.foldl step l).device.fd = l.device.fd := by
  induction es generalizing l with
  | nil => rfl
  | cons e es ih =>
    refine (ih _).trans ?_
    cases e with
    | idle | failed | opened => rfl
    | stop => exact (fd_closeIf _ _).trans (fd_closeIf _ _)

end Life

/-! ### The three patterns -/

/-- A `TUN` meets too many `stop`s before the next device: two, or one if its stack closes
it too. -/
def ClosedTwice (es : List Event) : Prop :=
  ∃ before fd setup mid after, es = before ++ .opened .tun fd setup :: (mid ++ after) ∧
    (∀ e ∈ mid, e.assignsDevice = false) ∧
    2 ≤ mid.count .stop + (setup.links closesLink).toNat

/-- Two devices are opened on one descriptor, and a `stop` reaches both. -/
def ClosedByBoth (es : List Event) : Prop :=
  ∃ before driver fd setup mid driver' setup' after,
    es = before ++ .opened driver fd setup :: (mid ++ .opened driver' fd setup' :: after) ∧
    Reached (setup.links closesLink) (mid ++ .opened driver' fd setup' :: after) ∧
    Reached (setup'.links closesLink) after

/-- A descriptor is opened, and up to some later `stop` none has reached a device on it. -/
def LeftOpen (es : List Event) : Prop :=
  ∃ before after fd, es = before ++ .stop :: after ∧
    (∃ driver setup, .opened driver fd setup ∈ before) ∧
    ∀ b driver setup a, before = b ++ .opened driver fd setup :: a →
      ¬ Reached (setup.links closesLink) (a ++ [.stop])

/-- No descriptor is closed twice. -/
theorem atMostOnce_iff (calls : List Call) :
    (∀ fd, (run closesLink none .new calls).closes fd ≤ 1) ↔
      ¬ ClosedTwice closesLink (events none calls) ∧
        ¬ ClosedByBoth closesLink (events none calls) := by
  simp only [closes_run]
  rw [sum_filter_le_one_iff (fun l : Life => l.device.fd), pairwise_lives]
  refine and_congr ⟨?_, ?_⟩ ⟨?_, ?_⟩
  · rintro h ⟨before, fd, setup, mid, after, hes, hmid, hcount⟩
    have := h _ ((mem_lives closesLink).mpr ⟨before, .tun, fd, setup, mid ++ after, hes, rfl⟩)
    rw [Life.atMostOnce_iff] at this
    exact this ⟨rfl, mid, after, rfl, hmid, hcount⟩
  · intro htwice l hl
    obtain ⟨before, driver, fd, setup, after, hes, rfl⟩ := (mem_lives closesLink).mp hl
    rw [Life.atMostOnce_iff]
    rintro ⟨rfl, mid, rest, rfl, hmid, hcount⟩
    exact htwice ⟨before, fd, setup, mid, rest, hes, hmid, hcount⟩
  · rintro h ⟨before, driver, fd, setup, mid, driver', setup', after, hes, hfirst, hsecond⟩
    refine h before driver fd setup mid driver' fd setup' after hes ?_ ⟨?_, ?_⟩
    · rw [Life.fd_foldl, Life.fd_foldl]
      rfl
    · exact (Life.one_le_closes_iff closesLink driver fd setup _).mpr hfirst
    · exact (Life.one_le_closes_iff closesLink driver' fd setup' _).mpr hsecond
  · rintro hboth before driver fd setup mid driver' fd' setup' after hes hfd ⟨hfirst, hsecond⟩
    rw [Life.fd_foldl, Life.fd_foldl] at hfd
    obtain rfl : fd = fd' := hfd
    exact hboth ⟨before, driver, fd, setup, mid, driver', setup', after, hes,
      (Life.one_le_closes_iff closesLink driver fd setup _).mp hfirst,
      (Life.one_le_closes_iff closesLink driver' fd setup' _).mp hsecond⟩

/-- An opening among events that end with a `stop` comes before it. -/
theorem opened_of_concat {before b a : List Event} {driver : Driver} {fd : Nat} {setup : Setup}
    (h : before ++ [.stop] = b ++ .opened driver fd setup :: a) :
    ∃ a', a = a' ++ [.stop] ∧ before = b ++ .opened driver fd setup :: a' := by
  rcases List.eq_nil_or_concat' a with rfl | ⟨a', e, rfl⟩
  · have hlast := (List.append_inj' h rfl).2
    cases hlast
  · rw [← List.cons_append, ← List.append_assoc] at h
    obtain ⟨hbefore, he⟩ := List.append_inj' h rfl
    obtain rfl : Event.stop = e := (List.cons.inj he).1
    exact ⟨a', rfl, hbefore⟩

/-- The devices of a run that ends with a `stop`, whose descriptor is still open. -/
theorem afterStop_iff (cs : List Call) :
    (∀ d ∈ (run closesLink none .new (cs ++ [.stop])).devices,
        1 ≤ (run closesLink none .new (cs ++ [.stop])).closes d.fd) ↔
      ∀ fd, (∃ driver setup, .opened driver fd setup ∈ events none cs) →
        ∃ b driver setup a, events none cs = b ++ .opened driver fd setup :: a ∧
          Reached (setup.links closesLink) (a ++ [.stop]) := by
  have hevents : events none (cs ++ [.stop]) = events none cs ++ [.stop] := events_append ..
  simp only [closes_run, devices_run, List.forall_mem_map, hevents]
  constructor
  · rintro h fd ⟨driver, setup, hmem⟩
    obtain ⟨b, a, hsplit⟩ := List.append_of_mem hmem
    have hpos := h _ ((mem_lives closesLink).mpr ⟨b, driver, fd, setup, a ++ [.stop],
      by rw [hsplit, List.append_assoc, List.cons_append], rfl⟩)
    rw [Life.fd_foldl, one_le_sum_filter_iff (fun l : Life => l.device.fd)] at hpos
    obtain ⟨l, hl, hfd, hpos⟩ := hpos
    obtain ⟨b', driver', fd', setup', rest, hconcat, rfl⟩ := (mem_lives closesLink).mp hl
    obtain ⟨a', rfl, hsplit'⟩ := opened_of_concat hconcat
    rw [Life.fd_foldl] at hfd
    obtain rfl : fd' = fd := hfd
    exact ⟨b', driver', setup', a', hsplit',
      (Life.one_le_closes_iff closesLink driver' fd' setup' _).mp hpos⟩
  · intro h l hl
    obtain ⟨b, driver, fd, setup, rest, hconcat, rfl⟩ := (mem_lives closesLink).mp hl
    obtain ⟨a, rfl, hsplit⟩ := opened_of_concat hconcat
    obtain ⟨b', driver', setup', a', hsplit', hreached⟩ := h fd ⟨driver, setup, by simp [hsplit]⟩
    rw [Life.fd_foldl, one_le_sum_filter_iff (fun l : Life => l.device.fd)]
    refine ⟨_, (mem_lives closesLink).mpr ⟨b', driver', fd, setup', a' ++ [.stop], ?_, rfl⟩, ?_, ?_⟩
    · rw [hsplit', List.append_assoc, List.cons_append]
    · rw [Life.fd_foldl]
      rfl
    · exact (Life.one_le_closes_iff closesLink driver' fd setup' _).mpr hreached

/-- **When the engine closes each descriptor exactly once.** For every sequence of `Insert`,
`start` and `stop` calls, every outcome of the steps of `start`, whatever descriptors the devices
share, and either behaviour of gVisor's `Stack.Wait`: no descriptor is closed twice and no `stop`
leaves a device open, exactly if no `TUN` meets more `stop`s than one close (two are too many, and
one is if the stack closes the device too), no two devices on one descriptor are both reached by a
`stop`, and at every `stop` one device of each descriptor opened so far has been. -/
theorem closesOnce_iff (calls : List Call) :
    ClosesOnce closesLink calls ↔
      ¬ ClosedTwice closesLink (events none calls) ∧ ¬ ClosedByBoth closesLink (events none calls) ∧
        ¬ LeftOpen closesLink (events none calls) := by
  rw [← and_assoc, ← atMostOnce_iff]
  constructor
  · intro h
    refine ⟨h.atMostOnce, ?_⟩
    rintro ⟨before, after, fd, hes, hopened, hnone⟩
    obtain ⟨cs, cs', rfl, rfl⟩ := exists_call_of_events hes
    obtain ⟨b, driver, setup, a, hsplit, hreached⟩ :=
      (afterStop_iff closesLink cs).mp (h.afterStop cs cs' rfl) fd hopened
    exact hnone b driver setup a hsplit hreached
  · rintro ⟨hmost, hleft⟩
    refine ⟨hmost, ?_⟩
    rintro cs cs' rfl
    rw [afterStop_iff]
    intro fd hopened
    by_contra hnone
    refine hleft ⟨events none cs, events (keyAfter none cs) cs', fd, events_append .., hopened, ?_⟩
    intro b driver setup a hsplit hreached
    exact hnone ⟨b, driver, setup, a, hsplit, hreached⟩

/-- Whatever `Stack.Wait` does: a second `stop` closes the descriptor of a `TUN` again, and of
two `start`s on different descriptors without a `stop` in between the first is never closed. If
`Stack.Wait` closes the endpoint, one `start` and one `stop` are enough to close a `TUN` twice, and
so are two `start`s on `fd://5` of which the second fails on a buffer size, since the stack
still has the first device; if it does not, a `start` that fails to open its device makes the
engine forget the one it has. -/
theorem closesOnce_fails :
    let key (device size : String) : Key := ⟨"127.0.0.1:1080", "", device, "", size, "", 0⟩
    let unopened : Outcomes := { Outcomes.success .fd 5 with parseDevice := .error .eof }
    let badSize : Outcomes := { Outcomes.success .fd 5 with sendBufferSize := .error .eof }
    (∀ c, ¬ ClosesOnce c [.insert (key "tun0" ""), .start (.success .tun 7), .stop, .stop]) ∧
    (∀ c, ¬ ClosesOnce c [.insert (key "fd://5" ""), .start (.success .fd 5),
      .insert (key "fd://6" ""), .start (.success .fd 6), .stop]) ∧
    ¬ ClosesOnce true [.insert (key "tun0" ""), .start (.success .tun 7), .stop] ∧
    ¬ ClosesOnce true [.insert (key "fd://5" ""), .start (.success .fd 5),
      .insert (key "fd://5" "many"), .start badSize, .stop] ∧
    ¬ ClosesOnce false [.insert (key "fd://5" ""), .start (.success .fd 5), .start unopened,
      .stop] := by
  intro key unopened badSize
  refine ⟨fun c h => ?_, fun c h => ?_, fun h => ?_, fun h => ?_, fun h => ?_⟩
  · have hclosed := h.atMostOnce 7
    cases c <;> exact absurd hclosed (by decide)
  · have hopen := h.afterStop [.insert (key "fd://5" ""), .start (.success .fd 5),
      .insert (key "fd://6" ""), .start (.success .fd 6)] [] rfl
    cases c <;> exact absurd (hopen ⟨.fd, 5, false, 0⟩ List.mem_cons_self) (by decide)
  · exact absurd (h.atMostOnce 7) (by decide)
  · exact absurd (h.atMostOnce 5) (by decide)
  · have hopen := h.afterStop [.insert (key "fd://5" ""), .start (.success .fd 5),
      .start unopened] [] rfl
    exact absurd (hopen ⟨.fd, 5, false, 0⟩ List.mem_cons_self) (by decide)

end Tun2socks.Engine
