import Mathlib.Logic.Function.Basic
import Tun2socks.Go.Append

/-!
# Tun2socks.Go.Published

A list that is written under a lock and read without it.

Writers append to a slice and publish it in an `atomic.Value`, one at a time. Readers load the
published slice and walk through it, while a writer may be appending to the very array that this
slice lies in. Every goroutine takes its steps on its own here, and an element is read when the
loop gets to it.

What makes it work is that nobody reads behind the published slice (`Inv.within`), which is where
the next element goes.
-/

namespace Tun2socks.Go

/-- A function that walks through the list, with argument `ρ` and result `β`. Visiting an element
may depend on an answer `ε` from outside. -/
structure Walk (ρ α ε β : Type) where
  /-- the result for an argument that needs no look at the list -/
  skip : ρ → Option β
  /-- the result, if the loop ends at this element -/
  visit : ρ → α → ε → Option β
  finish : ρ → β

namespace Walk

variable {ρ α ε β : Type} (W : Walk ρ α ε β)

/-- The loop has passed these elements. -/
def Passes (arg : ρ) (visited : List (α × ε)) : Prop :=
  W.skip arg = none ∧ ∀ p ∈ visited, W.visit arg p.1 p.2 = none

/-- What a call over the list `seen` visits and returns. -/
inductive Result (arg : ρ) (seen : List α) : List (α × ε) → β → Prop
  | skipped {result : β} (hskip : W.skip arg = some result) : Result arg seen [] result
  | stopped {visited : List (α × ε)} {x : α} {e : ε} {result : β} (hpass : W.Passes arg visited)
      (hvisit : W.visit arg x e = some result) (hseen : visited.map (·.1) ++ [x] <+: seen) :
      Result arg seen (visited ++ [(x, e)]) result
  | finished {visited : List (α × ε)} (hpass : W.Passes arg visited)
      (hseen : visited.map (·.1) = seen) : Result arg seen visited (W.finish arg)

end Walk

namespace Published

/-- What a goroutine may call. -/
inductive Op (ρ α : Type)
  | register (x : α)
  | reset
  | walk (arg : ρ)

/-- Where a goroutine stands. -/
inductive Pc (ρ α ε β : Type)
  | outside
  /-- `register`, before `mu.Lock()` -/
  | register (x : α)
  /-- before `value.Load()` -/
  | loading (x : α)
  /-- before `append(xs, x)` -/
  | appending (x : α) (xs : SliceHeader)
  /-- before `value.Store(...)` -/
  | storing (x : α) (xs : SliceHeader)
  /-- `reset`, before `mu.Lock()` -/
  | reset
  /-- before `value.Store(nil)` -/
  | clearing
  /-- before `mu.Unlock()` -/
  | unlocking
  /-- `walk`, before `value.Load()` -/
  | walk (arg : ρ)
  /-- in the loop, before `xs[i]`. What had been stored at the time of `Load` and what has been
  visited since are history. -/
  | walking (arg : ρ) (xs : SliceHeader) (i : Nat) (seen : List α) (visited : List (α × ε))
  | returned (arg : ρ) (seen : List α) (visited : List (α × ε)) (result : β)

variable {κ ρ α ε β : Type}

/-- The goroutine has the lock. -/
def Pc.holds : Pc ρ α ε β → Bool
  | loading _ | appending _ _ | storing _ _ | clearing | unlocking => true
  | outside | register _ | reset | walk _ | walking _ _ _ _ _ | returned _ _ _ _ => false

/-- The list, with the goroutines `κ` that use it. -/
structure State (κ ρ α ε β : Type) where
  arrays : Arrays α
  value : SliceHeader
  mu : Option κ
  pc : κ → Pc ρ α ε β
  /-- history: what has been stored since the last reset -/
  stored : List α

/-- A step of a goroutine, or a call that begins. -/
inductive Action (κ ρ α ε : Type)
  | call (k : κ) (op : Op ρ α)
  /-- the next step, with the spare cells that `append` makes and the answer to a visit -/
  | next (k : κ) (extra : Nat) (answer : ε)

/-- Where an operation begins. -/
def Op.entry : Op ρ α → Pc ρ α ε β
  | register x => .register x
  | reset => .reset
  | walk arg => .walk arg

namespace State

/-- There is no value yet, which counts as `nil`. -/
def start : State κ ρ α ε β := ⟨[], .nil, none, fun _ => .outside, []⟩

/-- A round of the loop. -/
def round (W : Walk ρ α ε β) (arrays : Arrays α) (arg : ρ) (xs : SliceHeader) (i : Nat)
    (seen : List α) (visited : List (α × ε)) (answer : ε) : Pc ρ α ε β :=
  match (xs.contents arrays)[i]? with
  | none => .returned arg seen visited (W.finish arg)
  | some x =>
    match W.visit arg x answer with
    | some result => .returned arg seen (visited ++ [(x, answer)]) result
    | none => .walking arg xs (i + 1) seen (visited ++ [(x, answer)])

section

variable [DecidableEq κ]

/-- Another position of one goroutine. -/
def move (s : State κ ρ α ε β) (k : κ) (pc : Pc ρ α ε β) : State κ ρ α ε β :=
  { s with pc := Function.update s.pc k pc }

/-- `mu.Lock()`. -/
def lock (s : State κ ρ α ε β) (k : κ) (pc : Pc ρ α ε β) : State κ ρ α ε β :=
  if s.mu = none then { s.move k pc with mu := some k } else s

variable (W : Walk ρ α ε β) [Inhabited α]

/-- The next step of goroutine `k`. -/
def next (s : State κ ρ α ε β) (k : κ) (extra : Nat) (answer : ε) : State κ ρ α ε β :=
  match s.pc k with
  | .outside | .returned _ _ _ _ => s
  | .register x => s.lock k (.loading x)
  | .loading x => s.move k (.appending x s.value)
  | .appending x xs =>
    let r := xs.append s.arrays x default extra
    { s.move k (.storing x r.1) with arrays := r.2 }
  | .storing x xs => { s.move k .unlocking with value := xs, stored := s.stored ++ [x] }
  | .reset => s.lock k .clearing
  | .clearing => { s.move k .unlocking with value := .nil, stored := [] }
  | .unlocking => { s.move k .outside with mu := none }
  | .walk arg =>
    match W.skip arg with
    | some result => s.move k (.returned arg s.stored [] result)
    | none => s.move k (.walking arg s.value 0 s.stored [])
  | .walking arg xs i seen visited => s.move k (round W s.arrays arg xs i seen visited answer)

/-- One step. -/
def step (s : State κ ρ α ε β) : Action κ ρ α ε → State κ ρ α ε β
  | .call k op =>
    match s.pc k with
    | .outside | .returned _ _ _ _ => s.move k op.entry
    | _ => s
  | .next k extra answer => s.next W k extra answer

/-- A run of steps. -/
def run (s : State κ ρ α ε β) (acts : List (Action κ ρ α ε)) : State κ ρ α ε β :=
  acts.foldl (step W) s

end

/-! ### The invariant -/

/-- The slices that are read: the published one, and those that loops are in. -/
def Read (s : State κ ρ α ε β) (t : SliceHeader) : Prop :=
  t = s.value ∨ ∃ k arg i seen visited, s.pc k = .walking arg t i seen visited

/-- What a goroutine that walks through the list has done. -/
def Walked (W : Walk ρ α ε β) (arrays : Arrays α) : Pc ρ α ε β → Prop
  | .walking arg xs i seen visited =>
    xs.contents arrays = seen ∧ W.Passes arg visited ∧ visited.map (·.1) = seen.take i
  | .returned arg seen visited result => W.Result arg seen visited result
  | _ => True

/-- What holds in every state that is reached. -/
structure Inv (W : Walk ρ α ε β) (s : State κ ρ α ε β) : Prop where
  locked : ∀ k, (s.pc k).holds = true ↔ s.mu = some k
  published : s.value.contents s.arrays = s.stored
  valid : ∀ t, s.Read t → t.Valid s.arrays
  /-- nothing that is read lies behind the published slice -/
  within : ∀ t, s.Read t → t.Within s.value
  loaded : ∀ k x xs, s.pc k = .appending x xs → xs = s.value
  pending : ∀ k x xs, s.pc k = .storing x xs → xs.Valid s.arrays ∧
    xs.contents s.arrays = s.stored ++ [x] ∧ ∀ t, s.Read t → t.Within xs
  walked : ∀ k, Walked W s.arrays (s.pc k)

variable {W : Walk ρ α ε β} {s : State κ ρ α ε β}

theorem inv_start : Inv W (start : State κ ρ α ε β) := by
  have hread : ∀ t, (start : State κ ρ α ε β).Read t → t = .nil := by
    intro t ht
    obtain rfl | ⟨k, _, _, _, _, hk⟩ := ht
    · rfl
    · cases hk
  refine ⟨fun k => ⟨nofun, nofun⟩, rfl, fun t ht => ?_, fun t ht => ?_, nofun, nofun,
    fun _ => trivial⟩
  · exact hread t ht ▸ SliceHeader.valid_nil _
  · exact hread t ht ▸ .refl _

section

variable [DecidableEq κ]

/-- The slices that are read after `k` has moved. -/
theorem read_move {k : κ} {pc : Pc ρ α ε β} {t : SliceHeader} (h : (s.move k pc).Read t) :
    s.Read t ∨ ∃ arg i seen visited, pc = .walking arg t i seen visited := by
  obtain h | ⟨j, arg, i, seen, visited, hj⟩ := h
  · exact .inl (.inl h)
  · by_cases hjk : j = k
    · subst hjk
      simp only [move, Function.update_self] at hj
      exact .inr ⟨arg, i, seen, visited, hj⟩
    · simp only [move, Function.update_of_ne hjk] at hj
      exact .inl (.inr ⟨j, arg, i, seen, visited, hj⟩)

/-- `k` moves, gets or gives up the lock, and changes nothing else. -/
theorem Inv.move (h : Inv W s) {k : κ} {pc : Pc ρ α ε β} (mu : Option κ)
    (hself : pc.holds = true ↔ mu = some k)
    (hothers : ∀ j ≠ k, (mu = some j ↔ s.mu = some j))
    (hread : ∀ arg t i seen visited, pc = .walking arg t i seen visited → s.Read t)
    (hloaded : ∀ x xs, pc = .appending x xs → xs = s.value)
    (hpending : ∀ x xs, pc ≠ .storing x xs)
    (hwalked : Walked W s.arrays pc) :
    Inv W { s.move k pc with mu := mu } := by
  have hread' : ∀ t, (s.move k pc).Read t → s.Read t := by
    intro t ht
    obtain ht | ⟨arg, i, seen, visited, hpc⟩ := read_move ht
    · exact ht
    · exact hread _ _ _ _ _ hpc
  refine ⟨fun j => ?_, h.published, fun t ht => h.valid t (hread' t ht),
    fun t ht => h.within t (hread' t ht), fun j x xs hj => ?_, fun j x xs hj => ?_,
    fun j => ?_⟩
  all_goals by_cases hjk : j = k
  · subst hjk
    simpa [State.move] using hself
  · simpa [State.move, Function.update_of_ne hjk, hothers j hjk] using h.locked j
  · subst hjk
    exact hloaded x xs (by simpa [State.move] using hj)
  · exact h.loaded j x xs (by simpa [State.move, Function.update_of_ne hjk] using hj)
  · subst hjk
    exact absurd (by simpa [State.move] using hj) (hpending x xs)
  · obtain ⟨hv, hc, hw⟩ :=
      h.pending j x xs (by simpa [State.move, Function.update_of_ne hjk] using hj)
    exact ⟨hv, hc, fun t ht => hw t (hread' t ht)⟩
  · subst hjk
    simpa [State.move] using hwalked
  · simpa [State.move, Function.update_of_ne hjk] using h.walked j

/-- A step without the lock. -/
theorem Inv.moveFree (h : Inv W s) {k : κ} {pc : Pc ρ α ε β} (hfree : (s.pc k).holds = false)
    (hpc : pc.holds = false)
    (hread : ∀ arg t i seen visited, pc = .walking arg t i seen visited → s.Read t)
    (hwalked : Walked W s.arrays pc) : Inv W (s.move k pc) := by
  have hnot : s.mu ≠ some k := by
    intro hk
    rw [(h.locked k).mpr hk] at hfree
    cases hfree
  refine h.move s.mu ?_ (fun _ _ => Iff.rfl) hread ?_ ?_ hwalked
  · simp [hpc, hnot]
  · intro x xs heq
    rw [heq] at hpc
    cases hpc
  · intro x xs heq
    rw [heq] at hpc
    cases hpc

theorem Inv.lock (h : Inv W s) {k : κ} {pc : Pc ρ α ε β}
    (hpc : pc = .clearing ∨ ∃ x, pc = .loading x) : Inv W (s.lock k pc) := by
  rw [State.lock]
  split
  · rename_i hnone
    refine h.move (some k) ?_ (fun j hj => ?_) ?_ ?_ ?_ ?_
    · obtain rfl | ⟨x, rfl⟩ := hpc <;> exact ⟨fun _ => rfl, fun _ => rfl⟩
    · simp [hnone, Ne.symm hj]
    all_goals obtain rfl | ⟨x, rfl⟩ := hpc
    all_goals first | exact trivial | nofun
  · exact h

omit [DecidableEq κ] in
/-- Only one goroutine has the lock. -/
theorem Inv.unique (h : Inv W s) {j k : κ} (hj : (s.pc j).holds = true)
    (hk : (s.pc k).holds = true) : j = k := by
  have hjk := (h.locked j).mp hj
  rw [(h.locked k).mp hk] at hjk
  exact (Option.some.inj hjk).symm

omit [DecidableEq κ] in
/-- What is read stays as it is when an element is appended. -/
theorem Inv.contents_append (h : Inv W s) {t : SliceHeader} (ht : s.Read t) (x zero : α)
    (extra : Nat) :
    t.contents (s.value.append s.arrays x zero extra).2 = t.contents s.arrays :=
  (SliceHeader.cells_of_append x zero extra (h.valid _ (.inl rfl)) (h.valid t ht)).2
    (h.within t ht)

/-- `append(xs, x)`, which may write into the array of the published slice. -/
theorem Inv.append [Inhabited α] (h : Inv W s) {k : κ} {x : α}
    (hk : s.pc k = .appending x s.value) (extra : Nat) :
    let r := s.value.append s.arrays x default extra
    Inv W { s.move k (.storing x r.1) with arrays := r.2 } := by
  intro r
  have hvalid := h.valid _ (.inl rfl)
  have hholds : (s.pc k).holds = true := by rw [hk]; rfl
  have hread : ∀ t, (s.move k (.storing x r.1)).Read t → s.Read t := by
    intro t ht
    obtain ht | ⟨_, _, _, _, hpc⟩ := read_move ht
    · exact ht
    · cases hpc
  obtain ⟨hrvalid, hrcontents⟩ := SliceHeader.append_spec x default extra hvalid
  refine ⟨fun j => ?_, ?_, fun t ht => ?_, fun t ht => h.within t (hread t ht),
    fun j x' xs hj => ?_, fun j x' xs hj => ?_, fun j => ?_⟩
  · by_cases hjk : j = k
    · subst hjk
      simpa [State.move, Pc.holds] using (h.locked j).mp hholds
    · simpa [State.move, Function.update_of_ne hjk] using h.locked j
  · exact (h.contents_append (.inl rfl) x default extra).trans h.published
  · exact SliceHeader.Valid.append x default extra hvalid (h.valid t (hread t ht))
  · by_cases hjk : j = k
    · subst hjk
      simp [State.move] at hj
    · exact h.loaded j x' xs (by simpa [State.move, Function.update_of_ne hjk] using hj)
  · obtain rfl : j = k := by
      by_contra hjk
      refine hjk (h.unique ?_ hholds)
      simp only [State.move, Function.update_of_ne hjk] at hj
      rw [hj]
      rfl
    simp only [State.move, Function.update_self] at hj
    obtain ⟨rfl, rfl⟩ := Pc.storing.inj hj
    rw [h.published] at hrcontents
    refine ⟨hrvalid, hrcontents, fun t ht => ?_⟩
    have ht' := hread t ht
    exact SliceHeader.Within.append x default extra hvalid (h.valid t ht') (h.within t ht')
  · by_cases hjk : j = k
    · subst hjk
      simp [State.move, Walked]
    · have hwalked := h.walked j
      simp only [State.move, Function.update_of_ne hjk]
      cases hj : s.pc j with
      | walking arg xs i seen visited =>
        rw [hj] at hwalked
        obtain ⟨hseen, hrest⟩ := hwalked
        have hsame := h.contents_append (.inr ⟨j, arg, i, seen, visited, hj⟩) x default extra
        exact ⟨hsame.trans hseen, hrest⟩
      | returned arg seen visited result =>
        rw [hj] at hwalked
        exact hwalked
      | outside | register _ | loading _ | appending _ _ | storing _ _ | reset | clearing
      | unlocking | walk _ => trivial

/-- `value.Store(xs)`. -/
theorem Inv.store (h : Inv W s) {k : κ} (hk : (s.pc k).holds = true) {xs : SliceHeader}
    {stored : List α} (hvalid : xs.Valid s.arrays) (hcontents : xs.contents s.arrays = stored)
    (hwithin : ∀ t, s.Read t → t.Within xs) :
    Inv W { s.move k .unlocking with value := xs, stored := stored } := by
  have hread : ∀ t, State.Read { s.move k .unlocking with
      value := xs, stored := stored } t → t = xs ∨ s.Read t := by
    intro t ht
    obtain ht | ⟨j, arg, i, seen, visited, hj⟩ := ht
    · exact .inl ht
    · obtain ht | ⟨_, _, _, _, hpc⟩ :=
        read_move (s := s) (k := k) (.inr ⟨j, arg, i, seen, visited, hj⟩)
      · exact .inr ht
      · cases hpc
  -- nobody else is between `Lock` and `Unlock`
  have hother : ∀ {j : κ} {pc : Pc ρ α ε β}, Function.update s.pc k .unlocking j = pc →
      pc.holds = true → pc = .unlocking := by
    intro j pc hj hpc
    by_cases hjk : j = k
    · subst hjk
      rw [← hj, Function.update_self]
    · rw [Function.update_of_ne hjk] at hj
      exact absurd (h.unique (hj ▸ hpc) hk) hjk
  refine ⟨fun j => ?_, hcontents, fun t ht => ?_, fun t ht => ?_, fun j x xs' hj => ?_,
    fun j x xs' hj => ?_, fun j => ?_⟩
  · by_cases hjk : j = k
    · subst hjk
      simpa [State.move, Pc.holds] using (h.locked j).mp hk
    · simpa [State.move, Function.update_of_ne hjk] using h.locked j
  · obtain rfl | ht := hread t ht
    · exact hvalid
    · exact h.valid t ht
  · obtain rfl | ht := hread t ht
    · exact .refl _
    · exact hwithin t ht
  · cases hother hj rfl
  · cases hother hj rfl
  · by_cases hjk : j = k
    · subst hjk
      simp [State.move, Walked]
    · simpa [State.move, Function.update_of_ne hjk] using h.walked j

/-- A round of the loop keeps to the list that was loaded. -/
theorem Walked.round {arrays : Arrays α} {arg : ρ} {xs : SliceHeader} {i : Nat} {seen : List α}
    {visited : List (α × ε)} (h : Walked W arrays (.walking arg xs i seen visited)) (answer : ε) :
    let pc := State.round W arrays arg xs i seen visited answer
    Walked W arrays pc ∧ pc.holds = false ∧
      ∀ {arg' t i' seen' visited'}, pc = .walking arg' t i' seen' visited' → t = xs := by
  obtain ⟨hseen, hpass, htake⟩ := h
  unfold State.round
  rw [hseen]
  cases hx : seen[i]? with
  | none =>
    refine ⟨.finished hpass ?_, rfl, nofun⟩
    rw [htake, List.take_of_length_le (List.getElem?_eq_none_iff.mp hx)]
  | some x =>
    have hnext : visited.map (·.1) ++ [x] = seen.take (i + 1) := by
      rw [List.take_add_one, hx, htake]
      rfl
    dsimp only
    cases hvisit : W.visit arg x answer with
    | some result =>
      exact ⟨.stopped hpass hvisit (hnext ▸ List.take_prefix ..), rfl, nofun⟩
    | none =>
      refine ⟨⟨hseen, ⟨hpass.1, fun p hp => ?_⟩, ?_⟩, rfl, fun heq => ?_⟩
      · obtain hp | hp := List.mem_append.mp hp
        · exact hpass.2 p hp
        · obtain rfl := List.mem_singleton.mp hp
          exact hvisit
      · rw [List.map_append, ← hnext]
        rfl
      · exact (Pc.walking.inj heq).2.1.symm

theorem Inv.next [Inhabited α] (h : Inv W s) (k : κ) (extra : Nat) (answer : ε) :
    Inv W (s.next W k extra answer) := by
  unfold State.next
  cases hk : s.pc k with
  | outside | returned arg seen visited result => exact h
  | register x => exact h.lock (.inr ⟨x, rfl⟩)
  | loading x =>
    have hlock := (h.locked k).mp (by rw [hk]; rfl)
    refine h.move s.mu ?_ (fun _ _ => Iff.rfl) nofun ?_ nofun trivial
    · simp [Pc.holds, hlock]
    · intro x' xs heq
      exact (Pc.appending.inj heq).2.symm
  | appending x xs =>
    obtain rfl := h.loaded k x xs hk
    exact h.append hk extra
  | storing x xs =>
    obtain ⟨hvalid, hcontents, hwithin⟩ := h.pending k x xs hk
    exact h.store (by rw [hk]; rfl) hvalid hcontents hwithin
  | reset => exact h.lock (.inl rfl)
  | clearing =>
    exact h.store (by rw [hk]; rfl) (SliceHeader.valid_nil _) rfl
      fun t ht => (h.valid t ht).within_nil
  | unlocking =>
    have hlock := (h.locked k).mp (by rw [hk]; rfl)
    refine h.move none (by simp [Pc.holds]) (fun j hj => ?_) nofun nofun nofun trivial
    simp [hlock, Ne.symm hj]
  | walk arg =>
    have hfree : (s.pc k).holds = false := by rw [hk]; rfl
    dsimp only
    cases hskip : W.skip arg with
    | some result => exact h.moveFree hfree rfl nofun (.skipped hskip)
    | none =>
      refine h.moveFree hfree rfl ?_ ⟨h.published, ⟨hskip, nofun⟩, rfl⟩
      intro arg' t i seen visited heq
      exact .inl (Pc.walking.inj heq).2.1.symm
  | walking arg xs i seen visited =>
    have hwalked := h.walked k
    rw [hk] at hwalked
    obtain ⟨hround, hfree, hxs⟩ := hwalked.round answer
    refine h.moveFree (by rw [hk]; rfl) hfree ?_ hround
    intro arg' t i' seen' visited' heq
    obtain rfl := hxs heq
    exact .inr ⟨k, arg, i, seen, visited, hk⟩

theorem Inv.step [Inhabited α] (h : Inv W s) (a : Action κ ρ α ε) : Inv W (s.step W a) := by
  cases a with
  | next k extra answer => exact h.next k extra answer
  | call k op =>
    have hentry : (s.pc k).holds = false → Inv W (s.move k op.entry) := by
      intro hfree
      cases op with
      | register x | reset | walk arg => exact h.moveFree hfree rfl nofun trivial
    cases hk : s.pc k with
    | outside | returned arg seen visited result =>
      simp only [State.step, hk]
      exact hentry (by rw [hk]; rfl)
    | register _ | loading _ | appending _ _ | storing _ _ | reset | clearing | unlocking
    | walk _ | walking _ _ _ _ _ =>
      simp only [State.step, hk]
      exact h

/-- In every run the published slice is what has been stored, and every call visits and returns
what it would over the list as it was when it loaded it. -/
theorem inv_run [Inhabited α] (W : Walk ρ α ε β) (acts : List (Action κ ρ α ε)) :
    Inv W ((start : State κ ρ α ε β).run W acts) :=
  List.foldlRecOn (motive := Inv W) acts (State.step W) inv_start fun _ h a _ => h.step a

end

/-! ### Lists that are never reset -/

/-- The goroutine is not in `reset`, and has seen the beginning of the list. -/
def Grows (stored : List α) : Pc ρ α ε β → Prop
  | .walking _ _ _ seen _ | .returned _ seen _ _ => seen <+: stored
  | .reset | .clearing => False
  | _ => True

theorem Grows.append {stored : List α} {pc : Pc ρ α ε β} (h : Grows stored pc) (x : α) :
    Grows (stored ++ [x]) pc := by
  cases pc with
  | walking arg xs i seen visited => exact List.IsPrefix.trans h (List.prefix_append ..)
  | returned arg seen visited result => exact List.IsPrefix.trans h (List.prefix_append ..)
  | reset | clearing => exact h
  | outside | register _ | loading _ | appending _ _ | storing _ _ | unlocking | walk _ => trivial

section

variable [DecidableEq κ] [Inhabited α]

omit [Inhabited α] in
theorem grows_move (h : ∀ j, Grows s.stored (s.pc j)) (k : κ) (pc : Pc ρ α ε β)
    (hpc : Grows s.stored pc) (j : κ) : Grows s.stored ((s.move k pc).pc j) := by
  by_cases hjk : j = k
  · subst hjk
    simpa [move] using hpc
  · simpa [move, Function.update_of_ne hjk] using h j

theorem grows_next (W : Walk ρ α ε β) (h : ∀ j, Grows s.stored (s.pc j)) (k : κ) (extra : Nat)
    (answer : ε) (j : κ) :
    Grows (s.next W k extra answer).stored ((s.next W k extra answer).pc j) := by
  have hk := h k
  unfold next
  cases hpc : s.pc k with
  | outside | returned arg seen visited result => exact h j
  | register x =>
    simp only [lock]
    split
    · exact grows_move h k (.loading x) trivial j
    · exact h j
  | loading x => exact grows_move h k (.appending x s.value) trivial j
  | appending x xs => exact grows_move h k (.storing x _) trivial j
  | unlocking => exact grows_move h k .outside trivial j
  | storing x xs => exact (grows_move h k .unlocking trivial j).append x
  | reset | clearing =>
    rw [hpc] at hk
    exact hk.elim
  | walk arg =>
    dsimp only
    split
    · exact grows_move h k (.returned ..) (List.prefix_refl _) j
    · exact grows_move h k (.walking ..) (List.prefix_refl _) j
  | walking arg xs i seen visited =>
    rw [hpc] at hk
    refine grows_move h k _ ?_ j
    unfold round
    split
    · exact hk
    · split
      · exact hk
      · exact hk

/-- Without resets, what a call has seen is the beginning of the list from then on. -/
theorem grows_run (W : Walk ρ α ε β) {acts : List (Action κ ρ α ε)}
    (hreset : ∀ k, Action.call k .reset ∉ acts) (j : κ) :
    let s := (start : State κ ρ α ε β).run W acts
    Grows s.stored (s.pc j) := by
  have hstart : ∀ j, Grows (start : State κ ρ α ε β).stored ((start : State κ ρ α ε β).pc j) :=
    fun _ => trivial
  refine List.foldlRecOn (motive := fun s : State κ ρ α ε β => ∀ j, Grows s.stored (s.pc j)) acts
    (State.step W) hstart (fun s h a ha => ?_) j
  cases a with
  | next k extra answer => exact grows_next W h k extra answer
  | call k op =>
    have hentry : Grows s.stored (op.entry : Pc ρ α ε β) := by
      cases op with
      | register x | walk arg => trivial
      | reset => exact absurd ha (hreset k)
    simp only [State.step]
    split
    · exact grows_move h k op.entry hentry
    · exact grows_move h k op.entry hentry
    · exact h

end

end State

end Published

end Tun2socks.Go
