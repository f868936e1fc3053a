import Tun2socks.Go.Pool
import Tun2socks.SimpleObfs.Tls

/-!
# Tun2socks.SimpleObfs.Pool

`TLSObfs` connections that write at the same time and share `bufferpool`.

In `SimpleObfs.Tls` a message is a value. Here it lies in a pooled buffer, and a call of
`TLSObfs.write` is cut into the steps between which another connection can run: a buffer
is taken and filled, it is put back, its bytes are handed to `Conn.Write`. A record is
handed over before its buffer is put back. A `ClientHello` is not: the deferred `Put` of
`makeClientHelloMsg` runs before the slice has even been returned.
-/

namespace Tun2socks.SimpleObfs

open Tun2socks.Go

/-! ### Connections -/

/-- Where a call of `TLSObfs.write` stands. -/
inductive Stage
  | idle
  /-- `makeClientHelloMsg` has filled the buffer of the slice. -/
  | hello (s : Slice)
  /-- `makeClientHelloMsg` has returned the slice; its buffer is back in the pool. -/
  | helloMsg (s : Slice)
  /-- A record has been built in the buffer of the slice. -/
  | record (s : Slice)
  /-- The record has been handed to `Conn.Write`. -/
  | recordSent (s : Slice)
  deriving DecidableEq

namespace Stage

/-- The slice that is still going to be handed to `Conn.Write`. -/
def pending : Stage → Option Slice
  | hello s | helloMsg s | record s => some s
  | idle | recordSent _ => none

/-- The array of the buffer that has been taken and not yet put back. -/
def holding : Stage → Option Nat
  | hello s | record s | recordSent s => some s.array
  | idle | helloMsg _ => none

end Stage

/-- A `TLSObfs` with a call of `write` under way, the messages it has built and those it
has handed to `Conn.Write`. -/
structure Sender where
  server : List Byte
  firstRequest : Bool
  stage : Stage
  built : List (List Byte)
  sent : List (List Byte)

/-- What `TLSObfs.Write` hands to `write`. -/
structure Chunk where
  data : List Byte
  ne_nil : data ≠ []
  length_le : data.length ≤ chunkSize

namespace Sender

/-- A sender before its first call. -/
def new (server : List Byte) (firstRequest : Bool) : Sender := ⟨server, firstRequest, .idle, [], []⟩

/-- The message `write` builds. -/
def message (o : Sender) (e : Entropy) (b : Chunk) : List Byte :=
  if o.firstRequest then makeClientHelloMsg e b.data o.server else applicationData b.data

/-- The message is in the buffer `array`, and `Write` is about to be called with it. -/
def begin (o : Sender) (msg : List Byte) (array : Nat) : Sender :=
  { o with
    stage := if o.firstRequest then .hello ⟨array, msg.length⟩ else .record ⟨array, msg.length⟩
    built := o.built ++ [msg] }

theorem begin_stage (o : Sender) (msg : List Byte) (array : Nat) :
    (o.begin msg array).stage = .hello ⟨array, msg.length⟩ ∧ o.firstRequest = true ∨
      (o.begin msg array).stage = .record ⟨array, msg.length⟩ := by
  unfold begin
  dsimp only
  split
  next h => exact .inl ⟨rfl, h⟩
  · exact .inr rfl

@[simp] theorem begin_pending (o : Sender) (msg : List Byte) (array : Nat) :
    (o.begin msg array).stage.pending = some ⟨array, msg.length⟩ := by
  rcases o.begin_stage msg array with ⟨h, -⟩ | h
  · rw [h]; rfl
  · rw [h]; rfl

@[simp] theorem begin_holding (o : Sender) (msg : List Byte) (array : Nat) :
    (o.begin msg array).stage.holding = some array := by
  rcases o.begin_stage msg array with ⟨h, -⟩ | h
  · rw [h]; rfl
  · rw [h]; rfl

/-- The messages handed to `Conn.Write` are those built before the one in hand, and the
slice of that one shows it. -/
def Carries (p : Pool) (o : Sender) : Prop :=
  o.built = o.sent ++ (o.stage.pending.map p.bytes).toList

theorem Carries.frame {p p' : Pool} {o : Sender} (h : o.Carries p)
    (hbytes : ∀ m, o.stage.pending = some m → p'.bytes m = p.bytes m) : o.Carries p' := by
  have hmap : o.stage.pending.map p'.bytes = o.stage.pending.map p.bytes := by
    cases hm : o.stage.pending with
    | none => rfl
    | some m => exact congrArg some (hbytes m hm)
  rw [Carries, hmap]
  exact h

end Sender

/-! ### Runs -/

/-- `_size` of `bufferpool`. -/
def bufferSize : Nat := 1024

/-- The senders and the pool they share. -/
structure Shared (ι : Type) where
  pool : Pool
  conn : ι → Sender

/-- Connection `i` is called with a chunk, or goes on with the call it is in. -/
inductive Action (ι : Type)
  | write (i : ι) (e : Entropy) (b : Chunk) (c : Choice)
  | next (i : ι)

namespace Shared

variable {ι : Type}

/-- No call has been made. -/
def start (server : ι → List Byte) (firstRequest : ι → Bool) : Shared ι :=
  ⟨.empty, fun i => .new (server i) (firstRequest i)⟩

variable [DecidableEq ι]

/-- The pool and one sender after a step. -/
def set (s : Shared ι) (i : ι) (pool : Pool) (o : Sender) : Shared ι :=
  ⟨pool, Function.update s.conn i o⟩

/-- One step. -/
def step (s : Shared ι) : Action ι → Shared ι
  | .write i e b c =>
    let o := s.conn i
    match o.stage with
    | .idle =>
      let r := s.pool.take bufferSize c (o.message e b)
      s.set i r.2 (o.begin (o.message e b) r.1)
    | _ => s
  | .next i =>
    let o := s.conn i
    match o.stage with
    | .idle => s
    | .hello m => s.set i (s.pool.put m.array) { o with stage := .helloMsg m }
    | .helloMsg m =>
      s.set i s.pool
        { o with stage := .idle, firstRequest := false, sent := o.sent ++ [s.pool.bytes m] }
    | .record m =>
      s.set i s.pool { o with stage := .recordSent m, sent := o.sent ++ [s.pool.bytes m] }
    | .recordSent m => s.set i (s.pool.put m.array) { o with stage := .idle }

/-- A run of steps. -/
def run (s : Shared ι) (as : List (Action ι)) : Shared ι := as.foldl step s

/-! ### The properties -/

/-- No buffer with bytes still to be handed to `Conn.Write` is free. -/
def PendingTaken (s : Shared ι) : Prop :=
  ∀ i m, (s.conn i).stage.pending = some m → m.array ∉ s.pool.free

/-- Every connection has handed to `Conn.Write` the messages it has built, up to one it
has still in hand. -/
def SentBuilt (s : Shared ι) : Prop := ∀ i, (s.conn i).sent <+: (s.conn i).built

/-! ### Ownership of the buffers -/

/-- What one step can do. -/
inductive StepCase (s : Shared ι) (i : ι) : Shared ι → Prop
  | stay : StepCase s i s
  | take (e : Entropy) (b : Chunk) (c : Choice) (hstage : (s.conn i).stage = .idle) :
      StepCase s i (s.set i (s.pool.take bufferSize c ((s.conn i).message e b)).2
        ((s.conn i).begin ((s.conn i).message e b)
          (s.pool.take bufferSize c ((s.conn i).message e b)).1))
  | putHello (m : Slice) (hstage : (s.conn i).stage = .hello m) :
      StepCase s i (s.set i (s.pool.put m.array) { s.conn i with stage := .helloMsg m })
  | sendHello (m : Slice) (hstage : (s.conn i).stage = .helloMsg m) :
      StepCase s i (s.set i s.pool { s.conn i with
        stage := .idle, firstRequest := false, sent := (s.conn i).sent ++ [s.pool.bytes m] })
  | sendRecord (m : Slice) (hstage : (s.conn i).stage = .record m) :
      StepCase s i (s.set i s.pool { s.conn i with
        stage := .recordSent m, sent := (s.conn i).sent ++ [s.pool.bytes m] })
  | putRecord (m : Slice) (hstage : (s.conn i).stage = .recordSent m) :
      StepCase s i (s.set i (s.pool.put m.array) { s.conn i with stage := .idle })

theorem step_cases (s : Shared ι) (a : Action ι) : ∃ i, StepCase s i (s.step a) := by
  cases a with
  | write i e b c =>
    refine ⟨i, ?_⟩
    cases hstage : (s.conn i).stage with
    | idle => simpa only [step, hstage] using StepCase.take e b c hstage
    | hello m => simpa only [step, hstage] using StepCase.stay
    | helloMsg m => simpa only [step, hstage] using StepCase.stay
    | record m => simpa only [step, hstage] using StepCase.stay
    | recordSent m => simpa only [step, hstage] using StepCase.stay
  | next i =>
    refine ⟨i, ?_⟩
    cases hstage : (s.conn i).stage with
    | idle => simpa only [step, hstage] using StepCase.stay
    | hello m => simpa only [step, hstage] using StepCase.putHello m hstage
    | helloMsg m => simpa only [step, hstage] using StepCase.sendHello m hstage
    | record m => simpa only [step, hstage] using StepCase.sendRecord m hstage
    | recordSent m => simpa only [step, hstage] using StepCase.putRecord m hstage

theorem step_write {s : Shared ι} {i : ι} (h : (s.conn i).stage = .idle) (e : Entropy) (b : Chunk)
    (c : Choice) :
    s.step (.write i e b c) = s.set i (s.pool.take bufferSize c ((s.conn i).message e b)).2
      ((s.conn i).begin ((s.conn i).message e b)
        (s.pool.take bufferSize c ((s.conn i).message e b)).1) := by
  simp only [step, h]

theorem step_hello {s : Shared ι} {i : ι} {m : Slice} (h : (s.conn i).stage = .hello m) :
    s.step (.next i) = s.set i (s.pool.put m.array) { s.conn i with stage := .helloMsg m } := by
  simp only [step, h]

theorem step_helloMsg {s : Shared ι} {i : ι} {m : Slice} (h : (s.conn i).stage = .helloMsg m) :
    s.step (.next i) = s.set i s.pool { s.conn i with
      stage := .idle, firstRequest := false, sent := (s.conn i).sent ++ [s.pool.bytes m] } := by
  simp only [step, h]

@[simp] theorem set_pool (s : Shared ι) (i : ι) (p : Pool) (o : Sender) :
    (s.set i p o).pool = p := rfl

@[simp] theorem set_conn_self (s : Shared ι) (i : ι) (p : Pool) (o : Sender) :
    (s.set i p o).conn i = o :=
  Function.update_self ..

theorem set_conn_of_ne {s : Shared ι} {i j : ι} (h : j ≠ i) (p : Pool) (o : Sender) :
    (s.set i p o).conn j = s.conn j :=
  Function.update_of_ne h ..

/-- What holds of the connection that was set and of the others holds of all. -/
theorem forall_conn_set {P : ι → Sender → Prop} {s : Shared ι} {i : ι} {p : Pool} {o : Sender}
    (hi : P i o) (hother : ∀ j, j ≠ i → P j (s.conn j)) (j : ι) : P j ((s.set i p o).conn j) := by
  by_cases hji : j = i
  · subst hji
    rwa [set_conn_self]
  · rw [set_conn_of_ne hji]
    exact hother j hji

theorem set_set (s : Shared ι) (i : ι) (p p' : Pool) (o o' : Sender) :
    (s.set i p o).set i p' o' = s.set i p' o' := by
  simp only [set, Function.update_idem]

/-- The invariant of every run: a buffer that a connection holds is not free and not held
by another. `first` are the connections that have begun with a `ClientHello` to send. -/
structure Owns (first : ι → Bool) (s : Shared ι) : Prop where
  allocated : s.pool.Allocated
  lt : ∀ i a, (s.conn i).stage.holding = some a → a < s.pool.next
  taken : ∀ i a, (s.conn i).stage.holding = some a → a ∉ s.pool.free
  inj : ∀ i j a, (s.conn i).stage.holding = some a → (s.conn j).stage.holding = some a → i = j
  firstRequest : ∀ i, (s.conn i).firstRequest = true → first i = true
  hello : ∀ i m, (s.conn i).stage = .hello m ∨ (s.conn i).stage = .helloMsg m →
    (s.conn i).firstRequest = true

variable {first : ι → Bool} {s : Shared ι}

omit [DecidableEq ι] in
theorem owns_start (server : ι → List Byte) (first : ι → Bool) :
    Owns first (start server first) where
  allocated _ h := absurd h (Finset.notMem_empty _)
  lt _ _ h := nomatch h
  taken _ _ h := nomatch h
  inj _ _ _ h := nomatch h
  firstRequest _ h := h
  hello _ _ h := by rcases h with h | h <;> cases h

/-- A connection moves on: the invariant is kept if its new buffer is nobody else's and
nobody else's buffer becomes free. -/
theorem Owns.set (h : Owns first s) {i : ι} {p : Pool} {o : Sender} (hp : p.Allocated)
    (hnext : s.pool.next ≤ p.next)
    (hfree : ∀ j a, j ≠ i → (s.conn j).stage.holding = some a → a ∉ p.free)
    (hold : ∀ a, o.stage.holding = some a →
      a < p.next ∧ a ∉ p.free ∧ ∀ j, j ≠ i → (s.conn j).stage.holding ≠ some a)
    (hfirst : o.firstRequest = true → (s.conn i).firstRequest = true)
    (hhello : ∀ m, o.stage = .hello m ∨ o.stage = .helloMsg m → o.firstRequest = true) :
    Owns first (s.set i p o) where
  allocated := hp
  lt := forall_conn_set (P := fun _ x => ∀ a, x.stage.holding = some a → a < p.next)
    (fun a ha => (hold a ha).1) fun j _ a ha => (h.lt j a ha).trans_le hnext
  taken := forall_conn_set (P := fun _ x => ∀ a, x.stage.holding = some a → a ∉ p.free)
    (fun a ha => (hold a ha).2.1) fun j hji a ha => hfree j a hji ha
  inj j k a hj hk := by
    by_cases hji : j = i
    · by_cases hki : k = i
      · rw [hji, hki]
      · subst hji
        rw [set_conn_self] at hj
        rw [set_conn_of_ne hki] at hk
        exact absurd hk ((hold a hj).2.2 k hki)
    · rw [set_conn_of_ne hji] at hj
      by_cases hki : k = i
      · subst hki
        rw [set_conn_self] at hk
        exact absurd hj ((hold a hk).2.2 j hji)
      · rw [set_conn_of_ne hki] at hk
        exact h.inj j k a hj hk
  firstRequest := forall_conn_set (P := fun j x => x.firstRequest = true → first j = true)
    (fun ho => h.firstRequest i (hfirst ho)) fun j _ => h.firstRequest j
  hello := forall_conn_set (P := fun _ x => ∀ m, x.stage = .hello m ∨ x.stage = .helloMsg m →
    x.firstRequest = true) hhello fun j _ => h.hello j

omit [DecidableEq ι] in
/-- The holder of a buffer puts it back. -/
theorem Owns.put (h : Owns first s) {i : ι} {a : Nat} (ha : (s.conn i).stage.holding = some a) :
    (s.pool.put a).Allocated ∧
      ∀ j b, j ≠ i → (s.conn j).stage.holding = some b → b ∉ (s.pool.put a).free := by
  constructor
  · intro b hb
    rcases Finset.mem_insert.mp hb with rfl | hb
    · exact h.lt i _ ha
    · exact h.allocated b hb
  · intro j b hji hj hb
    rcases Finset.mem_insert.mp hb with rfl | hb
    · exact hji (h.inj j i _ hj ha)
    · exact h.taken j b hj hb

theorem Owns.step (h : Owns first s) (a : Action ι) : Owns first (s.step a) := by
  obtain ⟨i, hcase⟩ := step_cases s a
  have hother : ∀ b, (s.conn i).stage.holding = some b →
      ∀ j, j ≠ i → (s.conn j).stage.holding ≠ some b :=
    fun b hb j hji hj => hji (h.inj j i b hj hb)
  generalize s.step a = s' at hcase
  cases hcase with
  | stay => exact h
  | take e b c hstage =>
    obtain ⟨hframe, hown, -⟩ := h.allocated.take bufferSize c ((s.conn i).message e b)
    refine h.set (h.allocated.mono hframe) hframe.next ?_ ?_ (fun h => h) ?_
    · intro j x _ hj hx
      exact h.taken j x hj (hframe.free hx)
    · intro x hx
      rw [Sender.begin_holding] at hx
      cases hx
      refine ⟨hown.lt, hown.taken, ?_⟩
      intro j _ hj
      rcases hown.fresh with hx | hx
      · exact h.taken j _ hj hx
      · exact (h.lt j _ hj).not_ge hx
    · intro m hm
      rcases (s.conn i).begin_stage ((s.conn i).message e b)
        (s.pool.take bufferSize c ((s.conn i).message e b)).1 with ⟨-, hfirst⟩ | hstage
      · exact hfirst
      · rw [hstage] at hm
        rcases hm with hm | hm <;> cases hm
  | putHello m hstage =>
    obtain ⟨hp, hfree⟩ := h.put (i := i) (a := m.array) (by rw [hstage]; rfl)
    exact h.set hp le_rfl hfree (fun _ hx => nomatch hx) (fun h => h)
      fun _ _ => h.hello i m (.inl hstage)
  | sendHello m hstage =>
    exact h.set h.allocated le_rfl (fun j x _ => h.taken j x) (fun _ hx => nomatch hx)
      (fun h => nomatch h) fun m hm => by rcases hm with hm | hm <;> cases hm
  | sendRecord m hstage =>
    have hold : (s.conn i).stage.holding = some m.array := by rw [hstage]; rfl
    refine h.set h.allocated le_rfl (fun j x _ => h.taken j x) ?_ (fun h => h) ?_
    · intro x hx
      cases hx
      exact ⟨h.lt i _ hold, h.taken i _ hold, hother _ hold⟩
    · intro m hm
      rcases hm with hm | hm <;> cases hm
  | putRecord m hstage =>
    obtain ⟨hp, hfree⟩ := h.put (i := i) (a := m.array) (by rw [hstage]; rfl)
    exact h.set hp le_rfl hfree (fun _ hx => nomatch hx) (fun h => h)
      fun m hm => by rcases hm with hm | hm <;> cases hm

theorem owns_run (server : ι → List Byte) (first : ι → Bool) (as : List (Action ι)) :
    Owns first ((start server first).run as) :=
  List.foldlRecOn as step (owns_start server first) fun _ h a _ => h.step a

/-! ### Connections that are past their first request, or alone -/

omit [DecidableEq ι] in
theorem Owns.pendingTaken (h : Owns first s) (hfirst : ∀ i, first i = false) : PendingTaken s := by
  have hne : ∀ i m, ¬((s.conn i).stage = .hello m ∨ (s.conn i).stage = .helloMsg m) := by
    intro i m hm
    have hi := h.firstRequest i (h.hello i m hm)
    rw [hfirst i] at hi
    cases hi
  intro i m hm
  cases hstage : (s.conn i).stage with
  | idle => rw [hstage] at hm; cases hm
  | hello m' => exact absurd (.inl hstage) (hne i m')
  | helloMsg m' => exact absurd (.inr hstage) (hne i m')
  | record m' =>
    rw [hstage] at hm
    cases hm
    exact h.taken i m.array (by rw [hstage]; rfl)
  | recordSent m' => rw [hstage] at hm; cases hm

omit [DecidableEq ι] in
/-- The bytes that a connection still has to hand over survive a `take` by another one,
unless they are those of a `ClientHello` whose buffer is back in the pool. -/
theorem Owns.bytes_take (h : Owns first s) {i j : ι} (hji : j ≠ i)
    (hsafe : (∀ i, first i = false) ∨ Subsingleton ι) {p : Pool} (hframe : s.pool.Frame p)
    {m : Slice} (hm : (s.conn j).stage.pending = some m) : p.bytes m = s.pool.bytes m := by
  have hhold : (s.conn j).stage.holding = some m.array := by
    cases hstage : (s.conn j).stage with
    | idle => rw [hstage] at hm; cases hm
    | hello m' => rw [hstage] at hm; cases hm; rfl
    | helloMsg m' =>
      have hj := h.firstRequest j (h.hello j m' (.inr hstage))
      rcases hsafe with hsafe | hsafe
      · rw [hsafe j] at hj
        cases hj
      · exact absurd (Subsingleton.elim j i) hji
    | record m' => rw [hstage] at hm; cases hm; rfl
    | recordSent m' => rw [hstage] at hm; cases hm
  unfold Pool.bytes
  rw [hframe.mem _ (h.lt j _ hhold) (h.taken j _ hhold)]

theorem Owns.carries_step (h : Owns first s) (hsafe : (∀ i, first i = false) ∨ Subsingleton ι)
    (hc : ∀ i, (s.conn i).Carries s.pool) (a : Action ι) :
    ∀ i, ((s.step a).conn i).Carries (s.step a).pool := by
  obtain ⟨i, hcase⟩ := step_cases s a
  generalize s.step a = s' at hcase
  intro j
  by_cases hji : j = i
  · -- the connection that moves
    subst hji
    have hj : (s.conn j).built =
        (s.conn j).sent ++ ((s.conn j).stage.pending.map s.pool.bytes).toList := hc j
    cases hcase with
    | stay => exact hc j
    | take e b c hstage =>
      obtain ⟨-, -, hbytes⟩ := h.allocated.take bufferSize c ((s.conn j).message e b)
      rw [hstage] at hj
      rw [set_conn_self, set_pool, Sender.Carries, Sender.begin_pending, Option.map_some, hbytes]
      exact congrArg (· ++ [_]) (hj.trans (List.append_nil _))
    | putHello m hstage => rw [set_conn_self]; rw [hstage] at hj; exact hj
    | sendHello m hstage =>
      rw [hstage] at hj
      rw [set_conn_self]
      exact hj.trans (List.append_nil _).symm
    | sendRecord m hstage =>
      rw [hstage] at hj
      rw [set_conn_self]
      exact hj.trans (List.append_nil _).symm
    | putRecord m hstage => rw [set_conn_self]; rw [hstage] at hj; exact hj
  · -- the others keep their stage, and their slices show what they have shown
    cases hcase with
    | stay => exact hc j
    | take e b c hstage =>
      obtain ⟨hframe, -, -⟩ := h.allocated.take bufferSize c ((s.conn i).message e b)
      rw [set_conn_of_ne hji]
      exact (hc j).frame fun m hm => h.bytes_take hji hsafe hframe hm
    | putHello | sendHello | sendRecord | putRecord =>
      rw [set_conn_of_ne hji]
      exact hc j

theorem sentBuilt_run (server : ι → List Byte) (hsafe : (∀ i, first i = false) ∨ Subsingleton ι)
    (as : List (Action ι)) : SentBuilt ((start server first).run as) := by
  have hinv : Owns first ((start server first).run as) ∧
      ∀ i, (((start server first).run as).conn i).Carries ((start server first).run as).pool := by
    refine List.foldlRecOn (motive := fun s : Shared ι =>
      Owns first s ∧ ∀ i, (s.conn i).Carries s.pool) as step ⟨owns_start server first, ?_⟩ ?_
    · exact fun _ => rfl
    · intro s h a _
      exact ⟨h.1.step a, h.1.carries_step hsafe h.2 a⟩
  intro i
  exact ⟨_, (hinv.2 i).symm⟩

/-! ### A first request next to another connection -/

/-- Entropy at time `t`. -/
def clock (t : UInt32) : Entropy := ⟨t, List.Vector.replicate 28 0, List.Vector.replicate 32 0⟩

/-- Ten bytes. -/
def tenZeros : Chunk := ⟨List.replicate 10 0, by decide, by decide⟩

/-- The last byte of the timestamp of a `ClientHello`, which is a byte of the chunk if the
message is a record. -/
theorem message_getElem (o : Sender) (t : UInt32) :
    (o.message (clock t) tenZeros)[14]? =
      some (if o.firstRequest then UInt8.ofNat t.toNat else 0) := by
  unfold Sender.message
  split
  · have hsplit : ∃ rest, makeClientHelloMsg (clock t) tenZeros.data o.server =
        ([22] ++ [0x03, 0x01] ++ putUint16 (212 + tenZeros.data.length + o.server.length) ++
          [1] ++ [0] ++ putUint16 (208 + tenZeros.data.length + o.server.length) ++ [0x03, 0x03] ++
          putUint32 t) ++ rest := by
      unfold makeClientHelloMsg
      simp only [List.append_assoc]
      exact ⟨_, rfl⟩
    obtain ⟨rest, hrest⟩ := hsplit
    rw [hrest]
    rfl
  · rfl

/-- A connection has built its `ClientHello` in a new buffer and put the buffer back. -/
def afterHello (server : ι → List Byte) (first : ι → Bool) (i : ι) (t : UInt32) : Shared ι :=
  (start server first).run [.write i (clock t) tenZeros ⟨none, 0, []⟩, .next i]

theorem afterHello_eq (server : ι → List Byte) {i : ι} (hi : first i = true) (t : UInt32) :
    ∃ p array msg, afterHello server first i t = (start server first).set i p
        { Sender.new (server i) true with stage := .helloMsg ⟨array, msg.length⟩, built := [msg] } ∧
      msg = (Sender.new (server i) true).message (clock t) tenZeros ∧
      array ∈ p.free ∧ array < p.next ∧ p.bytes ⟨array, msg.length⟩ = msg := by
  have hconn : (start server first).conn i = Sender.new (server i) true := by
    simp only [start, hi]
  obtain ⟨msg, hmsg⟩ : ∃ msg, (Sender.new (server i) true).message (clock t) tenZeros = msg :=
    ⟨_, rfl⟩
  obtain ⟨-, hown, hbytes⟩ :=
    (owns_start server first).allocated.take bufferSize ⟨none, 0, []⟩ msg
  refine ⟨((start server first).pool.take bufferSize ⟨none, 0, []⟩ msg).2.put
    ((start server first).pool.take bufferSize ⟨none, 0, []⟩ msg).1, _, msg, ?_, hmsg.symm,
    Finset.mem_insert_self _ _, hown.lt, hbytes⟩
  have hwrite := step_write (s := start server first) (i := i) (by rw [hconn]; rfl) (clock t)
    tenZeros ⟨none, 0, []⟩
  rw [hconn, hmsg] at hwrite
  have hnext := step_hello
    (s := (start server first).step (.write i (clock t) tenZeros ⟨none, 0, []⟩))
    (i := i) (m := ⟨((start server first).pool.take bufferSize ⟨none, 0, []⟩ msg).1, msg.length⟩)
    (by rw [hwrite, set_conn_self]; rfl)
  refine hnext.trans ?_
  rw [hwrite, set_conn_self, set_set]
  rfl

theorem not_pendingTaken (server : ι → List Byte) {i : ι} (hi : first i = true) :
    ¬PendingTaken (afterHello server first i 0) := by
  obtain ⟨p, array, msg, heq, -, hfree, -, -⟩ := afterHello_eq server hi 0
  rw [heq]
  intro h
  refine h i ⟨array, msg.length⟩ ?_ hfree
  rw [set_conn_self]
  rfl

/-- Another connection takes the buffer of the `ClientHello` before that has been handed to
`Conn.Write`, and its own message goes out in its place. -/
theorem not_sentBuilt (server : ι → List Byte) {i j : ι} (hi : first i = true) (hji : j ≠ i) :
    ∃ as, ¬SentBuilt ((start server first).run as) := by
  obtain ⟨p, array, msg, heq, hmsg, hfree, hlt, hbytes⟩ := afterHello_eq server hi 2
  obtain ⟨msg', hmsg'⟩ :
      ∃ msg', ((start server first).conn j).message (clock 1) tenZeros = msg' := ⟨_, rfl⟩
  refine ⟨[.write i (clock 2) tenZeros ⟨none, 0, []⟩, .next i,
    .write j (clock 1) tenZeros ⟨some array, 15, []⟩, .next i], ?_⟩
  intro hsent
  have hrun : (start server first).run [.write i (clock 2) tenZeros ⟨none, 0, []⟩, .next i,
      .write j (clock 1) tenZeros ⟨some array, 15, []⟩, .next i] =
      ((afterHello server first i 2).step (.write j (clock 1) tenZeros ⟨some array, 15, []⟩)).step
        (.next i) := rfl
  have hj : (afterHello server first i 2).conn j = (start server first).conn j := by
    rw [heq, set_conn_of_ne hji]
  have hpool : (afterHello server first i 2).pool = p := by rw [heq, set_pool]
  have hwrite := step_write (s := afterHello server first i 2) (i := j) (by rw [hj]; rfl) (clock 1)
    tenZeros ⟨some array, 15, []⟩
  rw [hj, hmsg', hpool] at hwrite
  have hi' : ((afterHello server first i 2).step
      (.write j (clock 1) tenZeros ⟨some array, 15, []⟩)).conn i =
      { Sender.new (server i) true with
        stage := .helloMsg ⟨array, msg.length⟩, built := [msg] } := by
    rw [hwrite, set_conn_of_ne hji.symm, heq, set_conn_self]
  have hnext := step_helloMsg (i := i) (m := ⟨array, msg.length⟩) (congrArg Sender.stage hi')
  have hi'' := hsent i
  rw [hrun, hnext, set_conn_self, hi', hwrite, set_pool] at hi''
  -- the slice shows the first bytes of the other message, and these are not its own
  have hget : msg[14]? = some 2 := by
    rw [hmsg, message_getElem]
    rfl
  have hget' : ∃ x, msg'[14]? = some x ∧ x ≠ 2 := by
    rw [← hmsg', message_getElem]
    refine ⟨_, rfl, ?_⟩
    split <;> decide
  obtain ⟨x, hx, hne⟩ := hget'
  have hlen : 14 < (p.bytes ⟨array, msg.length⟩).length := by
    rw [hbytes]
    exact (List.getElem?_eq_some_iff.mp hget).1
  have hshown := Pool.bytes_take_reuse (c := ⟨some array, 15, []⟩) bufferSize rfl hfree hlt hlen
    (List.getElem?_eq_some_iff.mp hx).1 (Nat.lt_succ_self 14)
  have heq := (List.cons_prefix_cons.mp hi'').1
  rw [heq, hget, hx] at hshown
  exact hne (Option.some.inj hshown).symm

end Shared

/-- A buffer with bytes still to be handed to `Conn.Write` is never free if and only if no
connection has a `ClientHello` to send; and every connection transmits exactly what it
has built if and only if that is so or there is only one connection. -/
theorem pool_safe_iff {ι : Type} [DecidableEq ι] (server : ι → List Byte) (first : ι → Bool) :
    ((∀ as, ((Shared.start server first).run as).PendingTaken) ↔ ∀ i, first i = false) ∧
    ((∀ as, ((Shared.start server first).run as).SentBuilt) ↔
      (∀ i, first i = false) ∨ Subsingleton ι) := by
  constructor
  · constructor
    · intro h i
      by_contra hi
      exact Shared.not_pendingTaken server (Bool.eq_true_of_not_eq_false hi) (h _)
    · intro hfirst as
      exact (Shared.owns_run server first as).pendingTaken hfirst
  · constructor
    · intro h
      by_contra hsafe
      push Not at hsafe
      obtain ⟨⟨i, hi⟩, hnontrivial⟩ := hsafe
      obtain ⟨j, hji⟩ := exists_ne i
      obtain ⟨as, has⟩ := Shared.not_sentBuilt server (Bool.eq_true_of_not_eq_false hi) hji
      exact has (h as)
    · intro hsafe as
      exact Shared.sentBuilt_run server hsafe as

/-- Two connections with one chunk each. The first has returned from `makeClientHelloMsg`
when the second builds its `ClientHello`: what the first transmits is the `ClientHello` of
the second. -/
theorem hello_of_another :
    let s := (Shared.start (fun _ : Bool => [0x61]) fun _ => true).run
      [.write false (Shared.clock 2) Shared.tenZeros ⟨none, 0, []⟩, .next false]
    let s' := s.run [.write true (Shared.clock 1) Shared.tenZeros ⟨some 0, 0, []⟩, .next false]
    ¬s.PendingTaken ∧ ¬s'.SentBuilt ∧ (s'.conn false).sent = (s'.conn true).built := by
  intro s s'
  have hfree : (s.conn false).stage.pending.map Slice.array = some 0 ∧ 0 ∈ s.pool.free := by
    decide +kernel
  have hsent : (s'.conn false).sent = (s'.conn true).built ∧
      ¬(s'.conn false).sent <+: (s'.conn false).built := by
    decide +kernel
  clear_value s'
  clear_value s
  refine ⟨?_, fun h => hsent.2 (h false), hsent.1⟩
  intro h
  obtain ⟨m, hm, harray⟩ := Option.map_eq_some_iff.mp hfree.1
  exact h false m hm (harray.symm ▸ hfree.2)

end Tun2socks.SimpleObfs
