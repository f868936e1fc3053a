import Mathlib.Data.Finset.Basic
import Mathlib.Logic.Function.Basic
import Tun2socks.Go.Basic

/-!
# Tun2socks.Go.Pool

A `sync.Pool` of `bytes.Buffer`s.

A buffer is known by the array behind it. What `buf.Bytes()` returns is a slice of that
array and not a copy, so a slice that is still in use when its buffer has gone back to
the pool shows whatever the next owner writes there (`Pool.bytes` reads the array at the
time of the call).

Which free buffer a `Get` finds, or that it finds none, is up to the run-time system, and
so is where a buffer that grows is moved to. These decisions are an input (`Choice`).
-/

namespace Tun2socks.Go

/-- The arrays of a program, those of the buffers that lie in the pool, and the first
array that has not been allocated. -/
structure Pool where
  mem : Nat → List Byte
  free : Finset Nat
  next : Nat

/-- A slice `array[:len]`. -/
structure Slice where
  array : Nat
  len : Nat
  deriving DecidableEq

/-- The decisions of the run-time system for one `Get` and the writes behind it. -/
structure Choice where
  /-- The free buffer that is found, if any. -/
  reuse : Option Nat
  /-- If the buffer has to grow, how much had been written before it moved. -/
  early : Nat
  /-- If the buffer has to grow, what lies behind its content in the new array. -/
  spare : List Byte

namespace Pool

/-- Nothing has been allocated. -/
def empty : Pool := ⟨fun _ => [], ∅, 0⟩

/-- The bytes a slice shows. -/
def bytes (p : Pool) (s : Slice) : List Byte := (p.mem s.array).take s.len

/-- Other contents of one array. -/
def store (p : Pool) (a : Nat) (content : List Byte) : Pool :=
  { p with mem := Function.update p.mem a content }

/-- A new array with the given contents. -/
def alloc (p : Pool) (content : List Byte) : Nat × Pool :=
  (p.next, { p.store p.next content with next := p.next + 1 })

@[simp] theorem alloc_mem (p : Pool) (content : List Byte) :
    (p.alloc content).2.mem (p.alloc content).1 = content :=
  Function.update_self ..

/-- `Get`, with `size` the capacity of a new buffer. -/
def get (size : Nat) (c : Choice) (p : Pool) : Nat × Pool :=
  match c.reuse with
  | none => p.alloc (List.replicate size 0)
  | some a =>
    if a ∈ p.free then (a, { p with free := p.free.erase a })
    else p.alloc (List.replicate size 0)

/-- The array `old` with `new` written at its start. -/
def overwrite (old new : List Byte) : List Byte := new ++ old.drop new.length

/-- Writing `msg` into the empty buffer of array `a`. A buffer that has to grow has by
then written a part of `msg` into its old array, which it leaves behind. -/
def fill (c : Choice) (a : Nat) (msg : List Byte) (p : Pool) : Nat × Pool :=
  if msg.length ≤ (p.mem a).length then (a, p.store a (overwrite (p.mem a) msg))
  else
    (p.store a (overwrite (p.mem a) (msg.take (min c.early (p.mem a).length)))).alloc
      (msg ++ c.spare)

/-- `Get`, and `msg` written into the buffer. -/
def take (size : Nat) (c : Choice) (msg : List Byte) (p : Pool) : Nat × Pool :=
  fill c (p.get size c).1 msg (p.get size c).2

/-- `Put`. -/
def put (a : Nat) (p : Pool) : Pool := { p with free := insert a p.free }

/-! ### What a `take` does to the arrays of others -/

/-- Only arrays that have been allocated lie in the pool. -/
def Allocated (p : Pool) : Prop := ∀ a ∈ p.free, a < p.next

/-- `p'` differs from `p` in free arrays and new ones only. -/
structure Frame (p p' : Pool) : Prop where
  mem : ∀ a < p.next, a ∉ p.free → p'.mem a = p.mem a
  free : p'.free ⊆ p.free
  next : p.next ≤ p'.next

theorem Frame.trans {p q r : Pool} (h : Frame p q) (h' : Frame q r) : Frame p r where
  mem a ha hfree := (h'.mem a (ha.trans_le h.next) fun hq => hfree (h.free hq)).trans
    (h.mem a ha hfree)
  free := h'.free.trans h.free
  next := h.next.trans h'.next

/-- `a` was free or new in `p`, and in `p'` it is taken. -/
structure Owned (p : Pool) (a : Nat) (p' : Pool) : Prop where
  fresh : a ∈ p.free ∨ p.next ≤ a
  taken : a ∉ p'.free
  lt : a < p'.next

theorem Allocated.alloc {p : Pool} (hp : p.Allocated) (content : List Byte) :
    Frame p (p.alloc content).2 ∧ Owned p (p.alloc content).1 (p.alloc content).2 := by
  refine ⟨⟨?_, Finset.Subset.refl _, Nat.le_succ _⟩, ⟨.inr le_rfl, ?_, Nat.lt_succ_self _⟩⟩
  · intro a ha _
    exact Function.update_of_ne ha.ne _ _
  · intro h
    exact (hp _ h).false

theorem Allocated.get {p : Pool} (hp : p.Allocated) (size : Nat) (c : Choice) :
    Frame p (p.get size c).2 ∧ Owned p (p.get size c).1 (p.get size c).2 := by
  unfold Pool.get
  cases c.reuse with
  | none => exact hp.alloc _
  | some a =>
    by_cases ha : a ∈ p.free
    · simp only [if_pos ha]
      refine ⟨⟨fun _ _ _ => rfl, Finset.erase_subset _ _, le_rfl⟩, ⟨.inl ha, ?_, hp a ha⟩⟩
      exact Finset.notMem_erase a p.free
    · simp only [if_neg ha]
      exact hp.alloc _

theorem Allocated.mono {p p' : Pool} (hp : p.Allocated) (h : Frame p p') : p'.Allocated :=
  fun a ha => (hp a (h.free ha)).trans_le h.next

/-- What a `take` does: the array is nobody's before and not free afterwards, it begins with
the message, and no array that was somebody's has changed. -/
theorem Allocated.take {p : Pool} (hp : p.Allocated) (size : Nat) (c : Choice)
    (msg : List Byte) :
    Frame p (p.take size c msg).2 ∧ Owned p (p.take size c msg).1 (p.take size c msg).2 ∧
      (p.take size c msg).2.bytes ⟨(p.take size c msg).1, msg.length⟩ = msg := by
  obtain ⟨hframe, hown⟩ := hp.get size c
  -- what is written into the array of the buffer itself does not concern anyone else
  have hstore : ∀ content, Frame p ((p.get size c).2.store (p.get size c).1 content) := by
    intro content
    refine ⟨?_, hframe.free, hframe.next⟩
    intro a ha hfree
    have hne : a ≠ (p.get size c).1 := by
      rintro rfl
      rcases hown.fresh with h | h
      · exact hfree h
      · exact (ha.trans_le h).false
    exact (Function.update_of_ne hne _ _).trans (hframe.mem a ha hfree)
  unfold Pool.take fill
  split
  · refine ⟨hstore _, ⟨hown.fresh, hown.taken, hown.lt⟩, ?_⟩
    simp only [bytes, store, Function.update_self, overwrite, List.take_left']
  · obtain ⟨hframe', hown'⟩ := (hp.mono (hstore _)).alloc (msg ++ c.spare)
    refine ⟨(hstore _).trans hframe', ⟨.inr ?_, hown'.taken, hown'.lt⟩, ?_⟩
    · exact hframe.next
    · rw [bytes, alloc_mem]
      exact List.take_left' rfl

/-- A slice of a free buffer shows the message of the next owner, also when that message
makes the buffer grow. -/
theorem bytes_take_reuse {p : Pool} {c : Choice} {s : Slice} {k : Nat} (size : Nat)
    {msg : List Byte} (hreuse : c.reuse = some s.array) (hfree : s.array ∈ p.free)
    (hnext : s.array < p.next) (hk : k < (p.bytes s).length) (hmsg : k < msg.length)
    (hearly : k < c.early) : ((p.take size c msg).2.bytes s)[k]? = msg[k]? := by
  have hget : p.get size c = (s.array, { p with free := p.free.erase s.array }) := by
    unfold get
    rw [hreuse]
    exact if_pos hfree
  have hcap : k < s.len ∧ k < (p.mem s.array).length := by
    rwa [bytes, List.length_take, lt_min_iff] at hk
  unfold take fill bytes
  rw [hget, List.getElem?_take_of_lt hcap.1]
  dsimp only
  split
  · simp only [store, Function.update_self, overwrite]
    exact List.getElem?_append_left hmsg
  · simp only [alloc, store]
    rw [Function.update_of_ne hnext.ne, Function.update_self, overwrite,
      List.getElem?_append_left, List.getElem?_take_of_lt]
    · omega
    · rw [List.length_take]
      omega

end Pool

/-! ### Pools of values

Where only the values matter, a `sync.Pool` is the list of those stored, and the run-time
system decides which one a `Get` takes, if any. -/

namespace SyncPool

variable {α : Type}

/-- `Get`: the stored value that is chosen, or a new one. -/
def get (new : α) (choice : Option Nat) (stored : List α) : α × List α :=
  match choice with
  | none => (new, stored)
  | some i =>
    match stored[i]? with
    | none => (new, stored)
    | some x => (x, stored.eraseIdx i)

/-- What holds of the stored values and of new ones holds of what `Get` returns and
leaves. -/
theorem get_forall {P : α → Prop} {new : α} {stored : List α} (hnew : P new)
    (hstored : ∀ x ∈ stored, P x) (choice : Option Nat) :
    P (get new choice stored).1 ∧ ∀ x ∈ (get new choice stored).2, P x := by
  unfold get
  split
  · exact ⟨hnew, hstored⟩
  · split
    · exact ⟨hnew, hstored⟩
    · rename_i x hx
      exact ⟨hstored x (List.mem_of_getElem? hx),
        fun y hy => hstored y (List.mem_of_mem_eraseIdx hy)⟩

end SyncPool

end Tun2socks.Go
