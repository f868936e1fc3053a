import Tun2socks.Go.Session

/-!
# Tun2socks.Go.Dial

Functions that open sockets, and have to close them again when they fail.

A function runs in the error and state monad over the sockets it has opened, which are named
by the order of their opening. Its deferred clean-up is part of the function
(`closeOnError`). A goroutine that it starts is kept with the sockets: it waits for one of
them to end and then closes some, after the function has returned (`settle`).

`wp x Q E` are the sockets from which the function `x` returns with `Q` or fails with `E`.
There is one rule for each construct, and `Clean` is what is asked of a function that dials.
-/

namespace Tun2socks.Go

/-- The sockets that a function has opened, and the goroutines it has started. -/
structure Sockets where
  /-- for each socket, whether it has been closed -/
  closed : List Bool
  /-- for each goroutine, the socket it reads to the end and those it then closes -/
  waiting : List (Nat × List Nat)
  deriving DecidableEq, Repr

namespace Sockets

/-- No socket has been opened. -/
def empty : Sockets := ⟨[], []⟩

/-- `Close()` of a socket. -/
def close (s : Sockets) (h : Nat) : Sockets := { s with closed := s.closed.set h true }

/-- A goroutine whose socket has been closed goes on to its end. -/
def wake (s : Sockets) (g : Nat × List Nat) : Sockets :=
  if s.closed.getD g.1 false then g.2.foldl close s else s

/-- The sockets once the goroutines have done what they can. -/
def settle (s : Sockets) : Sockets := s.waiting.foldl wake s

/-- No socket is open, nor will be. -/
def Released (s : Sockets) : Prop := ∀ b ∈ s.settle.closed, b = true

instance (s : Sockets) : Decidable s.Released :=
  inferInstanceAs (Decidable (∀ b ∈ s.settle.closed, b = true))

/-- The sockets `hs` are open, and there are no others. -/
structure HandsOut (s : Sockets) (hs : List Nat) : Prop where
  isOpen : ∀ h ∈ hs, s.closed[h]? = some false
  all : ∀ h < s.closed.length, h ∈ hs

end Sockets

/-- A function that dials: it opens and closes sockets, and may fail. -/
abbrev Dial := EStateM Error Sockets

namespace Dial

variable {α β : Type}

/-- A call that opens a socket, with its outcome: the socket, and what is known of it. -/
def «open» (outcome : Except Error α) : Dial (Nat × α) := fun s =>
  match outcome with
  | .ok a => .ok (s.closed.length, a) { s with closed := s.closed ++ [false] }
  | .error err => .error err s

/-- A call that opens nothing, with its outcome. -/
def step (outcome : Except Error α) : Dial α := fun s =>
  match outcome with
  | .ok a => .ok a s
  | .error err => .error err s

/-- A program on the connection `c`. -/
def talk (x : Session α) (c : Conn) : Dial (α × Conn) := fun s =>
  match x c with
  | .ok a c => .ok (a, c) s
  | .error err _ => .error err s

/-- `Close` of the socket `h`. -/
def close (h : Nat) : Dial Unit := fun s => .ok () (s.close h)

/-- `go func() { io.Copy(io.Discard, h); hs.Close() }()`. -/
def go (h : Nat) (hs : List Nat) : Dial Unit := fun s =>
  .ok () { s with waiting := s.waiting ++ [(h, hs)] }

/-- A function with `defer func() { if err != nil { h.Close() } }()`, where `err` is its named
result. -/
def closeOnError (h : Nat) (x : Dial α) : Dial α := fun s =>
  match x s with
  | .ok a s => .ok a s
  | .error err s => .error err (s.close h)

/-- `x`, with an error wrapped by `fmt.Errorf`. -/
def errorf (wrap : String → String) (x : Dial α) : Dial α := fun s =>
  match x s with
  | .ok a s => .ok a s
  | .error err s => .error (.new (wrap err.text)) s

/-! ### Rules -/

/-- From the sockets `s` the function returns with `Q`, or fails with `E`. -/
def wp (x : Dial α) (Q : α → Sockets → Prop) (E : Sockets → Prop) (s : Sockets) : Prop :=
  match x s with
  | .ok a s => Q a s
  | .error _ s => E s

section Rules

variable {Q : α → Sockets → Prop} {E : Sockets → Prop} {s : Sockets}

theorem wp_pure (a : α) : wp (pure a) Q E s ↔ Q a s := Iff.rfl

theorem wp_throw (err : Error) : wp (throw err : Dial α) Q E s ↔ E s := Iff.rfl

theorem wp_bind (x : Dial β) (f : β → Dial α) :
    wp (x >>= f) Q E s ↔ wp x (fun b s => wp (f b) Q E s) E s := by
  unfold wp
  change (match EStateM.bind x f s with
    | .ok a s => Q a s
    | .error _ s => E s) ↔ _
  rw [EStateM.bind]
  cases x s <;> exact Iff.rfl

theorem wp_step (outcome : Except Error α) :
    wp (step outcome) Q E s ↔
      (∀ a, outcome = .ok a → Q a s) ∧ (∀ err, outcome = .error err → E s) := by
  unfold wp step
  cases outcome <;> simp

theorem wp_open (outcome : Except Error β) {Q : Nat × β → Sockets → Prop} :
    wp («open» outcome) Q E s ↔
      (∀ b, outcome = .ok b → Q (s.closed.length, b) ⟨s.closed ++ [false], s.waiting⟩) ∧
        (∀ err, outcome = .error err → E s) := by
  unfold wp «open»
  cases outcome <;> simp

theorem wp_talk (x : Session β) (c : Conn) {Q : β × Conn → Sockets → Prop} :
    wp (talk x c) Q E s ↔
      (∀ b c', x c = .ok b c' → Q (b, c') s) ∧ (∀ err c', x c = .error err c' → E s) := by
  unfold wp talk
  cases x c <;> simp

theorem wp_close (h : Nat) {Q : Unit → Sockets → Prop} :
    wp (close h) Q E s ↔ Q () (s.close h) := Iff.rfl

theorem wp_go (h : Nat) (hs : List Nat) {Q : Unit → Sockets → Prop} :
    wp (go h hs) Q E s ↔ Q () ⟨s.closed, s.waiting ++ [(h, hs)]⟩ := Iff.rfl

theorem wp_closeOnError (h : Nat) (x : Dial α) :
    wp (closeOnError h x) Q E s ↔ wp x Q (fun s => E (s.close h)) s := by
  unfold wp closeOnError
  cases x s <;> exact Iff.rfl

theorem wp_errorf (wrap : String → String) (x : Dial α) :
    wp (errorf wrap x) Q E s ↔ wp x Q E s := by
  unfold wp errorf
  cases x s <;> exact Iff.rfl

end Rules

/-- What a function that dials owes its caller, if it hands out the sockets `sockets a`: after
an error nothing stays open; otherwise what it hands out is open, and that is everything. -/
def Clean (sockets : α → List Nat) (x : Dial α) : Prop :=
  wp x (fun a s => s.HandsOut (sockets a)) Sockets.Released .empty

end Dial

end Tun2socks.Go
