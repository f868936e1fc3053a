import Tun2socks.Go.Basic

/-!
# Tun2socks.Codec.Decoder

Decoders of length-prefixed binary formats.

A decoder takes bytes off the front of its input or rejects it. `Decodes p s a` says
that `p` reads exactly the bytes `s`, whatever follows them, and returns `a`; it has one
rule for each way to build a decoder, so that the proof that a decoder reads back an
encoding follows the decoder's text. A decoder that must use its input up is run by
`all`.
-/

namespace Tun2socks.Codec

open Tun2socks.Go

/-- A decoder: it takes bytes off the front of its input, or fails. -/
abbrev Decoder := StateT (List Byte) Option

/-- The number that bytes denote, the most significant first. -/
def beNat (b : List Byte) : Nat := b.foldl (fun n x => n * 256 + x.toNat) 0

theorem beNat_putUint16 {n : Nat} (h : n < 65536) : beNat (putUint16 n) = n := by
  change (0 * 256 + (UInt8.ofNat (n / 256)).toNat) * 256 + (UInt8.ofNat n).toNat = n
  rw [Nat.zero_mul, Nat.zero_add]
  exact uint16_putUint16 h

theorem beNat_zero_cons (b : List Byte) : beNat (0 :: b) = beNat b := rfl

namespace Decoder

/-- The next `n` bytes. -/
def bytes (n : Nat) : Decoder (List Byte) := fun s =>
  if n ≤ s.length then some (s.take n, s.drop n) else none

/-- A number of `n` bytes. -/
def uint (n : Nat) : Decoder Nat := do
  let b ← bytes n
  return beNat b

/-- The bytes behind their length, a number of `n` bytes. -/
def vector (n : Nat) : Decoder (List Byte) := do
  let len ← uint n
  bytes len

/-- Exactly these bytes. -/
def literal (b : List Byte) : Decoder Unit := do
  let x ← bytes b.length
  if x = b then return () else failure

/-- The bytes up to the next zero byte, which is taken off too. -/
def untilNul : Decoder (List Byte)
  | [] => none
  | x :: xs => if x = 0 then some ([], xs) else (untilNul xs).map fun r => (x :: r.1, r.2)

/-- Decode the whole input. -/
def all {α : Type} (p : Decoder α) (b : List Byte) : Option α :=
  match p b with
  | some (a, []) => some a
  | _ => none

/-- A `vector` whose content `p` decodes as a whole. -/
def nested {α : Type} (n : Nat) (p : Decoder α) : Decoder α := do
  let b ← vector n
  StateT.lift (all p b)

/-- `p` again and again to the end of the input, at most `fuel` times. -/
def times {α : Type} (p : Decoder α) : Nat → List Byte → Option (List α × List Byte)
  | 0, s => if s = [] then some ([], []) else none
  | fuel + 1, s =>
    if s = [] then some ([], [])
    else match p s with
      | none => none
      | some (a, s) =>
        match times p fuel s with
        | none => none
        | some (as, s) => some (a :: as, s)

/-- `p` again and again to the end of the input. -/
def repeated {α : Type} (p : Decoder α) : Decoder (List α) := fun s => times p s.length s

/-- `p` reads exactly `s`, whatever follows, and returns `a`. -/
def Decodes {α : Type} (p : Decoder α) (s : List Byte) (a : α) : Prop :=
  ∀ rest, p (s ++ rest) = some (a, rest)

section Rules

variable {α β : Type} {p : Decoder α} {f : α → Decoder β} {s t : List Byte} {a : α} {b : β}

theorem Decodes.pure : Decodes (Pure.pure a) [] a := fun _ => rfl

theorem Decodes.bind (hp : Decodes p s a) (hf : Decodes (f a) t b) :
    Decodes (p >>= f) (s ++ t) b := by
  intro rest
  change (p (s ++ t ++ rest)).bind (fun x => f x.1 x.2) = _
  rw [List.append_assoc, hp]
  exact hf rest

/-- A step that reads nothing more. -/
theorem Decodes.bind_nil (hp : Decodes p s a) (hf : Decodes (f a) [] b) :
    Decodes (p >>= f) s b := by
  have h := hp.bind hf
  rwa [List.append_nil] at h

theorem Decodes.all (hp : Decodes p s a) : all p s = some a := by
  have h := hp []
  rw [List.append_nil] at h
  rw [Decoder.all, h]

theorem decodes_bytes (s : List Byte) {n : Nat} (hn : s.length = n) : Decodes (bytes n) s s := by
  subst hn
  intro rest
  rw [bytes, if_pos (by simp), List.take_left' rfl, List.drop_left' rfl]

theorem decodes_uint (s : List Byte) {n : Nat} (hn : s.length = n) :
    Decodes (uint n) s (beNat s) :=
  (decodes_bytes s hn).bind_nil .pure

theorem decodes_uint16 {n : Nat} (hn : n < 65536) : Decodes (uint 2) (putUint16 n) n := by
  have h := decodes_uint (putUint16 n) rfl
  rwa [beNat_putUint16 hn] at h

theorem decodes_vector {n : Nat} (hlen : Decodes (uint n) t s.length) :
    Decodes (vector n) (t ++ s) s :=
  hlen.bind (decodes_bytes s rfl)

theorem decodes_literal (s : List Byte) : Decodes (literal s) s () := by
  have h : Decodes (if s = s then return () else failure) [] () := by
    rw [if_pos rfl]
    exact .pure
  exact (decodes_bytes s rfl).bind_nil h

theorem decodes_untilNul (hs : (0 : Byte) ∉ s) : Decodes untilNul (s ++ [0]) s := by
  intro rest
  induction s with
  | nil => rfl
  | cons x xs ih =>
    rw [List.mem_cons, not_or] at hs
    have hx : x ≠ 0 := fun hx => hs.1 hx.symm
    rw [List.cons_append, List.cons_append, untilNul, if_neg hx, ih hs.2]
    rfl

theorem decodes_nested {n : Nat} (hlen : Decodes (uint n) t s.length) (hp : all p s = some a) :
    Decodes (nested n p) (t ++ s) a := by
  have h : Decodes (StateT.lift (all p s)) [] a := by
    rw [hp]
    exact fun _ => rfl
  exact (decodes_vector hlen).bind_nil h

/-- Every round of `times` reads one of the items. -/
theorem times_flatMap {enc : β → List Byte} {val : β → α} (xs : List β)
    (hp : ∀ x ∈ xs, Decodes p (enc x) (val x)) (hne : ∀ x ∈ xs, enc x ≠ []) {fuel : Nat}
    (hfuel : (xs.flatMap enc).length ≤ fuel) :
    times p fuel (xs.flatMap enc) = some (xs.map val, []) := by
  induction xs generalizing fuel with
  | nil => cases fuel <;> rfl
  | cons x xs ih =>
    obtain ⟨hx, hxs⟩ := List.forall_mem_cons.mp hp
    obtain ⟨hnx, hnxs⟩ := List.forall_mem_cons.mp hne
    have hpos := List.length_pos_of_ne_nil hnx
    rw [List.flatMap_cons, List.length_append] at hfuel
    cases fuel with
    | zero => omega
    | succ fuel =>
      rw [List.flatMap_cons, times, if_neg (fun hnil => hnx (List.append_eq_nil_iff.mp hnil).1), hx]
      dsimp only
      rw [ih hxs hnxs (by omega)]
      rfl

theorem all_repeated (enc : β → List Byte) (val : β → α) (xs : List β)
    (hp : ∀ x ∈ xs, Decodes p (enc x) (val x)) (hne : ∀ x ∈ xs, enc x ≠ []) :
    all (repeated p) (xs.flatMap enc) = some (xs.map val) := by
  rw [all, repeated, times_flatMap xs hp hne le_rfl]

end Rules

end Decoder

end Tun2socks.Codec
