import Mathlib.Data.List.Basic

/-!
# Tun2socks.Go.Append

Slices that share their arrays, and `append`.

`append` writes behind the end of a slice if its array has room there, and every other slice of
the array that reaches as far sees it. It is safe for all slices that end before: this is what a
program relies on that lets others read a slice while it appends to it.
-/

namespace Tun2socks.Go

/-- The arrays of a program. -/
abbrev Arrays (α : Type) := List (List α)

/-- A slice that starts where its array starts, `nil` if it has none. -/
structure SliceHeader where
  array : Option Nat
  len : Nat
  deriving DecidableEq

namespace SliceHeader

variable {α : Type}

/-- The nil slice. -/
def nil : SliceHeader := ⟨none, 0⟩

/-- The array, up to its capacity. -/
def cells (h : Arrays α) (s : SliceHeader) : List α := s.array.elim [] fun a => h.getD a []

/-- The elements that a slice shows. -/
def contents (h : Arrays α) (s : SliceHeader) : List α := (s.cells h).take s.len

/-- `append(s, x)`: the slice and the arrays afterwards. A new array has `extra` more cells. -/
def append (h : Arrays α) (s : SliceHeader) (x zero : α) (extra : Nat) : SliceHeader × Arrays α :=
  if s.len < (s.cells h).length then
    (⟨s.array, s.len + 1⟩, s.array.elim h fun a => h.set a ((s.cells h).set s.len x))
  else (⟨some h.length, s.len + 1⟩, h ++ [s.contents h ++ x :: List.replicate extra zero])

/-- The slice has an array that is long enough. -/
structure Valid (h : Arrays α) (s : SliceHeader) : Prop where
  array : ∀ a, s.array = some a → a < h.length
  len : s.len ≤ (s.cells h).length

/-- On the same array, `t` does not reach further than `s`. -/
def Within (t s : SliceHeader) : Prop := t.array = s.array → t.len ≤ s.len

theorem valid_nil (h : Arrays α) : Valid h nil := ⟨nofun, Nat.zero_le _⟩

theorem Within.refl (s : SliceHeader) : s.Within s := fun _ => Nat.le_refl _

theorem Valid.within_nil {h : Arrays α} {t : SliceHeader} (ht : Valid h t) : t.Within nil := by
  intro harray
  have hlen := ht.len
  rw [cells, harray] at hlen
  exact hlen

theorem length_contents {h : Arrays α} {s : SliceHeader} (hs : Valid h s) :
    (s.contents h).length = s.len := by
  rw [contents, List.length_take, Nat.min_eq_left hs.len]

section Append

variable {h : Arrays α} {s t : SliceHeader} (x zero : α) (extra : Nat)

/-- What happens to the arrays. -/
theorem append_cases (hs : Valid h s) :
    (∃ a, s.array = some a ∧ a < h.length ∧ s.len < (s.cells h).length ∧
      append h s x zero extra = (⟨some a, s.len + 1⟩, h.set a ((s.cells h).set s.len x))) ∨
    append h s x zero extra =
      (⟨some h.length, s.len + 1⟩, h ++ [s.contents h ++ x :: List.replicate extra zero]) := by
  rw [append]
  split
  · rename_i hlt
    cases ha : s.array with
    | none =>
      rw [cells, ha] at hlt
      cases hlt
    | some a => exact .inl ⟨a, rfl, hs.array a ha, hlt, rfl⟩
  · exact .inr rfl

/-- The cells of another slice, or of another part of the array. -/
theorem cells_of_append (hs : Valid h s) (ht : Valid h t) :
    (t.cells (append h s x zero extra).2).length = (t.cells h).length ∧
      (t.Within s → t.contents (append h s x zero extra).2 = t.contents h) := by
  obtain ⟨a, ha, hlt, hroom, happ⟩ | happ := append_cases x zero extra hs
  · rw [happ]
    cases hb : t.array with
    | none => exact ⟨by simp [cells, hb], fun _ => by simp [contents, cells, hb]⟩
    | some b =>
      by_cases hab : b = a
      · subst hab
        have hcells : t.cells (h.set b ((s.cells h).set s.len x)) = (s.cells h).set s.len x := by
          simp [cells, hb, hlt]
        have hsame : t.cells h = s.cells h := by rw [cells, cells, ha, hb]
        rw [hcells, hsame, contents, contents, hcells, hsame]
        refine ⟨List.length_set, fun hw => ?_⟩
        exact List.take_set_of_le (hw (hb.trans ha.symm))
      · have hcells : t.cells (h.set a ((s.cells h).set s.len x)) = t.cells h := by
          simp [cells, hb, List.getElem?_set_ne (Ne.symm hab)]
        rw [hcells, contents, contents, hcells]
        exact ⟨rfl, fun _ => rfl⟩
  · have hcells : t.cells (append h s x zero extra).2 = t.cells h := by
      rw [happ]
      cases hb : t.array with
      | none => simp [cells, hb]
      | some b => simp [cells, hb, List.getElem?_append_left (ht.array b hb)]
    rw [contents, contents, hcells]
    exact ⟨rfl, fun _ => rfl⟩

theorem Valid.append (hs : Valid h s) (ht : Valid h t) : Valid (append h s x zero extra).2 t := by
  refine ⟨fun b hb => ?_, ?_⟩
  · have hlt := ht.array b hb
    obtain ⟨a, -, -, -, happ⟩ | happ := append_cases x zero extra hs
    · rw [happ, List.length_set]
      exact hlt
    · rw [happ, List.length_append]
      exact Nat.lt_add_right _ hlt
  · rw [(cells_of_append x zero extra hs ht).1]
    exact ht.len

/-- The new slice has one element more. -/
theorem append_spec (hs : Valid h s) :
    Valid (append h s x zero extra).2 (append h s x zero extra).1 ∧
      (append h s x zero extra).1.contents (append h s x zero extra).2 = s.contents h ++ [x] := by
  obtain ⟨a, ha, hlt, hroom, happ⟩ | happ := append_cases x zero extra hs
  · have hcells : cells (h.set a ((s.cells h).set s.len x)) ⟨some a, s.len + 1⟩ =
        (s.cells h).set s.len x := by
      simp [cells, hlt]
    rw [happ]
    refine ⟨⟨fun b hb => ?_, ?_⟩, ?_⟩
    · obtain rfl := Option.some.inj hb
      rwa [List.length_set]
    · rw [hcells, List.length_set]
      exact hroom
    · rw [contents, hcells, contents, List.take_add_one, List.take_set_of_le (Nat.le_refl _)]
      simp [hroom]
  · have hcells : cells (h ++ [s.contents h ++ x :: List.replicate extra zero])
        ⟨some h.length, s.len + 1⟩ = s.contents h ++ x :: List.replicate extra zero := by
      simp [cells]
    have hlen := length_contents hs
    rw [happ]
    refine ⟨⟨fun b hb => ?_, ?_⟩, ?_⟩
    · obtain rfl := Option.some.inj hb
      rw [List.length_append]
      exact Nat.lt_succ_self _
    · rw [hcells, List.length_append, hlen, List.length_cons]
      exact Nat.add_le_add_left (Nat.succ_le_succ (Nat.zero_le _)) _
    · rw [contents, hcells, ← hlen, List.take_length_add_append]
      rfl

/-- Nothing reaches further than the new slice that did not reach further than the old one. -/
theorem Within.append (hs : Valid h s) (ht : Valid h t) (hw : t.Within s) :
    t.Within (append h s x zero extra).1 := by
  obtain ⟨a, ha, -, -, happ⟩ | happ := append_cases x zero extra hs
  · rw [happ]
    intro harray
    exact Nat.le_succ_of_le (hw (harray.trans ha.symm))
  · rw [happ]
    intro harray
    exact absurd (ht.array _ harray) (Nat.lt_irrefl _)

end Append

end SliceHeader

end Tun2socks.Go
