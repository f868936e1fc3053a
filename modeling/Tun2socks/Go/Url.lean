import Mathlib.Data.List.GetD
import Tun2socks.Go.Decimal

/-!
# Tun2socks.Go.Url

The parts of packages `net/url` and `strings` that take a URL apart.

A `URL` is what `url.Parse` has made of the text: its fields are already unescaped, except
for the raw query. The userinfo is put together again by `Userinfo.String`, which escapes
what a userinfo must not have.
-/

namespace Tun2socks.Go

/-! ### Strings -/

/-- `strings.SplitN(s, c, 2)` for a separator of one byte, where it gives two parts. -/
def cut (c : Byte) : List Byte → Option (List Byte × List Byte)
  | [] => none
  | x :: s => if x = c then some ([], s) else (cut c s).map fun p => (x :: p.1, p.2)

theorem cut_eq_some {c : Byte} {s a b : List Byte} :
    cut c s = some (a, b) ↔ s = a ++ c :: b ∧ c ∉ a := by
  induction s generalizing a with
  | nil => simp [cut]
  | cons x s ih =>
    rw [cut]
    by_cases hx : x = c
    · subst hx
      rw [if_pos rfl, Option.some.injEq, Prod.mk.injEq]
      constructor
      · intro ⟨ha, hb⟩
        subst ha hb
        exact ⟨rfl, List.not_mem_nil⟩
      · intro ⟨hs, ha⟩
        obtain ⟨hnil, hb⟩ := append_cons_inj_first List.not_mem_nil ha hs
        exact ⟨hnil, hb⟩
    · rw [if_neg hx, Option.map_eq_some_iff]
      constructor
      · intro ⟨p, hp, heq⟩
        obtain ⟨rfl, rfl⟩ := Prod.mk.inj heq
        obtain ⟨rfl, hmem⟩ := ih.mp hp
        exact ⟨rfl, fun h => (List.mem_cons.mp h).elim (fun h => hx h.symm) hmem⟩
      · intro ⟨hs, hmem⟩
        cases a with
        | nil => exact absurd (List.cons.inj hs).1 hx
        | cons y a =>
          obtain ⟨rfl, rfl⟩ := List.cons.inj hs
          exact ⟨(a, b), ih.mpr ⟨rfl, fun h => hmem (List.mem_cons_of_mem x h)⟩, rfl⟩

/-- The upper case of an ASCII letter. -/
def upper (c : Byte) : Byte := if 0x61 ≤ c ∧ c ≤ 0x7a then c - 0x20 else c

/-- `strings.ToUpper`, which goes through the tables of Unicode. On ASCII it is `upper`. -/
structure ToUpper where
  toUpper : List Byte → List Byte
  of_ascii : ∀ s, (∀ c ∈ s, c < 0x80) → toUpper s = s.map upper

/-- The one that leaves all other letters as they are. -/
def ToUpper.asciiOnly : ToUpper := ⟨List.map upper, fun _ _ => rfl⟩

/-! ### Userinfo -/

/-- `url.Userinfo`; the password may be unset. -/
structure Userinfo where
  username : List Byte
  password : Option (List Byte)

/-- `upperhex`. -/
def upperhex : List Byte := ascii "0123456789ABCDEF"

/-- `shouldEscape(c, encodeUserPassword)`. -/
def shouldEscape (c : Byte) : Bool :=
  !(isDigit c || (0x41 ≤ c && c ≤ 0x5a) || (0x61 ≤ c && c ≤ 0x7a) ||
    (ascii "-_.~").contains c || (ascii "$&+,;=").contains c)

/-- `escape(s, encodeUserPassword)`. -/
def escape (s : List Byte) : List Byte :=
  s.flatMap fun c =>
    if shouldEscape c then
      [0x25, upperhex.getD (c.toNat / 16) 0, upperhex.getD (c.toNat % 16) 0]
    else [c]

namespace Userinfo

/-- `Username()`; a nil pointer has none. -/
def getUsername (user : Option Userinfo) : List Byte :=
  match user with
  | none => []
  | some u => u.username

/-- `Password()`. -/
def getPassword (user : Option Userinfo) : Option (List Byte) := user.bind password

/-- `String()`, which unlike the other two does not check for a nil pointer. -/
def string (user : Option Userinfo) : Except Error (List Byte) :=
  match user with
  | none => .error .panic
  | some u =>
    if u.username ≠ [] ∨ u.password.getD [] ≠ [] then
      match u.password with
      | none => .ok (escape u.username)
      | some password => .ok (escape u.username ++ 0x3a :: escape password)
    else .ok []

end Userinfo

theorem no_break_upperhex (i : Nat) : upperhex.getD i 0 ≠ 0x0a ∧ upperhex.getD i 0 ≠ 0x0d := by
  by_cases hi : i < upperhex.length
  · have hall : ∀ d ∈ upperhex, d ≠ 0x0a ∧ d ≠ 0x0d := by decide +kernel
    rw [List.getD_eq_getElem _ _ hi]
    exact hall _ (List.getElem_mem hi)
  · rw [List.getD_eq_default _ _ (Nat.le_of_not_lt hi)]
    decide

/-- What is escaped has no line breaks. -/
theorem no_break_of_mem_escape {s : List Byte} {c : Byte} (h : c ∈ escape s) :
    c ≠ 0x0a ∧ c ≠ 0x0d := by
  obtain ⟨x, -, hx⟩ := List.mem_flatMap.mp h
  by_cases hesc : shouldEscape x = true
  · rw [if_pos hesc] at hx
    simp only [List.mem_cons, List.not_mem_nil, or_false] at hx
    rcases hx with rfl | rfl | rfl
    · decide
    · exact no_break_upperhex _
    · exact no_break_upperhex _
  · rw [if_neg hesc, List.mem_singleton] at hx
    subst hx
    constructor
    · intro h
      exact hesc (h ▸ by decide)
    · intro h
      exact hesc (h ▸ by decide)

/-! ### Queries -/

/-- `unhex`, with `none` for a byte that is no hexadecimal digit. -/
def unhex (c : Byte) : Option Nat :=
  if isDigit c then some (digit c)
  else if 0x61 ≤ c ∧ c ≤ 0x66 then some (c.toNat - 0x61 + 10)
  else if 0x41 ≤ c ∧ c ≤ 0x46 then some (c.toNat - 0x41 + 10)
  else none

/-- `url.QueryUnescape(s)`; `none` is its error, with which it returns no text. -/
def queryUnescape : List Byte → Option (List Byte)
  | [] => some []
  | 0x25 :: a :: b :: s =>
    match unhex a, unhex b with
    | some hi, some lo => (queryUnescape s).map (UInt8.ofNat (hi * 16 + lo) :: ·)
    | _, _ => none
  | 0x25 :: _ => none
  | 0x2b :: s => (queryUnescape s).map (0x20 :: ·)
  | c :: s => (queryUnescape s).map (c :: ·)

/-! ### URLs -/

/-- `url.URL`, as far as it is read here. -/
structure URL where
  user : Option Userinfo
  host : List Byte
  path : List Byte
  rawQuery : List Byte

end Tun2socks.Go
