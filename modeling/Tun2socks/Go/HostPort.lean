import Tun2socks.Go.Decimal

/-!
# Tun2socks.Go.HostPort

Endpoints in text form, taken apart and put together.

Strings are byte strings here, as they are in Go: a zone or a host name may hold any
byte. `HostPort.split` follows `net.SplitHostPort` and is characterised by the shapes
it accepts (`HostPort.Splits`); what `net.JoinHostPort` puts together comes apart again
unless the host has brackets.
-/

namespace Tun2socks.Go

/-! ### Finding a byte -/

/-- `bytealg.LastIndexByteString`. -/
def lastIndexByte (c : Byte) : List Byte → Option Nat
  | [] => none
  | x :: xs =>
    match lastIndexByte c xs with
    | some i => some (i + 1)
    | none => if x = c then some 0 else none

section Index

variable {c : Byte} {s a b : List Byte} {i : Nat}

theorem lastIndexByte_eq_none (h : c ∉ s) : lastIndexByte c s = none := by
  induction s with
  | nil => rfl
  | cons x xs ih =>
    rw [List.mem_cons, not_or] at h
    rw [lastIndexByte, ih h.2]
    exact if_neg fun hx => h.1 hx.symm

theorem lastIndexByte_append (h : c ∉ b) : lastIndexByte c (a ++ c :: b) = some a.length := by
  induction a with
  | nil =>
    rw [List.nil_append, lastIndexByte, lastIndexByte_eq_none h]
    exact if_pos rfl
  | cons x a ih => rw [List.cons_append, lastIndexByte, ih, List.length_cons]

/-- A byte string splits at the last place of a byte that it holds. -/
theorem exists_last (h : c ∈ s) : ∃ a b, s = a ++ c :: b ∧ c ∉ b := by
  induction s with
  | nil => cases h
  | cons x xs ih =>
    by_cases hxs : c ∈ xs
    · obtain ⟨a, b, rfl, hb⟩ := ih hxs
      exact ⟨x :: a, b, rfl, hb⟩
    · obtain rfl := (List.mem_cons.mp h).resolve_right hxs
      exact ⟨[], xs, rfl, hxs⟩

/-- And at the first. -/
theorem exists_first (h : c ∈ s) : ∃ a b, s = a ++ c :: b ∧ c ∉ a := by
  obtain ⟨a, b, hs, ha⟩ := exists_last (List.mem_reverse.mpr h)
  refine ⟨b.reverse, a.reverse, ?_, fun hb => ha (List.mem_reverse.mp hb)⟩
  rw [← List.reverse_reverse s, hs]
  simp

theorem idxOf?_append (h : c ∉ a) : (a ++ c :: b).idxOf? c = some a.length := by
  induction a with
  | nil => simp [List.idxOf?_cons]
  | cons x a ih =>
    rw [List.mem_cons, not_or] at h
    have hx : (x == c) = false := beq_false_of_ne fun hx => h.1 hx.symm
    rw [List.cons_append, List.idxOf?_cons, ih h.2, hx]
    rfl

end Index

/-! ### Host and port -/

namespace HostPort

/-- The byte `:`. -/
def colon : Byte := 0x3a
/-- The byte `.`. -/
def dot : Byte := 0x2e
/-- The byte `%`. -/
def percent : Byte := 0x25
/-- The byte `[`. -/
def leftBracket : Byte := 0x5b
/-- The byte `]`. -/
def rightBracket : Byte := 0x5d

/-- The texts of a `net.AddrError`, without the address that it quotes. -/
def missingPort : Error := .new "missing port in address"
/-- The error of `net.SplitHostPort` for a host with a colon outside of brackets. -/
def tooManyColons : Error := .new "too many colons in address"

/-- The end of `net.SplitHostPort`, from the check for stray brackets on. -/
def finish (hostport : List Byte) (i j k : Nat) (host : List Byte) :
    Except Error (List Byte × List Byte) :=
  if leftBracket ∈ hostport.drop j then .error (.new "unexpected '[' in address")
  else if rightBracket ∈ hostport.drop k then .error (.new "unexpected ']' in address")
  else .ok (host, hostport.drop (i + 1))

/-- `net.SplitHostPort`. -/
def split (hostport : List Byte) : Except Error (List Byte × List Byte) :=
  match lastIndexByte colon hostport with
  | none => .error missingPort
  | some i =>
    if hostport.head? = some leftBracket then
      match hostport.idxOf? rightBracket with
      | none => .error (.new "missing ']' in address")
      | some e =>
        if e + 1 = hostport.length then .error missingPort
        else if e + 1 = i then finish hostport i 1 (e + 1) ((hostport.take e).drop 1)
        else if hostport.getD (e + 1) 0 = colon then .error tooManyColons
        else .error missingPort
    else if colon ∈ hostport.take i then .error tooManyColons
    else finish hostport i 0 0 (hostport.take i)

/-- `net.JoinHostPort`. -/
def join (host port : List Byte) : List Byte :=
  if colon ∈ host then leftBracket :: host ++ rightBracket :: colon :: port
  else host ++ colon :: port

/-- A part of an endpoint that needs no brackets. -/
def Bare (s : List Byte) : Prop := colon ∉ s ∧ leftBracket ∉ s ∧ rightBracket ∉ s

/-- The endpoints that `net.SplitHostPort` accepts, with their parts. -/
inductive Splits : List Byte → List Byte → List Byte → Prop
  | bare {host port : List Byte} (hhost : Bare host) (hport : Bare port) :
      Splits (host ++ colon :: port) host port
  | bracketed {host port : List Byte} (hleft : leftBracket ∉ host) (hright : rightBracket ∉ host)
      (hport : Bare port) : Splits (leftBracket :: host ++ rightBracket :: colon :: port) host port

section Split

variable {s host port : List Byte} {i j k : Nat}

theorem finish_eq_ok {r : List Byte × List Byte} (h : finish s i j k host = .ok r) :
    leftBracket ∉ s.drop j ∧ rightBracket ∉ s.drop k ∧ r = (host, s.drop (i + 1)) := by
  unfold finish at h
  split at h
  · cases h
  split at h
  · cases h
  · rename_i hleft hright
    exact ⟨hleft, hright, (Except.ok.inj h).symm⟩

/-- The part behind a colon. -/
theorem drop_colon (a b : List Byte) : (a ++ colon :: b).drop (a.length + 1) = b := by
  rw [← List.drop_drop, List.drop_left' rfl, List.drop_one, List.tail_cons]

/-! Where brackets cannot be, in the two shapes. -/

theorem Bare.brackets_not_mem (hhost : Bare host) (hport : Bare port) :
    leftBracket ∉ host ++ colon :: port ∧ rightBracket ∉ host ++ colon :: port := by
  simp only [List.mem_append, List.mem_cons, not_or]
  exact ⟨⟨hhost.2.1, by decide, hport.2.1⟩, hhost.2.2, by decide, hport.2.2⟩

theorem Bare.left_not_mem (hport : Bare port) (hleft : leftBracket ∉ host) :
    leftBracket ∉ host ++ rightBracket :: colon :: port := by
  simp only [List.mem_append, List.mem_cons, not_or]
  exact ⟨hleft, by decide, by decide, hport.2.1⟩

theorem Bare.right_not_mem (hport : Bare port) : rightBracket ∉ colon :: port := by
  rw [List.mem_cons, not_or]
  exact ⟨by decide, hport.2.2⟩

theorem right_not_mem_open (hright : rightBracket ∉ host) :
    rightBracket ∉ leftBracket :: host := by
  rw [List.mem_cons, not_or]
  exact ⟨by decide, hright⟩

theorem Splits.split (h : Splits s host port) : HostPort.split s = .ok (host, port) := by
  cases h with
  | bare hhost hport =>
    obtain ⟨hleft, hright⟩ := hhost.brackets_not_mem hport
    have hhead : (host ++ colon :: port).head? ≠ some leftBracket :=
      fun h => hleft (List.mem_of_mem_head? h)
    simp only [HostPort.split, lastIndexByte_append hport.1]
    rw [if_neg hhead, List.take_left' rfl, if_neg hhost.1, finish,
      if_neg (by simpa using hleft), if_neg (by simpa using hright), drop_colon]
  | bracketed hleft hright hport =>
    have hassoc : leftBracket :: host ++ rightBracket :: colon :: port =
        (leftBracket :: host ++ [rightBracket]) ++ colon :: port := by simp
    have hlast : lastIndexByte colon (leftBracket :: host ++ rightBracket :: colon :: port) =
        some (host.length + 2) := by
      rw [hassoc, lastIndexByte_append hport.1]
      simp
    have hfirst : (leftBracket :: host ++ rightBracket :: colon :: port).idxOf? rightBracket =
        some (host.length + 1) := by
      rw [idxOf?_append (right_not_mem_open hright)]
      rfl
    have hdrop : (leftBracket :: host ++ rightBracket :: colon :: port).drop (host.length + 2) =
        colon :: port := by
      rw [hassoc, List.drop_left' (by simp)]
    simp only [HostPort.split, hlast, hfirst]
    rw [if_pos (by simp), if_neg (by simp), if_pos trivial, finish, if_neg, if_neg]
    · rw [← List.drop_drop, hdrop, List.take_left' (by simp)]
      rfl
    · rw [hdrop]
      exact hport.right_not_mem
    · exact hport.left_not_mem hleft

/-- With a bracket that closes right before the last colon, and none before it. -/
theorem splits_of_finish {x b : List Byte} (hx : rightBracket ∉ x) (hb : colon ∉ b)
    (hhead : (x ++ rightBracket :: colon :: b).head? = some leftBracket)
    (h : finish (x ++ rightBracket :: colon :: b) (x.length + 1) 1 (x.length + 1)
      (((x ++ rightBracket :: colon :: b).take x.length).drop 1) = .ok (host, port)) :
    Splits (x ++ rightBracket :: colon :: b) host port := by
  have hassoc : x ++ rightBracket :: colon :: b = (x ++ [rightBracket]) ++ colon :: b := by simp
  obtain ⟨hl, hr, hparts⟩ := finish_eq_ok h
  rw [hassoc, List.drop_left' (by simp)] at hr
  rw [List.take_left' rfl, hassoc, ← List.drop_drop, List.drop_left' (by simp)] at hparts
  obtain ⟨rfl, rfl⟩ := Prod.mk.inj hparts
  cases x with
  | nil => simp [leftBracket, rightBracket] at hhead
  | cons z x =>
    obtain rfl : z = leftBracket := by simpa using hhead
    simp only [List.mem_cons, not_or] at hx
    simp only [List.cons_append, List.drop_one, List.tail_cons, List.mem_append, List.mem_cons,
      not_or] at hl
    exact .bracketed hl.1 hx.2 ⟨hb, hl.2.2.2, fun h => hr (.tail _ h)⟩

/-- **`net.SplitHostPort` accepts exactly the two shapes.** -/
theorem split_eq_ok : HostPort.split s = .ok (host, port) ↔ Splits s host port := by
  refine ⟨fun h => ?_, Splits.split⟩
  by_cases hcolon : colon ∈ s
  swap
  · simp only [HostPort.split, lastIndexByte_eq_none hcolon] at h
    cases h
  obtain ⟨a, b, rfl, hb⟩ := exists_last hcolon
  simp only [HostPort.split, lastIndexByte_append hb] at h
  by_cases hhead : (a ++ colon :: b).head? = some leftBracket
  · rw [if_pos hhead] at h
    by_cases hclose : rightBracket ∈ a ++ colon :: b
    swap
    · rw [List.idxOf?_eq_none_iff.mpr hclose] at h
      cases h
    obtain ⟨x, y, hxy, hx⟩ := exists_first hclose
    rw [hxy, idxOf?_append hx] at h
    dsimp only at h
    split at h
    · cases h
    split at h
    · rename_i hend
      have hassoc : a ++ colon :: b = (x ++ [rightBracket]) ++ y := by simpa using hxy
      obtain ⟨rfl, rfl⟩ := List.append_inj hassoc (by simpa using hend.symm)
      rw [hxy] at hhead ⊢
      rw [← hend] at h
      exact splits_of_finish hx hb hhead h
    split at h <;> cases h
  · rw [if_neg hhead, List.take_left' rfl] at h
    split at h
    · cases h
    rename_i hc
    obtain ⟨hl, hr, hparts⟩ := finish_eq_ok h
    rw [drop_colon] at hparts
    obtain ⟨rfl, rfl⟩ := Prod.mk.inj hparts
    simp only [List.drop_zero, List.mem_append, List.mem_cons, not_or] at hl hr
    exact .bare ⟨hc, hl.1, hr.1⟩ ⟨hb, hl.2.2, hr.2.2⟩

/-- What `net.JoinHostPort` puts together comes apart again, if the host has no
brackets. -/
theorem split_join (hleft : leftBracket ∉ host) (hright : rightBracket ∉ host) (hport : Bare port) :
    HostPort.split (join host port) = .ok (host, port) := by
  unfold join
  split
  · exact (Splits.bracketed hleft hright hport).split
  · rename_i hcolon
    exact (Splits.bare ⟨hcolon, hleft, hright⟩ hport).split

/-- Brackets stand at the ends of a host only. -/
theorem Splits.brackets (h : Splits s host port) :
    leftBracket ∉ s.tail ∧ s.count rightBracket ≤ 1 ∧
      (s.head? ≠ some leftBracket → leftBracket ∉ s ∧ rightBracket ∉ s) := by
  cases h with
  | bare hhost hport =>
    obtain ⟨hleft, hright⟩ := hhost.brackets_not_mem hport
    refine ⟨fun h => hleft (List.mem_of_mem_tail h), ?_, fun _ => ⟨hleft, hright⟩⟩
    rw [List.count_eq_zero_of_not_mem hright]
    exact Nat.zero_le 1
  | bracketed hleft hright hport =>
    refine ⟨hport.left_not_mem hleft, ?_, fun h => absurd (by simp) h⟩
    rw [List.count_append, List.count_eq_zero_of_not_mem (right_not_mem_open hright),
      List.count_cons_self, List.count_eq_zero_of_not_mem hport.right_not_mem]

/-- Otherwise it does not, unless the host looks bracketed itself. -/
theorem split_join_error (hhost : host.head? ≠ some leftBracket)
    (hbracket : leftBracket ∈ host ∨ rightBracket ∈ host) (r : List Byte × List Byte) :
    HostPort.split (join host port) ≠ .ok r := by
  intro h
  obtain ⟨htail, hcount, hbare⟩ := (split_eq_ok.mp h).brackets
  unfold join at htail hcount hbare
  by_cases hcolon : colon ∈ host
  · rw [if_pos hcolon] at htail hcount
    rcases hbracket with hl | hr
    · exact htail (by simp [hl])
    · have hpos := List.count_pos_iff.mpr hr
      simp only [List.cons_append, List.count_cons, List.count_append, beq_self_eq_true,
        if_true] at hcount
      omega
  · rw [if_neg hcolon] at hbare
    have hne : host ≠ [] := by
      rintro rfl
      simp at hbracket
    obtain ⟨hl, hr⟩ := hbare (by rwa [List.head?_append_of_ne_nil _ hne])
    rcases hbracket with h | h
    · exact hl (List.mem_append_left _ h)
    · exact hr (List.mem_append_left _ h)

end Split

end HostPort

theorem bare_itoa (n : Nat) : HostPort.Bare (ascii (itoa n)) :=
  ⟨not_mem_ascii_itoa rfl, not_mem_ascii_itoa rfl, not_mem_ascii_itoa rfl⟩

end Tun2socks.Go
