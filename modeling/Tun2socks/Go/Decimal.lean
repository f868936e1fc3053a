import Tun2socks.Go.Net

/-!
# Tun2socks.Go.Decimal

Decimal numerals in byte strings: what `strconv` reads, and what it prints.
-/

namespace Tun2socks.Go

/-- The bytes of an ASCII text. -/
def ascii (s : String) : List Byte := s.toList.map fun c => UInt8.ofNat c.toNat

@[simp] theorem ascii_append (s t : String) : ascii (s ++ t) = ascii s ++ ascii t := by
  simp [ascii]

/-! ### Numbers -/

/-- A decimal digit. -/
def isDigit (c : Byte) : Bool := 0x30 ≤ c && c ≤ 0x39

theorem ne_of_isDigit {x c : Byte} (hx : isDigit x = true) (hc : isDigit c = false) : x ≠ c := by
  rintro rfl
  rw [hx] at hc
  cases hc

/-- The value of a digit. -/
def digit (c : Byte) : Nat := c.toNat - 0x30

/-- The number that digits denote, behind a number already read. -/
def decimal (n : Nat) (s : List Byte) : Nat := s.foldl (fun n c => n * 10 + digit c) n

/-- The loop of `strconv.ParseUint` in base 10, up to a largest value. -/
def parseUintLoop (max n : Nat) : List Byte → Except Error Nat
  | [] => .ok n
  | c :: cs =>
    if isDigit c = false then .error (.new "invalid syntax")
    else if max < n * 10 + digit c then .error (.new "value out of range")
    else parseUintLoop max (n * 10 + digit c) cs

/-- `strconv.ParseUint(s, 10, …)`, for values up to `max`. -/
def parseUint (max : Nat) (s : List Byte) : Except Error Nat :=
  if s = [] then .error (.new "invalid syntax") else parseUintLoop max 0 s

section Numbers

variable {max n v : Nat} {s : List Byte}

theorem le_decimal (n : Nat) (s : List Byte) : n ≤ decimal n s := by
  induction s generalizing n with
  | nil => exact le_rfl
  | cons c cs ih =>
    have hstep := ih (n * 10 + digit c)
    change n ≤ decimal (n * 10 + digit c) cs
    omega

theorem parseUintLoop_eq_ok (hn : n ≤ max) :
    parseUintLoop max n s = .ok v ↔ (∀ c ∈ s, isDigit c) ∧ decimal n s = v ∧ v ≤ max := by
  induction s generalizing n with
  | nil =>
    simp only [parseUintLoop, Except.ok.injEq, List.not_mem_nil, false_implies, implies_true,
      true_and]
    exact ⟨fun h => ⟨h, h ▸ hn⟩, fun h => h.1⟩
  | cons c cs ih =>
    have hdecimal : decimal n (c :: cs) = decimal (n * 10 + digit c) cs := rfl
    have hle := le_decimal (n * 10 + digit c) cs
    rw [parseUintLoop, hdecimal, List.forall_mem_cons]
    cases hd : isDigit c with
    | false => simp
    | true =>
      rw [if_neg (by decide)]
      by_cases hmax : max < n * 10 + digit c
      · rw [if_pos hmax]
        refine iff_of_false (fun h => nomatch h) ?_
        rintro ⟨-, rfl, hv⟩
        omega
      · rw [if_neg hmax, ih (Nat.le_of_not_lt hmax)]
        simp

/-- **`strconv.ParseUint` accepts exactly the decimal numerals up to the bound.** -/
theorem parseUint_eq_ok :
    parseUint max s = .ok v ↔ s ≠ [] ∧ (∀ c ∈ s, isDigit c) ∧ decimal 0 s = v ∧ v ≤ max := by
  unfold parseUint
  split
  · rename_i hs
    exact iff_of_false (fun h => nomatch h) fun h => h.1 hs
  · rename_i hs
    rw [parseUintLoop_eq_ok (Nat.zero_le max)]
    exact ⟨fun h => ⟨hs, h⟩, fun h => h.2⟩

end Numbers

/-! ### Decimal texts -/

/-- The byte of a decimal digit. -/
theorem isDigit_ofNat {c : Char} (h : c.isDigit) :
    isDigit (UInt8.ofNat c.toNat) = true ∧ digit (UInt8.ofNat c.toNat) = c.toNat - '0'.toNat := by
  have hc : 48 ≤ c.toNat ∧ c.toNat ≤ 57 := Char.isDigit_iff_toNat.mp h
  have hbyte : (UInt8.ofNat c.toNat).toNat = c.toNat :=
    UInt8.toNat_ofNat_of_lt' (show c.toNat < 256 by omega)
  refine ⟨?_, by rw [digit, hbyte]; rfl⟩
  simp only [isDigit, Bool.and_eq_true, decide_eq_true_eq, UInt8.le_iff_toNat_le, hbyte]
  exact hc

theorem isDigit_of_mem_ascii_itoa {n : Nat} {x : Byte} (h : x ∈ ascii (itoa n)) : isDigit x := by
  obtain ⟨c, hc, rfl⟩ := List.mem_map.mp h
  exact (isDigit_ofNat (isDigit_of_mem_itoa hc)).1

theorem decimal_map_ofNat {cs : List Char} (h : ∀ c ∈ cs, c.isDigit) (n : Nat) :
    decimal n (cs.map fun c => UInt8.ofNat c.toNat) = Nat.ofDigitChars 10 cs n := by
  induction cs generalizing n with
  | nil => rfl
  | cons c cs ih =>
    rw [List.forall_mem_cons] at h
    rw [List.map_cons, Nat.ofDigitChars_cons, ← ih h.2, ← (isDigit_ofNat h.1).2, Nat.mul_comm]
    rfl

theorem decimal_ascii_itoa (n : Nat) : decimal 0 (ascii (itoa n)) = n := by
  rw [ascii, decimal_map_ofNat fun c hc => isDigit_of_mem_itoa hc]
  simp [itoa, Nat.toString_eq_repr, Nat.toList_repr]

theorem ascii_itoa_ne_nil (n : Nat) : ascii (itoa n) ≠ [] := by
  simp [ascii, itoa, Nat.toString_eq_repr]

theorem parseUint_itoa {n max : Nat} (h : n ≤ max) : parseUint max (ascii (itoa n)) = .ok n :=
  parseUint_eq_ok.mpr
    ⟨ascii_itoa_ne_nil n, fun _ => isDigit_of_mem_ascii_itoa, decimal_ascii_itoa n, h⟩

/-- A byte that is not a digit is not in a decimal text. -/
theorem not_mem_ascii_itoa {n : Nat} {x : Byte} (hx : isDigit x = false) : x ∉ ascii (itoa n) := by
  intro h
  rw [isDigit_of_mem_ascii_itoa h] at hx
  cases hx

/-- The decimal text of a number, by its last digit. -/
theorem ascii_itoa_lt {n : Nat} (h : n < 10) :
    ∃ c, ascii (itoa n) = [c] ∧ isDigit c ∧ digit c = n := by
  have htext : ascii (itoa n) = [UInt8.ofNat n.digitChar.toNat] := by
    simp [ascii, itoa, Nat.toString_eq_repr, Nat.toList_repr, Nat.toDigits_of_lt_base h]
  refine ⟨_, htext, ?_, ?_⟩
  · apply isDigit_of_mem_ascii_itoa (n := n)
    simp [htext]
  · have hvalue := decimal_ascii_itoa n
    rw [htext] at hvalue
    simpa [decimal] using hvalue

theorem ascii_itoa_append {n d : Nat} (hn : 0 < n) (hd : d < 10) :
    ascii (itoa (10 * n + d)) = ascii (itoa n) ++ ascii (itoa d) := by
  simp [ascii, itoa, Nat.toString_eq_repr, Nat.toList_repr,
    ← Nat.toDigits_append_toDigits (b := 10) (by decide) hn hd]

end Tun2socks.Go
