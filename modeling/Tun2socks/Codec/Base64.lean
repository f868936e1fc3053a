import Mathlib.Data.Nat.Digits.Lemmas
import Tun2socks.Go.Basic

/-!
# Tun2socks.Codec.Base64

Unpadded base64 over the URL alphabet, as `base64.RawURLEncoding` decodes it.

The decoder goes from quantum to quantum, four characters or what is left of the text, and
stops at the first one that it cannot decode. It then returns an error and the bytes of the
quanta before.

`Decodes s data` is the meaning of a whole text, without quanta: its characters are the
digits of a number in base 64, and `data` is this number in base 256, less the bits that do
not fill a byte. The decoder succeeds on exactly the texts that have a meaning
(`decodeQuanta_eq_true`), and otherwise returns the meaning of the quanta in front of a bad
one (`decodeQuanta_eq_false`).
-/

namespace Tun2socks.Codec.Base64

open Tun2socks.Go

/-! ### The decoder -/

/-- `decodeMap` of the URL alphabet; `none` is its `0xff`. -/
def decodeMap (c : Byte) : Option Nat :=
  if 0x41 ≤ c ∧ c ≤ 0x5a then some (c.toNat - 0x41)
  else if 0x61 ≤ c ∧ c ≤ 0x7a then some (c.toNat - 0x61 + 26)
  else if 0x30 ≤ c ∧ c ≤ 0x39 then some (c.toNat - 0x30 + 52)
  else if c = 0x2d then some 62
  else if c = 0x5f then some 63
  else none

/-- The four values of a quantum in one number; those of missing characters are zero. -/
def assemble (dbuf : List Nat) : Nat :=
  dbuf.getD 0 0 * 0x40000 + dbuf.getD 1 0 * 0x1000 + dbuf.getD 2 0 * 0x40 + dbuf.getD 3 0

/-- Its three bytes. -/
def split (val : Nat) : List Byte :=
  [UInt8.ofNat (val / 0x10000), UInt8.ofNat (val / 0x100), UInt8.ofNat val]

/-- `decodeQuantum` on the characters of a quantum, at most four. The error is a character
outside the alphabet, or a quantum of one. -/
def decodeQuantum (q : List Byte) : Option (List Byte) :=
  match q.mapM decodeMap with
  | none => none
  | some dbuf =>
    if q.length = 1 then none
    else some ((split (assemble dbuf)).take (q.length - 1))

/-- The loop of `Decode`: the bytes written, and whether there was no error. -/
def decodeQuanta : List Byte → List Byte × Bool
  | [] => ([], true)
  | a :: b :: c :: d :: s =>
    match decodeQuantum [a, b, c, d] with
    | none => ([], false)
    | some out => (out ++ (decodeQuanta s).1, (decodeQuanta s).2)
  | q =>
    match decodeQuantum q with
    | none => ([], false)
    | some out => (out, true)

/-- `base64.RawURLEncoding.DecodeString(s)`, which skips line breaks. -/
def decodeString (s : List Byte) : List Byte × Bool :=
  decodeQuanta (s.filter fun c => c != 0x0a && c != 0x0d)

theorem decodeString_of_no_break {s : List Byte} (h : ∀ c ∈ s, c ≠ 0x0a ∧ c ≠ 0x0d) :
    decodeString s = decodeQuanta s := by
  have hfilter : s.filter (fun c => c != 0x0a && c != 0x0d) = s :=
    List.filter_eq_self.mpr fun c hc => by simpa using h c hc
  rw [decodeString, hfilter]

/-! ### Digits -/

/-- The number with these digits in base `b`, the most significant first. -/
def bigEndian (b : Nat) (digits : List Nat) : Nat := digits.foldl (fun n d => n * b + d) 0

theorem bigEndian_eq_ofDigits (b : Nat) (digits : List Nat) :
    bigEndian b digits = Nat.ofDigits b digits.reverse := by
  rw [Nat.ofDigits_eq_foldr, List.foldr_reverse, bigEndian]
  congr
  funext n d
  rw [Nat.add_comm, Nat.mul_comm]
  rfl

theorem bigEndian_append (b : Nat) (x y : List Nat) :
    bigEndian b (x ++ y) = bigEndian b x * b ^ y.length + bigEndian b y := by
  simp only [bigEndian_eq_ofDigits]
  rw [List.reverse_append, Nat.ofDigits_append, List.length_reverse, Nat.add_comm, Nat.mul_comm]

theorem bigEndian_bytes_inj {x y : List Byte} (hlen : x.length = y.length)
    (h : bigEndian 256 (x.map UInt8.toNat) = bigEndian 256 (y.map UInt8.toNat)) : x = y := by
  have hdigits : ∀ s : List Byte, ∀ n ∈ (s.map UInt8.toNat).reverse, n < 256 := by
    intro s n hn
    obtain ⟨c, -, rfl⟩ := List.mem_map.mp (List.mem_reverse.mp hn)
    exact c.toNat_lt
  rw [bigEndian_eq_ofDigits, bigEndian_eq_ofDigits] at h
  have hlen' : (x.map UInt8.toNat).reverse.length = (y.map UInt8.toNat).reverse.length := by
    simpa using hlen
  have hrev := Nat.ofDigits_inj_of_len_eq (by decide) hlen' (hdigits x) (hdigits y) h
  exact List.map_injective_iff.mpr (fun _ _ => UInt8.toNat_inj.mp) (List.reverse_injective hrev)

/-! ### The meaning of a text -/

/-- The value of a character; zero for those outside the alphabet. -/
def sextet (c : Byte) : Nat := (decodeMap c).getD 0

/-- `s` is unpadded base64 text, and `data` is its decoding. -/
structure Decodes (s data : List Byte) : Prop where
  alphabet : ∀ c ∈ s, decodeMap c ≠ none
  length : s.length % 4 ≠ 1
  size : data.length = s.length * 6 / 8
  value : bigEndian 256 (data.map UInt8.toNat) =
    bigEndian 64 (s.map sextet) / 2 ^ (s.length * 6 % 8)

/-- What no quantum can begin with: a single character, or one outside the alphabet among
the next four. -/
def BadQuantum (t : List Byte) : Prop := t.length = 1 ∨ ∃ c ∈ t.take 4, decodeMap c = none

/-- `data` is the decoding of the quanta of `s` in front of the first bad one. -/
def DecodesPart (s data : List Byte) : Prop :=
  ∃ q t, s = q ++ t ∧ 4 ∣ q.length ∧ Decodes q data ∧ BadQuantum t

section Decodes

variable {q s a b data : List Byte}

theorem Decodes.nil : Decodes [] [] := ⟨fun c hc => by simp at hc, by decide, rfl, rfl⟩

theorem Decodes.unique (ha : Decodes s a) (hb : Decodes s b) : a = b :=
  bigEndian_bytes_inj (ha.size.trans hb.size.symm) (ha.value.trans hb.value.symm)

/-- Whole quanta are decoded on their own. -/
theorem Decodes.append (hq : Decodes q a) (h4 : 4 ∣ q.length) (hs : Decodes s b) :
    Decodes (q ++ s) (a ++ b) := by
  obtain ⟨n, hn⟩ := h4
  have hlen : (q ++ s).length = 4 * n + s.length := by rw [List.length_append, hn]
  refine ⟨?_, ?_, ?_, ?_⟩
  · intro c hc
    rcases List.mem_append.mp hc with hc | hc
    · exact hq.alphabet c hc
    · exact hs.alphabet c hc
  · have := hs.length
    omega
  · have hsize := hq.size
    rw [List.length_append, hsize, hs.size, hlen, hn]
    omega
  · have hmod : (q ++ s).length * 6 % 8 = s.length * 6 % 8 := by omega
    have hpow : 64 ^ s.length = 2 ^ (s.length * 6 % 8) * 256 ^ b.length := by
      rw [show 64 = 2 ^ 6 from rfl, show 256 = 2 ^ 8 from rfl, ← pow_mul, ← pow_mul, ← pow_add,
        hs.size]
      congr 1
      omega
    have hvalue := hq.value
    rw [show q.length * 6 % 8 = 0 by omega, pow_zero, Nat.div_one] at hvalue
    have hdiv (x y : Nat) : (x * 64 ^ s.length + y) / 2 ^ (s.length * 6 % 8) =
        x * 256 ^ b.length + y / 2 ^ (s.length * 6 % 8) := by
      rw [hpow, Nat.mul_left_comm, Nat.mul_add_div (by positivity)]
    rw [List.map_append, List.map_append, bigEndian_append, bigEndian_append, List.length_map,
      List.length_map, hvalue, hs.value, hmod, hdiv]

theorem BadQuantum.part (h : BadQuantum s) : DecodesPart s [] :=
  ⟨[], s, rfl, dvd_zero 4, .nil, h⟩

theorem DecodesPart.append (hq : Decodes q a) (h4 : 4 ∣ q.length) (hs : DecodesPart s b) :
    DecodesPart (q ++ s) (a ++ b) := by
  obtain ⟨q', t, rfl, hq4, hq', hbad⟩ := hs
  refine ⟨q ++ q', t, (List.append_assoc q q' t).symm, ?_, hq.append h4 hq', hbad⟩
  rw [List.length_append]
  exact dvd_add h4 hq4

/-- A text with a bad quantum has no meaning as a whole. -/
theorem DecodesPart.not_decodes (hs : DecodesPart s a) : ¬ Decodes s b := by
  obtain ⟨q, t, rfl, h4, -, hbad⟩ := hs
  intro h
  rcases hbad with hone | ⟨c, hc, hnone⟩
  · have hlen := h.length
    rw [List.length_append] at hlen
    omega
  · exact h.alphabet c (List.mem_append_right q (List.mem_of_mem_take hc)) hnone

end Decodes

/-! ### One quantum -/

section Quantum

variable {q out : List Byte}

theorem decodeMap_lt {c : Byte} {n : Nat} (h : decodeMap c = some n) : n < 64 := by
  unfold decodeMap at h
  split_ifs at h with h₁ h₂ h₃ h₄ h₅
  · have := UInt8.le_iff_toNat_le.mp h₁.2
    simp at h this
    omega
  · have := UInt8.le_iff_toNat_le.mp h₂.2
    simp at h this
    omega
  · have := UInt8.le_iff_toNat_le.mp h₃.2
    simp at h this
    omega
  · simp at h
    omega
  · simp at h
    omega

theorem sextet_lt (c : Byte) : sextet c < 64 := by
  unfold sextet
  cases h : decodeMap c with
  | none => decide
  | some n => exact decodeMap_lt h

theorem mapM_decodeMap (h : ∀ c ∈ q, decodeMap c ≠ none) :
    q.mapM decodeMap = some (q.map sextet) := by
  induction q with
  | nil => rfl
  | cons c q ih =>
    obtain ⟨n, hn⟩ := Option.ne_none_iff_exists'.mp (h c List.mem_cons_self)
    rw [List.mapM_cons, ih fun c hc => h c (List.mem_cons_of_mem _ hc), hn, List.map_cons, sextet,
      hn]
    rfl

theorem mapM_decodeMap_none (h : ∃ c ∈ q, decodeMap c = none) : q.mapM decodeMap = none := by
  induction q with
  | nil => simp at h
  | cons c q ih =>
    rw [List.mapM_cons]
    cases hc : decodeMap c with
    | none => rfl
    | some n =>
      obtain ⟨d, hd, hnone⟩ := h
      have hq : d ∈ q := by
        rcases List.mem_cons.mp hd with rfl | hq
        · rw [hc] at hnone
          cases hnone
        · exact hq
      rw [ih ⟨d, hq, hnone⟩]
      rfl

theorem decodeQuantum_eq_none :
    decodeQuantum q = none ↔ q.length = 1 ∨ ∃ c ∈ q, decodeMap c = none := by
  by_cases h : ∃ c ∈ q, decodeMap c = none
  · rw [decodeQuantum, mapM_decodeMap_none h]
    exact iff_of_true rfl (.inr h)
  · have hall : ∀ c ∈ q, decodeMap c ≠ none := fun c hc hnone => h ⟨c, hc, hnone⟩
    rw [decodeQuantum, mapM_decodeMap hall]
    simp [h]

theorem assemble_eq {dbuf : List Nat} (h : dbuf.length ≤ 4) :
    assemble dbuf = bigEndian 64 dbuf * 64 ^ (4 - dbuf.length) := by
  match dbuf with
  | [] => rfl
  | [_] | [_, _] | [_, _, _] | [_, _, _, _] =>
    simp only [assemble, bigEndian, List.getD_cons_zero, List.getD_cons_succ, List.getD_nil,
      List.foldl_cons, List.foldl_nil, List.length_cons, List.length_nil]
    omega
  | _ :: _ :: _ :: _ :: _ :: _ =>
    simp only [List.length_cons] at h
    omega

theorem assemble_sextets_lt (q : List Byte) : assemble (q.map sextet) < 0x1000000 := by
  have hlt (i : Nat) : (q.map sextet).getD i 0 < 64 := by
    rw [List.getD_eq_getElem?_getD, List.getElem?_map]
    cases q[i]? with
    | none => decide
    | some c => exact sextet_lt c
  have h₀ := hlt 0
  have h₁ := hlt 1
  have h₂ := hlt 2
  have h₃ := hlt 3
  rw [assemble]
  omega

theorem bigEndian_split {val n : Nat} (hval : val < 0x1000000) (hn : n ≤ 3) :
    bigEndian 256 (((split val).take n).map UInt8.toNat) = val / 256 ^ (3 - n) := by
  have hdigits : (split val).map UInt8.toNat =
      [val / 0x10000 % 256, val / 0x100 % 256, val % 256] := by
    simp only [split, List.map_cons, List.map_nil, UInt8.toNat_ofNat', Nat.reducePow]
  rw [List.map_take, hdigits]
  match n with
  | 0 | 1 | 2 | 3 =>
    simp only [bigEndian, List.take_succ_cons, List.take_zero, List.foldl_cons, List.foldl_nil]
    omega
  | n + 4 => omega

/-- A quantum that is decoded has this meaning. -/
theorem decodes_quantum (hlen : q.length ≤ 4) (h : decodeQuantum q = some out) :
    Decodes q out := by
  have hnone : ¬ (q.length = 1 ∨ ∃ c ∈ q, decodeMap c = none) := by
    rw [← decodeQuantum_eq_none, h]
    exact Option.some_ne_none out
  have hall : ∀ c ∈ q, decodeMap c ≠ none := fun c hc hc' => hnone (.inr ⟨c, hc, hc'⟩)
  have hone : q.length ≠ 1 := fun h => hnone (.inl h)
  rw [decodeQuantum, mapM_decodeMap hall] at h
  simp only [hone, if_false, Option.some.injEq] at h
  subst h
  have hsplit (val : Nat) : (split val).length = 3 := rfl
  refine ⟨hall, by omega, ?_, ?_⟩
  · rw [List.length_take, hsplit]
    omega
  · have hdbuf : (q.map sextet).length ≤ 4 := by rwa [List.length_map]
    rw [bigEndian_split (assemble_sextets_lt q) (by omega), assemble_eq hdbuf, List.length_map]
    generalize bigEndian 64 (q.map sextet) = n
    -- 2, 4 or none of the bits do not fill a byte
    obtain h | h | h | h : q.length = 0 ∨ q.length = 2 ∨ q.length = 3 ∨ q.length = 4 := by omega
    all_goals
      simp only [h, Nat.reduceMul, Nat.reduceMod, Nat.reduceSub, Nat.reducePow]
      omega

end Quantum

/-! ### All quanta -/

section Quanta

variable {s q t data : List Byte}

/-- The last quantum of a text may be short. -/
theorem decodeQuanta_short (hne : s ≠ []) (hlen : s.length < 4) :
    decodeQuanta s = match decodeQuantum s with
      | none => ([], false)
      | some out => (out, true) := by
  match s with
  | [] => exact absurd rfl hne
  | [_] => rfl
  | [_, _] => rfl
  | [_, _, _] => rfl
  | _ :: _ :: _ :: _ :: _ =>
    simp only [List.length_cons] at hlen
    omega

theorem decodeQuanta_bad (h : BadQuantum t) : decodeQuanta t = ([], false) := by
  match t with
  | [] => simp [BadQuantum] at h
  | a :: b :: c :: d :: s =>
    have hnone : decodeQuantum [a, b, c, d] = none :=
      decodeQuantum_eq_none.mpr (h.imp (fun h => by simp at h) id)
    rw [decodeQuanta, hnone]
  | [_] | [_, _] | [_, _, _] =>
    rw [decodeQuanta_short (by simp) (by simp), decodeQuantum_eq_none.mpr h]

/-- Behind whole quanta that have been decoded the decoder goes on. -/
theorem decodeQuanta_append {q data : List Byte} (t : List Byte) (h4 : 4 ∣ q.length)
    (h : decodeQuanta q = (data, true)) :
    decodeQuanta (q ++ t) = (data ++ (decodeQuanta t).1, (decodeQuanta t).2) := by
  match q with
  | [] =>
    obtain rfl : [] = data := congrArg Prod.fst h
    rfl
  | a :: b :: c :: d :: q =>
    rw [decodeQuanta] at h
    cases hquantum : decodeQuantum [a, b, c, d] with
    | none => simp [hquantum] at h
    | some out =>
      simp only [hquantum, Prod.mk.injEq] at h
      obtain ⟨rfl, htrue⟩ := h
      have h4' : 4 ∣ q.length := by
        simp only [List.length_cons] at h4
        omega
      have hrest := decodeQuanta_append t h4' (Prod.ext rfl htrue)
      simp only [List.cons_append, decodeQuanta, hquantum, hrest, List.append_assoc]
  | [_] | [_, _] | [_, _, _] =>
    simp only [List.length_cons, List.length_nil] at h4
    omega

/-- What the decoder does with a text: it decodes all of it, or whole quanta up to a bad
one. -/
def Outcome (s : List Byte) (r : List Byte × Bool) : Prop :=
  r.2 = true ∧ Decodes s r.1 ∨ r.2 = false ∧ DecodesPart s r.1

theorem outcome_short (hne : s ≠ []) (hlen : s.length < 4) : Outcome s (decodeQuanta s) := by
  rw [decodeQuanta_short hne hlen]
  cases hquantum : decodeQuantum s with
  | none =>
    have hbad : BadQuantum s := by
      rw [BadQuantum, List.take_of_length_le (by omega)]
      exact decodeQuantum_eq_none.mp hquantum
    exact .inr ⟨rfl, hbad.part⟩
  | some out => exact .inl ⟨rfl, decodes_quantum (by omega) hquantum⟩

theorem outcome (s : List Byte) : Outcome s (decodeQuanta s) := by
  match s with
  | [] => exact .inl ⟨rfl, .nil⟩
  | a :: b :: c :: d :: s =>
    rw [decodeQuanta]
    cases hquantum : decodeQuantum [a, b, c, d] with
    | none =>
      have hbad : BadQuantum (a :: b :: c :: d :: s) :=
        (decodeQuantum_eq_none.mp hquantum).imp (fun h => by simp at h) id
      exact .inr ⟨rfl, hbad.part⟩
    | some out =>
      have hout := decodes_quantum le_rfl hquantum
      have h4 : 4 ∣ [a, b, c, d].length := dvd_refl 4
      rcases outcome s with ⟨htrue, hs⟩ | ⟨hfalse, hs⟩
      · exact .inl ⟨htrue, hout.append h4 hs⟩
      · exact .inr ⟨hfalse, .append hout h4 hs⟩
  | [_] | [_, _] | [_, _, _] => exact outcome_short (by simp) (by simp)

/-- The decoder reports no error exactly on a text with a meaning, and returns this. -/
theorem decodeQuanta_eq_true : decodeQuanta s = (data, true) ↔ Decodes s data := by
  constructor
  · intro h
    rcases outcome s with ⟨-, hs⟩ | ⟨hfalse, -⟩
    · rwa [h] at hs
    · rw [h] at hfalse
      cases hfalse
  · intro h
    rcases outcome s with ⟨htrue, hs⟩ | ⟨-, hpart⟩
    · exact Prod.ext (hs.unique h) htrue
    · exact absurd h hpart.not_decodes

/-- With an error it returns the meaning of the quanta in front of the first bad one. -/
theorem decodeQuanta_eq_false : decodeQuanta s = (data, false) ↔ DecodesPart s data := by
  constructor
  · intro h
    rcases outcome s with ⟨htrue, -⟩ | ⟨-, hpart⟩
    · rw [h] at htrue
      cases htrue
    · rwa [h] at hpart
  · intro ⟨q, t, hs, h4, hq, hbad⟩
    rw [hs, decodeQuanta_append t h4 (decodeQuanta_eq_true.mpr hq), decodeQuanta_bad hbad,
      List.append_nil]

end Quanta

end Tun2socks.Codec.Base64
