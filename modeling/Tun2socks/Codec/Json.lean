import Tun2socks.Go.Decimal

/-!
# Tun2socks.Codec.Json

JSON texts (RFC 8259), read in two stages.

The text is cut into tokens, and the tokens are put together to a value. Strings are kept
as they are written, with their escapes. `Reads s v` says that `s` is a text of the value
`v`, in any place where no number could go on; its rules build the texts of objects from
those of their members, so that the proof that a writer is correct follows the writer's
text.
-/

namespace Tun2socks.Codec

open Tun2socks.Go

/-- A number: `± integer.fraction · 10 ^ exponent`. -/
structure Number where
  negative : Bool
  integer : Nat
  fraction : List Byte
  exponent : Int
  deriving DecidableEq

/-- A natural number, written without fraction and exponent. -/
def Number.ofNat (n : Nat) : Number := ⟨false, n, [], 0⟩

/-- A JSON value. -/
inductive Json
  | null
  | bool (b : Bool)
  | num (n : Number)
  | str (raw : List Byte)
  | arr (items : List Json)
  | obj (members : List (List Byte × Json))

namespace Json

/-- The byte `"`. -/
def quote : Byte := 0x22
/-- The byte `\`. -/
def backslash : Byte := 0x5c
/-- The byte `,`. -/
def comma : Byte := 0x2c
/-- The byte `:`. -/
def colon : Byte := 0x3a
/-- The byte that opens an object. -/
def leftBrace : Byte := 0x7b
/-- The byte that closes an object. -/
def rightBrace : Byte := 0x7d

/-! ### Tokens -/

/-- A token of the grammar. -/
inductive Token
  | leftBrace
  | rightBrace
  | leftBracket
  | rightBracket
  | colon
  | comma
  | null
  | bool (b : Bool)
  | num (n : Number)
  | str (raw : List Byte)
  deriving DecidableEq

/-- White space between tokens. -/
def isSpace (c : Byte) : Bool := c == 0x20 || c == 0x09 || c == 0x0a || c == 0x0d

/-- The bytes that occur in numbers: digits, signs, the dot and the letter e. -/
def isNumberByte (c : Byte) : Bool :=
  isDigit c || c == 0x2b || c == 0x2d || c == 0x2e || c == 0x45 || c == 0x65

/-- The digits at the beginning, of which there is at least one. -/
def digits (s : List Byte) : Option (List Byte × List Byte) :=
  if s.takeWhile isDigit = [] then none else some (s.takeWhile isDigit, s.dropWhile isDigit)

/-- The digits of a fraction, if there is one. -/
def fraction (s : List Byte) : Option (List Byte × List Byte) :=
  if s.head? = some 0x2e then digits s.tail else some ([], s)

/-- The value of an exponent, if there is one. -/
def exponent (s : List Byte) : Option (Int × List Byte) :=
  if s.head? = some 0x45 ∨ s.head? = some 0x65 then
    let s := s.tail
    let unsigned := if s.head? = some 0x2b ∨ s.head? = some 0x2d then s.tail else s
    (digits unsigned).map fun r =>
      (if s.head? = some 0x2d then -(decimal 0 r.1 : Int) else decimal 0 r.1, r.2)
  else some (0, s)

/-- A whole number token. An integer part has no leading zero. -/
def number (s : List Byte) : Option Number := do
  let negative := s.head? = some 0x2d
  let (int, s) ← digits (if negative then s.tail else s)
  if int.head? = some 0x30 ∧ int ≠ [0x30] then failure
  let (frac, s) ← fraction s
  let (exp, s) ← exponent s
  if s ≠ [] then failure
  return ⟨negative, decimal 0 int, frac, exp⟩

/-- Where the rest of a string begins: outside an escape, behind a backslash, or before so
many hexadecimal digits. -/
inductive Mode
  | plain
  | escape
  | hex (n : Nat)

/-- A hexadecimal digit. -/
def isHex (c : Byte) : Bool :=
  isDigit c || (0x41 ≤ c && c ≤ 0x46) || (0x61 ≤ c && c ≤ 0x66)

/-- The bytes behind a backslash, except for the letter u: `"\/bfnrt`. -/
def escapes : List Byte := [0x22, 0x5c, 0x2f, 0x62, 0x66, 0x6e, 0x72, 0x74]

/-- A string up to its closing quote, and what follows it. -/
def stringBody : Mode → List Byte → Option (List Byte × List Byte)
  | _, [] => none
  | .plain, c :: cs =>
    if c = quote then some ([], cs)
    else if c < 0x20 then none
    else (stringBody (if c = backslash then .escape else .plain) cs).map fun r => (c :: r.1, r.2)
  | .escape, c :: cs =>
    if c = 0x75 then (stringBody (.hex 3) cs).map fun r => (c :: r.1, r.2)
    else if c ∈ escapes then (stringBody .plain cs).map fun r => (c :: r.1, r.2)
    else none
  | .hex n, c :: cs =>
    if isHex c then
      (stringBody (match n with | 0 => .plain | n + 1 => .hex n) cs).map fun r => (c :: r.1, r.2)
    else none

/-- The tokens of one byte. -/
def punctuation (c : Byte) : Option Token :=
  if c = leftBrace then some .leftBrace
  else if c = rightBrace then some .rightBrace
  else if c = 0x5b then some .leftBracket
  else if c = 0x5d then some .rightBracket
  else if c = colon then some .colon
  else if c = comma then some .comma
  else none

/-- The tokens that are words. -/
def keyword (s : List Byte) : Option (Token × List Byte) :=
  if ascii "null" <+: s then some (.null, s.drop 4)
  else if ascii "true" <+: s then some (.bool true, s.drop 4)
  else if ascii "false" <+: s then some (.bool false, s.drop 5)
  else none

/-- The tokens of a text, of which there are at most `fuel`. -/
def lexLoop : Nat → List Byte → Option (List Token)
  | _, [] => some []
  | 0, _ :: _ => none
  | fuel + 1, c :: cs =>
    if isSpace c then lexLoop fuel cs
    else if c = quote then
      (stringBody .plain cs).bind fun r => (lexLoop fuel r.2).map (.str r.1 :: ·)
    else if isNumberByte c then
      (number ((c :: cs).takeWhile isNumberByte)).bind fun n =>
        (lexLoop fuel ((c :: cs).dropWhile isNumberByte)).map (.num n :: ·)
    else
      match punctuation c with
      | some t => (lexLoop fuel cs).map (t :: ·)
      | none => (keyword (c :: cs)).bind fun r => (lexLoop fuel r.2).map (r.1 :: ·)

/-- The tokens of a text. -/
def lex (s : List Byte) : Option (List Token) := lexLoop s.length s

/-! ### Values -/

mutual

/-- The value that the tokens begin with, and what follows it. -/
def value : Nat → List Token → Option (Json × List Token)
  | 0, _ => none
  | fuel + 1, ts =>
    match ts with
    | .null :: ts => some (.null, ts)
    | .bool b :: ts => some (.bool b, ts)
    | .num n :: ts => some (.num n, ts)
    | .str raw :: ts => some (.str raw, ts)
    | .leftBracket :: .rightBracket :: ts => some (.arr [], ts)
    | .leftBracket :: ts => (elements fuel ts).map fun r => (.arr r.1, r.2)
    | .leftBrace :: .rightBrace :: ts => some (.obj [], ts)
    | .leftBrace :: ts => (members fuel ts).map fun r => (.obj r.1, r.2)
    | _ => none

/-- The elements of an array, with the closing bracket. -/
def elements : Nat → List Token → Option (List Json × List Token)
  | 0, _ => none
  | fuel + 1, ts =>
    match value fuel ts with
    | some (v, .rightBracket :: ts) => some ([v], ts)
    | some (v, .comma :: ts) => (elements fuel ts).map fun r => (v :: r.1, r.2)
    | _ => none

/-- The members of an object, with the closing brace. -/
def members : Nat → List Token → Option (List (List Byte × Json) × List Token)
  | 0, _ => none
  | fuel + 1, ts =>
    match ts with
    | .str k :: .colon :: ts =>
      match value fuel ts with
      | some (v, .rightBrace :: ts) => some ([(k, v)], ts)
      | some (v, .comma :: ts) => (members fuel ts).map fun r => ((k, v) :: r.1, r.2)
      | _ => none
    | _ => none

end

/-- A whole text. -/
def parse (s : List Byte) : Option Json :=
  match lex s with
  | none => none
  | some ts =>
    match value ts.length ts with
    | some (v, []) => some v
    | _ => none

/-! ### Tokens in a text -/

/-- No number goes on here. -/
def Ends (rest : List Byte) : Prop := ∀ c, rest.head? = some c → isNumberByte c = false

/-- The tokens of `rest` are `rs`, with any fuel that is enough. -/
def Tokens (rest : List Byte) (rs : List Token) : Prop :=
  ∀ fuel, rest.length ≤ fuel → lexLoop fuel rest = some rs

/-- `s` is cut into the tokens `ts`, whatever follows. -/
def Lexes (s : List Byte) (ts : List Token) : Prop :=
  ∀ rest rs, Tokens rest rs → Tokens (s ++ rest) (ts ++ rs)

/-- `s` is cut into the tokens `ts` where no number goes on. -/
def LexesEnd (s : List Byte) (ts : List Token) : Prop :=
  ∀ rest rs, Ends rest → Tokens rest rs → Tokens (s ++ rest) (ts ++ rs)

section Lexes

variable {s s' : List Byte} {ts ts' : List Token}

theorem Lexes.ends (h : Lexes s ts) : LexesEnd s ts := fun rest rs _ => h rest rs

theorem Lexes.append (h : Lexes s ts) (h' : Lexes s' ts') : Lexes (s ++ s') (ts ++ ts') := by
  intro rest rs hrest
  rw [List.append_assoc, List.append_assoc]
  exact h _ _ (h' rest rs hrest)

/-- What follows a number begins with a byte that ends it. -/
theorem LexesEnd.append {c : Byte} (h : LexesEnd s ts) (hc : isNumberByte c = false)
    (h' : Lexes (c :: s') ts') : Lexes (s ++ c :: s') (ts ++ ts') := by
  intro rest rs hrest
  rw [List.append_assoc, List.append_assoc]
  refine h _ _ ?_ (h' rest rs hrest)
  intro x hx
  obtain rfl : c = x := Option.some.inj hx
  exact hc

theorem lex_of_lexesEnd (h : LexesEnd s ts) : lex s = some ts := by
  have htokens := h [] [] (fun c hc => nomatch hc) (fun fuel _ => by cases fuel <;> rfl)
  rw [List.append_nil, List.append_nil] at htokens
  exact htokens _ le_rfl

theorem lexes_punctuation {c : Byte} {t : Token} (h : punctuation c = some t)
    (hspace : isSpace c = false) (hquote : c ≠ quote) (hnum : isNumberByte c = false) :
    Lexes [c] [t] := by
  intro rest rs hrest fuel hfuel
  rw [List.singleton_append, List.length_cons] at hfuel
  obtain ⟨fuel, rfl⟩ := Nat.exists_eq_add_of_le' (show 1 ≤ fuel by omega)
  rw [List.singleton_append, lexLoop, if_neg (by simp [hspace]), if_neg hquote,
    if_neg (by simp [hnum]), h]
  dsimp only
  rw [hrest fuel (by omega)]
  rfl

theorem lexes_leftBrace : Lexes [leftBrace] [.leftBrace] :=
  lexes_punctuation (by decide) (by decide) (by decide) (by decide)

theorem lexes_rightBrace : Lexes [rightBrace] [.rightBrace] :=
  lexes_punctuation (by decide) (by decide) (by decide) (by decide)

theorem lexes_colon : Lexes [colon] [.colon] :=
  lexes_punctuation (by decide) (by decide) (by decide) (by decide)

theorem lexes_comma : Lexes [comma] [.comma] :=
  lexes_punctuation (by decide) (by decide) (by decide) (by decide)

/-- The bytes of a string that stand for themselves. -/
def Plain (raw : List Byte) : Prop := ∀ c ∈ raw, c ≠ quote ∧ c ≠ backslash ∧ 0x20 ≤ c

theorem stringBody_plain {raw : List Byte} (h : Plain raw) (rest : List Byte) :
    stringBody .plain (raw ++ quote :: rest) = some (raw, rest) := by
  induction raw with
  | nil => rw [List.nil_append, stringBody, if_pos rfl]
  | cons c raw ih =>
    obtain ⟨⟨hquote, hback, hlow⟩, hraw⟩ := List.forall_mem_cons.mp h
    rw [List.cons_append, stringBody, if_neg hquote, if_neg (UInt8.not_lt.mpr hlow), if_neg hback,
      ih hraw]
    rfl

theorem lexes_string {raw : List Byte} (h : Plain raw) :
    Lexes (quote :: raw ++ [quote]) [.str raw] := by
  intro rest rs hrest fuel hfuel
  have hassoc : quote :: raw ++ [quote] ++ rest = quote :: (raw ++ quote :: rest) := by simp
  rw [hassoc, List.length_cons, List.length_append, List.length_cons] at hfuel
  obtain ⟨fuel, rfl⟩ := Nat.exists_eq_add_of_le' (show 1 ≤ fuel by omega)
  rw [hassoc, lexLoop, if_neg (by decide), if_pos rfl, stringBody_plain h, Option.bind_some,
    hrest fuel (by omega)]
  rfl

end Lexes

/-! ### Natural numbers -/

section Natural

theorem isNumberByte_of_isDigit {c : Byte} (h : isDigit c) : isNumberByte c = true := by
  simp [isNumberByte, h]

theorem isSpace_of_isDigit {c : Byte} (h : isDigit c) : isSpace c = false := by
  by_contra hs
  simp only [Bool.not_eq_false, isSpace, Bool.or_eq_true, beq_iff_eq] at hs
  rcases hs with ((rfl | rfl) | rfl) | rfl <;> cases h

/-- The digits in front of something else. -/
theorem takeWhile_itoa {p : Byte → Bool} (hp : ∀ c, isDigit c → p c = true) (n : Nat)
    (rest : List Byte) :
    (ascii (itoa n) ++ rest).takeWhile p = ascii (itoa n) ++ rest.takeWhile p ∧
      (ascii (itoa n) ++ rest).dropWhile p = rest.dropWhile p :=
  ⟨List.takeWhile_append_of_pos fun c hc => hp c (isDigit_of_mem_ascii_itoa hc),
    List.dropWhile_append_of_pos fun c hc => hp c (isDigit_of_mem_ascii_itoa hc)⟩

/-- A decimal text has no leading zero. -/
theorem head_itoa {n : Nat} (hn : 0 < n) : (ascii (itoa n)).head? ≠ some 0x30 := by
  induction n using Nat.strong_induction_on with
  | _ n ih =>
    by_cases hlt : n < 10
    · obtain ⟨c, htext, -, hvalue⟩ := ascii_itoa_lt hlt
      rw [htext, List.head?_cons]
      rintro ⟨⟩
      exact hn.ne hvalue
    · -- the first digit is that of all digits but the last
      have hsplit :=
        ascii_itoa_append (show 0 < n / 10 by omega) (Nat.mod_lt n (show 0 < 10 by decide))
      rw [Nat.div_add_mod] at hsplit
      rw [hsplit, List.head?_append_of_ne_nil _ (ascii_itoa_ne_nil _)]
      exact ih (n / 10) (by omega) (by omega)

theorem head?_itoa_ne {c : Byte} (hc : isDigit c = false) (n : Nat) :
    (ascii (itoa n)).head? ≠ some c :=
  fun h => not_mem_ascii_itoa hc (List.mem_of_mem_head? h)

theorem number_itoa (n : Nat) : number (ascii (itoa n)) = some (.ofNat n) := by
  have hdigits : digits (ascii (itoa n)) = some (ascii (itoa n), []) := by
    obtain ⟨htake, hdrop⟩ := takeWhile_itoa (p := isDigit) (fun _ h => h) n []
    simp only [List.append_nil, List.takeWhile_nil, List.dropWhile_nil] at htake hdrop
    rw [digits, htake, hdrop, if_neg (ascii_itoa_ne_nil n)]
  have hzero : ¬ ((ascii (itoa n)).head? = some 0x30 ∧ ascii (itoa n) ≠ [0x30]) := by
    rcases Nat.eq_zero_or_pos n with rfl | hn
    · exact fun h => h.2 (by decide)
    · exact fun h => head_itoa hn h.1
  have hsign : ¬ (ascii (itoa n)).head? = some 0x2d := head?_itoa_ne rfl n
  simp [number, hsign, hdigits, hzero, fraction, exponent, decimal_ascii_itoa, Number.ofNat]

theorem lexesEnd_itoa (n : Nat) : LexesEnd (ascii (itoa n)) [.num (.ofNat n)] := by
  intro rest rs hends hrest fuel hfuel
  obtain ⟨htake, hdrop⟩ :=
    takeWhile_itoa (p := isNumberByte) (fun _ => isNumberByte_of_isDigit) n rest
  have hstop : rest.takeWhile isNumberByte = [] ∧ rest.dropWhile isNumberByte = rest := by
    cases rest with
    | nil => exact ⟨rfl, rfl⟩
    | cons c rest => simp [hends c rfl]
  rw [hstop.1, List.append_nil] at htake
  rw [hstop.2] at hdrop
  obtain ⟨c, cs, htext⟩ := List.exists_cons_of_ne_nil (ascii_itoa_ne_nil n)
  have hmem : c ∈ ascii (itoa n) := by
    rw [htext]
    exact List.mem_cons_self
  have hc : isDigit c := isDigit_of_mem_ascii_itoa hmem
  rw [htext, List.cons_append] at htake hdrop hfuel ⊢
  rw [List.length_cons, List.length_append] at hfuel
  obtain ⟨fuel, rfl⟩ := Nat.exists_eq_add_of_le' (show 1 ≤ fuel by omega)
  rw [lexLoop, if_neg (by simp [isSpace_of_isDigit hc]), if_neg (ne_of_isDigit hc rfl),
    if_pos (isNumberByte_of_isDigit hc), htake, hdrop, ← htext, number_itoa, Option.bind_some,
    hrest fuel (by omega)]
  rfl

end Natural

/-! ### Values in a list of tokens -/

/-- The tokens `ts` are the value `v`, whatever follows. -/
def Parses (ts : List Token) (v : Json) : Prop :=
  ∀ rest fuel, ts.length ≤ fuel → value fuel (ts ++ rest) = some (v, rest)

/-- The tokens `ts` are the members `ms` with the closing brace, whatever follows. -/
def ParsesMembers (ts : List Token) (ms : List (List Byte × Json)) : Prop :=
  (∃ k us, ts = .str k :: us) ∧
    ∀ rest fuel, ts.length ≤ fuel → members fuel (ts ++ rest) = some (ms, rest)

section Parses

variable {ts us : List Token} {v : Json} {ms : List (List Byte × Json)}

theorem parses_num (n : Number) : Parses [.num n] (.num n) := by
  intro rest fuel hfuel
  rw [List.length_singleton] at hfuel
  obtain ⟨fuel, rfl⟩ := Nat.exists_eq_add_of_le' hfuel
  rfl

theorem parses_empty : Parses [.leftBrace, .rightBrace] (.obj []) := by
  intro rest fuel hfuel
  obtain ⟨fuel, rfl⟩ := Nat.exists_eq_add_of_le' (show 1 ≤ fuel from Nat.le_of_succ_le hfuel)
  rfl

theorem ParsesMembers.obj (h : ParsesMembers ts ms) : Parses (.leftBrace :: ts) (.obj ms) := by
  intro rest fuel hfuel
  obtain ⟨⟨k, us, rfl⟩, hmembers⟩ := h
  rw [List.length_cons] at hfuel
  obtain ⟨fuel, rfl⟩ := Nat.exists_eq_add_of_le' (show 1 ≤ fuel by omega)
  have hms := hmembers rest fuel (by omega)
  rw [List.cons_append] at hms
  rw [List.cons_append, List.cons_append, value, hms]
  · rfl
  · intro ts h
    cases h

theorem Parses.last (h : Parses ts v) (k : List Byte) :
    ParsesMembers (.str k :: .colon :: (ts ++ [.rightBrace])) [(k, v)] := by
  refine ⟨⟨k, _, rfl⟩, fun rest fuel hfuel => ?_⟩
  simp only [List.length_cons, List.length_append, List.length_nil] at hfuel
  obtain ⟨fuel, rfl⟩ := Nat.exists_eq_add_of_le' (show 1 ≤ fuel by omega)
  rw [List.cons_append, List.cons_append, List.append_assoc, members, h _ fuel (by omega)]
  rfl

theorem Parses.cons (h : Parses ts v) (hms : ParsesMembers us ms) (k : List Byte) :
    ParsesMembers (.str k :: .colon :: (ts ++ .comma :: us)) ((k, v) :: ms) := by
  refine ⟨⟨k, _, rfl⟩, fun rest fuel hfuel => ?_⟩
  simp only [List.length_cons, List.length_append] at hfuel
  obtain ⟨fuel, rfl⟩ := Nat.exists_eq_add_of_le' (show 1 ≤ fuel by omega)
  rw [List.cons_append, List.cons_append, List.append_assoc, members, h _ fuel (by omega)]
  rw [List.cons_append]
  dsimp only
  rw [hms.2 rest fuel (by omega)]
  rfl

end Parses

/-! ### Texts of values -/

/-- `s` is a text of `v`, where no number goes on. -/
def Reads (s : List Byte) (v : Json) : Prop := ∃ ts, LexesEnd s ts ∧ Parses ts v

/-- `s` is a text of the members `ms` with the closing brace. -/
def ReadsMembers (s : List Byte) (ms : List (List Byte × Json)) : Prop :=
  ∃ ts, Lexes s ts ∧ ParsesMembers ts ms

/-- A name with its colon. -/
def key (name : List Byte) : List Byte := quote :: name ++ [quote, colon]

section Reads

variable {s s' name : List Byte} {v : Json} {ms : List (List Byte × Json)}

theorem parse_of_reads (h : Reads s v) : parse s = some v := by
  obtain ⟨ts, hlex, hparse⟩ := h
  have hvalue := hparse [] ts.length le_rfl
  rw [List.append_nil] at hvalue
  rw [parse, lex_of_lexesEnd hlex]
  dsimp only
  rw [hvalue]

theorem reads_itoa (n : Nat) : Reads (ascii (itoa n)) (.num (.ofNat n)) :=
  ⟨_, lexesEnd_itoa n, parses_num _⟩

theorem reads_empty : Reads [leftBrace, rightBrace] (.obj []) :=
  ⟨_, (lexes_leftBrace.append lexes_rightBrace).ends, parses_empty⟩

theorem ReadsMembers.obj (h : ReadsMembers s ms) : Reads (leftBrace :: s) (.obj ms) := by
  obtain ⟨ts, hlex, hparse⟩ := h
  exact ⟨_, (lexes_leftBrace.append hlex).ends, hparse.obj⟩

theorem lexes_key (h : Plain name) : Lexes (key name) [.str name, .colon] := by
  have hlex := (lexes_string h).append lexes_colon
  rw [List.append_assoc] at hlex
  exact hlex

/-- The last member of an object. -/
theorem Reads.last (h : Reads s v) (hname : Plain name) :
    ReadsMembers (key name ++ (s ++ [rightBrace])) [(name, v)] := by
  obtain ⟨ts, hlex, hparse⟩ := h
  exact ⟨_, (lexes_key hname).append (hlex.append (by decide) lexes_rightBrace), hparse.last name⟩

/-- A member before others. -/
theorem Reads.cons (h : Reads s v) (hname : Plain name) (hms : ReadsMembers s' ms) :
    ReadsMembers (key name ++ (s ++ comma :: s')) ((name, v) :: ms) := by
  obtain ⟨ts, hlex, hparse⟩ := h
  obtain ⟨us, hlex', hparse'⟩ := hms
  exact ⟨_, (lexes_key hname).append (hlex.append (by decide) (lexes_comma.append hlex')),
    hparse.cons hparse' name⟩

end Reads

/-- `text` is what stands between the braces of an object with the members `ms`. -/
def ReadsBody (text : List Byte) (ms : List (List Byte × Json)) : Prop :=
  (text = [] ∧ ms = []) ∨ (ms ≠ [] ∧ ReadsMembers (text ++ [rightBrace]) ms)

section ReadsBody

variable {s text name : List Byte} {v : Json} {ms : List (List Byte × Json)}

theorem readsBody_nil : ReadsBody [] [] := .inl ⟨rfl, rfl⟩

theorem ReadsBody.obj (h : ReadsBody text ms) :
    Reads (leftBrace :: text ++ [rightBrace]) (.obj ms) := by
  rcases h with ⟨rfl, rfl⟩ | ⟨-, h⟩
  · exact reads_empty
  · exact h.obj

/-- A member in front, with a comma exactly if there are others. -/
theorem ReadsBody.cons (h : ReadsBody text ms) (hv : Reads s v) (hname : Plain name) {p : Prop}
    [Decidable p] (hp : p ↔ ms ≠ []) :
    ReadsBody (key name ++ s ++ (if p then [comma] else []) ++ text) ((name, v) :: ms) := by
  refine .inr ⟨List.cons_ne_nil _ _, ?_⟩
  rcases h with ⟨rfl, rfl⟩ | ⟨hms, h⟩
  · rw [if_neg (hp.not.mpr (not_not_intro rfl)), List.append_nil, List.append_nil,
      List.append_assoc]
    exact hv.last hname
  · rw [if_pos (hp.mpr hms)]
    have hcons := hv.cons hname h
    simpa using hcons

end ReadsBody

end Json

end Tun2socks.Codec
