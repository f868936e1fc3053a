import Tun2socks.Go.HostPort

/-!
# Tun2socks.Go.Netip

IP literals, and the texts of addresses with a zone.

`parseAddr` follows `netip.ParseAddr`: the first dot, colon or percent sign of a
literal tells its kind, and dotted quads are read octet by octet. The reader of IPv6
literals is a parameter with the properties it has (`IPv6Literals`). The lemmas say
what is read of the texts that package `net` prints, and that a zone behind an IPv4
address makes them no literals at all.
-/

namespace Tun2socks.Go

/-! ### IP literals -/

open HostPort

/-- The loop of `parseIPv4Fields` of package `netip`: the octets read, and the value
and the number of digits of the octet being read. -/
def parseIPv4Fields (fields : List Byte) (val digLen : Nat) : List Byte → Option (List Byte)
  | [] => if fields.length < 3 then none else some (fields ++ [UInt8.ofNat val])
  | c :: cs =>
    if isDigit c then
      -- an octet with a leading zero, or above 255
      if digLen = 1 ∧ val = 0 then none
      else if 255 < val * 10 + digit c then none
      else parseIPv4Fields fields (val * 10 + digit c) (digLen + 1) cs
    else if c = dot then
      -- an octet without digits, or a fifth one
      if digLen = 0 ∨ cs = [] then none
      else if fields.length = 3 then none
      else parseIPv4Fields (fields ++ [UInt8.ofNat val]) 0 0 cs
    else none

/-- `net.ParseIP` for a text with a dot before any colon. -/
def parseIPv4 (s : List Byte) : IP :=
  match parseIPv4Fields [] 0 0 s with
  | none => .none
  | some fields => .ofSlice fields

section IPv4

variable {fields rest : List Byte}

/-- An octet in decimal is read. -/
theorem parseIPv4Fields_itoa (fields : List Byte) {n : Nat} (hn : n ≤ 255) :
    ∃ len, 0 < len ∧ ∀ rest, parseIPv4Fields fields 0 0 (ascii (itoa n) ++ rest) =
      parseIPv4Fields fields n len rest := by
  induction n using Nat.strong_induction_on with
  | _ n ih =>
    by_cases hlt : n < 10
    · obtain ⟨c, htext, hc, hvalue⟩ := ascii_itoa_lt hlt
      refine ⟨1, Nat.one_pos, fun rest => ?_⟩
      rw [htext, List.singleton_append, parseIPv4Fields, if_pos hc, if_neg (by decide),
        Nat.zero_mul, Nat.zero_add, hvalue, if_neg (by omega)]
    · -- the last digit is read behind the others
      obtain ⟨len, hlen, hloop⟩ := ih (n / 10) (by omega) (by omega)
      obtain ⟨c, htext, hc, hvalue⟩ := ascii_itoa_lt (Nat.mod_lt n (by decide : 0 < 10))
      have hsplit : ascii (itoa n) = ascii (itoa (n / 10)) ++ [c] := by
        conv_lhs => rw [← Nat.div_add_mod n 10]
        rw [ascii_itoa_append (by omega) (Nat.mod_lt n (by decide)), htext]
      refine ⟨len + 1, Nat.succ_pos len, fun rest => ?_⟩
      have hn10 : n / 10 * 10 + digit c = n := by omega
      rw [hsplit, List.append_assoc, hloop, List.singleton_append, parseIPv4Fields, if_pos hc,
        if_neg (by omega), hn10, if_neg (by omega)]

/-- And the dot behind it, if there is more. -/
theorem parseIPv4Fields_itoa_dot (x : Byte) (hfields : fields.length < 3) (hrest : rest ≠ []) :
    parseIPv4Fields fields 0 0 (ascii (itoa x.toNat) ++ dot :: rest) =
      parseIPv4Fields (fields ++ [x]) 0 0 rest := by
  obtain ⟨len, hlen, hloop⟩ := parseIPv4Fields_itoa fields (Nat.le_of_lt_succ x.toNat_lt)
  rw [hloop, parseIPv4Fields, if_neg (by decide), if_pos rfl, if_neg, if_neg (by omega),
    UInt8.ofNat_toNat]
  exact not_or.mpr ⟨by omega, hrest⟩

theorem ascii_quad (b₀ b₁ b₂ b₃ : Byte) (h : [b₀, b₁, b₂, b₃].length = 4) :
    ascii (quad ⟨[b₀, b₁, b₂, b₃], h⟩) = ascii (itoa b₀.toNat) ++ dot :: (ascii (itoa b₁.toNat) ++
      dot :: (ascii (itoa b₂.toNat) ++ dot :: ascii (itoa b₃.toNat))) := by
  simp [quad, ascii, dot]

theorem mem_ascii_quad {x : Byte} {b : List.Vector Byte 4} (h : x ∈ ascii (quad b)) :
    isDigit x ∨ x = dot := by
  revert h
  match b with
  | ⟨[b₀, b₁, b₂, b₃], hlen⟩ =>
    intro h
    rw [ascii_quad] at h
    simp only [List.mem_append, List.mem_cons] at h
    rcases h with h | rfl | h | rfl | h | rfl | h
    · exact .inl (isDigit_of_mem_ascii_itoa h)
    · exact .inr rfl
    · exact .inl (isDigit_of_mem_ascii_itoa h)
    · exact .inr rfl
    · exact .inl (isDigit_of_mem_ascii_itoa h)
    · exact .inr rfl
    · exact .inl (isDigit_of_mem_ascii_itoa h)

theorem not_mem_ascii_quad {x : Byte} (hdigit : isDigit x = false) (hdot : x ≠ dot)
    (b : List.Vector Byte 4) : x ∉ ascii (quad b) := by
  intro h
  rcases mem_ascii_quad h with hd | hd
  · rw [hd] at hdigit
    cases hdigit
  · exact hdot hd

theorem ascii_quad_ne_nil (b : List.Vector Byte 4) : ascii (quad b) ≠ [] := by
  match b with
  | ⟨[b₀, b₁, b₂, b₃], hlen⟩ => simp [ascii_quad]

theorem parseIPv4_quad (b : List.Vector Byte 4) : parseIPv4 (ascii (quad b)) = .v4 b := by
  match b with
  | ⟨[b₀, b₁, b₂, b₃], hlen⟩ =>
    obtain ⟨len, -, hlast⟩ :=
      parseIPv4Fields_itoa [b₀, b₁, b₂] (Nat.le_of_lt_succ b₃.toNat_lt)
    have hend := hlast []
    rw [List.append_nil] at hend
    have hfields : parseIPv4Fields [] 0 0 (ascii (quad ⟨[b₀, b₁, b₂, b₃], hlen⟩)) =
        some [b₀, b₁, b₂, b₃] := by
      rw [ascii_quad, parseIPv4Fields_itoa_dot b₀ (by simp) (by simp),
        parseIPv4Fields_itoa_dot b₁ (by simp) (by simp),
        parseIPv4Fields_itoa_dot b₂ (by simp) (ascii_itoa_ne_nil _)]
      change parseIPv4Fields [b₀, b₁, b₂] 0 0 (ascii (itoa b₃.toNat)) = _
      rw [hend, parseIPv4Fields, if_neg (by simp), UInt8.ofNat_toNat]
      rfl
    rw [parseIPv4, hfields]
    rfl

/-- Only digits and dots are read. -/
theorem parseIPv4Fields_eq_none {s : List Byte} {c : Byte} {val digLen : Nat} (hc : c ∈ s)
    (hdigit : isDigit c = false) (hdot : c ≠ dot) : parseIPv4Fields fields val digLen s = none := by
  induction s generalizing fields val digLen with
  | nil => cases hc
  | cons x xs ih =>
    rw [parseIPv4Fields]
    rcases List.mem_cons.mp hc with rfl | hmem
    · rw [if_neg (by simp [hdigit]), if_neg hdot]
    · simp only [ih hmem, ite_self]

end IPv4

/-- What is used of the IPv6 literals of package `netip`, with or without zone, next to
the canonical texts: they are read back, and the texts hold none of the bytes that
separate the parts of an endpoint, except the colon. -/
structure IPv6Literals (T : IPv6Text) where
  parse : List Byte → Option (List.Vector Byte 16)
  plain : ∀ {a x}, x ∈ ascii (T.text a) →
    x ≠ dot ∧ x ≠ percent ∧ x ≠ leftBracket ∧ x ≠ rightBracket
  parse_text : ∀ {a}, ¬ IP.Mapped a → parse (ascii (T.text a)) = some a
  parse_zone : ∀ {a zone}, ¬ IP.Mapped a → zone ≠ [] →
    parse (ascii (T.text a) ++ percent :: zone) = some a

/-- `netip.ParseAddr`, with no address for an error. The zone is dropped. -/
def parseAddr {T : IPv6Text} (P : IPv6Literals T) (s : List Byte) : IP :=
  match s.find? fun c => c = dot ∨ c = colon ∨ c = percent with
  | none => .none
  | some c =>
    if c = dot then parseIPv4 s
    else if c = colon then
      match P.parse s with
      | none => .none
      | some b => .v6 b
    else .none

section ParseAddr

variable {T : IPv6Text} {P : IPv6Literals T}

/-- The first byte that tells the kind of a literal. -/
theorem find_kind {a b : List Byte} {c : Byte}
    (ha : ∀ x ∈ a, ¬ (x = dot ∨ x = colon ∨ x = percent)) (hc : c = dot ∨ c = colon ∨ c = percent) :
    (a ++ c :: b).find? (fun c => c = dot ∨ c = colon ∨ c = percent) = some c := by
  rw [List.find?_append, List.find?_eq_none.mpr (by simpa using ha), Option.none_or,
    List.find?_cons_of_pos (by simpa using hc)]

theorem ascii_itoa_kind (n : Nat) :
    ∀ x ∈ ascii (itoa n), ¬ (x = dot ∨ x = colon ∨ x = percent) := by
  rintro x hx (rfl | rfl | rfl)
  · exact not_mem_ascii_itoa rfl hx
  · exact not_mem_ascii_itoa rfl hx
  · exact not_mem_ascii_itoa rfl hx

/-- What begins with a dotted quad is read as an IPv4 literal. -/
theorem parseAddr_quad_append (b : List.Vector Byte 4) (rest : List Byte) :
    parseAddr P (ascii (quad b) ++ rest) = parseIPv4 (ascii (quad b) ++ rest) := by
  match b with
  | ⟨[b₀, b₁, b₂, b₃], hlen⟩ =>
    rw [ascii_quad, List.append_assoc, List.cons_append, parseAddr,
      find_kind (ascii_itoa_kind _) (.inl rfl)]
    exact if_pos rfl

theorem parseAddr_quad (b : List.Vector Byte 4) : parseAddr P (ascii (quad b)) = .v4 b := by
  have h := parseAddr_quad_append (P := P) b []
  rw [List.append_nil] at h
  rw [h, parseIPv4_quad]

/-- An IPv4 literal has no zone. -/
theorem parseAddr_quad_zone (b : List.Vector Byte 4) (zone : List Byte) :
    parseAddr P (ascii (quad b) ++ percent :: zone) = .none := by
  rw [parseAddr_quad_append, parseIPv4,
    parseIPv4Fields_eq_none (c := percent) (by simp) (by decide) (by decide)]

theorem parseAddr_zone (zone : List Byte) : parseAddr P (percent :: zone) = .none := by
  have hfind := find_kind (a := []) (b := zone) (c := percent) (by simp) (.inr (.inr rfl))
  rw [List.nil_append] at hfind
  rw [parseAddr, hfind]
  rfl

theorem colon_mem_text (a : List.Vector Byte 16) : colon ∈ ascii (T.text a) :=
  List.mem_map.mpr ⟨':', T.colon a, rfl⟩

/-- What begins with an IPv6 text is read as an IPv6 literal. -/
theorem parseAddr_text_append (a : List.Vector Byte 16) (rest : List Byte) :
    parseAddr P (ascii (T.text a) ++ rest) =
      (P.parse (ascii (T.text a) ++ rest)).elim .none .v6 := by
  obtain ⟨x, y, hxy, hx⟩ := exists_first (colon_mem_text (T := T) a)
  have hplain : ∀ z ∈ x, ¬ (z = dot ∨ z = colon ∨ z = percent) := by
    intro z hz hkind
    obtain ⟨hdot, hpercent, -⟩ := P.plain (a := a) (x := z) (by simp [hxy, hz])
    rcases hkind with rfl | rfl | rfl
    · exact hdot rfl
    · exact hx hz
    · exact hpercent rfl
  have hfind : (ascii (T.text a) ++ rest).find? (fun c => c = dot ∨ c = colon ∨ c = percent) =
      some colon := by
    rw [hxy, List.append_assoc, List.cons_append]
    exact find_kind hplain (.inr (.inl rfl))
  rw [parseAddr, hfind]
  dsimp only
  rw [if_neg (by decide), if_pos rfl]
  cases P.parse (ascii (T.text a) ++ rest) <;> rfl

theorem parseAddr_text {a : List.Vector Byte 16} (ha : ¬ IP.Mapped a) :
    parseAddr P (ascii (T.text a)) = .v6 a := by
  have h := parseAddr_text_append (P := P) a []
  rw [List.append_nil, P.parse_text ha] at h
  exact h

theorem parseAddr_text_zone {a : List.Vector Byte 16} {zone : List Byte} (ha : ¬ IP.Mapped a)
    (hzone : zone ≠ []) : parseAddr P (ascii (T.text a) ++ percent :: zone) = .v6 a := by
  rw [parseAddr_text_append, P.parse_zone ha hzone]
  rfl

end ParseAddr

/-! ### Addresses with a zone -/

/-- A `net.UDPAddr` or `net.TCPAddr`. -/
structure NetAddr where
  ip : IP
  port : UInt16
  zone : List Byte
  deriving DecidableEq

namespace NetAddr

/-- The host in its text. -/
def host (T : IPv6Text) (a : NetAddr) : List Byte :=
  if a.zone ≠ [] then ascii (a.ip.string T) ++ percent :: a.zone else ascii (a.ip.string T)

/-- `UDPAddr.String` and `TCPAddr.String`. -/
def string (T : IPv6Text) (a : NetAddr) : List Byte := join (a.host T) (ascii (itoa a.port.toNat))

end NetAddr

/-! ### A computable instance -/

/-- Numbers that are each followed by a colon. -/
def decimalFields (n : Nat) : List Byte → List Byte
  | [] => []
  | c :: cs =>
    if c = colon then UInt8.ofNat n :: decimalFields 0 cs else decimalFields (n * 10 + digit c) cs

theorem decimalFields_append {ds : List Byte} (h : colon ∉ ds) (n : Nat) (rest : List Byte) :
    decimalFields n (ds ++ colon :: rest) = UInt8.ofNat (decimal n ds) :: decimalFields 0 rest := by
  induction ds generalizing n with
  | nil => rw [List.nil_append, decimalFields, if_pos rfl]; rfl
  | cons d ds ih =>
    rw [List.mem_cons, not_or] at h
    rw [List.cons_append, decimalFields, if_neg fun hd => h.1 hd.symm, ih h.2]
    rfl

theorem ascii_decimalText (x : Byte) (xs : List Byte) :
    ascii (decimalText (x :: xs)) = ascii (itoa x.toNat) ++ colon :: ascii (decimalText xs) := by
  simp [decimalText, ascii, colon]

theorem decimalFields_text (xs : List Byte) : decimalFields 0 (ascii (decimalText xs)) = xs := by
  induction xs with
  | nil => rfl
  | cons x xs ih =>
    rw [ascii_decimalText, decimalFields_append (not_mem_ascii_itoa rfl), ih, decimal_ascii_itoa,
      UInt8.ofNat_toNat]

theorem mem_ascii_decimalText {x : Byte} {xs : List Byte} (h : x ∈ ascii (decimalText xs)) :
    isDigit x ∨ x = colon := by
  induction xs with
  | nil => cases h
  | cons y ys ih =>
    rw [ascii_decimalText, List.mem_append, List.mem_cons] at h
    rcases h with h | rfl | h
    · exact .inl (isDigit_of_mem_ascii_itoa h)
    · exact .inr rfl
    · exact ih h

theorem plain_decimalText {x : Byte} {xs : List Byte} (h : x ∈ ascii (decimalText xs)) :
    x ≠ dot ∧ x ≠ percent ∧ x ≠ leftBracket ∧ x ≠ rightBracket := by
  rcases mem_ascii_decimalText h with hd | rfl
  · exact ⟨ne_of_isDigit hd rfl, ne_of_isDigit hd rfl, ne_of_isDigit hd rfl, ne_of_isDigit hd rfl⟩
  · decide

/-- Reads what `decimalText` writes. -/
def decimalParse (s : List Byte) : Option (List.Vector Byte 16) :=
  let fields := decimalFields 0 (s.takeWhile (· ≠ percent))
  if h : fields.length = 16 then some ⟨fields, h⟩ else none

theorem decimalParse_of_takeWhile {s : List Byte} (a : List.Vector Byte 16)
    (h : s.takeWhile (· ≠ percent) = ascii (decimalText a.1)) : decimalParse s = some a := by
  have hfields : decimalFields 0 (s.takeWhile (· ≠ percent)) = a.1 := by
    rw [h, decimalFields_text]
  simp only [decimalParse, hfields]
  rw [dif_pos a.2]
  rfl

theorem takeWhile_decimalText (xs rest : List Byte) :
    (ascii (decimalText xs) ++ rest).takeWhile (· ≠ percent) =
      ascii (decimalText xs) ++ rest.takeWhile (· ≠ percent) :=
  List.takeWhile_append_of_pos fun x hx => by simpa using (plain_decimalText hx).2.1

theorem decimalParse_text (a : List.Vector Byte 16) :
    decimalParse (ascii (decimalText a.1)) = some a :=
  decimalParse_of_takeWhile a (by simpa using takeWhile_decimalText a.1 [])

theorem decimalParse_zone (a : List.Vector Byte 16) (zone : List Byte) :
    decimalParse (ascii (decimalText a.1) ++ percent :: zone) = some a :=
  decimalParse_of_takeWhile a (by simpa using takeWhile_decimalText a.1 (percent :: zone))

/-- The properties can be met, by a reader that can be computed. -/
def IPv6Literals.decimal : IPv6Literals .decimal where
  parse := decimalParse
  plain := plain_decimalText
  parse_text _ := decimalParse_text _
  parse_zone _ _ := decimalParse_zone _ _

end Tun2socks.Go
