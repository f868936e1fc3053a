import Tun2socks.Codec.Json

/-!
# Tun2socks.Restapi.Netstats

Model of `encodeToJSON` of `restapi/netstats.go`.

A stats value is seen as reflection shows it: structs with named fields, counters, and
maps of counters. The encoder writes braces and commas by hand, with one loop for the
fields of a struct and one for the keys of a map; the text is compared with the value
through the rules for JSON texts (`ReadsBody`), one case per kind of value.
-/

namespace Tun2socks.Restapi

open Tun2socks.Go Tun2socks.Codec Tun2socks.Codec.Json

/-! ### Stats values -/

/-- A byte of an identifier in UTF-8: a letter, a digit, an underscore, or a byte of a
letter or digit beyond ASCII. -/
def isIdentByte (c : Byte) : Bool :=
  isDigit c || (0x41 ≤ c && c ≤ 0x5a) || (0x61 ≤ c && c ≤ 0x7a) || c == 0x5f || 0x80 ≤ c

/-- The name of a struct field. -/
structure Name where
  bytes : List Byte
  ident : ∀ c ∈ bytes, isIdentByte c

/-- A `tcpip.IntegralStatCounterMap`. It never forgets a key. -/
structure CounterMap where
  keys : List UInt64
  get : UInt64 → Option UInt64
  answers : ∀ k ∈ keys, (get k).isSome

mutual

/-- The value of a field. -/
inductive Value
  | counter (n : UInt64)
  | counterMap (m : CounterMap)
  | struct (fields : Fields)

/-- The fields of a struct. -/
inductive Fields
  | nil
  | cons (name : Name) (value : Value) (rest : Fields)

end

/-- `value.NumField()`. -/
def Fields.numField : Fields → Nat
  | nil => 0
  | cons _ _ rest => rest.numField + 1

/-! ### The encoder -/

/-- `strconv.FormatUint(n, 10)`. -/
def formatUint (n : UInt64) : List Byte := ascii (itoa n.toNat)

/-- The loop over the keys of a map, from index `j` on. -/
def encodeKeys (m : CounterMap) (j : Nat) : List UInt64 → List Byte → List Byte
  | [], b => b
  | k :: ks, b =>
    match m.get k with
    | none => encodeKeys m (j + 1) ks b
    | some counter =>
      let b := b ++ (quote :: formatUint k ++ [quote, colon] ++ formatUint counter)
      let b := if j < m.keys.length - 1 then b ++ [comma] else b
      encodeKeys m (j + 1) ks b

mutual

/-- The `switch` of the loop over the fields. -/
def encodeValue : Value → List Byte → List Byte
  | .counter n, b => b ++ formatUint n
  | .counterMap m, b => encodeKeys m 0 m.keys (b ++ [leftBrace]) ++ [rightBrace]
  | .struct fields, b =>
    encodeFields fields.numField 0 fields (b ++ [leftBrace]) ++ [rightBrace]

/-- The loop over the fields of a struct, from index `i` on. -/
def encodeFields (numField i : Nat) : Fields → List Byte → List Byte
  | .nil, b => b
  | .cons name value rest, b =>
    let b := b ++ (quote :: name.bytes ++ [quote, colon])
    let b := encodeValue value b
    let b := if i < numField - 1 then b ++ [comma] else b
    encodeFields numField (i + 1) rest b

end

/-- `encodeToJSON(value, b)`: the buffer afterwards. -/
def encodeToJSON (fields : Fields) (b : List Byte) : List Byte :=
  encodeFields fields.numField 0 fields (b ++ [leftBrace]) ++ [rightBrace]

/-! ### The values as JSON -/

/-- One entry per key. -/
def CounterMap.entries (m : CounterMap) (ks : List UInt64) : List (List Byte × Json) :=
  ks.map fun k => (formatUint k, .num (.ofNat ((m.get k).getD 0).toNat))

mutual

/-- The JSON value of a field. -/
def Value.toJson : Value → Json
  | .counter n => .num (.ofNat n.toNat)
  | .counterMap m => .obj (m.entries m.keys)
  | .struct fields => .obj fields.members

/-- The members of the object that the fields become. -/
def Fields.members : Fields → List (List Byte × Json)
  | .nil => []
  | .cons name value rest => (name.bytes, value.toJson) :: rest.members

end

/-! ### The text reads back -/

/-- Identifiers and numerals need no escapes. -/
theorem plain_of_isIdentByte {s : List Byte} (h : ∀ c ∈ s, isIdentByte c) : Plain s := by
  intro c hc
  have hident := h c hc
  refine ⟨?_, ?_, ?_⟩
  · rintro rfl
    cases hident
  · rintro rfl
    cases hident
  · simp only [isIdentByte, isDigit, Bool.or_eq_true, Bool.and_eq_true, decide_eq_true_eq,
      beq_iff_eq, UInt8.le_iff_toNat_le] at hident ⊢
    rcases hident with (((⟨h, -⟩ | ⟨h, -⟩) | ⟨h, -⟩) | rfl) | h
    · exact le_trans (by decide) h
    · exact le_trans (by decide) h
    · exact le_trans (by decide) h
    · decide
    · exact le_trans (by decide) h

theorem plain_formatUint (n : UInt64) : Plain (formatUint n) := by
  apply plain_of_isIdentByte
  intro c hc
  simp [isIdentByte, isDigit_of_mem_ascii_itoa hc]

theorem Fields.members_ne_nil {fields : Fields} : fields.members ≠ [] ↔ 0 < fields.numField := by
  cases fields <;> simp [Fields.members, Fields.numField]

/-- The keys from index `j` on. -/
theorem encodeKeys_reads (m : CounterMap) {ks : List UInt64} (hks : ∀ k ∈ ks, (m.get k).isSome)
    {j : Nat} (hj : j + ks.length = m.keys.length) (b : List Byte) :
    ∃ text, encodeKeys m j ks b = b ++ text ∧ ReadsBody text (m.entries ks) := by
  induction ks generalizing j b with
  | nil => exact ⟨[], (List.append_nil b).symm, readsBody_nil⟩
  | cons k ks ih =>
    obtain ⟨hk, hks⟩ := List.forall_mem_cons.mp hks
    obtain ⟨counter, hcounter⟩ := Option.isSome_iff_exists.mp hk
    rw [List.length_cons] at hj
    rw [encodeKeys, hcounter]
    dsimp only
    obtain ⟨text, htext, hreads⟩ := ih hks (show j + 1 + ks.length = m.keys.length by omega) _
    rw [htext]
    have hmore : j < m.keys.length - 1 ↔ m.entries ks ≠ [] := by
      rw [CounterMap.entries, ne_eq, List.map_eq_nil_iff, ← List.length_eq_zero_iff]
      omega
    have hbody := hreads.cons (reads_itoa counter.toNat) (plain_formatUint k) hmore
    refine ⟨_, ?_, by simpa [CounterMap.entries, hcounter] using hbody⟩
    split <;> simp [key, formatUint]

mutual

theorem encodeValue_reads : ∀ (v : Value) (b : List Byte),
    ∃ text, encodeValue v b = b ++ text ∧ Reads text v.toJson
  | .counter n, b => ⟨formatUint n, rfl, reads_itoa _⟩
  | .counterMap m, b => by
    obtain ⟨text, htext, hreads⟩ := encodeKeys_reads m m.answers (Nat.zero_add _) (b ++ [leftBrace])
    refine ⟨leftBrace :: text ++ [rightBrace], ?_, hreads.obj⟩
    rw [encodeValue, htext]
    simp
  | .struct fields, b => by
    obtain ⟨text, htext, hreads⟩ :=
      encodeFields_reads fields fields.numField 0 (Nat.zero_add _) (b ++ [leftBrace])
    refine ⟨leftBrace :: text ++ [rightBrace], ?_, hreads.obj⟩
    rw [encodeValue, htext]
    simp

theorem encodeFields_reads : ∀ (fields : Fields) (numField i : Nat),
    i + fields.numField = numField → ∀ b,
      ∃ text, encodeFields numField i fields b = b ++ text ∧ ReadsBody text fields.members
  | .nil, _, _, _, b => ⟨[], (List.append_nil b).symm, readsBody_nil⟩
  | .cons name value rest, numField, i, hi, b => by
    rw [Fields.numField] at hi
    obtain ⟨valueText, hvalue, hreadsValue⟩ :=
      encodeValue_reads value (b ++ (quote :: name.bytes ++ [quote, colon]))
    rw [encodeFields, hvalue]
    obtain ⟨text, htext, hreads⟩ := encodeFields_reads rest numField (i + 1) (by omega) _
    rw [htext]
    have hmore : i < numField - 1 ↔ rest.members ≠ [] := by
      rw [Fields.members_ne_nil]
      omega
    have hbody := hreads.cons hreadsValue (plain_of_isIdentByte name.ident) hmore
    refine ⟨_, ?_, hbody⟩
    split <;> simp [key]

end

/-- **The encoder's text is JSON and reads back.** For every struct of stats, nested in any
way, with any number of fields, and every buffer: what is appended to the buffer is the
text of one JSON object, whose members are the fields in order, counters as numbers,
structs as objects, and maps as objects with one member per key. -/
theorem encodeToJSON_reads (fields : Fields) (b : List Byte) :
    ∃ text, encodeToJSON fields b = b ++ text ∧ Json.parse text = some (.obj fields.members) := by
  obtain ⟨text, htext, hreads⟩ := encodeValue_reads (.struct fields) b
  exact ⟨text, htext, parse_of_reads hreads⟩

end Tun2socks.Restapi
