import Tun2socks.SimpleObfs.Tls

/-!
# Tun2socks.SimpleObfs.TlsRead

Reassembling the server's records.

`At` is the position of a reading `TLSObfs` in the server's stream: the records it has
begun, what it has not yet returned of the last of them, and the records ahead. One
`Read` moves the position by the bytes it returns, whatever the size of its buffer and
however the transport cuts the stream (`At.read`); so does a run of them (`At.reads`).
-/

namespace Tun2socks.SimpleObfs

open Tun2socks.Go

/-- A record of the server: some bytes to skip, a 16-bit length, and the payload. -/
structure ServerRecord where
  header : List Byte
  payload : List Byte
  fits : payload.length < 65536

/-- The bytes of a record: its header, its length and its payload. -/
def ServerRecord.bytes (r : ServerRecord) : List Byte :=
  r.header ++ (putUint16 r.payload.length ++ r.payload)

/-- What the server sends: 105 bytes to skip before the first length, 3 before the
others. -/
structure ServerStream where
  first : ServerRecord
  later : List ServerRecord
  first_header : first.header.length = 105
  later_header : ∀ r ∈ later, r.header.length = 3

namespace ServerStream

/-- All records, in order. -/
def records (s : ServerStream) : List ServerRecord := s.first :: s.later

/-- What the server sends. -/
def bytes (s : ServerStream) : List Byte := s.records.flatMap ServerRecord.bytes

/-- What the caller is to get of it. -/
def payloads (s : ServerStream) : List Byte := s.records.flatMap ServerRecord.payload

end ServerStream

/-- What is still to be read: the unread payload and the records ahead, each counted
once more than its bytes. -/
def owed (unread : List Byte) (ahead : List ServerRecord) : Nat :=
  unread.length + (ahead.map fun r => r.payload.length + 1).sum

/-- The position in the stream `s` after `got` has been returned: the records `past`
have been begun, `unread` is what is left of the last of them, `ahead` comes next. -/
structure At (s : ServerStream) (got : List Byte) (past : List ServerRecord) (unread : List Byte)
    (ahead : List ServerRecord) (o : TLSObfs) : Prop where
  split : s.records = past ++ ahead
  got : got ++ unread = past.flatMap ServerRecord.payload
  current : ∀ r ∈ past.getLast?, unread <:+ r.payload
  remain : o.remain = unread.length
  src : Fragments (unread ++ ahead.flatMap ServerRecord.bytes) o.conn.src
  first : o.firstResponse = true ↔ past = []

/-! ### One record -/

section Record

variable {o : TLSObfs} {rest : List Byte}

/-- The end of the stream, where a record could begin. -/
theorem read_eof (h : Fragments [] o.conn.src) (k : Nat) {n : Nat} (hn : 0 < n) :
    o.read k n = (([], some .eof), o.leaving []) := by
  rw [TLSObfs.read, h.readFull_short hn]
  rfl

/-- A record begun with nothing left of the one before: some of its payload is returned,
and `remain` is the rest. -/
theorem read_record (hremain : o.remain = 0) (r : ServerRecord)
    (h : Fragments (r.bytes ++ rest) o.conn.src) (k : Nat) :
    ∃ d u src, o.read k r.header.length = ((d, none), { o.leaving src with remain := u.length }) ∧
      r.payload = d ++ u ∧ Fragments (u ++ rest) src := by
  have hbytes : r.bytes ++ rest =
      r.header ++ (putUint16 r.payload.length ++ (r.payload ++ rest)) := by
    rw [ServerRecord.bytes, List.append_assoc, List.append_assoc]
  rw [hbytes] at h
  obtain ⟨src₁, hskip, h₁⟩ := h.readFull_append
  obtain ⟨src₂, hsize, h₂⟩ := h₁.readFull_append
  rw [putUint16_length] at hsize
  have hlength : uint16 ((putUint16 r.payload.length).getD 0 0)
      ((putUint16 r.payload.length).getD 1 0) = r.payload.length := uint16_putUint16 r.fits
  by_cases hk : k < r.payload.length
  · -- the record does not fit: one read, of which no error can come
    obtain ⟨n, e, src₃, hread, hnk, -, h₃, he⟩ := h₂.read k
    have hn : n ≤ r.payload.length := by omega
    rw [List.take_append_of_le_length hn] at hread
    rw [List.drop_append_of_le_length hn] at h₃
    obtain rfl : e = none := by
      refine he.resolve_right fun ⟨_, hend⟩ => ?_
      rw [List.length_append] at hend
      omega
    refine ⟨r.payload.take n, r.payload.drop n, src₃, ?_, (List.take_append_drop n _).symm, h₃⟩
    simp only [TLSObfs.read, hskip, hsize, hlength, hk, if_true, hread, List.length_take,
      List.length_drop, Nat.min_eq_left hn]
  · obtain ⟨src₃, hread, h₃⟩ := h₂.readFull_append
    have hsame : { o.leaving src₃ with remain := 0 } = o.leaving src₃ := by
      rw [← hremain]
      rfl
    refine ⟨r.payload, [], src₃, ?_, (List.append_nil _).symm, h₃⟩
    rw [List.length_nil, hsame]
    simp only [TLSObfs.read, hskip, hsize, hlength, hk, if_false, hread]

end Record

/-! ### One read -/

/-- With nothing left of a record, `Read` begins the next. -/
theorem Read_of_remain_zero {o : TLSObfs} (h : o.remain = 0) (k : Nat) :
    o.Read k = { o with firstResponse := false }.read k (if o.firstResponse then 105 else 3) := by
  obtain ⟨conn, server, remain, firstRequest, firstResponse⟩ := o
  obtain rfl : remain = 0 := h
  cases firstResponse <;> rfl

section Step

variable {s : ServerStream} {got unread : List Byte} {past ahead : List ServerRecord} {o : TLSObfs}

/-- The next record has the header that `Read` is going to skip. -/
theorem At.header_length {r : ServerRecord} (h : At s got past unread (r :: ahead) o) :
    r.header.length = if o.firstResponse then 105 else 3 := by
  have hsplit := h.split
  cases past with
  | nil =>
    rw [if_pos (h.first.mpr rfl)]
    obtain ⟨rfl, -⟩ := List.cons.inj hsplit
    exact s.first_header
  | cons p past =>
    rw [if_neg (fun hf => List.cons_ne_nil _ _ (h.first.mp hf))]
    obtain ⟨-, hlater⟩ := List.cons.inj hsplit
    exact s.later_header r (by rw [hlater]; simp)

theorem At.new (s : ServerStream) (server : List Byte) (wire : Wire) {pieces : List Piece}
    (h : Fragments s.bytes pieces) : At s [] [] [] s.records (.new ⟨pieces, wire⟩ server) :=
  ⟨rfl, rfl, by simp, rfl, h, by simp [TLSObfs.new]⟩

/-- Reading on in the current record. -/
theorem At.read_unread (h : At s got past unread ahead o) (hne : unread ≠ []) (k : Nat) :
    ∃ n o', o.Read k = ((unread.take n, none), o') ∧ n = min k unread.length ∧
      At s (got ++ unread.take n) past (unread.drop n) ahead o' := by
  have hpos : 0 < o.remain := by
    rw [h.remain]
    exact List.length_pos_of_ne_nil hne
  set n := min k unread.length with hn
  have hlength : (if k < o.remain then k else o.remain) = n := by
    rw [h.remain, hn]
    split <;> omega
  have hle : n ≤ unread.length := Nat.min_le_right ..
  obtain ⟨src, hread, hsrc⟩ := h.src.readFull_ok (k := n) (by rw [List.length_append]; omega)
  rw [List.take_append_of_le_length hle] at hread
  rw [List.drop_append_of_le_length hle] at hsrc
  refine ⟨n, { o.leaving src with remain := o.remain - n }, ?_, rfl, h.split, ?_, ?_, ?_, hsrc,
    h.first⟩
  · simp only [TLSObfs.Read, hpos, if_true, hlength, hread, List.length_take, Nat.min_eq_left hle]
  · rw [List.append_assoc, List.take_append_drop, h.got]
  · intro r hr
    exact (List.drop_suffix n unread).trans (h.current r hr)
  · rw [List.length_drop, ← h.remain]

/-- Beginning the next record. -/
theorem At.read_next {r : ServerRecord} (h : At s got past [] (r :: ahead) o) (k : Nat) :
    ∃ d u o', o.Read k = ((d, none), o') ∧ r.payload = d ++ u ∧
      At s (got ++ d) (past ++ [r]) u ahead o' := by
  have hsrc : Fragments (r.bytes ++ ahead.flatMap ServerRecord.bytes) o.conn.src := h.src
  obtain ⟨d, u, src, hread, hpayload, hfr⟩ :=
    read_record (o := { o with firstResponse := false }) h.remain r hsrc k
  refine ⟨d, u, { TLSObfs.leaving { o with firstResponse := false } src with remain := u.length },
    ?_, hpayload, ?_, ?_, ?_, rfl, hfr, ?_⟩
  · rw [Read_of_remain_zero h.remain, ← h.header_length]
    exact hread
  · rw [h.split, List.append_assoc]
    rfl
  · have hgot := h.got
    rw [List.append_nil] at hgot
    rw [hgot, List.flatMap_append, List.append_assoc, ← hpayload]
    simp
  · intro x hx
    obtain rfl : r = x := by simpa using hx
    rw [hpayload]
    exact List.suffix_append d u
  · simp [TLSObfs.leaving]

/-- At the end of the stream. -/
theorem At.read_end (h : At s got past [] [] o) (k : Nat) :
    ∃ o', o.Read k = (([], some .eof), o') ∧ At s got past [] [] o' := by
  have hsrc : Fragments [] o.conn.src := h.src
  have hfirst : ¬ o.firstResponse = true := by
    intro hf
    have hsplit := h.split
    rw [h.first.mp hf] at hsplit
    cases hsplit
  refine ⟨TLSObfs.leaving { o with firstResponse := false } [], ?_, h.split, h.got, h.current,
    h.remain, .nil, ?_⟩
  · rw [Read_of_remain_zero h.remain, if_neg hfirst]
    exact read_eof (o := { o with firstResponse := false }) hsrc k (by decide)
  · exact iff_of_false Bool.false_ne_true fun hpast => hfirst (h.first.mpr hpast)

/-- **One `Read`** moves the position by what it returns. With room for a byte it takes
something off what is owed, and it reports an error, `io.EOF`, only if nothing is. -/
theorem At.read (h : At s got past unread ahead o) (k : Nat) :
    ∃ d e past' unread' ahead' o', o.Read k = ((d, e), o') ∧
      At s (got ++ d) past' unread' ahead' o' ∧
      owed unread' ahead' ≤ owed unread ahead - (if 0 < k then 1 else 0) ∧
      (e = none ∨ e = some .eof ∧ owed unread ahead = 0) := by
  by_cases hne : unread = []
  · subst hne
    cases ahead with
    | nil =>
      obtain ⟨o', hread, h'⟩ := h.read_end k
      refine ⟨[], _, _, _, _, o', hread, by rwa [List.append_nil], Nat.zero_le _, .inr ⟨rfl, rfl⟩⟩
    | cons r ahead =>
      obtain ⟨d, u, o', hread, hpayload, h'⟩ := h.read_next k
      refine ⟨d, none, _, u, ahead, o', hread, h', ?_, .inl rfl⟩
      have hlen := congrArg List.length hpayload
      rw [List.length_append] at hlen
      simp only [owed, List.map_cons, List.sum_cons, List.length_nil]
      split <;> omega
  · obtain ⟨n, o', hread, hn, h'⟩ := h.read_unread hne k
    refine ⟨_, none, past, _, ahead, o', hread, h', ?_, .inl rfl⟩
    have hpos := List.length_pos_of_ne_nil hne
    simp only [owed, List.length_drop]
    split <;> omega

/-- Everything has been returned when nothing is owed. -/
theorem At.got_all (h : At s got past unread ahead o) (howed : owed unread ahead = 0) :
    got = s.payloads := by
  obtain ⟨hunread, hahead⟩ := Nat.add_eq_zero_iff.mp howed
  obtain rfl := List.eq_nil_of_length_eq_zero hunread
  cases ahead with
  | nil =>
    have hgot := h.got
    rw [List.append_nil] at hgot
    rw [hgot, ServerStream.payloads, h.split, List.append_nil]
  | cons r ahead =>
    rw [List.map_cons, List.sum_cons] at hahead
    omega

end Step

/-! ### Runs -/

/-- A run of `Read` calls with buffers of the given sizes: what each returns, and the
connection afterwards. -/
def TLSObfs.reads (o : TLSObfs) : List Nat → List (List Byte × Option Error) × TLSObfs
  | [] => ([], o)
  | k :: ks =>
    let r := o.Read k
    let t := r.2.reads ks
    (r.1 :: t.1, t.2)

theorem At.reads {s : ServerStream} {got unread : List Byte} {past ahead : List ServerRecord}
    {o : TLSObfs} (h : At s got past unread ahead o) (ks : List Nat) :
    ∃ past' unread' ahead',
      At s (got ++ (o.reads ks).1.flatMap Prod.fst) past' unread' ahead' (o.reads ks).2 ∧
      owed unread' ahead' ≤ owed unread ahead - ks.countP (0 < ·) ∧
      ∀ x ∈ (o.reads ks).1, x.2 = none ∨ x.2 = some .eof ∧ owed unread' ahead' = 0 := by
  induction ks generalizing got past unread ahead o with
  | nil =>
    refine ⟨past, unread, ahead, ?_, ?_, ?_⟩
    · simpa [TLSObfs.reads] using h
    · simp
    · simp [TLSObfs.reads]
  | cons k ks ih =>
    obtain ⟨d, e, past₁, unread₁, ahead₁, o₁, hread, h₁, howed₁, he⟩ := h.read k
    obtain ⟨past', unread', ahead', h', howed', herr⟩ := ih h₁
    refine ⟨past', unread', ahead', ?_, ?_, ?_⟩
    · rw [List.append_assoc] at h'
      simpa only [TLSObfs.reads, hread, List.flatMap_cons] using h'
    · simp only [List.countP_cons, decide_eq_true_eq]
      omega
    · intro x hx
      rw [TLSObfs.reads, hread] at hx
      rcases List.mem_cons.mp hx with rfl | hx
      · exact he.imp_right fun ⟨he, hzero⟩ => ⟨he, by omega⟩
      · exact herr x hx

theorem owed_records (s : ServerStream) :
    owed [] s.records = s.payloads.length + s.records.length := by
  rw [owed, ServerStream.payloads]
  induction s.records with
  | nil => rfl
  | cons r rs ih =>
    simp only [List.map_cons, List.sum_cons, List.flatMap_cons, List.length_append,
      List.length_cons, List.length_nil] at ih ⊢
    omega

/-- **Reads reassemble the records.** After any reads, what has been returned is what the
records begun so far carry, up to the unread bytes of the last, and `remain` counts
these. An error is `io.EOF` and comes when all the payload has been returned; enough
reads with room for a byte return it. -/
theorem reads_reassemble (s : ServerStream) (server : List Byte) (wire : Wire)
    {pieces : List Piece} (hfr : Fragments s.bytes pieces) (ks : List Nat) :
    let r := (TLSObfs.new ⟨pieces, wire⟩ server).reads ks
    let got := r.1.flatMap Prod.fst
    (∃ past unread ahead, At s got past unread ahead r.2) ∧
    got <+: s.payloads ∧
    (∀ x ∈ r.1, x.2 = none ∨ x.2 = some .eof ∧ got = s.payloads) ∧
    (s.payloads.length + s.records.length ≤ ks.countP (0 < ·) → got = s.payloads) := by
  intro r got
  obtain ⟨past, unread, ahead, h, howed, herr⟩ := (At.new s server wire hfr).reads ks
  rw [List.nil_append] at h
  refine ⟨⟨past, unread, ahead, h⟩, ?_, fun x hx => ?_, fun hks => ?_⟩
  · rw [ServerStream.payloads, h.split, List.flatMap_append, ← h.got, List.append_assoc]
    exact List.prefix_append ..
  · exact (herr x hx).imp_right fun ⟨he, hzero⟩ => ⟨he, h.got_all hzero⟩
  · rw [owed_records] at howed
    exact h.got_all (by omega)

/-- A first record of three bytes and an empty one, read with an empty buffer and then
with buffers of two bytes, while the transport cuts the stream inside the payload. -/
theorem reads_reassemble_short :
    let s : ServerStream := ⟨⟨List.replicate 105 0, [7, 8, 9], by decide⟩,
      [⟨[0x17, 0x03, 0x03], [], by decide⟩], by decide, by decide⟩
    let pieces : List Piece := [⟨s.bytes.take 108, none⟩, ⟨s.bytes.drop 108, some .eof⟩]
    let r := (TLSObfs.new ⟨pieces, .fresh⟩ []).reads [0, 2, 2, 2, 2]
    Fragments s.bytes pieces ∧
    r.1.flatMap Prod.fst <+: s.payloads ∧
    r.1 = [([], none), ([7, 8], none), ([9], none), ([], none), ([], some .eof)] := by
  intro s pieces r
  have hfr : Fragments s.bytes pieces := by
    have h := Fragments.cons (s.bytes.take 108) (.eof (s.bytes.drop 108))
    rwa [List.take_append_drop] at h
  exact ⟨hfr, (reads_reassemble s [] .fresh hfr [0, 2, 2, 2, 2]).2.1, by decide +kernel⟩

end Tun2socks.SimpleObfs
