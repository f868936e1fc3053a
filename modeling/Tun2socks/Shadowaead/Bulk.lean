import Tun2socks.Shadowaead.Delivery

/-!
# Tun2socks.Shadowaead.Bulk

When `ReadFrom` agrees with `Write`.

`ReadFrom` seals a record for every answer of its source, an empty one too: a size
zero followed by the seal of an empty payload. The reader stops at a size zero with
`ErrZeroChunk` and does not take the payload, so from there on the two sides use
different nonces. A stream is delivered exactly when none of its records is empty
(`delivers_iff`), and a source that ends the usual way, with `io.EOF` and no data,
always makes an empty one.
-/

namespace Tun2socks.Shadowaead

open Tun2socks.Go

/-- Readers of the stream `sent` get `data`: however the transport cuts the stream
and whatever calls are made, what has been delivered is a prefix of `data`, no call
fails but at the end of the stream or by its own sink, and a `WriteTo` into a sink
that takes everything gets the rest. -/
def StreamDelivers (A : AEAD) (sent data : List Byte) : Prop :=
  ∀ pieces, Fragments sent pieces → ∀ calls,
    let peer := (Reader.new pieces A).run calls
    delivered peer.1 <+: data ∧
      (∀ x ∈ calls.zip peer.1, Expected x.1 x.2) ∧
      ∃ fuel, delivered peer.1 ++ (peer.2.writeTo [] fuel).taken = data ∧
        (peer.2.writeTo [] fuel).ret = some none

/-- What a new `Writer` has sent after the calls, over a transport that does not
fail. -/
def sentBy (A : AEAD) (calls : List WriterCall) : List Byte :=
  ((Writer.new .fresh A).run calls).wire.sent

theorem sentBy_eq (A : AEAD) (calls : List WriterCall) :
    sentBy A calls = sealAll A 0 ((calls.flatMap WriterCall.records).flatMap Rec.messages) := by
  obtain ⟨recs, happ, -, -, hrecs⟩ :=
    Writer.run_appends (w := Writer.new .fresh A) calls (NonceAt.zero A)
  rw [sentBy, (happ.sent rfl).2, hrecs rfl]
  rfl

/-! ### Streams without empty records -/

/-- Records that are not empty are those of their payloads. -/
theorem eq_map_record {recs : List Rec} (h : ∀ x ∈ recs, x.payload ≠ []) :
    recs = (recs.map Rec.payload).map Rec.record := by
  induction recs with
  | nil => rfl
  | cons x recs ih =>
    cases x with
    | zero => exact absurd rfl (h .zero (List.mem_cons_self ..))
    | record d =>
      rw [List.map_cons, List.map_cons, ← ih fun x hx => h x (List.mem_cons_of_mem _ hx)]
      rfl

theorem streamDelivers_of_nonempty {A : AEAD} (hA : A.Correct) {recs : List Rec}
    (hsize : ∀ x ∈ recs, x.payload.length ≤ payloadSizeMask) (hne : ∀ x ∈ recs, x.payload ≠ []) :
    StreamDelivers A (sealAll A 0 (recs.flatMap Rec.messages)) (recs.flatMap Rec.payload) := by
  intro pieces hfr calls peer
  rw [eq_map_record hne] at hfr
  have hexp : Reader.Expects A (recs.map Rec.payload) (Reader.new pieces A) := by
    refine ⟨⟨0, rfl, NonceAt.zero A, hfr⟩, ?_⟩
    intro d hd
    obtain ⟨x, hx, rfl⟩ := List.mem_map.mp hd
    exact ⟨hne x hx, hsize x hx⟩
  have hstart : Reader.Delivers A (recs.flatMap Rec.payload) (Reader.new pieces A) := by
    rw [List.flatMap_def]
    exact hexp.delivers_nil rfl
  obtain ⟨data, hdata, hdel, -, hret⟩ := hstart.run hA calls
  obtain ⟨fuel, htaken, hdone⟩ := hdel.writeTo_drains hA
  exact ⟨⟨data, hdata.symm⟩, hret, fuel, by rw [htaken, hdata], hdone⟩

/-! ### Streams with an empty record -/

/-- What `Read` makes of a record it reads into the caller's buffer. -/
def Outcome.ofRecord : Except Error (List Byte) → Outcome
  | .error err => ⟨[], some (some err)⟩
  | .ok d => ⟨d, some none⟩

namespace Reader

/-- A `Read` with a large buffer and nothing pending is one `read`. -/
theorem call_read_direct {A : AEAD} {r r' : Reader} {x : Except Error (List Byte)}
    (haead : r.aead = A) (hbuf : r.buf = none)
    (hread : r.read (payloadSizeMask + A.overhead) = (x, r')) :
    r.call (.read (payloadSizeMask + A.overhead)) = (.ofRecord x, r') := by
  rw [call, Read, if_pos hbuf, haead, if_pos le_rfl, hread]
  cases x <;> rfl

/-- Reading record by record, the reader reports the first empty one. -/
theorem reaches_zero {A : AEAD} (hA : A.Correct) (ds : List (List Byte))
    (hds : ∀ d ∈ ds, d ≠ [] ∧ d.length ≤ payloadSizeMask) (rest : List (List Byte)) {i : Nat}
    {r : Reader} (hbuf : r.buf = none)
    (h : Honest A i ((ds.map Rec.record).flatMap Rec.messages ++ putUint16 0 :: rest) r) :
    ∃ calls : List ReaderCall, ∃ x ∈ calls.zip (r.run calls).1, ¬ Expected x.1 x.2 := by
  induction ds generalizing i r with
  | nil =>
    obtain ⟨r', hread, -, -, -⟩ := read_zero hA h le_rfl
    refine ⟨[.read (payloadSizeMask + A.overhead)], _, List.mem_singleton_self _, ?_⟩
    simp [call_read_direct h.aead hbuf hread, Outcome.ofRecord, Expected, errZeroChunk]
  | cons d ds ih =>
    obtain ⟨hne, hle⟩ := hds d (List.mem_cons_self ..)
    obtain ⟨r', hread, hon, hbuf', -⟩ := read_record hA h hne hle le_rfl
    obtain ⟨calls, x, hx, hbad⟩ :=
      ih (fun d hd => hds d (List.mem_cons_of_mem _ hd)) (hbuf'.trans hbuf) hon
    refine ⟨.read (payloadSizeMask + A.overhead) :: calls, x, ?_, hbad⟩
    simp only [run, call_read_direct h.aead hbuf hread]
    exact List.mem_cons_of_mem _ hx

end Reader

/-- A list of records with an empty one splits at the first of them. -/
theorem exists_first_empty {recs : List Rec} (h : ∃ x ∈ recs, x.payload = []) :
    ∃ pre x suf, recs = pre ++ x :: suf ∧ (∀ y ∈ pre, y.payload ≠ []) ∧ x.payload = [] := by
  induction recs with
  | nil =>
    obtain ⟨x, hx, -⟩ := h
    cases hx
  | cons y recs ih =>
    by_cases hy : y.payload = []
    · exact ⟨[], y, recs, rfl, by simp, hy⟩
    · obtain ⟨x, hx, hnil⟩ := h
      have hmem : x ∈ recs := by
        rcases List.mem_cons.mp hx with rfl | hx
        · exact absurd hnil hy
        · exact hx
      obtain ⟨pre, z, suf, rfl, hpre, hz⟩ := ih ⟨x, hmem, hnil⟩
      refine ⟨y :: pre, z, suf, rfl, ?_, hz⟩
      intro w hw
      rcases List.mem_cons.mp hw with rfl | hw
      · exact hy
      · exact hpre w hw

theorem nonempty_of_streamDelivers {A : AEAD} (hA : A.Correct) {recs : List Rec} {data : List Byte}
    (hsize : ∀ x ∈ recs, x.payload.length ≤ payloadSizeMask)
    (h : StreamDelivers A (sealAll A 0 (recs.flatMap Rec.messages)) data) :
    ∀ x ∈ recs, x.payload ≠ [] := by
  intro x hx hnil
  obtain ⟨pre, x, suf, rfl, hpre, hnil⟩ := exists_first_empty ⟨x, hx, hnil⟩
  -- either kind of empty record begins with the size zero
  have hzero : ∃ rest, x.messages = putUint16 0 :: rest := by
    cases x with
    | zero => exact ⟨[], rfl⟩
    | record d =>
      obtain rfl : d = [] := hnil
      exact ⟨[[]], rfl⟩
  obtain ⟨rest, hrest⟩ := hzero
  set sent := sealAll A 0 ((pre ++ x :: suf).flatMap Rec.messages) with hsent
  have hfr : Fragments sent [⟨sent, none⟩] := by
    simpa using Fragments.cons sent Fragments.nil
  have hon : Reader.Honest A 0 (((pre.map Rec.payload).map Rec.record).flatMap Rec.messages ++
      putUint16 0 :: (rest ++ suf.flatMap Rec.messages)) (Reader.new [⟨sent, none⟩] A) := by
    refine ⟨rfl, NonceAt.zero A, ?_⟩
    rw [← eq_map_record hpre, ← List.cons_append, ← hrest, ← List.flatMap_cons,
      ← List.flatMap_append]
    exact hfr
  have hds : ∀ d ∈ pre.map Rec.payload, d ≠ [] ∧ d.length ≤ payloadSizeMask := by
    intro d hd
    obtain ⟨y, hy, rfl⟩ := List.mem_map.mp hd
    exact ⟨hpre y hy, hsize y (List.mem_append_left _ hy)⟩
  obtain ⟨calls, y, hy, hbad⟩ := Reader.reaches_zero hA _ hds _ rfl hon
  exact hbad ((h _ hfr calls).2.1 y hy)

/-! ### Runs of a writer -/

/-- The call makes no empty record. -/
def WriterCall.Nonempty : WriterCall → Prop
  | .write p => p ≠ []
  | .readFrom src => [] ∉ answers src

theorem WriterCall.nonempty_iff (c : WriterCall) :
    (∀ x ∈ c.records, x.payload ≠ []) ↔ c.Nonempty := by
  cases c with
  | write p =>
    by_cases hp : p = []
    · simp [records, hp, Nonempty, Rec.payload]
    · simp only [records, hp, if_false, Nonempty]
      refine ⟨fun _ => hp, fun _ x hx => ?_⟩
      obtain ⟨d, hd, rfl⟩ := List.mem_map.mp hx
      exact List.length_pos_iff.mp (length_of_mem_chunks hd).1
  | readFrom src =>
    constructor
    · intro h hmem
      exact h (.record []) (List.mem_map_of_mem hmem) rfl
    · intro h x hx hnil
      obtain ⟨d, hd, rfl⟩ := List.mem_map.mp hx
      obtain rfl : d = [] := hnil
      exact h hd

/-- **A writer's input is delivered exactly when no call makes an empty record.** -/
theorem delivers_iff {A : AEAD} (hA : A.Correct) (calls : List WriterCall) :
    StreamDelivers A (sentBy A calls) (calls.flatMap WriterCall.input) ↔
      ∀ c ∈ calls, c.Nonempty := by
  have hsize : ∀ x ∈ calls.flatMap WriterCall.records, x.payload.length ≤ payloadSizeMask := by
    intro x hx
    obtain ⟨c, -, hx⟩ := List.mem_flatMap.mp hx
    exact WriterCall.payload_length_le hx
  have hinput : calls.flatMap WriterCall.input =
      (calls.flatMap WriterCall.records).flatMap Rec.payload := by
    rw [List.flatMap_assoc]
    apply List.flatMap_congr
    intro c _
    exact c.records_payload.symm
  rw [sentBy_eq, hinput]
  constructor
  · intro h c hc
    have hne := nonempty_of_streamDelivers hA hsize h
    exact c.nonempty_iff.mp fun x hx => hne x (List.mem_flatMap.mpr ⟨c, hc, hx⟩)
  · intro h
    apply streamDelivers_of_nonempty hA hsize
    intro x hx
    obtain ⟨c, hc, hx⟩ := List.mem_flatMap.mp hx
    exact c.nonempty_iff.mpr (h c hc) x hx

/-- A source that does not fail answers with its bytes. -/
theorem answers_flatten (src : List Piece) :
    ∀ s : List Byte, Fragments s src → (answers src).flatten = s := by
  induction src using answers.induct with
  | case1 src x er her =>
    intro s h
    obtain ⟨n, e, ps, hread, -, -, -, he⟩ := h.read payloadSizeMask
    rw [answers_of_end her, hread]
    simp only [x, hread] at her
    rcases he with rfl | ⟨-, rfl⟩
    · cases her
    · simp
  | case2 src x her ih =>
    intro s h
    obtain ⟨n, e, ps, hread, -, -, hfr, -⟩ := h.read payloadSizeMask
    simp only [x, hread] at ih
    rw [answers_of_more her, List.flatten_cons, hread, ih _ hfr, List.take_append_drop]

/-- **When `ReadFrom` agrees with `Write`.** For a source of the bytes `s` and any
writes before and after it, the bytes are delivered, in order and without an error,
exactly when no write is empty and no answer of the source is. Writing the answers
that are not empty one by one delivers them for every source. -/
theorem readFrom_agrees_iff (A : AEAD) (hA : A.Correct) (before after : List (List Byte))
    (src : List Piece) (s : List Byte) (hsrc : Fragments s src) :
    (StreamDelivers A (sentBy A (before.map .write ++ .readFrom src :: after.map .write))
        (before.flatten ++ s ++ after.flatten) ↔
      (∀ p ∈ before ++ after, p ≠ []) ∧ [] ∉ answers src) ∧
    ((∀ p ∈ before ++ after, p ≠ []) →
      StreamDelivers A (sentBy A
        (before.map .write ++ ((answers src).filter (· ≠ [])).map .write ++ after.map .write))
        (before.flatten ++ s ++ after.flatten)) := by
  have hwrites : ∀ ps : List (List Byte),
      (ps.map WriterCall.write).flatMap WriterCall.input = ps.flatten := by
    intro ps
    rw [List.flatMap_map, List.flatten_eq_flatMap]
    rfl
  have hanswers := answers_flatten src s hsrc
  constructor
  · have hdata : (before.map WriterCall.write ++ WriterCall.readFrom src ::
        after.map WriterCall.write).flatMap WriterCall.input =
      before.flatten ++ s ++ after.flatten := by
      rw [List.flatMap_append, List.flatMap_cons, hwrites, hwrites, WriterCall.input, hanswers,
        List.append_assoc]
    rw [← hdata, delivers_iff hA]
    simp only [List.mem_append, List.mem_cons, List.mem_map]
    constructor
    · intro h
      refine ⟨?_, h _ (.inr (.inl rfl))⟩
      rintro p (hp | hp)
      · exact h (.write p) (.inl ⟨p, hp, rfl⟩)
      · exact h (.write p) (.inr (.inr ⟨p, hp, rfl⟩))
    · rintro ⟨hp, hsrc⟩ c (⟨p, hmem, rfl⟩ | rfl | ⟨p, hmem, rfl⟩)
      · exact hp p (.inl hmem)
      · exact hsrc
      · exact hp p (.inr hmem)
  · intro hp
    have hdata : (before.map WriterCall.write ++
        ((answers src).filter (· ≠ [])).map WriterCall.write ++
        after.map WriterCall.write).flatMap WriterCall.input =
      before.flatten ++ s ++ after.flatten := by
      rw [List.flatMap_append, List.flatMap_append, hwrites, hwrites, hwrites,
        List.flatten_filter_ne_nil, hanswers]
    rw [← hdata, delivers_iff hA]
    intro c hc
    rw [← List.map_append, ← List.map_append] at hc
    obtain ⟨p, hmem, rfl⟩ := List.mem_map.mp hc
    rcases List.mem_append.mp hmem with hmem | hmem
    · rcases List.mem_append.mp hmem with hmem | hmem
      · exact hp p (List.mem_append_left _ hmem)
      · have hne : p ≠ [] := of_decide_eq_true (List.mem_filter.mp hmem).2
        exact hne
    · exact hp p (List.mem_append_right _ hmem)

/-- A source that hands over its `io.EOF` with the last byte is delivered. -/
theorem readFrom_agrees_last_byte :
    StreamDelivers AEAD.tagged
      (sentBy AEAD.tagged [.write [1], .readFrom [⟨[2, 3], some .eof⟩], .write [4]])
      [1, 2, 3, 4] :=
  (readFrom_agrees_iff AEAD.tagged AEAD.tagged_correct [[1]] [[4]] [⟨[2, 3], some .eof⟩] [2, 3]
    (.eof [2, 3])).1.mpr ⟨by simp, by simp [answers_of_end, Go.read, payloadSizeMask]⟩

/-- A source of one byte and then `io.EOF`, and a later write: the second `Read`
fails with `ErrZeroChunk`, and every one after it fails to authenticate. -/
theorem readFrom_usual_eof_breaks :
    let sent := sentBy AEAD.tagged [.readFrom [⟨[1], none⟩], .write [2]]
    ((Reader.new [⟨sent, none⟩] AEAD.tagged).run [.read 20, .read 20, .read 20]).1 =
        [⟨[1], some none⟩, ⟨[], some (some errZeroChunk)⟩, ⟨[], some (some errOpen)⟩] ∧
      ¬ StreamDelivers AEAD.tagged sent [1, 2] := by
  intro sent
  have hanswers : answers [⟨[1], none⟩] = [[1], []] := by
    have hend : (Go.read payloadSizeMask []).2.1 = some .eof := rfl
    rw [answers_of_more (by simp [Go.read, payloadSizeMask])]
    simp [Go.read, payloadSizeMask, answers_of_end hend]
  have hsent : sent =
      sealAll AEAD.tagged 0 [putUint16 1, [1], putUint16 0, [], putUint16 1, [2]] := by
    simp [sent, sentBy_eq, WriterCall.records, hanswers, Rec.messages, chunks_of_length_le,
      payloadSizeMask]
  rw [hsent]
  have hrun : ((Reader.new [⟨sealAll AEAD.tagged 0
      [putUint16 1, [1], putUint16 0, [], putUint16 1, [2]], none⟩] AEAD.tagged).run
      [.read 20, .read 20, .read 20]).1 =
      [⟨[1], some none⟩, ⟨[], some (some errZeroChunk)⟩, ⟨[], some (some errOpen)⟩] := by
    decide +kernel
  refine ⟨hrun, fun h => ?_⟩
  have hexp := (h _ (by simpa using Fragments.cons _ Fragments.nil)
    [.read 20, .read 20, .read 20]).2.1
  rw [hrun] at hexp
  have := hexp (.read 20, ⟨[], some (some errZeroChunk)⟩) (by simp)
  simp [Expected, errZeroChunk] at this

end Tun2socks.Shadowaead
