import Tun2socks.Shadowaead.Nonce

/-!
# Tun2socks.Shadowaead.Records

The record sequence behind the stream.

A `Writer` is abstracted to the list of records its calls make (`Rec`,
`WriterCall.records`), a record to the messages it seals, and a list of messages to
the ciphertext they give under the counter (`sealAll`). The two connecting facts:

* `Writer.call_appends`: a call appends a prefix of its records, all of them when
  the transport does not fail, and reports the length of their payloads;
* `Reader.read_record`, `Reader.read_zero`, `Reader.read_end`: on an honest stream,
  however fragmented, the reader's unexported `read` takes exactly the next record.
-/

namespace Tun2socks.Shadowaead

open Tun2socks.Go

theorem payloadSizeMask_pos : 0 < payloadSizeMask := by decide

/-! ### Records and their ciphertext -/

/-- What a `Writer` makes of a piece of data. -/
inductive Rec
  /-- the size of `d`, then `d` -/
  | record (d : List Byte)
  /-- the size zero alone, which `Write` makes of an empty slice -/
  | zero
  deriving DecidableEq, Repr

namespace Rec

/-- The plaintexts sealed for a record, in order. -/
def messages : Rec → List (List Byte)
  | record d => [putUint16 d.length, d]
  | zero => [putUint16 0]

/-- The bytes of the caller in a record. -/
def payload : Rec → List Byte
  | record d => d
  | zero => []

end Rec

/-- The ciphertext of sealing `ms` in order with the counter starting at `i`. -/
def sealAll (A : AEAD) : Nat → List (List Byte) → List Byte
  | _, [] => []
  | i, m :: ms => A.seal (leBytes A.nonceSize i) m ++ sealAll A (i + 1) ms

@[simp] theorem sealAll_nil (A : AEAD) (i : Nat) : sealAll A i [] = [] := rfl

theorem sealAll_append (A : AEAD) (i : Nat) (ms ns : List (List Byte)) :
    sealAll A i (ms ++ ns) = sealAll A i ms ++ sealAll A (i + ms.length) ns := by
  induction ms generalizing i with
  | nil => rfl
  | cons m ms ih =>
    rw [List.cons_append, sealAll, sealAll, ih, List.append_assoc, List.length_cons,
      show i + 1 + ms.length = i + (ms.length + 1) by omega]

/-- The answers a source gives to successive reads of `payloadSizeMask` bytes, up to
and including the first that comes with an error. -/
def answers (src : List Piece) : List (List Byte) :=
  let x := Go.read payloadSizeMask src
  match _h : x.2.1 with
  | some _ => [x.1]
  | none => x.1 :: answers x.2.2
  termination_by readerSize src
  decreasing_by exact readerSize_read payloadSizeMask_pos _h

theorem answers_of_end {src : List Piece} {er : Error}
    (her : (Go.read payloadSizeMask src).2.1 = some er) :
    answers src = [(Go.read payloadSizeMask src).1] := by
  rw [answers]
  split <;> simp_all

theorem answers_of_more {src : List Piece} (her : (Go.read payloadSizeMask src).2.1 = none) :
    answers src = (Go.read payloadSizeMask src).1 :: answers (Go.read payloadSizeMask src).2.2 := by
  rw [answers]
  split <;> simp_all

theorem head_answers (src : List Piece) :
    ∃ as, answers src = (Go.read payloadSizeMask src).1 :: as := by
  cases her : (Go.read payloadSizeMask src).2.1 with
  | none => exact ⟨_, answers_of_more her⟩
  | some er => exact ⟨_, answers_of_end her⟩

namespace WriterCall

/-- The records a call makes when the transport takes them all. -/
def records : WriterCall → List Rec
  | .write p => if p = [] then [.zero] else (chunks payloadSizeMask p).map .record
  | .readFrom src => (answers src).map .record

/-- The bytes a call is given. -/
def input : WriterCall → List Byte
  | .write p => p
  | .readFrom src => (answers src).flatten

theorem flatMap_payload_map_record (ds : List (List Byte)) :
    (ds.map Rec.record).flatMap Rec.payload = ds.flatten := by
  induction ds with
  | nil => rfl
  | cons d ds ih => rw [List.map_cons, List.flatMap_cons, ih, List.flatten_cons]; rfl

/-- The payloads of a call's records are its input. -/
theorem records_payload (c : WriterCall) : c.records.flatMap Rec.payload = c.input := by
  cases c with
  | write p =>
    by_cases hp : p = []
    · simp [records, input, hp, Rec.payload]
    · simp only [records, hp, if_false, input, flatMap_payload_map_record,
        chunks_flatten payloadSizeMask_pos]
  | readFrom src => simp only [records, input, flatMap_payload_map_record]

end WriterCall

/-! ### What a call appends -/

/-- From `w` to `w'` the records `recs` have been sealed, and their ciphertext has
been sent if the transport does not fail. -/
structure Appends (w : Writer) (recs : List Rec) (w' : Writer) : Prop where
  aead : w'.aead = w.aead
  nonce : NonceAt w'.aead w'.nonce w'.seals.length
  log : w'.seals.map Prod.snd = w.seals.map Prod.snd ++ recs.flatMap Rec.messages
  sent : w.wire.answers = [] → w'.wire.answers = [] ∧
    w'.wire.sent = w.wire.sent ++ sealAll w.aead w.seals.length (recs.flatMap Rec.messages)

namespace Appends

theorem refl {w : Writer} (h : NonceAt w.aead w.nonce w.seals.length) : Appends w [] w where
  aead := rfl
  nonce := h
  log := by simp
  sent hw := ⟨hw, by simp⟩

theorem trans {w w' w'' : Writer} {rs ss : List Rec} (h : Appends w rs w')
    (h' : Appends w' ss w'') : Appends w (rs ++ ss) w'' where
  aead := h'.aead.trans h.aead
  nonce := h'.nonce
  log := by rw [h'.log, h.log, List.flatMap_append, List.append_assoc]
  sent hw := by
    obtain ⟨hans, hsent⟩ := h.sent hw
    obtain ⟨hans', hsent'⟩ := h'.sent hans
    have hlen : w'.seals.length = w.seals.length + (rs.flatMap Rec.messages).length := by
      have := congrArg List.length h.log
      simpa using this
    refine ⟨hans', ?_⟩
    rw [hsent', hsent, h.aead, hlen, List.flatMap_append, sealAll_append, List.append_assoc]

end Appends

namespace Writer

/-- One record: sealed in any case, and sent when the transport does not fail. -/
theorem writeRecord_appends {w : Writer} (h : NonceAt w.aead w.nonce w.seals.length)
    (d : List Byte) :
    Appends w [.record d] (w.writeRecord d).2 ∧
      (w.wire.answers = [] → (w.writeRecord d).1 = none) := by
  have hfirst := h.next
  have hsecond := hfirst.next
  refine ⟨⟨rfl, ?_, ?_, ?_⟩, ?_⟩
  · simpa [writeRecord, send, increment, Writer.seal] using hsecond
  · simp [writeRecord, send, increment, Writer.seal, Rec.messages]
  · intro hw
    refine ⟨by simp [writeRecord, send, increment, Writer.seal, Wire.write_reliable, hw], ?_⟩
    simp [writeRecord, send, increment, Writer.seal, Wire.write_reliable, hw, Rec.messages,
      sealAll, h.2, hfirst.2]
  · intro hw
    simp [writeRecord, send, increment, Writer.seal, Wire.write_reliable, hw]

theorem take_nextSize (p : List Byte) (n : Nat) :
    (p.drop n).take (nextSize p.length n) = (p.drop n).take payloadSizeMask := by
  unfold nextSize
  split
  · rw [List.take_of_length_le (by simp), List.take_of_length_le (by simp; omega)]
  · rfl

theorem drop_nextSize (p : List Byte) (n : Nat) :
    p.drop (n + nextSize p.length n) = (p.drop n).drop payloadSizeMask := by
  unfold nextSize
  split
  · rw [List.drop_eq_nil_of_le (by omega), List.drop_eq_nil_of_le (by simp; omega)]
  · rw [List.drop_drop]

theorem nextSize_le {len n : Nat} (h : n < len) : n + nextSize len n ≤ len := by
  unfold nextSize
  split <;> omega

/-- The loop's chunk is the head of the chunks of what is left. -/
theorem chunks_drop {p : List Byte} {n : Nat} (h : n < p.length) :
    chunks payloadSizeMask (p.drop n) =
      (p.drop n).take (nextSize p.length n) ::
        chunks payloadSizeMask (p.drop (n + nextSize p.length n)) := by
  rw [take_nextSize p n, drop_nextSize p n,
    chunks_of_ne_nil payloadSizeMask_pos (by simpa using h)]

theorem length_nextChunk {p : List Byte} {n : Nat} (h : n < p.length) :
    ((p.drop n).take (nextSize p.length n)).length = nextSize p.length n := by
  have := nextSize_le h
  rw [List.length_take, List.length_drop]
  omega

/-- The loop of `Write` from offset `n`: it appends some first records of what is
left of `p`, all of them over a transport that does not fail. -/
theorem writeLoop_appends (p : List Byte) (n : Nat) (w : Writer)
    (h : NonceAt w.aead w.nonce w.seals.length) (hn : n ≤ p.length) :
    ∃ recs, recs <+: (chunks payloadSizeMask (p.drop n)).map Rec.record ∧
      Appends w recs (writeLoop p n w).2.2 ∧
      (writeLoop p n w).1 = n + (recs.flatMap Rec.payload).length ∧
      (w.wire.answers = [] → recs = (chunks payloadSizeMask (p.drop n)).map Rec.record ∧
        (writeLoop p n w).2.1 = none) := by
  induction n, w using writeLoop.induct (p := p) with
  | case1 n w hlt nr r err herr =>
    simp only [r, nr] at herr
    obtain ⟨happ, hrel⟩ := writeRecord_appends h ((p.drop n).take (nextSize p.length n))
    rw [writeLoop, if_pos hlt]
    simp only [herr]
    refine ⟨[.record _], ?_, happ, ?_, ?_⟩
    · rw [chunks_drop hlt, List.map_cons]
      exact List.prefix_cons_inj _ |>.mpr (List.nil_prefix)
    · simp [Rec.payload, length_nextChunk hlt]
    · intro hw
      rw [hrel hw] at herr
      cases herr
  | case2 n w hlt nr r herr ih =>
    simp only [r, nr] at herr ih
    obtain ⟨happ, -⟩ := writeRecord_appends h ((p.drop n).take (nextSize p.length n))
    obtain ⟨recs, hpre, happ', hcount, hall⟩ := ih happ.nonce (nextSize_le hlt)
    rw [writeLoop, if_pos hlt]
    simp only [herr]
    refine ⟨.record _ :: recs, ?_, happ.trans happ', ?_, ?_⟩
    · rw [chunks_drop hlt, List.map_cons]
      exact List.prefix_cons_inj _ |>.mpr hpre
    · rw [hcount, List.flatMap_cons, List.length_append, Rec.payload, length_nextChunk hlt]
      omega
    · intro hw
      obtain ⟨hrecs, hnone⟩ := hall (happ.sent hw).1
      exact ⟨by rw [chunks_drop hlt, List.map_cons, hrecs], hnone⟩
  | case3 n w hlt =>
    rw [writeLoop, if_neg hlt, List.drop_eq_nil_of_le (by omega), chunks_nil]
    exact ⟨[], List.nil_prefix, .refl h, by simp, fun _ => ⟨rfl, rfl⟩⟩

theorem readFrom_appends (w : Writer) (src : List Piece) (n : Nat)
    (h : NonceAt w.aead w.nonce w.seals.length) :
    ∃ recs, recs <+: (answers src).map Rec.record ∧
      Appends w recs (w.readFrom src n).2.2 ∧
      (w.readFrom src n).1 = n + (recs.flatMap Rec.payload).length ∧
      (w.wire.answers = [] → recs = (answers src).map Rec.record) := by
  obtain ⟨happ, hrel⟩ := writeRecord_appends h (Go.read payloadSizeMask src).1
  induction w, src, n using readFrom.induct with
  | case1 w src n x r err herr =>
    rw [readFrom_of_failed herr]
    obtain ⟨as, has⟩ := head_answers src
    refine ⟨[.record _], ?_, happ, by simp [Rec.payload], ?_⟩
    · rw [has, List.map_cons]
      exact List.prefix_cons_inj _ |>.mpr List.nil_prefix
    · intro hw
      rw [hrel hw] at herr
      cases herr
  | case2 w src n x r herr er her =>
    rw [readFrom_of_end herr her, answers_of_end her]
    exact ⟨[.record _], List.prefix_rfl, happ, by simp [Rec.payload], fun _ => rfl⟩
  | case3 w src n x r herr her ih =>
    obtain ⟨happ', hrel'⟩ := writeRecord_appends happ.nonce (Go.read payloadSizeMask x.2.2).1
    obtain ⟨recs, hpre, hrest, hcount, hall⟩ := ih happ.nonce happ' hrel'
    rw [readFrom_of_more herr her, answers_of_more her, List.map_cons]
    refine ⟨.record _ :: recs, ?_, happ.trans hrest, ?_, ?_⟩
    · exact List.prefix_cons_inj _ |>.mpr hpre
    · rw [hcount, List.flatMap_cons, List.length_append, Rec.payload, Nat.add_assoc]
    · intro hw
      rw [hall (happ.sent hw).1]

/-- **What a call does to the stream.** It appends some first records of its input
and reports the length of their payloads; over a transport that does not fail it
appends them all. -/
theorem call_appends {w : Writer} (h : NonceAt w.aead w.nonce w.seals.length) (c : WriterCall) :
    ∃ recs, recs <+: c.records ∧ Appends w recs (w.call c) ∧
      w.consumed c = (recs.flatMap Rec.payload).length ∧
      (w.wire.answers = [] → recs = c.records) := by
  cases c with
  | write p =>
    by_cases hp : p = []
    · have hzero : (w.write p).2.2 = ((w.seal [0, 0]).2.increment.send (w.seal [0, 0]).1).2 := by
        rw [write, if_pos hp]
      refine ⟨[.zero], by simp [WriterCall.records, hp], ⟨?_, ?_, ?_, ?_⟩, ?_, ?_⟩
      · rw [call, hzero]; rfl
      · rw [call, hzero]
        simpa [send, increment, Writer.seal] using h.next
      · rw [call, hzero]
        simp [send, increment, Writer.seal, Rec.messages, putUint16]
      · intro hw
        rw [call, hzero]
        simp [send, increment, Writer.seal, Rec.messages, Wire.write_reliable, hw, sealAll, h.2,
          putUint16]
      · simp [consumed, write, hp, Rec.payload]
      · intro _
        simp [WriterCall.records, hp]
    · obtain ⟨recs, hpre, happ, hcount, hall⟩ := writeLoop_appends p 0 w h (by simp)
      rw [List.drop_zero] at hpre hall
      rw [call, consumed, write, if_neg hp]
      refine ⟨recs, ?_, happ, by simpa using hcount, ?_⟩
      · simpa [WriterCall.records, hp] using hpre
      · intro hw
        simpa [WriterCall.records, hp] using (hall hw).1
  | readFrom src =>
    obtain ⟨recs, hpre, happ, hcount, hall⟩ := readFrom_appends w src 0 h
    exact ⟨recs, hpre, happ, by rw [consumed, hcount, Nat.zero_add], hall⟩

/-- The bytes the calls of a run take from their inputs, each call as many as it
reports. -/
def plaintext (w : Writer) : List WriterCall → List Byte
  | [] => []
  | c :: cs => c.input.take (w.consumed c) ++ (w.call c).plaintext cs

/-- A run appends records whose payloads are its plaintext. -/
theorem run_appends (cs : List WriterCall) {w : Writer}
    (h : NonceAt w.aead w.nonce w.seals.length) :
    ∃ recs, Appends w recs (w.run cs) ∧ recs.flatMap Rec.payload = w.plaintext cs ∧
      (∀ r ∈ recs, ∃ c ∈ cs, r ∈ c.records) ∧
      (w.wire.answers = [] → recs = cs.flatMap WriterCall.records) := by
  induction cs generalizing w with
  | nil => exact ⟨[], .refl h, rfl, by simp, fun _ => rfl⟩
  | cons c cs ih =>
    obtain ⟨recs, hpre, happ, hcount, hall⟩ := call_appends h c
    obtain ⟨recs', happ', hplain, hmem, hall'⟩ := ih happ.nonce
    refine ⟨recs ++ recs', happ.trans happ', ?_, ?_, ?_⟩
    · -- the payloads appended are a prefix of the input, of the reported length
      obtain ⟨rest, hrest⟩ := hpre
      have hinput : c.input = recs.flatMap Rec.payload ++ rest.flatMap Rec.payload := by
        rw [← WriterCall.records_payload, ← hrest, List.flatMap_append]
      rw [List.flatMap_append, hplain, plaintext, hcount, hinput, List.take_left']
      rfl
    · intro r hr
      rcases List.mem_append.mp hr with hr | hr
      · exact ⟨c, by simp, hpre.subset hr⟩
      · obtain ⟨c', hc', hr'⟩ := hmem r hr
        exact ⟨c', List.mem_cons_of_mem _ hc', hr'⟩
    · intro hw
      rw [hall hw, hall' (happ.sent hw).1, List.flatMap_cons]

end Writer

/-- No record is larger than the size field can say. -/
theorem WriterCall.payload_length_le {c : WriterCall} {r : Rec} (h : r ∈ c.records) :
    r.payload.length ≤ payloadSizeMask := by
  have hanswers : ∀ src d, d ∈ answers src → d.length ≤ payloadSizeMask := by
    intro src
    induction src using answers.induct with
    | case1 src x er her =>
      intro d hd
      rw [answers_of_end her, List.mem_singleton] at hd
      subst hd
      exact read_length_le _ _
    | case2 src x her ih =>
      intro d hd
      rw [answers_of_more her] at hd
      rcases List.mem_cons.mp hd with rfl | hd
      · exact read_length_le _ _
      · exact ih d hd
  cases c with
  | write p =>
    rw [records] at h
    split at h
    · obtain rfl := List.mem_singleton.mp h
      simp [Rec.payload]
    · obtain ⟨d, hd, rfl⟩ := List.mem_map.mp h
      exact (length_of_mem_chunks hd).2
  | readFrom src =>
    obtain ⟨d, hd, rfl⟩ := List.mem_map.mp h
    exact hanswers src d hd

/-! ### The reader's buffer -/

namespace Reader

/-- The part of the buffer that has not been consumed, `r.buf[r.off:]`. -/
def pending (r : Reader) : List Byte := (r.buf.getD []).drop r.off

theorem pending_release (r : Reader) : r.release.pending = r.pending := by
  simp only [release, pending]
  split
  · rename_i h
    rw [Option.getD_none, List.drop_nil, h, List.drop_length]
  · rfl

/-- A buffer that is not given back holds something. -/
theorem release_settled {r : Reader} (hoff : ∀ b, r.buf = some b → r.off ≤ b.length) :
    r.release.buf = none ∨ r.release.pending ≠ [] := by
  cases hb : r.buf with
  | none => exact .inl (by simp [release, hb])
  | some b =>
    have hle := hoff b hb
    by_cases heq : r.off = b.length
    · exact .inl (by simp [release, hb, heq])
    · right
      rw [pending_release, pending, hb, Option.getD_some, ← List.length_pos_iff, List.length_drop]
      omega

theorem pending_skip (r : Reader) (n : Nat) :
    pending { r with off := r.off + n } = r.pending.drop n := by
  simp only [pending, List.drop_drop]

/-- The end of `Read` moves bytes from the front of the buffer to the caller; only
the buffer fields change. -/
theorem consume_eq {r : Reader} (hbuf : r.buf ≠ none)
    (hoff : ∀ b, r.buf = some b → r.off ≤ b.length) (len : Nat) :
    ∃ b off, r.consume len = ((r.pending.take len, none), { r with buf := b, off := off }) ∧
      pending { r with buf := b, off := off } = r.pending.drop len ∧
      (∀ b', b = some b' → off ≤ b'.length) ∧
      (b = none ∨ pending { r with buf := b, off := off } ≠ []) := by
  obtain ⟨b, hb⟩ := Option.ne_none_iff_exists'.mp hbuf
  have hle := hoff b hb
  have hget : r.buf.getD [] = b := by rw [hb, Option.getD_some]
  have hpend : r.pending = b.drop r.off := by rw [pending, hget]
  have hlen : (r.pending.take len).length ≤ b.length - r.off := by
    rw [hpend, List.length_take, List.length_drop]
    exact min_le_right _ _
  have hconsume : r.consume len = ((r.pending.take len, none),
      release { r with off := r.off + (r.pending.take len).length }) := by
    rw [consume, hget, if_neg (by omega), hpend]
  refine ⟨_, _, hconsume, ?_, ?_, ?_⟩
  · change pending (release _) = _
    rw [pending_release, pending_skip, List.length_take, ← List.drop_eq_drop_min]
  · intro b' hb'
    split at hb'
    · cases hb'
    · obtain rfl : b = b' := Option.some.inj (hb.symm.trans hb')
      dsimp only
      omega
  · refine release_settled fun b' hb' => ?_
    obtain rfl : b = b' := Option.some.inj (hb.symm.trans hb')
    dsimp only
    omega

end Reader

/-! ### Reading an honest stream -/

/-- The reader is at message `i` of an honest stream: `ms` are the messages to
come, and the transport will deliver exactly their ciphertext. -/
structure Reader.Honest (A : AEAD) (i : Nat) (ms : List (List Byte)) (r : Reader) : Prop where
  aead : r.aead = A
  nonce : NonceAt A r.nonce i
  src : Fragments (sealAll A i ms) r.src

namespace Reader

variable {A : AEAD} {i : Nat} {ms : List (List Byte)} {r : Reader}

/-- A size field below the mask is read back. -/
theorem payloadSize_copy {n : Nat} (hn : n ≤ payloadSizeMask) (c : List Byte) (hc : 2 ≤ c.length) :
    payloadSize (copy c (putUint16 n)) = n := by
  have hlt : n < 65536 := lt_of_le_of_lt hn (by decide)
  have hcopy : copy c (putUint16 n) = putUint16 n ++ c.drop 2 := by
    rw [copy, List.take_of_length_le (by simpa using hc)]
    rfl
  have hmod := Nat.and_two_pow_sub_one_eq_mod n 14
  rw [payloadSize, hcopy]
  simp only [putUint16, List.cons_append, List.getD_cons_zero, List.getD_cons_succ]
  rw [uint16_putUint16 hlt, show payloadSizeMask = 2 ^ 14 - 1 by rfl, hmod]
  exact Nat.mod_eq_of_lt (lt_of_le_of_lt hn (by decide))

/-- `Open` gives back the next message of an honest stream. -/
theorem openFull_honest (hA : A.Correct) {m : List Byte} (h : Honest A i (m :: ms) r) :
    ∃ r', r.openFull (m.length + A.overhead) =
        (.ok (copy (A.seal (leBytes A.nonceSize i) m) m), r') ∧
      Honest A (i + 1) ms r' ∧ r'.buf = r.buf ∧ r'.off = r.off := by
  obtain ⟨rfl, hnonce, hsrc⟩ := h
  have hlen := r.aead.seal_length (leBytes r.aead.nonceSize i) m
  rw [sealAll] at hsrc
  obtain ⟨ps', hread, hfr⟩ := hsrc.readFull_append
  rw [← hlen, openFull, hread]
  simp only [hnonce.2, hA _ m]
  exact ⟨_, rfl, ⟨rfl, hnonce.next, hfr⟩, rfl, rfl⟩

/-- `read` with a large enough argument takes the next record of an honest stream
and gives back its payload. -/
theorem read_record (hA : A.Correct) {d : List Byte} {cap : Nat}
    (h : Honest A i (putUint16 d.length :: d :: ms) r) (hpos : d ≠ [])
    (hle : d.length ≤ payloadSizeMask) (hcap : payloadSizeMask + A.overhead ≤ cap) :
    ∃ r', r.read cap = (.ok d, r') ∧ Honest A (i + 2) ms r' ∧ r'.buf = r.buf ∧
      r'.off = r.off := by
  have hmask : 2 ≤ payloadSizeMask := by decide
  have hlen := List.length_pos_iff.mpr hpos
  obtain ⟨r₁, hopen₁, h₁, hbuf₁, hoff₁⟩ := openFull_honest hA h
  obtain ⟨r₂, hopen₂, h₂, hbuf₂, hoff₂⟩ := openFull_honest hA h₁
  rw [putUint16_length] at hopen₁
  have hsize : payloadSize (copy (A.seal (leBytes A.nonceSize i) (putUint16 d.length))
      (putUint16 d.length)) = d.length :=
    payloadSize_copy hle _ (by rw [A.seal_length, putUint16_length]; omega)
  refine ⟨r₂, ?_, h₂, hbuf₂.trans hbuf₁, hoff₂.trans hoff₁⟩
  rw [read, h.aead, if_neg (by omega), hopen₁]
  dsimp only
  rw [hsize, if_neg (by omega), if_neg (by omega), hopen₂]
  dsimp only
  rw [copy_take le_rfl (by rw [A.seal_length]; omega), List.take_length]

/-- A zero size ends the call with `ErrZeroChunk`; what follows it is not read. -/
theorem read_zero (hA : A.Correct) {cap : Nat} (h : Honest A i (putUint16 0 :: ms) r)
    (hcap : payloadSizeMask + A.overhead ≤ cap) :
    ∃ r', r.read cap = (.error errZeroChunk, r') ∧ Honest A (i + 1) ms r' ∧
      r'.buf = r.buf ∧ r'.off = r.off := by
  have hmask : 2 ≤ payloadSizeMask := by decide
  obtain ⟨r₁, hopen, h₁, hbuf, hoff⟩ := openFull_honest hA h
  rw [putUint16_length] at hopen
  refine ⟨r₁, ?_, h₁, hbuf, hoff⟩
  rw [read, h.aead, if_neg (by omega), hopen]
  dsimp only
  rw [payloadSize_copy (Nat.zero_le _) _ (by rw [A.seal_length, putUint16_length]; omega),
    if_pos rfl]

/-- After the last record `read` reports `io.EOF`. -/
theorem read_end {cap : Nat} (h : Honest A i [] r)
    (hcap : payloadSizeMask + A.overhead ≤ cap) :
    ∃ r', r.read cap = (.error .eof, r') ∧ Honest A i [] r' ∧ r'.buf = r.buf ∧
      r'.off = r.off := by
  have hmask : 2 ≤ payloadSizeMask := by decide
  obtain ⟨rfl, hnonce, hsrc⟩ := h
  have hshort := hsrc.readFull_short (k := 2 + r.aead.overhead) (by simp)
  rw [sealAll_nil, if_pos rfl] at hshort
  refine ⟨{ r with src := [] }, ?_, ⟨rfl, hnonce, .nil⟩, rfl, rfl⟩
  rw [read, if_neg (by omega), openFull, hshort]

/-- The pool's buffers are large enough for `read`. -/
theorem le_bufCap (A : AEAD) : payloadSizeMask + A.overhead ≤ bufCap := by
  have := A.overhead_le
  have : bufSize ≤ bufCap := by decide
  omega

end Reader

end Tun2socks.Shadowaead
