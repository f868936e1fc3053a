import Tun2socks.Shadowaead.Records

/-!
# Tun2socks.Shadowaead.Integrity

What a reader returns when the bytes behind the salt are an adversary's.

The AEAD is taken as ideal (`Ideal`): the `i`-th nonce opens only what the honest
writer sealed with it. Sizes and payloads share one nonce sequence, so the heart of
the proof is that until the first error the reader stands at a record boundary of
the writer (`Reader.Follows`): a size is never opened as a payload, nor a payload as a
size, whatever their lengths. A zero size ends the reading, which is why the two
shapes of zero records that `Write` and `ReadFrom` make do no harm here.
-/

namespace Tun2socks.Shadowaead

open Tun2socks.Go

/-- The AEAD is ideal for the messages `ms`, sealed in this order, as far as the
first `n` nonces go: under the `i`-th of them only the ciphertext of the `i`-th
message opens, and gives that message. -/
def Ideal (A : AEAD) (ms : List (List Byte)) (n : Nat) : Prop :=
  ∀ i < n, ∀ c m, A.open (leBytes A.nonceSize i) c = .ok m →
    ms[i]? = some m ∧ c = A.seal (leBytes A.nonceSize i) m

/-- Unforgeability stated by nonce gives it for every number of nonces up to the
counter's wrap-around. -/
theorem Ideal.of_unforgeable {A : AEAD} {ms : List (List Byte)}
    (hlen : ms.length ≤ 2 ^ (8 * A.nonceSize))
    (h : ∀ nonce c m, A.open nonce c = .ok m → ∃ i, ms[i]? = some m ∧
      nonce = leBytes A.nonceSize i ∧ c = A.seal nonce m) {n : Nat}
    (hn : n ≤ 2 ^ (8 * A.nonceSize)) : Ideal A ms n := by
  intro i hi c m hopen
  obtain ⟨j, hj, hnonce, hc⟩ := h _ c m hopen
  have hjlt : j < ms.length := (List.getElem?_eq_some_iff.mp hj).1
  obtain rfl : i = j := leBytes_injOn (by omega) (by omega) hnonce
  exact ⟨hj, hc⟩

/-- An ideal AEAD for the messages `ms`: it opens what it finds in its table of
their ciphertexts. -/
def AEAD.table (ms : List (List Byte)) : AEAD where
  nonceSize := 12
  overhead := 16
  «seal» n m := m ++ nonceTag n
  «open» n c :=
    match ms.zipIdx.find? fun x => n = leBytes 12 x.2 ∧ c = x.1 ++ nonceTag n with
    | some x => .ok x.1
    | none => .error errOpen
  seal_length := AEAD.tagged.seal_length
  open_length n c m h := by
    split at h
    · rename_i x hx
      obtain rfl := Except.ok.inj h
      have hfound := List.find?_some hx
      rw [(of_decide_eq_true hfound).2, List.length_append, nonceTag_length]
    · cases h
  nonceSize_le := AEAD.tagged.nonceSize_le
  overhead_le := AEAD.tagged.overhead_le

theorem AEAD.table_unforgeable (ms : List (List Byte)) (nonce c m : List Byte)
    (h : (AEAD.table ms).open nonce c = .ok m) :
    ∃ i, ms[i]? = some m ∧ nonce = leBytes 12 i ∧ c = (AEAD.table ms).seal nonce m := by
  simp only [AEAD.table] at h
  split at h
  · rename_i x hx
    obtain rfl := Except.ok.inj h
    have hfound := List.find?_some hx
    obtain ⟨hnonce, hc⟩ := of_decide_eq_true hfound
    have hmem := List.mem_zipIdx_iff_getElem?.mp (List.mem_of_find?_eq_some hx)
    exact ⟨x.2, hmem, hnonce, hc⟩
  · cases h

namespace Reader

/-- What `Read` calls with buffers of the given lengths return up to the first
error: the data, that error if there was one, and the reader. -/
def readsUntilError (r : Reader) : List Nat → List Byte × Option Error × Reader
  | [] => ([], none, r)
  | len :: lens =>
    let x := r.Read len
    match x.1.2 with
    | some err => (x.1.1, some err, x.2)
    | none =>
      let y := readsUntilError x.2 lens
      (x.1.1 ++ y.1, y.2)

variable {A : AEAD} {r : Reader}

/-- Inverting a successful `openFull`. -/
theorem openFull_inv {k : Nat} {p : List Byte} {r' : Reader} (h : r.openFull k = (.ok p, r')) :
    ∃ c m, c.length = k ∧ r.aead.open (r.nonce.take r.aead.nonceSize) c = .ok m ∧
      p = copy c m ∧
      r' = { r with
        src := (readFull k r.src).2.2
        nonce := incrementNonce r.aead r.nonce
        opens := r.opens ++ [(r.nonce.take r.aead.nonceSize, c)] } := by
  rw [openFull] at h
  dsimp only at h
  cases hread : (readFull k r.src).2.1 with
  | some err =>
    rw [hread] at h
    cases h
  | none =>
    rw [hread] at h
    dsimp only at h
    refine ⟨(readFull k r.src).1, ?_⟩
    cases hopen : r.aead.open (r.nonce.take r.aead.nonceSize) (readFull k r.src).1 with
    | error err =>
      rw [hopen] at h
      cases h
    | ok m =>
      rw [hopen] at h
      cases h
      exact ⟨m, readFull_length hread, rfl, rfl, rfl⟩

/-- `Open` calls are only ever added. -/
theorem opens_le_Read (r : Reader) (len : Nat) : r.opens.length ≤ (r.Read len).2.opens.length := by
  refine Read_induction (P := fun r' => r.opens.length ≤ r'.opens.length) ?_ ?_ len le_rfl
  · intro r' k h
    rw [openFull]
    dsimp only
    split
    · exact h
    · split <;>
        · simp only [List.length_append]
          omega
  · intro r' b off h
    exact h

theorem opens_le_readsUntilError (lens : List Nat) (r : Reader) :
    r.opens.length ≤ (r.readsUntilError lens).2.2.opens.length := by
  induction lens generalizing r with
  | nil => exact le_rfl
  | cons len lens ih =>
    have h := opens_le_Read r len
    rw [readsUntilError]
    dsimp only
    cases (r.Read len).1.2 with
    | some err => exact h
    | none => exact le_trans h (ih _)

/-- Inverting a successful `read`: two messages are opened with successive nonces,
the first gives the size of the second. -/
theorem read_inv {cap : Nat} {d : List Byte} {r' : Reader} (h : r.read cap = (.ok d, r')) :
    ∃ c₁ m₁ c₂ m₂, c₁.length = 2 + r.aead.overhead ∧
      r.aead.open (r.nonce.take r.aead.nonceSize) c₁ = .ok m₁ ∧
      payloadSize (copy c₁ m₁) ≠ 0 ∧
      c₂.length = payloadSize (copy c₁ m₁) + r.aead.overhead ∧
      r.aead.open ((incrementNonce r.aead r.nonce).take r.aead.nonceSize) c₂ = .ok m₂ ∧
      d = (copy c₂ m₂).take (payloadSize (copy c₁ m₁)) ∧
      r'.aead = r.aead ∧ r'.nonce = incrementNonce r.aead (incrementNonce r.aead r.nonce) ∧
      r'.opens.length = r.opens.length + 2 ∧ r'.buf = r.buf ∧ r'.off = r.off := by
  rw [Reader.read] at h
  dsimp only at h
  split at h
  · cases h
  rcases hopen₁ : r.openFull (2 + r.aead.overhead) with ⟨_ | p, r₁⟩
  · rw [hopen₁] at h
    cases h
  rw [hopen₁] at h
  dsimp only at h
  obtain ⟨c₁, m₁, hc₁, hm₁, rfl, rfl⟩ := openFull_inv hopen₁
  split at h
  · cases h
  rename_i hsize
  split at h
  · cases h
  split at h
  · cases h
  rename_i hopen₂
  obtain ⟨c₂, m₂, hc₂, hm₂, rfl, rfl⟩ := openFull_inv hopen₂
  cases h
  exact ⟨c₁, m₁, c₂, m₂, hc₁, hm₁, hsize, hc₂, hm₂, rfl, rfl, rfl, by simp, rfl, rfl⟩

/-- The reader has opened exactly the messages of the records `pre`. -/
structure At (A : AEAD) (pre : List Rec) (r : Reader) : Prop where
  aead : r.aead = A
  nonce : NonceAt A r.nonce r.opens.length
  opens : r.opens.length = (pre.flatMap Rec.messages).length

/-- One record: what `read` returns is the payload of the writer's next record. -/
theorem At.read {pre suf : List Rec} {n cap : Nat} {d : List Byte} {r' : Reader}
    (h : At A pre r) (hideal : Ideal A ((pre ++ suf).flatMap Rec.messages) n)
    (hsize : ∀ x ∈ suf, x.payload.length ≤ payloadSizeMask)
    (hread : r.read cap = (.ok d, r')) (hn : r'.opens.length ≤ n) :
    ∃ suf', suf = .record d :: suf' ∧ At A (pre ++ [.record d]) r' ∧
      r'.buf = r.buf ∧ r'.off = r.off := by
  obtain ⟨rfl, hnonce, hopens⟩ := h
  obtain ⟨c₁, m₁, c₂, m₂, hc₁, hm₁, hpos, hc₂, hm₂, hd, haead, hnonce', hlen, hbuf, hoff⟩ :=
    read_inv hread
  -- the messages opened are those after `pre`
  rw [hnonce.2] at hm₁
  rw [hnonce.next.2] at hm₂
  have hat₁ := (hideal _ (by omega) c₁ m₁ hm₁).1
  have hat₂ := (hideal _ (by omega) c₂ m₂ hm₂).1
  rw [List.flatMap_append, List.getElem?_append_right (by omega)] at hat₁ hat₂
  rw [hopens, Nat.sub_self] at hat₁
  rw [hopens, Nat.add_sub_cancel_left] at hat₂
  cases suf with
  | nil => cases hat₁
  | cons x suf' =>
    cases x with
    | zero =>
      -- the size zero is an error, so `read` did not get this far
      obtain rfl : putUint16 0 = m₁ := Option.some.inj hat₁
      exact absurd (payloadSize_copy (Nat.zero_le _) c₁ (by omega)) hpos
    | record d' =>
      obtain rfl : putUint16 d'.length = m₁ := Option.some.inj hat₁
      obtain rfl : d' = m₂ := Option.some.inj hat₂
      have hle : d'.length ≤ payloadSizeMask := hsize (.record d') (List.mem_cons_self ..)
      rw [payloadSize_copy hle c₁ (by omega)] at hc₂ hd
      obtain rfl : d = d' := by
        rw [hd, copy_take le_rfl (by omega), List.take_length]
      refine ⟨suf', rfl, ⟨haead, ?_, ?_⟩, hbuf, hoff⟩
      · rw [hnonce', hlen]
        exact hnonce.next.next
      · rw [hlen, hopens, List.flatMap_append, List.length_append]
        rfl

/-- Until the first error: the reader has opened the first of the writer's records
`recs`, and of their payloads it has returned `data` and still holds the rest. -/
def Follows (A : AEAD) (recs : List Rec) (data : List Byte) (r : Reader) : Prop :=
  ∃ pre suf, recs = pre ++ suf ∧ At A pre r ∧ data ++ r.pending = pre.flatMap Rec.payload ∧
    ∀ b, r.buf = some b → r.off ≤ b.length

variable {recs : List Rec} {data : List Byte} {n : Nat}

theorem Follows.prefix_payload (h : Follows A recs data r) :
    data <+: recs.flatMap Rec.payload := by
  obtain ⟨pre, suf, rfl, -, hdata, -⟩ := h
  rw [List.flatMap_append, ← hdata, List.append_assoc]
  exact List.prefix_append _ _

theorem Follows.consume (h : Follows A recs data r) (hbuf : r.buf ≠ none) (len : Nat) :
    (r.consume len).1.2 = none ∧
      Follows A recs (data ++ (r.consume len).1.1) (r.consume len).2 := by
  obtain ⟨pre, suf, hrecs, hat, hdata, hoff⟩ := h
  obtain ⟨b, off, hconsume, hpend, hoff', -⟩ := consume_eq hbuf hoff len
  rw [hconsume]
  refine ⟨rfl, pre, suf, hrecs, ⟨hat.aead, hat.nonce, hat.opens⟩, ?_, hoff'⟩
  rw [hpend, List.append_assoc, List.take_append_drop, hdata]

/-- One record read with an empty buffer: the payload may go to the caller at once,
or into the buffer. -/
theorem Follows.read (h : Follows A recs data r)
    (hideal : Ideal A (recs.flatMap Rec.messages) n)
    (hsize : ∀ x ∈ recs, x.payload.length ≤ payloadSizeMask) (hbuf : r.buf = none)
    {cap : Nat} {d : List Byte} {r' : Reader} (hread : r.read cap = (.ok d, r'))
    (hn : r'.opens.length ≤ n) :
    Follows A recs (data ++ d) r' ∧ Follows A recs data { r' with buf := some d, off := 0 } := by
  obtain ⟨pre, suf, rfl, hat, hdata, -⟩ := h
  have hpend : r.pending = [] := by simp [pending, hbuf]
  rw [hpend, List.append_nil] at hdata
  obtain ⟨suf', rfl, hat', hbuf', -⟩ := hat.read hideal
    (fun x hx => hsize x (List.mem_append_right _ hx)) hread hn
  have hpay : data ++ d = (pre ++ [Rec.record d]).flatMap Rec.payload := by
    rw [List.flatMap_append, hdata]
    simp [Rec.payload]
  have hrecs : pre ++ Rec.record d :: suf' = (pre ++ [.record d]) ++ suf' := by simp
  rw [hbuf] at hbuf'
  constructor
  · refine ⟨_, suf', hrecs, hat', ?_, by simp [hbuf']⟩
    simpa [pending, hbuf'] using hpay
  · refine ⟨_, suf', hrecs, ⟨hat'.aead, hat'.nonce, hat'.opens⟩, ?_, by simp⟩
    simpa [pending] using hpay

/-- **One `Read`.** Without an error it returns the next bytes of the writer's
plaintext, with an error it returns none. -/
theorem Follows.Read (h : Follows A recs data r)
    (hideal : Ideal A (recs.flatMap Rec.messages) n)
    (hsize : ∀ x ∈ recs, x.payload.length ≤ payloadSizeMask) (len : Nat)
    (hn : (r.Read len).2.opens.length ≤ n) :
    ((r.Read len).1.2 = none ∧ Follows A recs (data ++ (r.Read len).1.1) (r.Read len).2) ∨
      ((r.Read len).1.2 ≠ none ∧ (r.Read len).1.1 = []) := by
  by_cases hbuf : r.buf = none
  · rw [Reader.Read, if_pos hbuf] at hn ⊢
    split at hn
    · -- the direct path: the record is opened in the caller's buffer
      rename_i hlen
      rw [if_pos hlen]
      rcases hread : r.read len with ⟨err | d, r'⟩
      · exact .inr ⟨by simp, rfl⟩
      · rw [hread] at hn
        exact .inl ⟨rfl, (h.read hideal hsize hbuf hread hn).1⟩
    · -- the buffered path
      rename_i hlen
      rw [if_neg hlen]
      rcases hread : r.read bufCap with ⟨err | d, r'⟩
      · exact .inr ⟨by simp, rfl⟩
      · rw [hread] at hn
        have hn' : r'.opens.length ≤ n := by
          obtain ⟨b, off, hconsume, -, -⟩ :=
            consume_eq (r := { r' with buf := some d, off := 0 }) (by simp) (by simp) len
          dsimp only at hn
          rw [hconsume] at hn
          exact hn
        exact .inl ((h.read hideal hsize hbuf hread hn').2.consume (by simp) len)
  · rw [Reader.Read, if_neg hbuf]
    exact .inl (h.consume hbuf len)

/-- **Any number of `Read`s**, by induction on their buffer lengths. -/
theorem Follows.readsUntilError (lens : List Nat) (h : Follows A recs data r)
    (hideal : Ideal A (recs.flatMap Rec.messages) n)
    (hsize : ∀ x ∈ recs, x.payload.length ≤ payloadSizeMask)
    (hn : (r.readsUntilError lens).2.2.opens.length ≤ n) :
    data ++ (r.readsUntilError lens).1 <+: recs.flatMap Rec.payload := by
  induction lens generalizing r data with
  | nil =>
    rw [Reader.readsUntilError, List.append_nil]
    exact h.prefix_payload
  | cons len lens ih =>
    have hfirst : (r.Read len).2.opens.length ≤ n := by
      refine le_trans ?_ hn
      rw [Reader.readsUntilError]
      dsimp only
      cases (r.Read len).1.2 with
      | some err => exact le_rfl
      | none => exact opens_le_readsUntilError lens _
    rw [Reader.readsUntilError] at hn ⊢
    dsimp only at hn ⊢
    rcases h.Read hideal hsize len hfirst with ⟨hnone, hnext⟩ | ⟨herr, hempty⟩
    · rw [hnone] at hn ⊢
      rw [← List.append_assoc]
      exact ih hnext hn
    · obtain ⟨err, herr⟩ := Option.ne_none_iff_exists'.mp herr
      rw [herr, hempty, List.append_nil]
      exact h.prefix_payload

end Reader

/-- **Integrity under tampering.** An honest writer makes any calls, over a transport
that may fail; the reader gets whatever bytes `src` an adversary puts behind the
salt. If the nonces the reader gets to open only what the writer sealed with them,
what `Read` returns up to its first error is a prefix of the writer's plaintext, for
all buffer lengths. -/
theorem tampered_reads_authentic (A : AEAD) (wire : Wire) (calls : List WriterCall)
    (src : List Piece) (lens : List Nat)
    (hideal : Ideal A (((Writer.new wire A).run calls).seals.map Prod.snd)
      ((Reader.new src A).readsUntilError lens).2.2.opens.length) :
    ((Reader.new src A).readsUntilError lens).1 <+: (Writer.new wire A).plaintext calls := by
  obtain ⟨recs, happ, hplain, hmem, -⟩ :=
    Writer.run_appends (w := Writer.new wire A) calls (NonceAt.zero A)
  have hsize : ∀ x ∈ recs, x.payload.length ≤ payloadSizeMask := by
    intro x hx
    obtain ⟨c, -, hc⟩ := hmem x hx
    exact WriterCall.payload_length_le hc
  have hlog : ((Writer.new wire A).run calls).seals.map Prod.snd = recs.flatMap Rec.messages :=
    happ.log
  rw [hlog] at hideal
  have hstart : Reader.Follows A recs [] (Reader.new src A) :=
    ⟨[], recs, rfl, ⟨rfl, NonceAt.zero A, rfl⟩, rfl, by simp [Reader.new]⟩
  rw [← hplain]
  exact hstart.readsUntilError lens hideal hsize le_rfl

/-- The records of two writes, followed by copies of them in the wrong order: the reader
stops after the plaintext. -/
theorem tampered_two_writes :
    let A := AEAD.table [putUint16 2, [104, 105], putUint16 1, [33]]
    let one := sealAll A 0 [putUint16 2, [104, 105]]
    let two := sealAll A 2 [putUint16 1, [33]]
    let got := ((Reader.new [⟨one ++ two ++ two ++ one, none⟩] A).readsUntilError [1, 5, 5, 5]).1
    got <+: (Writer.new .fresh A).plaintext [.write [104, 105], .write [33]] ∧
      got = [104, 105, 33] := by
  intro A one two got
  refine ⟨tampered_reads_authentic A .fresh [.write [104, 105], .write [33]] _ _ ?_,
    by decide +kernel⟩
  have hlog : ((Writer.new .fresh A).run [.write [104, 105], .write [33]]).seals.map Prod.snd =
      [putUint16 2, [104, 105], putUint16 1, [33]] := by
    obtain ⟨recs, happ, -, -, hrecs⟩ := Writer.run_appends (w := Writer.new .fresh A)
      [.write [104, 105], .write [33]] (NonceAt.zero A)
    rw [happ.log, hrecs rfl]
    simp [WriterCall.records, Rec.messages, Writer.new, chunks_of_length_le, payloadSizeMask]
  rw [hlog]
  exact Ideal.of_unforgeable (by decide +kernel) (AEAD.table_unforgeable _) (by decide +kernel)

end Tun2socks.Shadowaead
