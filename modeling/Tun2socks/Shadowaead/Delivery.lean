import Tun2socks.Shadowaead.Records

/-!
# Tun2socks.Shadowaead.Delivery

One direction of an AEAD stream delivers what was written, no more and no less.

The invariant of the receiving side is `Reader.Delivers A data r`: what the reader
still owes is `data`, first the unconsumed part of its buffer and then the payloads
of the records to come. Every call, and every step of a `WriteTo` that is still
running, moves a prefix of `data` to the caller (`Reader.Delivers.call`).
-/

namespace Tun2socks.Shadowaead

open Tun2socks.Go

namespace Reader

variable {A : AEAD} {r : Reader} {data : List Byte} {ds : List (List Byte)}

/-- The records to come are those of the payloads `ds`. -/
def Expects (A : AEAD) (ds : List (List Byte)) (r : Reader) : Prop :=
  (∃ i, Honest A i ((ds.map Rec.record).flatMap Rec.messages) r) ∧
    ∀ d ∈ ds, d ≠ [] ∧ d.length ≤ payloadSizeMask

/-- What the reader still owes is `data`. -/
structure Delivers (A : AEAD) (data : List Byte) (r : Reader) : Prop where
  owes : ∃ ds, Expects A ds r ∧ data = r.pending ++ ds.flatten
  off_le : ∀ b, r.buf = some b → r.off ≤ b.length

/-- The next `Read` finds something to return: the buffer has been given back or holds
something, or nothing is owed. -/
def Settled (data : List Byte) (r : Reader) : Prop :=
  r.buf = none ∨ r.pending ≠ [] ∨ data = []

/-- `read` takes the next record, or finds the end. -/
theorem Expects.read (hA : A.Correct) (h : Expects A ds r) {cap : Nat}
    (hcap : payloadSizeMask + A.overhead ≤ cap) :
    (ds = [] ∧ ∃ r', r.read cap = (.error .eof, r') ∧ Expects A [] r' ∧
      r'.buf = r.buf ∧ r'.off = r.off) ∨
    ∃ d ds', ds = d :: ds' ∧ ∃ r', r.read cap = (.ok d, r') ∧ Expects A ds' r' ∧
      r'.buf = r.buf ∧ r'.off = r.off := by
  obtain ⟨⟨i, hon⟩, hds⟩ := h
  cases ds with
  | nil =>
    obtain ⟨r', hread, hon', hbuf, hoff⟩ := read_end hon hcap
    exact .inl ⟨rfl, r', hread, ⟨⟨i, hon'⟩, by simp⟩, hbuf, hoff⟩
  | cons d ds =>
    obtain ⟨hne, hle⟩ := hds d (by simp)
    obtain ⟨r', hread, hon', hbuf, hoff⟩ := read_record hA hon hne hle hcap
    exact .inr ⟨d, ds, rfl, r', hread,
      ⟨⟨i + 2, hon'⟩, fun d hd => hds d (List.mem_cons_of_mem _ hd)⟩, hbuf, hoff⟩

/-- Neither side of the buffer fields is looked at by `Expects`. -/
theorem Expects.withBuf (h : Expects A ds r) (b : Option (List Byte)) (off : Nat) :
    Expects A ds { r with buf := b, off := off } := by
  obtain ⟨⟨i, hon⟩, hds⟩ := h
  exact ⟨⟨i, hon.aead, hon.nonce, hon.src⟩, hds⟩

/-- Handing over `n` pending bytes, with or without giving the buffer back. -/
theorem Delivers.skip (h : Delivers A data r) {n : Nat} (hn : n ≤ r.pending.length) :
    ∃ data', data = r.pending.take n ++ data' ∧
      Delivers A data' { r with off := r.off + n } ∧
      Delivers A data' (release { r with off := r.off + n }) ∧
      Settled data' (release { r with off := r.off + n }) := by
  obtain ⟨⟨ds, hexp, rfl⟩, hoff⟩ := h
  have hoff' : ∀ b, r.buf = some b → r.off + n ≤ b.length := by
    intro b hb
    have := hoff b hb
    simp only [pending, hb, Option.getD_some, List.length_drop] at hn
    omega
  refine ⟨r.pending.drop n ++ ds.flatten, ?_, ⟨⟨ds, hexp.withBuf _ _, ?_⟩, hoff'⟩,
    ⟨⟨ds, hexp.withBuf _ _, ?_⟩, ?_⟩, ?_⟩
  · rw [← List.append_assoc, List.take_append_drop]
  · rw [pending_skip]
  · rw [pending_release, pending_skip]
  · intro b hb
    simp only [release] at hb
    split at hb
    · cases hb
    · exact hoff' b hb
  · exact (release_settled (r := { r with off := r.off + n }) hoff').imp_right .inl

theorem Delivers.consume (h : Delivers A data r) (hbuf : r.buf ≠ none) (len : Nat) :
    ∃ data', data = (r.consume len).1.1 ++ data' ∧ (r.consume len).1.2 = none ∧
      Delivers A data' (r.consume len).2 ∧ Settled data' (r.consume len).2 := by
  obtain ⟨⟨ds, hexp, rfl⟩, hoff⟩ := h
  obtain ⟨b, off, hconsume, hpend, hoff', hsettled⟩ := consume_eq hbuf hoff len
  rw [hconsume]
  refine ⟨r.pending.drop len ++ ds.flatten, ?_, rfl, ⟨⟨ds, hexp.withBuf b off, ?_⟩, hoff'⟩,
    hsettled.imp_right .inl⟩
  · rw [← List.append_assoc, List.take_append_drop]
  · rw [hpend]

/-- A record goes into an empty or consumed buffer. -/
theorem Expects.fill (h : Expects A ds r) (d : List Byte) :
    Delivers A (d ++ ds.flatten) { r with buf := some d, off := 0 } where
  owes := ⟨ds, h.withBuf _ _, by simp [pending]⟩
  off_le b hb := by simp

/-- With nothing pending the reader owes the payloads of the records to come. -/
theorem Expects.delivers (h : Expects A ds r) (hp : r.pending = [])
    (hoff : ∀ b, r.buf = some b → r.off ≤ b.length) : Delivers A ds.flatten r :=
  ⟨⟨ds, h, by rw [hp, List.nil_append]⟩, hoff⟩

theorem Expects.delivers_nil (h : Expects A ds r) (hbuf : r.buf = none) :
    Delivers A ds.flatten r :=
  h.delivers (by simp [pending, hbuf]) (by simp [hbuf])

/-- **One `Read`.** It hands over a prefix of what the reader owes, and its only
error is `io.EOF`. -/
theorem Delivers.Read (hA : A.Correct) (h : Delivers A data r) (len : Nat) :
    ∃ data', data = (r.Read len).1.1 ++ data' ∧ Delivers A data' (r.Read len).2 ∧
      Settled data' (r.Read len).2 ∧
      ((r.Read len).1.2 = none ∨ (r.Read len).1.2 = some .eof) := by
  obtain ⟨ds, hexp, hdata⟩ := h.owes
  have haead : r.aead = A := by
    obtain ⟨⟨i, hon⟩, -⟩ := hexp
    exact hon.aead
  rw [Reader.Read, haead]
  by_cases hbuf : r.buf = none
  · -- nothing is pending: the bytes come from the next record, if there is one
    have hpend : r.pending = [] := by simp [pending, hbuf]
    rw [hpend, List.nil_append] at hdata
    subst hdata
    rw [if_pos hbuf]
    split
    · rename_i hlen
      rcases hexp.read hA hlen with ⟨rfl, r', hread, hexp', hbuf', -⟩ |
        ⟨d, ds', rfl, r', hread, hexp', hbuf', -⟩
      · rw [hread]
        exact ⟨[], rfl, hexp'.delivers_nil (hbuf'.trans hbuf), .inr (.inr rfl), .inr rfl⟩
      · rw [hread]
        exact ⟨ds'.flatten, rfl, hexp'.delivers_nil (hbuf'.trans hbuf),
          .inl (hbuf'.trans hbuf), .inl rfl⟩
    · rcases hexp.read hA (le_bufCap A) with ⟨rfl, r', hread, hexp', hbuf', -⟩ |
        ⟨d, ds', rfl, r', hread, hexp', -, -⟩
      · rw [hread]
        exact ⟨[], rfl, hexp'.delivers_nil (hbuf'.trans hbuf), .inr (.inr rfl), .inr rfl⟩
      · rw [hread]
        obtain ⟨data', hdata, hnone, hdel, hsettled⟩ := (hexp'.fill d).consume (by simp) len
        exact ⟨data', hdata, hdel, hsettled, .inl hnone⟩
  · rw [if_neg hbuf]
    obtain ⟨data', hdata, hnone, hdel, hsettled⟩ := h.consume hbuf len
    exact ⟨data', hdata, hdel, hsettled, .inl hnone⟩

/-- A `Read` with room for a byte returns one, as long as any are owed. -/
theorem Delivers.Read_progress (hA : A.Correct) (h : Delivers A data r) (hs : Settled data r)
    {len : Nat} (hlen : 0 < len) (hdata : data ≠ []) : (r.Read len).1.1 ≠ [] := by
  have htake : ∀ {d : List Byte}, d ≠ [] → d.take len ≠ [] := by
    intro d hd
    rw [ne_eq, List.take_eq_nil_iff, not_or]
    exact ⟨Nat.ne_of_gt hlen, hd⟩
  obtain ⟨⟨ds, hexp, hds⟩, hoff⟩ := h
  have haead : r.aead = A := by
    obtain ⟨⟨i, hon⟩, -⟩ := hexp
    exact hon.aead
  rw [Reader.Read, haead]
  by_cases hbuf : r.buf = none
  · -- the next record is not empty
    have hpend : r.pending = [] := by simp [pending, hbuf]
    have hne : ds ≠ [] := by
      rintro rfl
      rw [hpend] at hds
      exact hdata hds
    have hrecord : ∀ d ds', ds = d :: ds' → d ≠ [] := by
      rintro d ds' rfl
      exact (hexp.2 d (List.mem_cons_self ..)).1
    rw [if_pos hbuf]
    split
    next hcap =>
      rcases hexp.read hA hcap with ⟨hnil, -⟩ | ⟨d, ds', hcons, r', hread, -⟩
      · exact absurd hnil hne
      · rw [hread]
        exact hrecord d ds' hcons
    · rcases hexp.read hA (le_bufCap A) with ⟨hnil, -⟩ | ⟨d, ds', hcons, r', hread, -⟩
      · exact absurd hnil hne
      · rw [hread]
        exact htake (hrecord d ds' hcons)
  · rw [if_neg hbuf]
    obtain ⟨b, off, hconsume, -⟩ := consume_eq hbuf hoff len
    rw [hconsume]
    exact htake ((hs.resolve_left hbuf).resolve_right hdata)

end Reader

/-! ### WriteTo -/

theorem Sink.write_le (d : List Byte) (s : Sink) : (s.write d).1 ≤ d.length := by
  cases s with
  | nil => exact le_rfl
  | cons a s => exact Nat.min_le_right _ _

theorem Sink.write_rest (d : List Byte) (s : Sink) : (s.write d).2.2 ⊆ s := by
  cases s with
  | nil => exact List.Subset.refl _
  | cons a s => exact List.subset_cons_self _ _

/-- An error of a write is one the sink had in store. -/
theorem Sink.write_err {d : List Byte} {s : Sink} {e : Error} (h : (s.write d).2.1 = some e) :
    ∃ n, (n, some e) ∈ s := by
  cases s with
  | nil => simp [Sink.write] at h
  | cons a s =>
    obtain ⟨n, e'⟩ := a
    simp only [Sink.write] at h
    exact ⟨n, by simp [h]⟩

/-- What a `WriteTo` into the sink `s` may return on an honest stream: nothing yet,
no error, or an error of the sink. -/
def SinkReturn (s : Sink) (ret : Option (Option Error)) : Prop :=
  ret = none ∨ ret = some none ∨ ∃ n e, (n, some e) ∈ s ∧ ret = some (some e)

theorem SinkReturn.mono {s s' : Sink} {ret : Option (Option Error)} (h : SinkReturn s ret)
    (hs : s ⊆ s') : SinkReturn s' ret := by
  rcases h with h | h | ⟨n, e, hmem, h⟩
  · exact .inl h
  · exact .inr (.inl h)
  · exact .inr (.inr ⟨n, e, hs hmem, h⟩)

namespace Reader

variable {A : AEAD}

/-- **The loops of `WriteTo`, at every moment.** After any number of steps the sink
has taken a prefix of what the reader owed, and the reader owes the rest. -/
theorem Delivers.writeToLoop (hA : A.Correct) (fuel : Nat) (s : Sink) (taken : List Byte)
    {data : List Byte} {r : Reader} (h : Delivers A data r) :
    ∃ d data', (writeToLoop fuel s taken r).taken = taken ++ d ∧ data = d ++ data' ∧
      Delivers A data' (writeToLoop fuel s taken r).reader ∧
      ((writeToLoop fuel s taken r).ret ≠ none →
        Settled data' (writeToLoop fuel s taken r).reader) ∧
      SinkReturn s (writeToLoop fuel s taken r).ret := by
  induction fuel generalizing s taken data r with
  | zero =>
    exact ⟨[], data, by simp [Reader.writeToLoop], rfl, h, fun hret => absurd rfl hret, .inl rfl⟩
  | succ fuel ih =>
    have hpend : (r.buf.getD []).drop r.off = r.pending := rfl
    rw [Reader.writeToLoop]
    dsimp only
    rw [hpend]
    by_cases hoff : r.off < (r.buf.getD []).length
    · -- the sink is offered what is pending
      rw [if_pos hoff]
      obtain ⟨data', hdata, hskip, hrel, hsettled⟩ := h.skip (Sink.write_le r.pending s)
      cases herr : (s.write r.pending).2.1 with
      | some ew =>
        obtain ⟨n, hn⟩ := Sink.write_err herr
        exact ⟨_, data', rfl, hdata, hrel, fun _ => hsettled, .inr (.inr ⟨n, ew, hn, rfl⟩)⟩
      | none =>
        obtain ⟨d, data'', htaken, hdata', hdel, hsettled', hret⟩ :=
          ih (s.write r.pending).2.2 (taken ++ r.pending.take (s.write r.pending).1) hskip
        refine ⟨r.pending.take (s.write r.pending).1 ++ d, data'', ?_, ?_, hdel, hsettled',
          hret.mono (Sink.write_rest _ _)⟩
        · rw [htaken, List.append_assoc]
        · rw [hdata, hdata', List.append_assoc]
    · -- nothing is pending: the next record is read
      rw [if_neg hoff]
      obtain ⟨⟨ds, hexp, hdata⟩, hle⟩ := h
      have hnil : r.pending = [] := List.drop_eq_nil_of_le (by omega)
      rw [hnil, List.nil_append] at hdata
      rcases hexp.read hA (le_bufCap A) with ⟨rfl, r', hread, hexp', hbuf', hoff'⟩ |
        ⟨d, ds', rfl, r', hread, hexp', -, -⟩
      · rw [hread]
        refine ⟨[], [], by simp, by simpa using hdata, ?_, fun _ => .inr (.inr rfl),
          .inr (.inl rfl)⟩
        refine hexp'.delivers ?_ ?_
        · rw [pending, hbuf', hoff']
          exact hnil
        · rw [hbuf', hoff']
          exact hle
      · rw [hread]
        obtain ⟨x, data', htaken, hx, hdel, hsettled, hret⟩ := ih s taken (hexp'.fill d)
        exact ⟨x, data', htaken, by rw [hdata, List.flatten_cons, hx], hdel, hsettled, hret⟩

theorem Delivers.writeTo (hA : A.Correct) (s : Sink) (fuel : Nat)
    {data : List Byte} {r : Reader} (h : Delivers A data r) :
    ∃ data', data = (r.writeTo s fuel).taken ++ data' ∧
      Delivers A data' (r.writeTo s fuel).reader ∧
      ((r.writeTo s fuel).ret ≠ none → Settled data' (r.writeTo s fuel).reader) ∧
      SinkReturn s (r.writeTo s fuel).ret := by
  rw [Reader.writeTo]
  split
  · rename_i hbuf
    -- the fresh buffer holds nothing that is owed
    have hfresh : Delivers A data
        { r with buf := some (List.replicate bufSize 0), off := bufSize } := by
      obtain ⟨⟨ds, hexp, hdata⟩, -⟩ := h
      refine ⟨⟨ds, hexp.withBuf _ _, ?_⟩, ?_⟩
      · simpa [pending, hbuf] using hdata
      · intro b hb
        cases hb
        simp
    obtain ⟨d, data', htaken, hdata, hdel, hret⟩ := hfresh.writeToLoop hA fuel s []
    exact ⟨data', by rw [htaken, List.nil_append, hdata], hdel, hret⟩
  · obtain ⟨d, data', htaken, hdata, hdel, hret⟩ := h.writeToLoop hA fuel s []
    exact ⟨data', by rw [htaken, List.nil_append, hdata], hdel, hret⟩

/-- With a sink that takes everything, and nothing pending, the loops run to the end
of the stream. -/
theorem Expects.writeToLoop_drains (hA : A.Correct) (ds : List (List Byte)) (taken : List Byte)
    {r : Reader} (h : Expects A ds r) (hp : r.pending = []) :
    ∃ fuel, (Reader.writeToLoop fuel [] taken r).taken = taken ++ ds.flatten ∧
      (Reader.writeToLoop fuel [] taken r).ret = some none := by
  have hoff : ∀ {r : Reader}, r.pending = [] → ¬ r.off < (r.buf.getD []).length := by
    intro r hp
    have := congrArg List.length hp
    simp only [pending, List.length_drop, List.length_nil] at this
    omega
  induction ds generalizing taken r with
  | nil =>
    rcases h.read hA (le_bufCap A) with ⟨-, r', hread, -, -, -⟩ | ⟨d, ds', hcons, -⟩
    · refine ⟨1, ?_, ?_⟩ <;>
        · rw [Reader.writeToLoop]
          dsimp only
          rw [if_neg (hoff hp), hread]
          simp [ignoreEOF]
    · cases hcons
  | cons d ds ih =>
    rcases h.read hA (le_bufCap A) with ⟨hnil, -⟩ | ⟨d', ds', hcons, r', hread, hexp, -, -⟩
    · cases hnil
    · obtain ⟨rfl, rfl⟩ := List.cons.inj hcons
      have hd : d ≠ [] := (h.2 d (by simp)).1
      -- two steps: the record is read, then the sink takes all of it
      obtain ⟨fuel, htaken, hret⟩ := ih (taken ++ d)
        (r := { r' with buf := some d, off := 0 + d.length })
        (hexp.withBuf _ _) (by simp [pending])
      have hstep : Reader.writeToLoop (fuel + 2) [] taken r =
          Reader.writeToLoop fuel [] (taken ++ d)
            { r' with buf := some d, off := 0 + d.length } := by
        rw [Reader.writeToLoop]
        dsimp only
        rw [if_neg (hoff hp), hread]
        dsimp only
        rw [Reader.writeToLoop]
        simp [Sink.write, hd, List.length_pos_iff]
      refine ⟨fuel + 2, ?_, ?_⟩
      · rw [hstep, htaken, List.flatten_cons, List.append_assoc]
      · rw [hstep, hret]

/-- **`WriteTo` into a sink that takes everything returns, and delivers everything.** -/
theorem Delivers.writeTo_drains (hA : A.Correct) {data : List Byte} {r : Reader}
    (h : Delivers A data r) :
    ∃ fuel, (r.writeTo [] fuel).taken = data ∧ (r.writeTo [] fuel).ret = some none := by
  obtain ⟨⟨ds, hexp, rfl⟩, hle⟩ := h
  by_cases hbuf : r.buf = none
  · obtain ⟨fuel, htaken, hret⟩ := Expects.writeToLoop_drains hA ds []
      (hexp.withBuf (some (List.replicate bufSize 0)) bufSize) (by simp [pending])
    have hpend : r.pending = [] := by simp [pending, hbuf]
    refine ⟨fuel, ?_, ?_⟩
    · rw [Reader.writeTo, if_pos hbuf, htaken, hpend]
    · rw [Reader.writeTo, if_pos hbuf, hret]
  · by_cases hpend : r.pending = []
    · obtain ⟨fuel, htaken, hret⟩ := hexp.writeToLoop_drains hA ds [] hpend
      exact ⟨fuel, by rw [Reader.writeTo, if_neg hbuf, htaken, hpend],
        by rw [Reader.writeTo, if_neg hbuf, hret]⟩
    · -- one step more: first the sink takes what is pending
      obtain ⟨fuel, htaken, hret⟩ := Expects.writeToLoop_drains hA ds r.pending
        (hexp.withBuf r.buf (r.off + r.pending.length)) (by simp [pending]; omega)
      have hoff : r.off < (r.buf.getD []).length := by
        have := List.length_pos_iff.mpr hpend
        rw [pending, List.length_drop] at this
        omega
      have hstep : Reader.writeToLoop (fuel + 1) [] [] r = Reader.writeToLoop fuel [] r.pending
          { r with off := r.off + r.pending.length } := by
        rw [Reader.writeToLoop]
        dsimp only
        rw [if_pos hoff, show (r.buf.getD []).drop r.off = r.pending from rfl]
        simp [Sink.write]
      exact ⟨fuel + 1, by rw [Reader.writeTo, if_neg hbuf, hstep, htaken],
        by rw [Reader.writeTo, if_neg hbuf, hstep, hret]⟩

end Reader

/-! ### Runs of calls -/

/-- What a call on an honest connection may return: `Read` no error or `io.EOF`;
`WriteTo` also an error of its own sink, and `io.EOF` only when the stream is empty. -/
def Expected : ReaderCall → Outcome → Prop
  | .read _, o => o.ret = some none ∨ o.ret = some (some .eof)
  | .writeTo s _, o => SinkReturn s o.ret ∨ o.ret = some (some .eof)

/-- If every call hands over a beginning of what is owed, so does a run; and if every call
that returns leaves the object settled, so does a run of calls that all return. -/
theorem calls_deliver {σ : Type} {call : σ → ReaderCall → Outcome × σ}
    {Owes Settled : List Byte → σ → Prop}
    (hcall : ∀ data s c, Owes data s → ∃ data', data = (call s c).1.data ++ data' ∧
      Owes data' (call s c).2 ∧ ((call s c).1.ret ≠ none → Settled data' (call s c).2) ∧
      Expected c (call s c).1)
    (cs : List ReaderCall) {data : List Byte} {s : σ} (h : Owes data s) :
    ∃ data', data = delivered (calls call s cs).1 ++ data' ∧ Owes data' (calls call s cs).2 ∧
      (Settled data s → (∀ x ∈ (calls call s cs).1, x.ret ≠ none) →
        Settled data' (calls call s cs).2) ∧
      ∀ x ∈ cs.zip (calls call s cs).1, Expected x.1 x.2 := by
  induction cs generalizing data s with
  | nil => exact ⟨data, rfl, h, fun hs _ => hs, by simp [calls]⟩
  | cons c cs ih =>
    obtain ⟨data₁, hdata₁, hdel₁, hset₁, hexp₁⟩ := hcall data s c h
    obtain ⟨data₂, hdata₂, hdel₂, hset₂, hexp₂⟩ := ih hdel₁
    refine ⟨data₂, ?_, hdel₂, fun _ hret => ?_, ?_⟩
    · rw [hdata₁, hdata₂, calls, delivered, delivered, List.flatMap_cons, List.append_assoc]
    · rw [calls, List.forall_mem_cons] at hret
      exact hset₂ (hset₁ hret.1) hret.2
    · intro x hx
      rw [calls, List.zip_cons_cons, List.mem_cons] at hx
      rcases hx with rfl | hx
      · exact hexp₁
      · exact hexp₂ x hx

namespace Reader

variable {A : AEAD}

/-- **One call.** It hands over a prefix of what the reader owes. -/
theorem Delivers.call (hA : A.Correct) {data : List Byte} {r : Reader} (h : Delivers A data r)
    (c : ReaderCall) :
    ∃ data', data = (r.call c).1.data ++ data' ∧ Delivers A data' (r.call c).2 ∧
      ((r.call c).1.ret ≠ none → Settled data' (r.call c).2) ∧ Expected c (r.call c).1 := by
  cases c with
  | read len =>
    obtain ⟨data', hdata, hdel, hsettled, herr⟩ := h.Read hA len
    exact ⟨data', hdata, hdel, fun _ => hsettled, by simpa [Expected, Reader.call] using herr⟩
  | writeTo s fuel =>
    obtain ⟨data', hdata, hdel, hsettled, hret⟩ := h.writeTo hA s fuel
    exact ⟨data', hdata, hdel, hsettled, .inl hret⟩

/-- **A run of calls.** -/
theorem Delivers.run (hA : A.Correct) (calls : List ReaderCall) {data : List Byte} {r : Reader}
    (h : Delivers A data r) :
    ∃ data', data = delivered (r.run calls).1 ++ data' ∧ Delivers A data' (r.run calls).2 ∧
      (Settled data r → (∀ x ∈ (r.run calls).1, x.ret ≠ none) →
        Settled data' (r.run calls).2) ∧
      ∀ x ∈ calls.zip (r.run calls).1, Expected x.1 x.2 := by
  rw [run_eq_calls]
  exact calls_deliver (fun _ _ c h => h.call hA c) calls h

end Reader

/-! ### The two connections -/

namespace Conn

variable {A : AEAD}

/-- The transport has nothing left and nothing is pending in the buffer. -/
def Drained (c : Conn) : Prop :=
  match c.r with
  | none => c.src.flatMap Piece.data = []
  | some r => r.src.flatMap Piece.data = [] ∧ r.pending = []

/-- What the connection still owes is `data`: before the salt has been read the
stream is empty or begins with it. -/
def Delivers (A : AEAD) (data : List Byte) (c : Conn) : Prop :=
  0 < c.ciph.saltSize ∧
    match c.r with
    | some r => r.Delivers A data
    | none =>
      (data = [] ∧ Fragments [] c.src) ∨
      ∃ (salt : List Byte) (ds : List (List Byte)),
        salt.length = c.ciph.saltSize ∧ c.ciph.decrypter salt = .ok A ∧
        (∀ d ∈ ds, d ≠ [] ∧ d.length ≤ payloadSizeMask) ∧ data = ds.flatten ∧
        Fragments (salt ++ sealAll A 0 ((ds.map Rec.record).flatMap Rec.messages)) c.src

/-- The next `Read` finds something to return, as far as there is a reader. -/
def Settled (data : List Byte) (c : Conn) : Prop := ∀ r, c.r = some r → r.Settled data

/-- The reader is there, or the stream is empty. -/
theorem Delivers.reader {data : List Byte} {c : Conn} (h : Delivers A data c) :
    (∃ r c', c.reader = (.ok r, c') ∧ r.Delivers A data ∧ c'.ciph = c.ciph ∧
      (c.Settled data → r.Settled data)) ∨
    (data = [] ∧ ∃ c', c.reader = (.error .eof, c') ∧ Delivers A [] c') := by
  obtain ⟨hsalt, h⟩ := h
  rw [Conn.reader]
  cases hr : c.r with
  | some r =>
    rw [hr] at h
    exact .inl ⟨r, c, rfl, h, rfl, fun hs => hs r hr⟩
  | none =>
    rw [hr] at h
    rcases h with ⟨rfl, hfr⟩ | ⟨salt, ds, hlen, hdec, hds, rfl, hfr⟩
    · refine .inr ⟨rfl, { c with src := [] }, ?_, hsalt, ?_⟩
      · simp [initReader, hfr.readFull_short (by simpa using hsalt)]
      · simp [hr, Fragments.nil]
    · obtain ⟨ps', hread, hfr'⟩ := hfr.readFull_append
      rw [hlen] at hread
      refine .inl ⟨Reader.new ps' A, { c with src := ps', r := some (Reader.new ps' A) },
        ?_, ?_, rfl, fun _ => .inl rfl⟩
      · simp [initReader, hread, hdec]
      · exact Reader.Expects.delivers_nil
          ⟨⟨0, rfl, NonceAt.zero A, hfr'⟩, hds⟩ rfl

/-- **One call of the peer.** -/
theorem Delivers.call (hA : A.Correct) {data : List Byte} {c : Conn} (h : Delivers A data c)
    (rc : ReaderCall) :
    ∃ data', data = (c.call rc).1.data ++ data' ∧ Delivers A data' (c.call rc).2 ∧
      ((c.call rc).1.ret ≠ none → Settled data' (c.call rc).2) ∧ Expected rc (c.call rc).1 := by
  have hsalt := h.1
  rcases h.reader with ⟨r, c', hreader, hdel, hciph, -⟩ | ⟨rfl, c', hreader, hdel⟩
  · have hcall : c.call rc = ((r.call rc).1, { c' with r := some (r.call rc).2 }) := by
      cases rc with
      | read len => simp only [Conn.call, Conn.read, hreader, Reader.call]
      | writeTo s fuel => simp only [Conn.call, Conn.writeTo, hreader, Reader.call]
    obtain ⟨data', hdata, hdel', hsettled, hexp⟩ := hdel.call hA rc
    rw [hcall]
    refine ⟨data', hdata, ⟨by simpa [hciph] using hsalt, hdel'⟩, fun hret r' hr' => ?_, hexp⟩
    obtain rfl := Option.some.inj hr'
    exact hsettled hret
  · have hnil : ∀ c : Conn, c.Settled [] := fun _ _ _ => .inr (.inr rfl)
    cases rc with
    | read len =>
      simp only [Conn.call, Conn.read, hreader]
      exact ⟨[], rfl, hdel, fun _ => hnil c', .inr rfl⟩
    | writeTo s fuel =>
      simp only [Conn.call, Conn.writeTo, hreader]
      exact ⟨[], rfl, hdel, fun _ => hnil c', .inr rfl⟩

/-- A `Read` with room for a byte returns one, as long as any are owed. -/
theorem Delivers.read_progress (hA : A.Correct) {data : List Byte} {c : Conn}
    (h : Delivers A data c) (hs : c.Settled data) {len : Nat} (hlen : 0 < len)
    (hdata : data ≠ []) : (c.call (.read len)).1.data ≠ [] := by
  rcases h.reader with ⟨r, c', hreader, hdel, -, hsettled⟩ | ⟨rfl, -⟩
  · simp only [Conn.call, Conn.read, hreader]
    exact hdel.Read_progress hA (hsettled hs) hlen hdata
  · exact absurd rfl hdata

/-- **A run of the peer.** -/
theorem Delivers.run (hA : A.Correct) (calls : List ReaderCall) {data : List Byte} {c : Conn}
    (h : Delivers A data c) :
    ∃ data', data = delivered (c.run calls).1 ++ data' ∧ Delivers A data' (c.run calls).2 ∧
      (Settled data c → (∀ x ∈ (c.run calls).1, x.ret ≠ none) →
        Settled data' (c.run calls).2) ∧
      ∀ x ∈ calls.zip (c.run calls).1, Expected x.1 x.2 := by
  rw [run_eq_calls]
  exact calls_deliver (fun _ _ c h => h.call hA c) calls h

/-- A drained connection owes nothing. -/
theorem Delivers.drained {data : List Byte} {c : Conn} (h : Delivers A data c)
    (hd : c.Drained) : data = [] := by
  obtain ⟨hsalt, h⟩ := h
  rw [Drained] at hd
  cases hr : c.r with
  | none =>
    rw [hr] at h hd
    rcases h with ⟨rfl, -⟩ | ⟨salt, ds, hlen, -, -, -, hfr⟩
    · rfl
    · have hnil := hfr.flatMap_data.symm.trans hd
      have := (List.append_eq_nil_iff.mp hnil).1
      simp [this] at hlen
      omega
  | some r =>
    rw [hr] at h hd
    obtain ⟨⟨ds, ⟨⟨i, hon⟩, hds⟩, rfl⟩, -⟩ := h
    cases ds with
    | nil => simpa using hd.2
    | cons d ds =>
      have hlen := congrArg List.length (hon.src.flatMap_data.symm.trans hd.1)
      simp [Rec.messages, sealAll, A.seal_length] at hlen

/-- A connection that owes `data` can always be drained by one `WriteTo`. -/
theorem Delivers.drains (hA : A.Correct) {data : List Byte} {c : Conn} (h : Delivers A data c) :
    ∃ fuel, (c.call (.writeTo [] fuel)).1.data = data ∧
      (c.call (.writeTo [] fuel)).1.ret ≠ none := by
  rcases h.reader with ⟨r, c', hreader, hdel, -, -⟩ | ⟨rfl, c', hreader, -⟩
  · obtain ⟨fuel, htaken, hret⟩ := hdel.writeTo_drains hA
    refine ⟨fuel, ?_, ?_⟩
    · simp only [Conn.call, Conn.writeTo, hreader, htaken]
    · simp [Conn.call, Conn.writeTo, hreader, hret]
  · exact ⟨0, by simp [Conn.call, Conn.writeTo, hreader],
      by simp [Conn.call, Conn.writeTo, hreader]⟩

/-! ### The sending side -/

theorem writes_of_writer (rand : Nat → Byte) (ps : List (List Byte)) {c : Conn} {w : Writer}
    (h : c.w = some w) : (c.writes rand ps).w = some (w.run (ps.map .write)) := by
  induction ps generalizing c w with
  | nil => exact h
  | cons p ps ih =>
    have hstep : (c.write rand p).2.2.w = some (w.call (.write p)) := by
      simp [Conn.write, Conn.writer, h, Writer.call]
    exact ih hstep

/-- What a connection has sent after some non-empty writes: nothing, or the salt and
the records of the chunks. -/
theorem writes_sent {rand : Nat → Byte} {c : Conn} (hw : c.w = none) (hwire : c.wire = .fresh)
    (hkey : c.ciph.encrypter (newSalt rand c.ciph) = .ok A) {ps : List (List Byte)}
    (hne : ∀ p ∈ ps, p ≠ []) :
    (c.writes rand ps).sent = if ps = [] then [] else newSalt rand c.ciph ++
      sealAll A 0
        (((ps.flatMap (chunks payloadSizeMask)).map Rec.record).flatMap Rec.messages) := by
  cases ps with
  | nil => simp [Conn.writes, sent, hw, hwire, Wire.fresh]
  | cons p ps =>
    -- the first write puts a new `Writer` behind the salt
    set w : Writer := Writer.new ⟨newSalt rand c.ciph, []⟩ A with hwdef
    have hfirst : (c.write rand p).2.2.w = some (w.call (.write p)) := by
      simp [Conn.write, Conn.writer, hw, initWriter, hkey, hwire, Wire.fresh, Wire.write,
        Writer.call, hwdef]
    have hall := writes_of_writer rand ps hfirst
    obtain ⟨recs, happ, -, -, hrecs⟩ :=
      Writer.run_appends (w := w) ((p :: ps).map .write) (NonceAt.zero A)
    have hmap : ((p :: ps).map WriterCall.write).flatMap WriterCall.records =
        ((p :: ps).flatMap (chunks payloadSizeMask)).map Rec.record := by
      rw [List.flatMap_map, List.map_flatMap]
      apply List.flatMap_congr
      intro q hq
      simp [WriterCall.records, hne q hq]
    have hsent := (happ.sent rfl).2
    rw [hrecs rfl, hmap] at hsent
    have hrun : (c.writes rand (p :: ps)).w = some (w.run ((p :: ps).map .write)) := hall
    rw [sent, hrun, if_neg (by simp)]
    exact hsent

end Conn

/-- **The AEAD stream delivers without loss, duplication or reordering.** Two
connections with one pre-shared key: whatever non-empty slices one of them writes,
however the transport cuts the resulting bytes, and whatever `Read` and `WriteTo`
calls the other makes, what has been delivered at any moment is a prefix of what was
written, it is all of it once transport and buffer are empty (and a `WriteTo` into a
sink that takes everything always gets there), and no call fails but at the end of
the stream or by its own sink. Unless a `WriteTo` is still running, every `Read` with room
for a byte delivers one until all has been delivered. -/
theorem stream_delivers_written
    (hkdf : List Byte → List Byte → String → Nat → List Byte)
    (makeAEAD : List Byte → Except Error AEAD) (psk : List Byte) (rand : Nat → Byte) (A : AEAD)
    (hA : A.Correct)
    (hkey : makeAEAD (hkdf psk (Conn.newSalt rand (metaCipher hkdf makeAEAD psk)) "ss-subkey"
      psk.length) = .ok A)
    (written : List (List Byte)) (hne : ∀ p ∈ written, p ≠ []) (pieces : List Piece)
    (hfr : Fragments ((Conn.new ⟨[], .fresh⟩ (metaCipher hkdf makeAEAD psk)).writes rand
      written).sent pieces)
    (calls : List ReaderCall) :
    let peer := (Conn.new ⟨pieces, .fresh⟩ (metaCipher hkdf makeAEAD psk)).run calls
    delivered peer.1 <+: written.flatten ∧
      (peer.2.Drained → delivered peer.1 = written.flatten) ∧
      (∃ fuel, delivered peer.1 ++ (peer.2.call (.writeTo [] fuel)).1.data = written.flatten ∧
        (peer.2.call (.writeTo [] fuel)).1.ret ≠ none) ∧
      (∀ x ∈ calls.zip peer.1, Expected x.1 x.2) ∧
      ((∀ x ∈ peer.1, x.ret ≠ none) → ∀ len, 0 < len →
        (peer.2.call (.read len)).1.data ≠ [] ∨ delivered peer.1 = written.flatten) := by
  intro peer
  set ciph := metaCipher hkdf makeAEAD psk with hciph
  have hsalt : 0 < ciph.saltSize := by
    simp only [hciph, metaCipher]
    split <;> omega
  have hstart : Conn.Delivers A written.flatten (Conn.new ⟨pieces, .fresh⟩ ciph) := by
    refine ⟨hsalt, ?_⟩
    rw [Conn.writes_sent (A := A) rfl rfl hkey hne] at hfr
    by_cases hw : written = []
    · rw [if_pos hw] at hfr
      exact .inl ⟨by simp [hw], hfr⟩
    · rw [if_neg hw] at hfr
      refine .inr ⟨_, written.flatMap (chunks payloadSizeMask), ?_, hkey, ?_, ?_, hfr⟩
      · simp [Conn.newSalt, Conn.new]
      · intro d hd
        obtain ⟨p, -, hd⟩ := List.mem_flatMap.mp hd
        obtain ⟨hpos, hle⟩ := length_of_mem_chunks hd
        exact ⟨List.length_pos_iff.mp hpos, hle⟩
      · clear hfr hne hw
        induction written with
        | nil => rfl
        | cons p ps ih =>
          rw [List.flatMap_cons, List.flatten_append, ← ih, chunks_flatten payloadSizeMask_pos,
            List.flatten_cons]
  obtain ⟨data, hdata, hdel, hsettled, hexp⟩ := hstart.run hA calls
  refine ⟨⟨data, hdata.symm⟩, ?_, ?_, hexp, fun hret len hlen => ?_⟩
  · intro hd
    have := hdel.drained hd
    rw [hdata, this, List.append_nil]
  · obtain ⟨fuel, htaken, hret⟩ := hdel.drains hA
    exact ⟨fuel, by rw [htaken, hdata], hret⟩
  · by_cases hnil : data = []
    · exact .inr (by rw [hdata, hnil, List.append_nil])
    · have hnew : (Conn.new ⟨pieces, .fresh⟩ ciph).Settled written.flatten := fun r hr => nomatch hr
      exact .inl (hdel.read_progress hA (hsettled hnew hret) hlen hnil)

/-- Two writes, delivered in one piece, read partly by `Read` and partly by
`WriteTo`. -/
theorem stream_delivers_two_writes :
    let ciph := metaCipher (fun psk _ _ _ => psk) (fun _ => .ok AEAD.tagged) [1, 2, 3]
    let sender := (Conn.new ⟨[], .fresh⟩ ciph).writes (fun _ => 7) [[104, 105], [33]]
    let peer := (Conn.new ⟨[⟨sender.sent, none⟩], .fresh⟩ ciph).run [.read 1, .writeTo [] 9]
    delivered peer.1 <+: [104, 105, 33] :=
  (stream_delivers_written (fun psk _ _ _ => psk) (fun _ => .ok AEAD.tagged) [1, 2, 3]
    (fun _ => 7) AEAD.tagged AEAD.tagged_correct rfl [[104, 105], [33]] (by simp) _
    (by simpa using Fragments.cons _ Fragments.nil) [.read 1, .writeTo [] 9]).1

end Tun2socks.Shadowaead
