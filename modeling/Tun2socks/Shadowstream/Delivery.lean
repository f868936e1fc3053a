import Tun2socks.Shadowstream.Reads
import Tun2socks.Shadowstream.Writes

/-!
# Tun2socks.Shadowstream.Delivery

Two connections with one key: what one of them sends, the other receives.

The IV is sent once and first, and everything behind it is one run of the cipher, so the reader
may cut what it gets anywhere. `Conn.Owes` is what a connection has still to return.

A transport may report its end together with the last bytes. `Reader.Read` drops these bytes and
`Reader.WriteTo` does not, so whether all of the data arrives depends on which of them meets the
end. Every statement about reading carries the assumption `alone` that the end comes without a
byte, and only what needs it uses it.
-/

namespace Tun2socks.Shadowstream

open Tun2socks.Go

/-! ### Sending -/

/-- A call on the sending side of a connection. -/
inductive Send
  | call (k : Call)
  | obtainWriteIV

/-- What such a call returns: the number and the error, or the IV. -/
inductive Sent
  | wrote (n : Nat) (err : Option Error)
  | iv (iv : List Byte)

/-- The call, with the randomness it is given. -/
def Conn.send (c : Conn) : (Nat → Byte) × Send → Sent × Conn
  | (rand, .call k) => (.wrote (c.call rand k).1.1 (c.call rand k).1.2, (c.call rand k).2)
  | (rand, .obtainWriteIV) => (.iv (c.obtainWriteIV rand).1, (c.obtainWriteIV rand).2)

namespace Send

/-- The data that a call is given. -/
def data : Send → List Byte
  | call k => k.data
  | obtainWriteIV => []

/-- The calls of `Write` and `ReadFrom` among them. -/
def calls : Send → List Call
  | call k => [k]
  | obtainWriteIV => []

/-- What a call has to return: its own bytes, or the one IV. -/
def result (iv : List Byte) : Send → Sent
  | call k => .wrote k.data.length k.err
  | obtainWriteIV => .iv iv

theorem flatMap_calls (s : Send) : s.calls.flatMap Call.data = s.data := by
  cases s with
  | call k => exact List.flatMap_singleton ..
  | obtainWriteIV => rfl

end Send

namespace Conn

variable {ciph : Cipher}

theorem After.send {iv : List Byte} {ks : List Call} {c : Conn} (h : After ciph iv ks c)
    (x : (Nat → Byte) × Send) :
    (c.send x).1 = x.2.result iv ∧ After ciph iv (ks ++ x.2.calls) (c.send x).2 := by
  obtain ⟨rand, k | _⟩ := x
  · obtain ⟨hret, hafter⟩ := h.call rand k
    refine ⟨?_, hafter⟩
    simp only [Conn.send, hret]
    rfl
  · simp only [Conn.send, h.obtainWriteIV rand]
    refine ⟨rfl, ?_⟩
    rwa [Send.calls, List.append_nil]

theorem send_new (x : (Nat → Byte) × Send) :
    (new ⟨[], .fresh⟩ ciph).send x = ((new ⟨[], .fresh⟩ ciph).obtainWriteIV x.1).2.send x := by
  obtain ⟨rand, k | _⟩ := x
  · simp only [send, ← call_new]
  · obtain ⟨hiv, hafter⟩ := obtainWriteIV_new rand [] ciph
    simp only [send, hafter.obtainWriteIV rand, hiv]

/-- A run on the sending side: there is one IV, each call returns what it has to, and what the
transport gets is nothing, or the IV and the encryption of the data. -/
theorem sends_new (ciph : Cipher) (sends : List ((Nat → Byte) × Send)) :
    let r := Go.calls send (new ⟨[], .fresh⟩ ciph) sends
    let data := sends.flatMap fun x => x.2.data
    ∃ iv : List Byte, iv.length = ciph.ivSize ∧ r.1 = sends.map (fun x => x.2.result iv) ∧
      (data = [] ∧ r.2.sent = [] ∨ r.2.sent = iv ++ (ciph.encrypter iv).xor [] data) := by
  intro r data
  cases sends with
  | nil => exact ⟨newIV (fun _ => 0) ciph, newIV_length _ ciph, rfl, .inl ⟨rfl, rfl⟩⟩
  | cons x xs =>
    have hfirst : r = Go.calls send ((new ⟨[], .fresh⟩ ciph).obtainWriteIV x.1).2 (x :: xs) := by
      simp only [r, Go.calls, ← send_new]
    obtain ⟨hret, hafter⟩ := calls_collect (f := send) (P := After ciph (newIV x.1 ciph))
      (fun _ c y h => h.send y) (obtainWriteIV_new x.1 [] ciph).2 (x :: xs)
    rw [← hfirst, List.nil_append] at hafter
    rw [← hfirst] at hret
    refine ⟨newIV x.1 ciph, newIV_length x.1 ciph, hret, ?_⟩
    have hdata : ((x :: xs).flatMap fun y => y.2.calls).flatMap Call.data = data := by
      rw [List.flatMap_assoc]
      simp only [Send.flatMap_calls, data]
    have hsent := hafter.sent
    rw [hdata] at hsent
    split at hsent
    next hnil =>
      rw [hnil] at hdata
      exact .inl ⟨hdata.symm, hsent⟩
    · exact .inr hsent

end Conn

/-! ### The reader -/

variable {alone : Prop} {ciph : Cipher} {iv data : List Byte}

/-- In the middle of a stream too. -/
theorem Cipher.Correct.xor (h : ciph.Correct) (hiv : iv.length = ciph.ivSize)
    (past data : List Byte) :
    (ciph.decrypter iv).xor ((ciph.encrypter iv).xor [] past)
      ((ciph.encrypter iv).xor past data) = data := by
  have hall := h iv (past ++ data) hiv
  rw [(ciph.encrypter iv).append, (ciph.decrypter iv).append, h iv past hiv] at hall
  simpa using hall

namespace Reader

/-- The reader has still to return `data`. -/
def Owes (alone : Prop) (ciph : Cipher) (iv data : List Byte) (r : Reader) : Prop :=
  ∃ past, r.stream = ⟨ciph.decrypter iv, (ciph.encrypter iv).xor [] past⟩ ∧
    Ends alone ((ciph.encrypter iv).xor past data) r.src

variable {r : Reader}

/-- A `Read` succeeds, or it is at the end and loses what came with the end. -/
theorem Owes.read (hciph : ciph.Correct) (hiv : iv.length = ciph.ivSize)
    (h : r.Owes alone ciph iv data) (k : Nat) :
    ∃ lost rest, data = (r.read k).1.1 ++ lost ++ rest ∧ (r.read k).2.Owes alone ciph iv rest ∧
      ((r.read k).1.2 = none ∧ lost = [] ∨
        (r.read k).1 = ([], some .eof) ∧ rest = [] ∧ (alone → lost = [])) := by
  obtain ⟨src, stream⟩ := r
  obtain ⟨past, rfl, hsrc⟩ := h
  have hlength := (ciph.encrypter iv).length_xor past data
  obtain ⟨n, e, ps', hread, hn, hsrc', rfl | ⟨rfl, rfl, hlast⟩⟩ := hsrc.read k
  · dsimp only at hread
    rw [hlength] at hn
    rw [StreamCipher.take_xor _ _ _ hn] at hread
    rw [StreamCipher.drop_xor _ _ _ hn] at hsrc'
    rw [read_of_success (by rw [hread]), hread]
    refine ⟨[], data.drop n, ?_, ⟨past ++ data.take n, ?_, hsrc'⟩, .inl ⟨rfl, rfl⟩⟩
    · rw [hciph.xor hiv, List.append_nil, List.take_append_drop]
    · simp [(ciph.encrypter iv).append]
  · dsimp only at hread
    rw [read_of_error (by rw [hread]), hread]
    refine ⟨data, [], (List.append_nil data).symm, ⟨past, rfl, ?_⟩, .inr ⟨rfl, rfl, fun ha => ?_⟩⟩
    · rw [List.drop_length] at hsrc'
      rwa [StreamCipher.xor_nil]
    · rw [← List.length_eq_zero_iff, ← hlength, hlast ha]
      rfl

/-- `WriteTo` passes on all the rest. -/
theorem Owes.writeTo (hciph : ciph.Correct) (hiv : iv.length = ciph.ivSize)
    (h : r.Owes alone ciph iv data) :
    (r.writeTo .fresh).1 = (data.length, none) ∧ (r.writeTo .fresh).2.2.sent = data ∧
      (r.writeTo .fresh).2.1.Owes alone ciph iv [] := by
  obtain ⟨src, stream⟩ := r
  obtain ⟨past, rfl, hsrc⟩ := h
  obtain ⟨hret, hsink, hstream, hrest⟩ := writeToLoop_reliable
    ⟨src, ⟨ciph.decrypter iv, (ciph.encrypter iv).xor [] past⟩⟩ [] 0
  rw [hsrc.fragments.drain] at hret hsink hstream
  refine ⟨?_, ?_, past ++ data, ?_, ?_⟩
  · rw [(ciph.encrypter iv).length_xor, Nat.zero_add] at hret
    exact hret
  · rw [hciph.xor hiv] at hsink
    exact congrArg Wire.sent hsink
  · rw [(ciph.encrypter iv).append]
    exact hstream
  · have hnil := hrest _ hsrc.fragments
    rw [StreamCipher.xor_nil]
    exact hnil ▸ Ends.nil

end Reader

/-! ### Receiving -/

/-- A call on the receiving side of a connection: `Read` with a buffer of `k` bytes, `WriteTo`
into a writer that accepts everything, or `ObtainReadIV`. -/
inductive Receive
  | read (k : Nat)
  | writeTo
  | obtainReadIV

/-- A `Read` with room for a byte. -/
def Receive.hasRoom : Receive → Bool
  | read k => 0 < k
  | writeTo => false
  | obtainReadIV => false

/-- What such a call returns. For `WriteTo` this is the number, the error, and the writer
afterwards. -/
inductive Received
  | read (d : List Byte) (err : Option Error)
  | writeTo (n : Nat) (err : Option Error) (sink : Wire)
  | iv (result : Except Error (List Byte))

namespace Received

/-- The data that a call has delivered. -/
def bytes : Received → List Byte
  | read d _ => d
  | writeTo _ _ sink => sink.sent
  | .iv _ => []

/-- The call is at the end of the stream: it reports it, or it is a `WriteTo`. -/
def atEnd : Received → Bool
  | read _ err => err.isSome
  | writeTo .. => true
  | .iv (.error _) => true
  | .iv (.ok _) => false

/-- A call returns data or the IV, or it reports the end of the stream. -/
def Expected (iv : List Byte) : Received → Prop
  | read d err => err = none ∨ err = some .eof ∧ d = []
  | writeTo n err sink => n = sink.sent.length ∧ (err = none ∨ err = some .eof ∧ n = 0)
  | .iv result => result = .ok iv ∨ result = .error .eof

end Received

namespace Conn

/-- The call. -/
def receive (c : Conn) : Receive → Received × Conn
  | .read k => (.read (c.read k).1.1 (c.read k).1.2, (c.read k).2)
  | .writeTo =>
    (.writeTo (c.writeTo .fresh).1.1 (c.writeTo .fresh).1.2 (c.writeTo .fresh).2.2,
      (c.writeTo .fresh).2.1)
  | .obtainReadIV => (.iv c.obtainReadIV.1, c.obtainReadIV.2)

/-- What the transport still has in store. -/
def src (c : Conn) : List Piece :=
  match c.r with
  | some r => r.src
  | none => c.conn.src

/-- The connection has its peer's IV and has still to return `data`. -/
structure Obtained (alone : Prop) (ciph : Cipher) (iv data : List Byte) (c : Conn) : Prop where
  cipher : c.ciph = ciph
  readIV : c.readIV = iv
  owes : match c.r with
    | some r => r.Owes alone ciph iv data
    | none => Ends alone ((ciph.encrypter iv).xor [] data) c.conn.src

/-- The connection has read nothing yet, and has still to return `data`. -/
structure Unread (alone : Prop) (ciph : Cipher) (iv data : List Byte) (c : Conn) : Prop where
  cipher : c.ciph = ciph
  reader : c.r = none
  readIV : c.readIV = []
  src : data = [] ∧ Ends alone [] c.conn.src ∨
    Ends alone (iv ++ (ciph.encrypter iv).xor [] data) c.conn.src

/-- The connection has still to return `data`. -/
def Owes (alone : Prop) (ciph : Cipher) (iv data : List Byte) (c : Conn) : Prop :=
  c.Obtained alone ciph iv data ∨ c.Unread alone ciph iv data

namespace Owes

variable {c : Conn} (hciph : ciph.Correct) (hpos : 0 < ciph.ivSize) (hiv : iv.length = ciph.ivSize)

include hpos hiv in
/-- The IV is there, or the stream is empty. -/
theorem obtainReadIV (h : c.Owes alone ciph iv data) :
    (∃ c', c.obtainReadIV = (.ok iv, c') ∧ c'.r = c.r ∧ c'.Obtained alone ciph iv data) ∨
      data = [] ∧ ∃ c', c.obtainReadIV = (.error .eof, c') ∧ c'.Owes alone ciph iv [] := by
  rcases h with h | h
  · refine .inl ⟨c, ?_, rfl, h⟩
    rw [Conn.obtainReadIV, h.readIV, h.cipher, if_pos hiv]
  · have hempty : ¬ c.readIV.length = ciph.ivSize := by
      rw [h.readIV, List.length_nil]
      omega
    rw [Conn.obtainReadIV, h.cipher, if_neg hempty]
    rcases h.src with ⟨rfl, hsrc⟩ | hsrc
    · rw [hsrc.fragments.readFull_short (by simpa using hpos)]
      exact .inr ⟨rfl, { c with conn.src := [] }, by rw [← h.cipher]; rfl,
        .inr ⟨h.cipher, h.reader, h.readIV, .inl ⟨rfl, .nil⟩⟩⟩
    · obtain ⟨ps', hread, hends⟩ := hsrc.readFull_append
      rw [← hiv, hread]
      refine .inl ⟨{ c with conn.src := ps', readIV := iv }, by rw [← h.cipher], rfl, h.cipher,
        rfl, ?_⟩
      rw [h.reader]
      exact hends

include hpos hiv in
/-- The reader is there, or the stream is empty. -/
theorem reader (h : c.Owes alone ciph iv data) :
    (∃ r c', c.reader = (.ok r, c') ∧ c'.ciph = ciph ∧ c'.readIV = iv ∧
        r.Owes alone ciph iv data) ∨
      data = [] ∧ ∃ c', c.reader = (.error .eof, c') ∧ c'.Owes alone ciph iv [] := by
  unfold Conn.reader
  cases hr : c.r with
  | some r =>
    rcases h with h | h
    · have howes := h.owes
      rw [hr] at howes
      exact .inl ⟨r, c, rfl, h.cipher, h.readIV, howes⟩
    · cases hr.symm.trans h.reader
  | none =>
    unfold initReader
    obtain ⟨c', hget, hr', hobtained⟩ | ⟨rfl, c', hget, hrest⟩ := h.obtainReadIV hpos hiv
    · have hends := hobtained.owes
      rw [hr', hr] at hends
      rw [hget]
      refine .inl ⟨_, _, rfl, hobtained.cipher, hobtained.readIV, [], ?_, hends⟩
      rw [StreamCipher.xor_nil, hobtained.cipher]
      rfl
    · rw [hget]
      exact .inr ⟨rfl, c', rfl, hrest⟩

include hciph hpos hiv in
/-- One call returns the next of the data. It loses some only if it is a `Read` that meets the
end together with the last bytes. -/
theorem receive (h : c.Owes alone ciph iv data) (a : Receive) :
    ∃ lost rest, data = (c.receive a).1.bytes ++ lost ++ rest ∧
      (c.receive a).2.Owes alone ciph iv rest ∧ (c.receive a).1.Expected iv ∧
      ((c.receive a).1.atEnd = true → rest = []) ∧
      (lost = [] ∨ rest = [] ∧ ¬ alone ∧ ∃ k, a = .read k) := by
  cases a with
  | read k =>
    obtain ⟨r, c', hreader, hcipher, hget, howes⟩ | ⟨rfl, c', hreader, howes⟩ := h.reader hpos hiv
    · simp only [Conn.receive, Conn.read, hreader]
      obtain ⟨lost, rest, hdata, howes', ⟨hnone, hlost⟩ | ⟨heof, hrest, hlost⟩⟩ :=
        howes.read hciph hiv k
      · refine ⟨lost, rest, hdata, .inl ⟨hcipher, hget, howes'⟩, .inl hnone, fun hend => ?_,
          .inl hlost⟩
        simp [Received.atEnd, hnone] at hend
      · refine ⟨lost, rest, hdata, .inl ⟨hcipher, hget, howes'⟩, .inr ?_, fun _ => hrest, ?_⟩
        · rw [heof]
          exact ⟨rfl, rfl⟩
        · by_cases ha : alone
          · exact .inl (hlost ha)
          · exact .inr ⟨hrest, ha, k, rfl⟩
    · simp only [Conn.receive, Conn.read, hreader]
      exact ⟨[], [], rfl, howes, .inr ⟨rfl, rfl⟩, fun _ => rfl, .inl rfl⟩
  | writeTo =>
    obtain ⟨r, c', hreader, hcipher, hget, howes⟩ | ⟨rfl, c', hreader, howes⟩ := h.reader hpos hiv
    · simp only [Conn.receive, Conn.writeTo, hreader]
      obtain ⟨hret, hsent, howes'⟩ := howes.writeTo hciph hiv
      refine ⟨[], [], ?_, .inl ⟨hcipher, hget, howes'⟩, ⟨?_, .inl ?_⟩, fun _ => rfl, .inl rfl⟩
      · rw [List.append_nil, List.append_nil]
        exact hsent.symm
      · rw [hret, hsent]
      · rw [hret]
    · simp only [Conn.receive, Conn.writeTo, hreader]
      exact ⟨[], [], rfl, howes, ⟨rfl, .inr ⟨rfl, rfl⟩⟩, fun _ => rfl, .inl rfl⟩
  | obtainReadIV =>
    obtain ⟨c', hget, -, hobtained⟩ | ⟨rfl, c', hget, howes⟩ := h.obtainReadIV hpos hiv
    · simp only [Conn.receive, hget]
      exact ⟨[], data, rfl, .inl hobtained, .inl rfl, fun hend => (nomatch hend), .inl rfl⟩
    · simp only [Conn.receive, hget]
      exact ⟨[], [], rfl, howes, .inr rfl, fun _ => rfl, .inl rfl⟩

include hciph hpos hiv in
/-- Any number of calls. -/
theorem receives (h : c.Owes alone ciph iv data) (as : List Receive) :
    ∃ lost rest, data = (Go.calls Conn.receive c as).1.flatMap Received.bytes ++ lost ++ rest ∧
      (∀ x ∈ (Go.calls Conn.receive c as).1, x.Expected iv ∧ (x.atEnd = true → rest = [])) ∧
      (lost = [] ∨ rest = [] ∧ ¬ alone ∧ ∃ k, .read k ∈ as) := by
  induction as generalizing c data with
  | nil => exact ⟨[], data, rfl, fun x hx => absurd hx List.not_mem_nil, .inl rfl⟩
  | cons a as ih =>
    obtain ⟨lost, rest, hdata, howes, hexp, hend, hlost⟩ := h.receive hciph hpos hiv a
    obtain ⟨lost', rest', hrest, hall, hlost'⟩ := ih howes
    -- once a call is at the end, the calls after it deliver and lose nothing
    have hnil (hrest0 : rest = []) :
        (Go.calls Conn.receive (c.receive a).2 as).1.flatMap Received.bytes = [] ∧ lost' = [] ∧
          rest' = [] := by
      rw [hrest0] at hrest
      have := List.append_eq_nil_iff.mp hrest.symm
      exact ⟨(List.append_eq_nil_iff.mp this.1).1, (List.append_eq_nil_iff.mp this.1).2, this.2⟩
    have hmem : ∀ x ∈ (Go.calls Conn.receive c (a :: as)).1,
        x.Expected iv ∧ (x.atEnd = true → rest' = []) := by
      intro x hx
      rcases List.mem_cons.mp hx with rfl | hx
      · exact ⟨hexp, fun hx => (hnil (hend hx)).2.2⟩
      · exact hall x hx
    rw [Go.calls, List.flatMap_cons]
    rcases hlost with rfl | ⟨hrest0, halone, k, rfl⟩
    · have hlater : lost' = [] ∨ rest' = [] ∧ ¬ alone ∧ ∃ k, .read k ∈ a :: as := by
        obtain hnone | ⟨hrest', halone, k, hk⟩ := hlost'
        · exact .inl hnone
        · exact .inr ⟨hrest', halone, k, List.mem_cons_of_mem a hk⟩
      refine ⟨lost', rest', ?_, hmem, hlater⟩
      rw [hdata, hrest]
      simp only [List.append_nil, List.append_assoc]
    · obtain ⟨hbytes, -, hrest'⟩ := hnil hrest0
      refine ⟨lost, rest', ?_, hmem, .inr ⟨hrest', halone, k, List.mem_cons_self ..⟩⟩
      rw [hbytes, List.append_nil, hrest', ← hrest0]
      exact hdata

end Owes

/-! ### Reaching the end -/

theorem obtainReadIV_size {c c' : Conn} {iv : List Byte} (h : c.obtainReadIV = (.ok iv, c')) :
    c'.r = c.r ∧ readerSize c'.conn.src ≤ readerSize c.conn.src := by
  unfold obtainReadIV at h
  split at h
  · cases h
    exact ⟨rfl, le_rfl⟩
  · dsimp only at h
    split at h
    · cases h
    · cases h
      exact ⟨rfl, readerSize_readLoop_le _ _⟩

theorem reader_size {c c' : Conn} {r : Reader} (h : c.reader = (.ok r, c')) :
    readerSize r.src ≤ readerSize c.src := by
  unfold reader at h
  unfold src
  cases hr : c.r with
  | some r' =>
    rw [hr] at h
    cases h
    exact le_rfl
  | none =>
    rw [hr] at h
    dsimp only [initReader] at h
    split at h
    · cases h
    next hget =>
      cases h
      exact (obtainReadIV_size hget).2

/-- A call is at the end of the stream or uses some of it up, if it is a `Read` with room. -/
theorem receive_size (c : Conn) (a : Receive) : (c.receive a).1.atEnd = true ∨
    readerSize (c.receive a).2.src + (if a.hasRoom then 1 else 0) ≤ readerSize c.src := by
  cases a with
  | writeTo => exact .inl rfl
  | obtainReadIV =>
    rcases hget : c.obtainReadIV with ⟨err | iv, c'⟩
    · simp only [receive, hget]
      exact .inl rfl
    · obtain ⟨hr, hsize⟩ := obtainReadIV_size hget
      simp only [receive, hget, Receive.hasRoom, src, hr]
      right
      split
      · exact le_rfl
      · exact hsize
  | read k =>
    rcases hreader : c.reader with ⟨err | r, c'⟩
    · simp only [receive, read, hreader]
      exact .inl rfl
    · have hsize := reader_size hreader
      cases herr : (Go.read k r.src).2.1 with
      | some err =>
        simp only [receive, read, hreader, Reader.read, herr]
        exact .inl rfl
      | none =>
        have hle := readerSize_read_le k r.src
        simp only [receive, read, hreader, Reader.read, herr, Receive.hasRoom, decide_eq_true_eq]
        right
        show readerSize (Go.read k r.src).2.2 + _ ≤ _
        split
        next hk =>
          have := readerSize_read hk herr
          omega
        · omega

theorem receives_size (c : Conn) (as : List Receive) :
    (∃ x ∈ (Go.calls receive c as).1, x.atEnd = true) ∨
      readerSize (Go.calls receive c as).2.src + as.countP Receive.hasRoom ≤ readerSize c.src := by
  induction as generalizing c with
  | nil => exact .inr le_rfl
  | cons a as ih =>
    rw [Go.calls, List.countP_cons]
    rcases receive_size c a with hend | hstep
    · exact .inl ⟨_, List.mem_cons_self .., hend⟩
    · rcases ih (c.receive a).2 with ⟨x, hx, hend⟩ | hrest
      · exact .inl ⟨x, List.mem_cons_of_mem _ hx, hend⟩
      · right
        dsimp only
        omega

end Conn

/-! ### The two together -/

/-- **The stream cipher delivers.** Whatever `Write`, `ReadFrom` and `ObtainWriteIV` calls one
connection makes, however the transport cuts what they send, and whatever `Read`, `WriteTo` and
`ObtainReadIV` calls the other makes:

* each call of the sender returns what it has to, with one IV for all of them;
* what is delivered is the beginning of the data, the IV obtained is that of the sender, and no
  call fails but with `io.EOF`;
* once a call has reported the end or was a `WriteTo`, all of the data has been delivered, unless
  a `Read` was among the calls and the end came together with the last bytes;
* more reads with room for a byte than the transport has in store get there. -/
theorem stream_conn_delivers {ciph : Cipher} (hciph : ciph.Correct) (hpos : 0 < ciph.ivSize)
    (sends : List ((Nat → Byte) × Send)) {pieces : List Piece}
    (hpieces : Fragments (calls Conn.send (.new ⟨[], .fresh⟩ ciph) sends).2.sent pieces)
    (receives : List Receive) :
    let sender := calls Conn.send (.new ⟨[], .fresh⟩ ciph) sends
    let peer := calls Conn.receive (.new ⟨pieces, .fresh⟩ ciph) receives
    ∃ iv rest, sender.1 = sends.map (fun x => x.2.result iv) ∧
      (sends.flatMap fun x => x.2.data) = peer.1.flatMap Received.bytes ++ rest ∧
      (∀ x ∈ peer.1, x.Expected iv) ∧
      ((∃ x ∈ peer.1, x.atEnd = true) →
        rest = [] ∨ drainLast pieces ≠ [] ∧ ∃ k, .read k ∈ receives) ∧
      (readerSize pieces < receives.countP Receive.hasRoom → ∃ x ∈ peer.1, x.atEnd = true) := by
  intro sender peer
  obtain ⟨iv, hiv, hret, hsent⟩ := Conn.sends_new ciph sends
  have howes : (Conn.new ⟨pieces, .fresh⟩ ciph).Owes (drainLast pieces = []) ciph iv
      (sends.flatMap fun x => x.2.data) := by
    refine .inr ⟨rfl, rfl, rfl, ?_⟩
    rcases hsent with ⟨hdata, hsent⟩ | hsent
    · rw [hsent] at hpieces
      exact .inl ⟨hdata, hpieces, id⟩
    · rw [hsent] at hpieces
      exact .inr ⟨hpieces, id⟩
  obtain ⟨lost, rest, hdata, hall, hlost⟩ := howes.receives hciph hpos hiv receives
  refine ⟨iv, lost ++ rest, hret, ?_, fun x hx => (hall x hx).1, ?_, fun hcount => ?_⟩
  · rw [hdata, List.append_assoc]
  · rintro ⟨x, hx, hend⟩
    rcases hlost with rfl | ⟨-, hlast⟩
    · exact .inl ((hall x hx).2 hend)
    · exact .inr hlast
  · rcases Conn.receives_size (.new ⟨pieces, .fresh⟩ ciph) receives with hend | hsize
    · exact hend
    · have : readerSize (Conn.new ⟨pieces, .fresh⟩ ciph).src = readerSize pieces := rfl
      omega

/-- Two calls over a transport that reports its end with the last bytes. A `Read` of one byte and
then a `WriteTo` get all of the data. -/
theorem stream_conn_delivers_two :
    let ciph : Cipher := ⟨2, fun iv => .ofKeystream fun i => iv.getD (i % 2) 0,
      fun iv => .ofKeystream fun i => iv.getD (i % 2) 0⟩
    let sender := calls Conn.send (.new ⟨[], .fresh⟩ ciph) [(fun _ => 7, .obtainWriteIV),
      (fun _ => 8, .call (.write [1, 2])), (fun _ => 9, .call (.readFrom [⟨[3], some .eof⟩]))]
    let peer := calls Conn.receive (.new ⟨[⟨sender.2.sent, some .eof⟩], .fresh⟩ ciph)
      [.obtainReadIV, .read 1, .writeTo]
    peer.1.flatMap Received.bytes = [1, 2, 3] ∧
      ∃ iv, sender.1 = [.iv iv, .wrote 2 none, .wrote 1 none] ∧ ∀ x ∈ peer.1, x.Expected iv := by
  intro ciph sender peer
  have hciph : ciph.Correct := by
    intro iv data _
    refine List.ext_getElem ?_ fun i _ _ => ?_
    · simp [ciph, StreamCipher.ofKeystream]
    · simp only [ciph, StreamCipher.ofKeystream, List.getElem_mapIdx, List.length_nil]
      rw [UInt8.xor_assoc, UInt8.xor_self, UInt8.xor_zero]
  obtain ⟨iv, -, hret, -, hexpected, -⟩ :=
    stream_conn_delivers hciph (by decide) _ (Fragments.eof sender.2.sent)
      [.obtainReadIV, .read 1, .writeTo]
  exact ⟨by decide +kernel, iv, hret, hexpected⟩

end Tun2socks.Shadowstream
