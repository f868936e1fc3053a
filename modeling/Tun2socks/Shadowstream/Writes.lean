import Tun2socks.Shadowstream.Stream

/-!
# Tun2socks.Shadowstream.Writes

What a `Conn` puts on the wire does not depend on how the data is split into calls, nor on
how `Write` and `ReadFrom` split it again to fit their scratch buffer.
-/

namespace Tun2socks.Shadowstream

open Tun2socks.Go

/-! ### The writer -/

/-- The transport accepts everything, and behind `first` it has got the encryption of
`data`. -/
structure Wrote (first : List Byte) (cipher : StreamCipher) (data : List Byte) (w : Writer) :
    Prop where
  wire : w.wire = ⟨first ++ cipher.xor [] data, []⟩
  stream : w.stream = ⟨cipher, data⟩

section Writer

variable {first data : List Byte} {cipher : StreamCipher} {w : Writer}

theorem Wrote.new (first : List Byte) (cipher : StreamCipher) :
    Wrote first cipher [] (.new ⟨first, []⟩ cipher) := by
  refine ⟨?_, rfl⟩
  rw [cipher.xor_nil, List.append_nil]
  rfl

theorem Wrote.encrypt (h : Wrote first cipher data w) (src : List Byte) :
    (w.encrypt src).1 = (src.length, none) ∧
      Wrote first cipher (data ++ src) (w.encrypt src).2 := by
  obtain ⟨wire, stream⟩ := w
  obtain ⟨rfl, rfl⟩ := h
  have hok :
      ((⟨⟨first ++ cipher.xor [] data, []⟩, ⟨cipher, data⟩⟩ : Writer).encrypt src).1.2 = none := rfl
  refine ⟨Prod.ext (Writer.encrypt_count hok) hok, ?_, rfl⟩
  have happ := cipher.append [] data src
  rw [List.nil_append] at happ
  rw [happ, ← List.append_assoc]
  rfl

theorem Wrote.writeLoop (p : List Byte) (n : Nat) (h : Wrote first cipher (data ++ p.take n) w)
    (hn : n ≤ p.length) :
    (w.writeLoop p n).1 = (p.length, none) ∧
      Wrote first cipher (data ++ p) (w.writeLoop p n).2 := by
  fun_induction Writer.writeLoop p n w with
  | case1 n w hlt r err herr =>
    have hok := (h.encrypt ((p.drop n).take bufSize)).1
    rw [show r.1.2 = none from congrArg Prod.snd hok] at herr
    cases herr
  | case2 n w hlt r hnone ih =>
    obtain ⟨hok, hw⟩ := h.encrypt ((p.drop n).take bufSize)
    have hcount : r.1.1 = ((p.drop n).take bufSize).length := congrArg Prod.fst hok
    have htake : p.take (n + r.1.1) = p.take n ++ (p.drop n).take bufSize := by
      rw [List.take_add, hcount, ← List.prefix_iff_eq_take.mp (List.take_prefix ..)]
    have hle : n + r.1.1 ≤ p.length := by
      rw [hcount, List.length_take, List.length_drop]
      omega
    refine ih ?_ hle
    rw [htake, ← List.append_assoc]
    exact hw
  | case3 n w hge =>
    obtain rfl : n = p.length := by omega
    rw [List.take_length] at h
    exact ⟨rfl, h⟩

theorem Wrote.readFromLoop (h : Wrote first cipher data w) (src : List Piece) (n : Nat) :
    (w.readFromLoop src n).1 = (n + (drain src).1.length, ignoreEOF (drain src).2) ∧
      Wrote first cipher (data ++ (drain src).1) (w.readFromLoop src n).2 := by
  fun_induction Writer.readFromLoop w src n generalizing data with
  | case1 w src n x r err =>
    have hok := congrArg Prod.snd (h.encrypt x.1).1
    rename_i herr
    cases hok.symm.trans herr
  | case2 w src n x r _ er =>
    rename_i her
    rw [(drain_of_error her).1]
    exact ⟨rfl, (h.encrypt x.1).2⟩
  | case3 w src n x r _ hnone =>
    rename_i ih
    rw [(drain_of_success hnone).1]
    obtain ⟨hret, hw⟩ := ih (h.encrypt x.1).2
    refine ⟨?_, ?_⟩
    · rw [hret, List.length_append, Nat.add_assoc]
    · rwa [← List.append_assoc]

end Writer

/-! ### The connection -/

/-- A call that sends: `Write(b)`, or `ReadFrom(r)` with what `r` is going to answer. -/
inductive Call
  | write (b : List Byte)
  | readFrom (src : List Piece)

namespace Call

/-- The bytes a call is given. -/
def data : Call → List Byte
  | write b => b
  | readFrom src => (drain src).1

/-- The error a call has to report: the one its source ended with, if that is not `io.EOF`. -/
def err : Call → Option Error
  | write _ => none
  | readFrom src => ignoreEOF (drain src).2

end Call

/-- The call, with the randomness it is given. -/
def Conn.call (rand : Nat → Byte) (c : Conn) : Call → (Nat × Option Error) × Conn
  | .write b => c.write rand b
  | .readFrom src => c.readFrom rand src

/-- The connection has chosen its IV and made the calls `ks`, over a transport that accepts
everything. The IV is sent with the first of them. -/
structure Conn.After (ciph : Cipher) (iv : List Byte) (ks : List Call) (c : Conn) : Prop where
  cipher : c.ciph = ciph
  writeIV : c.writeIV = iv
  length : iv.length = ciph.ivSize
  writer : match c.w with
    | none => ks = [] ∧ c.conn.wire = .fresh
    | some w => ks ≠ [] ∧ Wrote iv (ciph.encrypter iv) (ks.flatMap Call.data) w

namespace Conn

section Obtain

variable (rand : Nat → Byte) (src : List Piece) (ciph : Cipher)

/-- An IV is chosen once. -/
theorem obtainWriteIV_new : ((new ⟨src, .fresh⟩ ciph).obtainWriteIV rand).1 = newIV rand ciph ∧
    After ciph (newIV rand ciph) [] ((new ⟨src, .fresh⟩ ciph).obtainWriteIV rand).2 := by
  have hlength := newIV_length rand ciph
  unfold obtainWriteIV
  split
  next h =>
    -- an IV of length zero
    have hnil : newIV rand ciph = [] := by
      rw [← List.length_eq_zero_iff, hlength]
      exact h.symm
    exact ⟨hnil.symm, rfl, hnil.symm, hlength, rfl, rfl⟩
  · exact ⟨rfl, rfl, rfl, hlength, rfl, rfl⟩

end Obtain

namespace After

variable {rand : Nat → Byte} {src : List Piece} {ciph : Cipher} {iv : List Byte} {ks : List Call}
  {c : Conn}

theorem obtainWriteIV (h : After ciph iv ks c) (rand : Nat → Byte) :
    c.obtainWriteIV rand = (iv, c) := by
  rw [Conn.obtainWriteIV, h.writeIV, h.cipher, if_pos h.length]

/-- The writer of the connection, put on the transport now or before. -/
theorem ready (h : After ciph iv ks c) (rand : Nat → Byte) :
    ∃ w c', c.writer rand = (.ok w, c') ∧ c'.ciph = ciph ∧ c'.writeIV = iv ∧
      Wrote iv (ciph.encrypter iv) (ks.flatMap Call.data) w := by
  have hwriter := h.writer
  unfold Conn.writer
  cases hw : c.w with
  | some w =>
    rw [hw] at hwriter
    exact ⟨w, c, rfl, h.cipher, h.writeIV, hwriter.2⟩
  | none =>
    rw [hw] at hwriter
    obtain ⟨rfl, hwire⟩ := hwriter
    unfold initWriter
    rw [h.obtainWriteIV rand]
    dsimp only
    rw [hwire, h.cipher]
    exact ⟨_, _, rfl, rfl, h.writeIV, Wrote.new iv (ciph.encrypter iv)⟩

theorem call (h : After ciph iv ks c) (rand : Nat → Byte) (k : Call) :
    (c.call rand k).1 = (k.data.length, k.err) ∧
      After ciph iv (ks ++ [k]) (c.call rand k).2 := by
  obtain ⟨w, c', hready, hciph, hiv, hw⟩ := h.ready rand
  have hdata : (ks ++ [k]).flatMap Call.data = ks.flatMap Call.data ++ k.data := by simp
  cases k with
  | write b =>
    obtain ⟨hret, hwrote⟩ := Wrote.writeLoop b 0 (by simpa using hw) (Nat.zero_le _)
    simp only [Conn.call, Conn.write, hready]
    exact ⟨hret, hciph, hiv, h.length, by simp, hdata ▸ hwrote⟩
  | readFrom src =>
    obtain ⟨hret, hwrote⟩ := hw.readFromLoop src 0
    rw [Nat.zero_add] at hret
    simp only [Conn.call, Conn.readFrom, hready]
    exact ⟨hret, hciph, hiv, h.length, by simp, hdata ▸ hwrote⟩

/-- What the transport has got. -/
theorem sent (h : After ciph iv ks c) : c.sent = if ks = [] then [] else
    iv ++ (ciph.encrypter iv).xor [] (ks.flatMap Call.data) := by
  have hwriter := h.writer
  unfold Conn.sent
  cases hw : c.w with
  | none =>
    rw [hw] at hwriter
    rw [if_pos hwriter.1, hwriter.2]
    rfl
  | some w =>
    rw [hw] at hwriter
    rw [if_neg hwriter.1]
    exact congrArg Wire.sent hwriter.2.wire

end After

/-- The first call on a new connection may as well find the IV chosen. -/
theorem call_new (rand : Nat → Byte) (src : List Piece) (ciph : Cipher) (k : Call) :
    (new ⟨src, .fresh⟩ ciph).call rand k =
      ((new ⟨src, .fresh⟩ ciph).obtainWriteIV rand).2.call rand k := by
  obtain ⟨hiv, hafter⟩ := obtainWriteIV_new rand src ciph
  have hw : ((new ⟨src, .fresh⟩ ciph).obtainWriteIV rand).2.w = none := by
    unfold obtainWriteIV
    split
    · rfl
    · rfl
  have hwriter : (new ⟨src, .fresh⟩ ciph).writer rand =
      ((new ⟨src, .fresh⟩ ciph).obtainWriteIV rand).2.writer rand := by
    unfold writer
    rw [hw]
    unfold initWriter
    rw [hafter.obtainWriteIV rand, ← hiv]
    rfl
  cases k with
  | write b => simp only [call, write, hwriter]
  | readFrom src => simp only [call, readFrom, hwriter]

end Conn

/-- **The wire does not depend on the split.** After any calls on a new connection whose
transport accepts everything, each has reported the number of its own bytes, and the wire
carries the IV, once and first, and the encryption of all the data. Before the first call
it carries nothing. -/
theorem stream_writes (rand : Nat → Byte) (ciph : Cipher) (src : List Piece) (ks : List Call) :
    let iv := Conn.newIV rand ciph
    let r := calls (Conn.call rand) (.new ⟨src, .fresh⟩ ciph) ks
    r.1 = ks.map (fun k => (k.data.length, k.err)) ∧
    r.2.sent = if ks = [] then [] else iv ++ (ciph.encrypter iv).xor [] (ks.flatMap Call.data) := by
  intro iv r
  cases ks with
  | nil => exact ⟨rfl, rfl⟩
  | cons k ks =>
    have hfirst : r = calls (Conn.call rand)
        ((Conn.new ⟨src, .fresh⟩ ciph).obtainWriteIV rand).2 (k :: ks) := by
      simp only [r, calls, Conn.call_new]
    obtain ⟨hret, hafter⟩ := calls_collect (f := Conn.call rand) (P := Conn.After ciph iv)
      (fun _ c k h => h.call rand k) (Conn.obtainWriteIV_new rand src ciph).2 (k :: ks)
    rw [← hfirst, List.nil_append, List.flatMap_singleton'] at hafter
    rw [← hfirst] at hret
    exact ⟨hret, hafter.sent⟩

end Tun2socks.Shadowstream
