import Tun2socks.Shadowstream.Stream
import Tun2socks.SimpleObfs.Tls

/-!
# Tun2socks.Shadowstream.Reads

`Reader.Read` called until it fails, against `Reader.WriteTo`.

`WriteTo` decrypts whatever a read of the transport returns before it looks at the error.
`Read` looks at the error first, so the bytes that arrive together with the first error
(`drainLast`) are missing from what it returns.
-/

namespace Tun2socks.Shadowstream

open Tun2socks.Go

namespace Reader

/-- `Read` with buffers of the given sizes, until one of the calls fails: the bytes of all of
them, and the error. -/
def readAll (r : Reader) : List Nat → (List Byte × Option Error) × Reader
  | [] => (([], none), r)
  | k :: ks =>
    match r.read k with
    | ((d, some err), r) => ((d, some err), r)
    | ((d, none), r) => ((d ++ (r.readAll ks).1.1, (r.readAll ks).1.2), (r.readAll ks).2)

variable {src : List Piece} {cipher : StreamCipher} {past : List Byte} {k : Nat}

theorem read_of_error {err : Error} (h : (Go.read k src).2.1 = some err) :
    (⟨src, ⟨cipher, past⟩⟩ : Reader).read k =
      (([], some err), ⟨(Go.read k src).2.2, ⟨cipher, past⟩⟩) := by
  simp only [read, h]

theorem read_of_success (h : (Go.read k src).2.1 = none) :
    (⟨src, ⟨cipher, past⟩⟩ : Reader).read k = ((cipher.xor past (Go.read k src).1, none),
      ⟨(Go.read k src).2.2, ⟨cipher, past ++ (Go.read k src).1⟩⟩) := by
  simp only [read, h]
  rfl

/-! ### Reading until the first error -/

/-- The reads that end in an error return the decryption of all that the transport has
returned, but for the bytes that came with the error. -/
theorem readAll_error (ks : List Nat) {err : Error}
    (h : ((⟨src, ⟨cipher, past⟩⟩ : Reader).readAll ks).1.2 = some err) :
    ∃ lost, cipher.xor past (drain src).1 =
        ((⟨src, ⟨cipher, past⟩⟩ : Reader).readAll ks).1.1 ++ lost ∧
      (lost = [] ↔ drainLast src = []) := by
  induction ks generalizing src past with
  | nil => cases h
  | cons k ks ih =>
    unfold readAll at h ⊢
    cases hread : (Go.read k src).2.1 with
    | some e =>
      rw [read_of_error hread]
      obtain ⟨hdrain, hlast⟩ := drain_of_error hread
      refine ⟨cipher.xor past (Go.read k src).1, ?_, ?_⟩
      · rw [hdrain]
        rfl
      · rw [hlast, ← List.length_eq_zero_iff, cipher.length_xor, List.length_eq_zero_iff]
    | none =>
      rw [read_of_success hread] at h ⊢
      obtain ⟨hdrain, hlast⟩ := drain_of_success hread
      obtain ⟨lost, hlost, hiff⟩ := ih h
      refine ⟨lost, ?_, hiff.trans hlast⟩
      rw [hdrain, cipher.append, hlost, List.append_assoc]

/-- Reads with room for a byte use up what the transport has in store. -/
theorem readAll_reaches (ks : List Nat) (h : readerSize src < ks.countP (0 < ·)) :
    ((⟨src, ⟨cipher, past⟩⟩ : Reader).readAll ks).1.2 ≠ none := by
  induction ks generalizing src past with
  | nil => cases h
  | cons k ks ih =>
    unfold readAll
    cases hread : (Go.read k src).2.1 with
    | some e =>
      rw [read_of_error hread]
      exact Option.some_ne_none e
    | none =>
      rw [read_of_success hread]
      apply ih
      rw [List.countP_cons] at h
      split at h
      next hk =>
        have := readerSize_read (of_decide_eq_true hk) hread
        omega
      next hk =>
        have := readerSize_read_le k src
        omega

/-! ### WriteTo -/

theorem pass_reliable (sent data : List Byte) :
    pass ⟨cipher, past⟩ ⟨sent, []⟩ data =
      ((data.length, none), ⟨cipher, past ++ data⟩, ⟨sent ++ cipher.xor past data, []⟩) := by
  unfold pass
  split
  · have hcount : (⟨sent, []⟩ : Wire).count (cipher.xor past data) = data.length :=
      (Wire.count_of_ok rfl).trans (cipher.length_xor past data)
    simp only [Stream.xorKeyStream, hcount]
    rfl
  next h =>
    obtain rfl : data = [] := List.eq_nil_of_length_eq_zero (by omega)
    rw [cipher.xor_nil, List.append_nil, List.append_nil]
    rfl

/-- `WriteTo` passes on the decryption of all that the transport returns. If the transport
does not fail, it is used up. -/
theorem writeToLoop_reliable (r : Reader) (sent : List Byte) (n : Nat) :
    (r.writeToLoop ⟨sent, []⟩ n).1 = (n + (drain r.src).1.length, ignoreEOF (drain r.src).2) ∧
      (r.writeToLoop ⟨sent, []⟩ n).2.2 =
        ⟨sent ++ r.stream.cipher.xor r.stream.past (drain r.src).1, []⟩ ∧
      (r.writeToLoop ⟨sent, []⟩ n).2.1.stream =
        ⟨r.stream.cipher, r.stream.past ++ (drain r.src).1⟩ ∧
      ∀ s, Fragments s r.src → (r.writeToLoop ⟨sent, []⟩ n).2.1.src = [] := by
  generalize hsink : (⟨sent, []⟩ : Wire) = sink
  fun_induction writeToLoop r sink n generalizing sent with
  | case1 r sink n x y ew =>
    rename_i hew
    subst hsink
    have hy : y = _ := pass_reliable sent x.1
    rw [hy] at hew
    cases hew
  | case2 r sink n x y _ er =>
    rename_i her
    subst hsink
    have hy : y = _ := pass_reliable sent x.1
    rw [hy, (drain_of_error her).1]
    exact ⟨rfl, rfl, rfl, fun s h => h.read_error (her ▸ Option.some_ne_none er)⟩
  | case3 r sink n x y _ hnone =>
    rename_i ih
    subst hsink
    have hy : y = _ := pass_reliable sent x.1
    rw [hy] at ih ⊢
    rw [(drain_of_success hnone).1]
    obtain ⟨hret, hsink, hstream, hsrc⟩ := ih _ rfl
    refine ⟨?_, ?_, ?_, fun s h => ?_⟩
    · rw [hret, List.length_append, Nat.add_assoc]
    · rw [hsink, r.stream.cipher.append, ← List.append_assoc]
    · rw [hstream, ← List.append_assoc]
    · obtain ⟨m, e, ps', hread, -, -, hfr, -⟩ := h.read bufSize
      exact hsrc _ (by rw [show x = _ from hread]; exact hfr)

end Reader

/-- **Data that arrives with the error.** `WriteTo` passes the decryption of everything the
transport returns to a sink that accepts it. Reads until the first error, which enough
reads with room for a byte reach, return the same if and only if no bytes arrive with
that error. -/
theorem reads_agree_iff (cipher : StreamCipher) (src : List Piece) :
    let r := Reader.new src cipher
    let w := r.writeTo .fresh
    w.2.2.sent = cipher.xor [] (drain src).1 ∧
    w.1 = ((drain src).1.length, ignoreEOF (drain src).2) ∧
    (∀ ks, readerSize src < ks.countP (0 < ·) → (r.readAll ks).1.2 ≠ none) ∧
    ((∀ ks, (r.readAll ks).1.2 ≠ none → (r.readAll ks).1.1 = w.2.2.sent) ↔ drainLast src = []) := by
  intro r w
  obtain ⟨hret, hsink, -⟩ := r.writeToLoop_reliable [] 0
  have hsent : w.2.2.sent = cipher.xor [] (drain src).1 := congrArg Wire.sent hsink
  refine ⟨hsent, ?_, fun ks => Reader.readAll_reaches ks, ?_, ?_⟩
  · rw [Nat.zero_add] at hret
    exact hret
  · intro h
    -- one byte at a time reaches the error
    have hcount : readerSize src < (List.replicate (readerSize src + 1) 1).countP (0 < ·) := by
      rw [List.countP_replicate]
      exact Nat.lt_succ_self _
    obtain ⟨ks, hks⟩ : ∃ ks, (r.readAll ks).1.2 ≠ none := ⟨_, Reader.readAll_reaches _ hcount⟩
    obtain ⟨err, herr⟩ := Option.ne_none_iff_exists'.mp hks
    obtain ⟨lost, hlost, hiff⟩ := Reader.readAll_error ks herr
    have hgot := h ks hks
    rw [hsent, hlost] at hgot
    exact hiff.mp (List.append_right_eq_self.mp hgot.symm)
  · intro hlast ks hks
    obtain ⟨err, herr⟩ := Option.ne_none_iff_exists'.mp hks
    obtain ⟨lost, hlost, hiff⟩ := Reader.readAll_error ks herr
    rw [hsent, hlost, hiff.mpr hlast, List.append_nil]
    rfl

/-- A record of four bytes of which two have come: `TLSObfs.Read` returns them together with
an error. Over a transport that answers so, `Read` returns nothing and `WriteTo` passes
both bytes on. -/
theorem reads_lose_last :
    let o := SimpleObfs.TLSObfs.new ⟨[⟨List.replicate 105 0 ++ [0, 4, 7, 8], none⟩], .fresh⟩ []
    let r := Reader.new [⟨[7, 8], some .unexpectedEOF⟩] (.ofKeystream fun _ => 0)
    (o.Read 4).1 = ([7, 8], some .unexpectedEOF) ∧
      (r.readAll [4]).1 = ([], some .unexpectedEOF) ∧ (r.writeTo .fresh).2.2.sent = [7, 8] := by
  intro o r
  refine ⟨by decide +kernel, by decide +kernel, ?_⟩
  exact (congrArg Wire.sent (r.writeToLoop_reliable [] 0).2.1).trans (by decide +kernel)

end Tun2socks.Shadowstream
