import Tun2socks.Go.Io

/-!
# Tun2socks.SimpleObfs.Http

The reading side of `HTTPObfs`, the connection of simple-obfs that dresses its traffic as
an HTTP upgrade.

The head of the server's response is looked for in the first read of the transport only.
When it is not complete there, `Read` reports `io.EOF` although the transport has not
ended, and the bytes of that read are gone. What follows the head in that read is handed
out from `buf`, later reads go to the transport.
-/

namespace Tun2socks.SimpleObfs

open Tun2socks.Go

/-- `buffer.RelayBufferSize`. -/
def relayBufferSize : Nat := 20 * 2 ^ 10

/-- `"\r\n\r\n"`. -/
def headEnd : List Byte := [13, 10, 13, 10]

/-- `HTTPObfs`; `buf` is `none` for a nil slice. -/
structure HTTPObfs where
  conn : Conn
  buf : Option (List Byte)
  offset : Nat
  firstResponse : Bool

namespace HTTPObfs

/-- `NewHTTPObfs`. -/
def new (conn : Conn) : HTTPObfs := ⟨conn, none, 0, true⟩

/-- The connection after reads that have left `src`. -/
def leaving (o : HTTPObfs) (src : List Piece) : HTTPObfs := { o with conn.src := src }

/-- `HTTPObfs.Read(b)` with `len(b) = k`: the bytes put into `b`, the error. -/
def Read (o : HTTPObfs) (k : Nat) : (List Byte × Option Error) × HTTPObfs :=
  match o.buf with
  | some buf =>
    let d := (buf.drop o.offset).take k
    if o.offset + d.length = buf.length then
      ((d, none), { o with offset := o.offset + d.length, buf := none })
    else ((d, none), { o with offset := o.offset + d.length })
  | none =>
    if o.firstResponse then
      let r := Go.read relayBufferSize o.conn.src
      match r.2.1 with
      | some err => (([], some err), o.leaving r.2.2)
      | none =>
        match bytesIndex headEnd r.1 with
        | none => (([], some .eof), o.leaving r.2.2)
        | some idx =>
          let body := r.1.drop (idx + 4)
          let d := body.take k
          if d.length < body.length then
            ((d, none), { o.leaving r.2.2 with
              firstResponse := false, buf := some r.1, offset := idx + 4 + d.length })
          else ((d, none), { o.leaving r.2.2 with firstResponse := false })
    else
      let r := Go.read k o.conn.src
      ((r.1, r.2.1), o.leaving r.2.2)

/-! ### Behind the head -/

/-- The bytes of `buf` that have not been returned. -/
def unread (o : HTTPObfs) : List Byte :=
  match o.buf with
  | some buf => buf.drop o.offset
  | none => []

/-- A bound for the reads with room for a byte until the end is reported. -/
def owed (o : HTTPObfs) : Nat := o.unread.length + readerSize o.conn.src

/-- The head has been read and `got` returned, and `ahead` is still in the transport. -/
structure At (rest got ahead : List Byte) (o : HTTPObfs) : Prop where
  firstResponse : o.firstResponse = false
  offset : ∀ buf, o.buf = some buf → o.offset < buf.length
  src : Successful ahead o.conn.src
  split : rest = got ++ o.unread ++ ahead

variable {rest got ahead : List Byte} {o : HTTPObfs}

theorem At.got_prefix (h : At rest got ahead o) : got <+: rest := by
  rw [h.split, List.append_assoc]
  exact List.prefix_append ..

theorem At.read_unread (h : At rest got ahead o) {buf : List Byte} (hbuf : o.buf = some buf)
    (k : Nat) :
    ∃ d o', o.Read k = ((d, none), o') ∧ At rest (got ++ d) ahead o' ∧
      o'.owed + min k 1 ≤ o.owed := by
  have hoff := h.offset buf hbuf
  have hsplit := h.split
  simp only [unread, hbuf] at hsplit
  have howed : o.owed = buf.length - o.offset + readerSize o.conn.src := by
    rw [owed, unread, hbuf, List.length_drop]
  have hlen : ((buf.drop o.offset).take k).length = min k (buf.length - o.offset) := by
    rw [List.length_take, List.length_drop]
  unfold Read
  rw [hbuf]
  dsimp only
  split
  next hall =>
    -- the last bytes of `buf`
    have hd : (buf.drop o.offset).take k = buf.drop o.offset := by
      apply List.take_of_length_le
      rw [List.length_drop]
      omega
    refine ⟨_, _, rfl,
      ⟨h.firstResponse, fun buf' hx => absurd hx (Option.some_ne_none buf').symm, h.src, ?_⟩, ?_⟩
    · rw [hd, hsplit]
      simp [unread]
    · rw [howed]
      simp only [owed, unread, List.length_nil]
      omega
  next hmore =>
    have hdrop : buf.drop (o.offset + ((buf.drop o.offset).take k).length) =
        (buf.drop o.offset).drop k := by
      rw [List.drop_drop, hlen]
      congr 1
      omega
    refine ⟨_, _, rfl, ⟨h.firstResponse, ?_, h.src, ?_⟩, ?_⟩
    · intro buf' hbuf'
      obtain rfl : buf = buf' := Option.some.inj hbuf'
      dsimp only
      omega
    · simp only [unread, hdrop]
      rw [hsplit, List.append_assoc got (List.take _ _), List.take_append_drop]
    · simp only [owed, unread, hbuf, List.length_drop]
      omega

theorem At.read_ahead (h : At rest got ahead o) (hbuf : o.buf = none) (k : Nat) :
    ∃ d e ahead' o', o.Read k = ((d, e), o') ∧ At rest (got ++ d) ahead' o' ∧
      (e = none ∧ o.conn.src ≠ [] ∧ o'.owed + min k 1 ≤ o.owed ∨
        e = some .eof ∧ o.conn.src = [] ∧ o'.conn.src = [] ∧ got = rest) := by
  have hsplit := h.split
  have hun : o.unread = [] := by rw [unread, hbuf]
  rw [hun, List.append_nil] at hsplit
  have hRead : o.Read k =
      (((Go.read k o.conn.src).1, (Go.read k o.conn.src).2.1),
        o.leaving (Go.read k o.conn.src).2.2) := by
    simp only [Read, hbuf, h.firstResponse, Bool.false_eq_true, if_false]
  have hun' : ∀ src, (o.leaving src).unread = [] := fun _ => hun
  rcases h.src.read k with ⟨hsrc, hahead⟩ | ⟨n, src, hread, -, hsrc⟩
  · refine ⟨[], some .eof, [], o.leaving [], ?_, ⟨h.firstResponse, h.offset, ?_, ?_⟩, ?_⟩
    · rw [hRead, hsrc]
      rfl
    · exact ⟨rfl, fun _ hp => absurd hp List.not_mem_nil⟩
    · rw [hun', hsplit, hahead]
      simp
    · refine .inr ⟨rfl, hsrc, rfl, ?_⟩
      rw [hsplit, hahead, List.append_nil]
  · refine ⟨ahead.take n, none, ahead.drop n, o.leaving src, ?_,
      ⟨h.firstResponse, h.offset, hsrc, ?_⟩,
      .inl ⟨rfl, ?_, ?_⟩⟩
    · rw [hRead, hread]
    · rw [hun', hsplit]
      simp
    · intro hnil
      rw [hnil] at hread
      have herr := congrArg (fun r => r.2.1) hread
      cases herr
    · have hle := readerSize_read_le k o.conn.src
      have hlt := fun hk : 0 < k => readerSize_read hk (congrArg (fun r => r.2.1) hread)
      rw [hread] at hle hlt
      rw [owed, owed, hun', hun]
      simp only [leaving] at hle hlt ⊢
      omega

/-- A `Read` behind the head. It succeeds, or the transport has reported its end and
everything has been returned. -/
theorem At.read (h : At rest got ahead o) (k : Nat) :
    ∃ d e ahead' o', o.Read k = ((d, e), o') ∧ At rest (got ++ d) ahead' o' ∧
      (e = none ∧ o'.owed + min k 1 ≤ o.owed ∨
        e = some .eof ∧ o.conn.src = [] ∧ o'.conn.src = [] ∧ got = rest) := by
  cases hbuf : o.buf with
  | some buf =>
    obtain ⟨d, o', hread, hat, howed⟩ := h.read_unread hbuf k
    exact ⟨d, none, ahead, o', hread, hat, .inl ⟨rfl, howed⟩⟩
  | none =>
    obtain ⟨d, e, ahead', o', hread, hat, he⟩ := h.read_ahead hbuf k
    exact ⟨d, e, ahead', o', hread, hat, he.imp_left fun ⟨he, _, howed⟩ => ⟨he, howed⟩⟩

/-- Everything has been returned and the transport has ended. -/
theorem At.read_end (h : At rest rest ahead o) (hsrc : o.conn.src = []) (k : Nat) :
    ∃ o', o.Read k = (([], some .eof), o') ∧ At rest rest [] o' ∧ o'.conn.src = [] := by
  have hlen := congrArg List.length h.split
  simp only [List.length_append] at hlen
  cases hbuf : o.buf with
  | some buf =>
    have := h.offset buf hbuf
    simp only [unread, hbuf, List.length_drop] at hlen
    omega
  | none =>
    obtain ⟨d, e, ahead', o', hread, hat, he⟩ := h.read_ahead hbuf k
    rcases he with ⟨-, hne, -⟩ | ⟨rfl, -, hsrc', -⟩
    · exact absurd hsrc hne
    · have hd := congrArg List.length hat.split
      simp only [List.length_append] at hd
      obtain rfl : d = [] := List.eq_nil_of_length_eq_zero (by omega)
      obtain rfl : ahead' = [] := List.eq_nil_of_length_eq_zero (by omega)
      rw [List.append_nil] at hat
      exact ⟨o', hread, hat, hsrc'⟩

/-! ### Runs -/

/-- What holds after reads with buffers of sizes `ks` behind the head. Either none of them
has reported an error, and at most `bound` had room for a byte, or the transport has
reported its end and everything has been returned. -/
structure Run (rest got : List Byte) (bound : Nat) (ks : List Nat)
    (results : List (List Byte × Option Error)) (o : HTTPObfs) : Prop where
  place : ∃ ahead, At rest (got ++ results.flatMap Prod.fst) ahead o
  errors : (∀ x ∈ results, x.2 = none) ∧ o.owed + ks.countP (0 < ·) ≤ bound ∨
    (∃ x ∈ results, x.2 ≠ none) ∧ (∀ x ∈ results, x.2 = none ∨ x.2 = some .eof) ∧
      o.conn.src = [] ∧ got ++ results.flatMap Prod.fst = rest

theorem Run.step {bound : Nat} {ks : List Nat} {results : List (List Byte × Option Error)}
    (h : Run rest got bound ks results o) (k : Nat) :
    Run rest got bound (ks ++ [k]) (results ++ [(o.Read k).1]) (o.Read k).2 := by
  have hgot : ∀ d : List Byte × Option Error, got ++ (results ++ [d]).flatMap Prod.fst =
      got ++ results.flatMap Prod.fst ++ d.1 := by
    intro d
    simp
  obtain ⟨ahead, hat⟩ := h.place
  rcases h.errors with ⟨hnone, howed⟩ | ⟨⟨x, hx, herr⟩, heof, hsrc, hrest⟩
  · obtain ⟨d, e, ahead', o', hread, hat', he⟩ := hat.read k
    rw [hread]
    refine ⟨⟨ahead', by rwa [hgot]⟩, ?_⟩
    rcases he with ⟨rfl, howed'⟩ | ⟨rfl, hsrc, hsrc', hrest⟩
    · refine .inl ⟨List.forall_mem_append.mpr ⟨hnone, List.forall_mem_singleton.mpr rfl⟩, ?_⟩
      · rw [List.countP_append, List.countP_singleton]
        by_cases hk : 0 < k
        · simp only [hk, decide_true, if_true]
          omega
        · simp only [hk, decide_false, Bool.false_eq_true, if_false]
          omega
    · -- the transport ends, and nothing is left to return
      have hd : d = [] := by
        have hpre := hat'.got_prefix.length_le
        rw [hrest, List.length_append] at hpre
        exact List.eq_nil_of_length_eq_zero (by omega)
      refine .inr ⟨⟨_, List.mem_append_right _ List.mem_cons_self, Option.some_ne_none _⟩,
        List.forall_mem_append.mpr
          ⟨fun x hx => .inl (hnone x hx), List.forall_mem_singleton.mpr ?_⟩,
        hsrc', ?_⟩
      · exact .inr rfl
      · rw [hgot, hrest, hd, List.append_nil]
  · rw [hrest] at hat
    obtain ⟨o', hread, hat', hsrc'⟩ := hat.read_end hsrc k
    rw [hread]
    have hrest' : got ++ (results ++ [([], some Error.eof)]).flatMap Prod.fst = rest := by
      rw [hgot, hrest, List.append_nil]
    refine ⟨⟨[], by rwa [hrest']⟩, .inr ⟨⟨x, List.mem_append_left _ hx, herr⟩, ?_, hsrc', hrest'⟩⟩
    exact List.forall_mem_append.mpr ⟨heof, List.forall_mem_singleton.mpr (.inr rfl)⟩

theorem At.run (h : At rest got ahead o) (ks : List Nat) :
    Run rest got o.owed ks (calls Read o ks).1 (calls Read o ks).2 := by
  refine calls_induction (P := Run rest got o.owed) ?_ ?_ ks
  · intro ks results o k h
    exact h.step k
  · refine ⟨⟨ahead, ?_⟩, .inl ⟨fun _ hx => absurd hx List.not_mem_nil, le_rfl⟩⟩
    simpa using h

end HTTPObfs

/-! ### The head -/

/-- A response head: the first `"\r\n\r\n"` is its end. -/
structure Head where
  bytes : List Byte
  idx : Nat
  index : bytesIndex headEnd bytes = some idx
  ends : idx + 4 = bytes.length

namespace HTTPObfs

variable {head : Head} {rest : List Byte} {ps : List Piece}

/-- The first read takes some bytes of the stream. -/
theorem read_first (h : Successful (head.bytes ++ rest) ps) :
    ∃ n src, Go.read relayBufferSize ps = ((head.bytes ++ rest).take n, none, src) ∧
      n ≤ (head.bytes ++ rest).length ∧ Successful ((head.bytes ++ rest).drop n) src := by
  rcases h.read relayBufferSize with ⟨-, hnil⟩ | hread
  · have hlen := congrArg List.length hnil
    have := head.ends
    rw [List.length_append, List.length_nil] at hlen
    omega
  · exact hread

/-- A first read that does not contain the head: `io.EOF` before the end. -/
theorem Read_first_short (h : Successful (head.bytes ++ rest) ps) (wire : Wire) (k : Nat)
    (hshort : (Go.read relayBufferSize ps).1.length < head.bytes.length) :
    ∃ o, (new ⟨ps, wire⟩).Read k = (([], some .eof), o) ∧ o.conn.src ≠ [] := by
  obtain ⟨n, src, hread, hn, hsrc⟩ := read_first h
  rw [hread, List.length_take, Nat.min_eq_left hn] at hshort
  have hindex : bytesIndex headEnd ((head.bytes ++ rest).take n) = none := by
    rw [List.take_append_of_le_length hshort.le]
    exact bytesIndex_take_of_lt head.index head.ends hshort
  refine ⟨(new ⟨ps, wire⟩).leaving src, ?_, ?_⟩
  · simp only [Read, new, hread, hindex, if_true]
  · intro hnil
    have hdata := hsrc.data
    rw [show src = [] from hnil] at hdata
    have hlen := congrArg List.length hdata
    rw [List.flatMap_nil, List.length_nil, List.length_drop, List.length_append] at hlen
    omega

/-- A first read that contains the head. -/
theorem Read_first (h : Successful (head.bytes ++ rest) ps) (wire : Wire) (k : Nat)
    (hlong : head.bytes.length ≤ (Go.read relayBufferSize ps).1.length) :
    ∃ d ahead o, (new ⟨ps, wire⟩).Read k = ((d, none), o) ∧ At rest d ahead o ∧
      o.owed < readerSize ps := by
  obtain ⟨n, src, hread, hn, hsrc⟩ := read_first h
  have hsize := readerSize_read_add relayBufferSize ps
  rw [hread] at hlong hsize
  have hends := head.ends
  rw [List.length_take, Nat.min_eq_left hn] at hlong
  rw [List.length_take, Nat.min_eq_left hn] at hsize
  rw [List.length_append] at hn
  -- the read is the head and some first bytes of the rest
  obtain ⟨body, tail, rfl, rfl⟩ :
      ∃ body tail, rest = body ++ tail ∧ n = head.bytes.length + body.length :=
    ⟨rest.take (n - head.bytes.length), rest.drop (n - head.bytes.length),
      (List.take_append_drop ..).symm, by rw [List.length_take]; omega⟩
  rw [List.take_length_add_append, List.take_left' rfl] at hread
  rw [List.drop_length_add_append, List.drop_left' rfl] at hsrc
  have hindex := bytesIndex_append head.index body
  have hbody : (head.bytes ++ body).drop (head.idx + 4) = body := by
    rw [hends, List.drop_left' rfl]
  have hlen : (body.take k).length = min k body.length := List.length_take
  have hRead : (new ⟨ps, wire⟩).Read k =
      if (body.take k).length < body.length then
        ((body.take k, none), ⟨⟨src, wire⟩, some (head.bytes ++ body),
          head.idx + 4 + (body.take k).length, false⟩)
      else ((body.take k, none), ⟨⟨src, wire⟩, none, 0, false⟩) := by
    simp only [Read, new, leaving, hread, hindex, hbody, if_true]
  rw [hRead]
  split
  next hmore =>
    have hunread : (head.bytes ++ body).drop (head.idx + 4 + (body.take k).length) =
        body.drop k := by
      rw [← List.drop_drop, hbody, hlen, Nat.min_eq_left (by omega)]
    refine ⟨_, tail, _, rfl, ⟨rfl, ?_, hsrc, ?_⟩, ?_⟩
    · intro buf hbuf
      cases hbuf
      dsimp only
      rw [List.length_append]
      omega
    · simp only [unread, hunread, List.take_append_drop]
    · simp only [owed, unread, hunread, List.length_drop]
      dsimp only at hsize
      omega
  next hall =>
    have htake : body.take k = body := List.take_of_length_le (by omega)
    refine ⟨_, tail, _, rfl,
      ⟨rfl, fun buf hbuf => absurd hbuf (Option.some_ne_none buf).symm, hsrc, ?_⟩, ?_⟩
    · simp only [htake, unread, List.append_nil]
    · simp only [owed, unread, List.length_nil]
      dsimp only at hsize
      omega

end HTTPObfs

/-- **The head in the first read.** What the reads return does not depend on how the
transport cuts the stream, as long as its first read contains the whole head; otherwise
already the first `Read` reports `io.EOF` before the transport does. The reads return a
beginning of what follows the head; an error is the transport's `io.EOF` and comes when
all has been returned; and with enough reads that have room for a byte it comes. -/
theorem http_reads_iff (head : Head) (rest : List Byte) {ps : List Piece} (wire : Wire)
    (hps : Successful (head.bytes ++ rest) ps) :
    (∀ ks, let r := calls HTTPObfs.Read (.new ⟨ps, wire⟩) ks
      let got := r.1.flatMap Prod.fst
      got <+: rest ∧
      (∀ x ∈ r.1, x.2 = none ∨ x.2 = some .eof ∧ r.2.conn.src = [] ∧ got = rest) ∧
      (readerSize ps < ks.countP (0 < ·) → ∃ x ∈ r.1, x.2 ≠ none)) ↔
    head.bytes.length ≤ (read relayBufferSize ps).1.length := by
  constructor
  · intro h
    by_contra hshort
    obtain ⟨o, hread, hsrc⟩ := HTTPObfs.Read_first_short hps wire 0 (Nat.lt_of_not_le hshort)
    have herr := (h [0]).2.1
    simp only [calls, hread] at herr
    rcases herr _ List.mem_cons_self with herr | ⟨-, herr, -⟩
    · cases herr
    · exact hsrc herr
  · intro hlong ks
    cases ks with
    | nil =>
      exact ⟨List.nil_prefix, fun _ hx => absurd hx List.not_mem_nil, fun h => absurd h (by simp)⟩
    | cons k ks =>
      obtain ⟨d, ahead, o, hread, hat, howed⟩ := HTTPObfs.Read_first hps wire k hlong
      obtain ⟨⟨ahead', hat'⟩, herr⟩ := hat.run ks
      simp only [calls, hread, List.flatMap_cons]
      refine ⟨hat'.got_prefix, ?_, ?_⟩
      · intro x hx
        rcases List.mem_cons.mp hx with rfl | hx
        · exact .inl rfl
        · rcases herr with ⟨hnone, -⟩ | ⟨-, heof, hsrc, hrest⟩
          · exact .inl (hnone x hx)
          · exact (heof x hx).imp_right fun he => ⟨he, hsrc, hrest⟩
      · intro hks
        rw [List.countP_cons] at hks
        rcases herr with ⟨-, hbound⟩ | ⟨⟨x, hx, hne⟩, -⟩
        · split at hks <;> omega
        · exact ⟨x, List.mem_cons_of_mem _ hx, hne⟩

/-- `"HTTP/1.1 101\r\n\r\n"`. -/
def switching : Head where
  bytes := [72, 84, 84, 80, 47, 49, 46, 49, 32, 49, 48, 49, 13, 10, 13, 10]
  idx := 12
  index := by decide
  ends := rfl

/-- The head and the first byte behind it in one read. -/
theorem http_reads_whole_head :
    let ps : List Piece := [⟨switching.bytes ++ [7], none⟩, ⟨[8, 9], none⟩]
    Successful (switching.bytes ++ [7, 8, 9]) ps ∧
      ∀ ks, (calls HTTPObfs.Read (.new ⟨ps, .fresh⟩) ks).1.flatMap Prod.fst <+: [7, 8, 9] := by
  intro ps
  have hps : Successful (switching.bytes ++ [7, 8, 9]) ps := ⟨by decide, by decide⟩
  exact ⟨hps, fun ks => ((http_reads_iff switching [7, 8, 9] .fresh hps).mpr (by decide) ks).1⟩

/-- The same stream, cut inside the head: the first `Read` reports the end of the stream, and
what it took from the transport is lost. -/
theorem http_reads_cut_head :
    let ps : List Piece :=
      [⟨switching.bytes.take 14, none⟩, ⟨switching.bytes.drop 14 ++ [7, 8, 9], none⟩]
    let r := calls HTTPObfs.Read (.new ⟨ps, .fresh⟩) [4, 4]
    Successful (switching.bytes ++ [7, 8, 9]) ps ∧
      r.1 = [([], some .eof), ([], some .eof)] ∧
      (calls HTTPObfs.Read (.new ⟨ps, .fresh⟩) [4]).2.conn.src ≠ [] := by
  intro ps r
  exact ⟨⟨by decide, by decide⟩, by decide +kernel, by decide +kernel⟩

end Tun2socks.SimpleObfs
