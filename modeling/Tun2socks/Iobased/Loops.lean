import Tun2socks.Iobased.Endpoint

/-!
# Tun2socks.Iobased.Loops

The link endpoint of `core/device/iobased/endpoint.go` at work: `Attach` starts `dispatchLoop`
and `outboundLoop` as two goroutines, which run beside the network stack until the device fails
or the endpoint is closed.

The stack hands its packets over through the `channel.Endpoint` that the endpoint embeds. That one
is not part of the repository: `Channel` is what the loops use of it, and `Channel.Lawful` what they
rely on. A packet is taken or dropped, those taken come out in their order, `Close` may throw away
what is still there, and `ReadContext` does not wait any more once the endpoint is closed or the
context is cancelled, which `dispatchLoop` does when it returns.
-/

namespace Tun2socks.Iobased

open Tun2socks.Go

/-! ### The queue -/

/-- A `channel.Endpoint` with states `σ`, as the stack and the loops use it. -/
structure Channel (σ : Type) where
  /-- `channel.New(size, mtu, "")` -/
  new : (size : Nat) → σ
  /-- `Attach(dispatcher)`, with a dispatcher or `nil` -/
  attach : σ → (dispatcher : Bool) → σ
  isAttached : σ → Bool
  /-- `InjectInbound` has a dispatcher to give the packet to -/
  delivers : σ → Bool
  /-- one packet of `WritePackets`, and whether it is taken -/
  write : σ → (pkt : List Byte) → Bool × σ
  /-- `Close` up to the point where it closes the queue, -/
  close : σ → σ
  /-- and a step of `Drain`, which it goes on with -/
  drain : σ → σ
  /-- `ReadContext(ctx)`: the packet or `nil`, or nothing as long as it waits. `choice` is the
  branch of its `select` when both are ready -/
  readContext : σ → (cancelled choice : Bool) → Option (Option (List Byte) × σ)
  /-- the packets inside, the oldest first -/
  contents : σ → List (List Byte)
  /-- `Close` has been called -/
  closed : σ → Bool

/-- What the loops rely on. -/
structure Channel.Lawful {σ : Type} (C : Channel σ) : Prop where
  new_contents : ∀ size, C.contents (C.new size) = []
  attach_contents : ∀ c b, C.contents (C.attach c b) = C.contents c
  attach_closed : ∀ c b, C.closed (C.attach c b) = C.closed c
  write_taken : ∀ c pkt, (C.write c pkt).1 = true →
    C.closed c = false ∧ C.contents (C.write c pkt).2 = C.contents c ++ [pkt]
  write_dropped : ∀ c pkt, (C.write c pkt).1 = false →
    C.contents (C.write c pkt).2 = C.contents c
  write_closed : ∀ c pkt, C.closed (C.write c pkt).2 = C.closed c
  close_contents : ∀ c, (C.contents (C.close c)).Sublist (C.contents c)
  close_closed : ∀ c, C.closed (C.close c) = true
  drain_contents : ∀ c, (C.contents (C.drain c)).Sublist (C.contents c)
  drain_closed : ∀ c, C.closed (C.drain c) = C.closed c
  read_packet : ∀ {c cancelled choice pkt c'},
    C.readContext c cancelled choice = some (some pkt, c') →
      C.contents c = pkt :: C.contents c' ∧ C.closed c' = C.closed c
  read_nil : ∀ {c cancelled choice c'}, C.readContext c cancelled choice = some (none, c') →
    C.contents c' = C.contents c ∧ C.closed c' = C.closed c
  read_waits : ∀ {c cancelled choice}, C.readContext c cancelled choice = none →
    cancelled = false ∧ C.closed c = false

/-! ### The loops -/

/-- Where the goroutine of `dispatchLoop` stands. -/
inductive Inbound
  /-- not started -/
  | idle
  /-- in `e.rw.Read(data)` -/
  | reading
  /-- before `e.IsAttached()` -/
  | got (frame : List Byte)
  /-- before `e.InjectInbound`, which looks for the dispatcher once more -/
  | attached (frame : List Byte)
  /-- before the deferred `cancel()` -/
  | failed
  /-- before `e.wg.Done()` -/
  | cancelled
  | done
  deriving DecidableEq

/-- Where the goroutine of `outboundLoop` stands. -/
inductive Outbound
  /-- not started -/
  | idle
  /-- in `e.ReadContext(ctx)` -/
  | waiting
  /-- before `e.writePacket(pkt)` -/
  | got (pkt : List Byte)
  /-- before `e.wg.Done()` -/
  | stopped
  | done
  deriving DecidableEq

/-- The size of the queue that `New` asks for. -/
def defaultOutQueueLen : Nat := 1 <<< 10

/-- The endpoint with its goroutines. -/
structure Link (σ : Type) where
  /-- the device, for `Write` -/
  sink : PacketSink
  /-- the embedded `channel.Endpoint` -/
  channel : σ
  once : Bool
  wg : Nat
  inbound : Inbound
  outbound : Outbound
  /-- the context is cancelled -/
  cancelled : Bool
  /-- history: the packets that the queue took -/
  accepted : List (List Byte)
  /-- history: the packets that `writePacket` was called for -/
  sent : List (List Byte)
  /-- history: what `Read` returned, and whether there was a dispatcher for it -/
  arrivals : List Arrival
  /-- history: the packets that the dispatcher got -/
  injected : List (NetworkProtocol × List Byte)

/-- A call of the stack, or the next step of a loop. -/
inductive Link.Action
  /-- `Attach(dispatcher)`; the stack detaches with `nil` -/
  | attach (dispatcher : Bool)
  /-- a packet of `WritePackets` -/
  | write (pkt : List Byte)
  | close
  | drain
  /-- the next step of `dispatchLoop`, with what `Read` returns if it waits for it -/
  | inbound (answer : Except Error (List Byte))
  /-- the next step of `outboundLoop`, with the branch that `ReadContext` takes -/
  | outbound (choice : Bool)

/-- `dispatchLoop` goes on reading. -/
def Inbound.isLive : Inbound → Bool
  | idle | reading | got _ | attached _ => true
  | failed | cancelled | done => false

/-- What a goroutine counts for in `wg`. -/
def Inbound.running : Inbound → Nat
  | idle | done => 0
  | reading | got _ | attached _ | failed | cancelled => 1

@[inherit_doc Inbound.running]
def Outbound.running : Outbound → Nat
  | idle | done => 0
  | waiting | got _ | stopped => 1

/-- The packet between the queue and the device. -/
def Outbound.inHand : Outbound → List (List Byte)
  | got pkt => [pkt]
  | idle | waiting | stopped | done => []

/-- A step of `dispatchLoop`. -/
def Link.Action.isInbound : Link.Action → Bool
  | inbound _ => true
  | attach _ | write _ | close | drain | outbound _ => false

/-- A step of `outboundLoop`. -/
def Link.Action.isOutbound : Link.Action → Bool
  | outbound _ => true
  | attach _ | write _ | close | drain | inbound _ => false

namespace Link

variable {σ : Type} (C : Channel σ)

/-- As `New` makes it. -/
def start (sink : PacketSink) : Link σ :=
  ⟨sink, C.new defaultOutQueueLen, false, 0, .idle, .idle, false, [], [], [], []⟩

/-- `Attach(dispatcher)`. -/
def attach (s : Link σ) (dispatcher : Bool) : Link σ :=
  if s.once then { s with channel := C.attach s.channel dispatcher }
  else
    { s with
      channel := C.attach s.channel dispatcher
      once := true
      wg := s.wg + 2
      inbound := .reading
      outbound := .waiting }

/-- One packet of `WritePackets`. -/
def write (s : Link σ) (pkt : List Byte) : Link σ :=
  let w := C.write s.channel pkt
  { s with channel := w.2, accepted := if w.1 then s.accepted ++ [pkt] else s.accepted }

/-- The end of a round of `dispatchLoop`. -/
def dispatched (s : Link σ) (e : Endpoint) (frame : List Byte) (attached : Bool) : Link σ :=
  { s with
    inbound := .reading
    arrivals := s.arrivals ++ [⟨.ok frame, attached⟩]
    injected := s.injected ++ (e.dispatch frame attached).toList }

/-- The next step of `dispatchLoop`. -/
def receive (s : Link σ) (e : Endpoint) (answer : Except Error (List Byte)) : Link σ :=
  match s.inbound with
  | .reading =>
    match answer with
    | .ok frame => { s with inbound := .got frame }
    | .error err =>
      { s with
        inbound := .failed
        arrivals := s.arrivals ++ [⟨.error err, C.isAttached s.channel⟩] }
  | .got frame =>
    if C.isAttached s.channel then { s with inbound := .attached frame }
    else s.dispatched e frame false
  | .attached frame => s.dispatched e frame (C.delivers s.channel)
  | .failed => { s with inbound := .cancelled, cancelled := true }
  | .cancelled => { s with inbound := .done, wg := s.wg - 1 }
  | .idle | .done => s

/-- The next step of `outboundLoop`. -/
def send (s : Link σ) (e : Endpoint) (choice : Bool) : Link σ :=
  match s.outbound with
  | .waiting =>
    match C.readContext s.channel s.cancelled choice with
    | none => s
    | some (some pkt, c) => { s with outbound := .got pkt, channel := c }
    | some (none, c) => { s with outbound := .stopped, channel := c }
  | .got pkt =>
    { s with
      outbound := .waiting
      sink := (e.writePacket s.sink pkt).2
      sent := s.sent ++ [pkt] }
  | .stopped => { s with outbound := .done, wg := s.wg - 1 }
  | .idle | .done => s

/-- One step. -/
def step (e : Endpoint) (s : Link σ) : Action → Link σ
  | .attach dispatcher => s.attach C dispatcher
  | .write pkt => s.write C pkt
  | .close => { s with channel := C.close s.channel }
  -- `Close` drains what it has closed
  | .drain => if C.closed s.channel then { s with channel := C.drain s.channel } else s
  | .inbound answer => s.receive C e answer
  | .outbound choice => s.send C e choice

/-- The steps one after the other. -/
def run (e : Endpoint) (s : Link σ) (acts : List Action) : Link σ := acts.foldl (step C e) s

end Link

/-! ### What holds in every run -/

/-- `dispatchLoop` over reads of which the first part has no error. -/
theorem Endpoint.dispatchLoop_append (e : Endpoint) {as : List Arrival} (bs : List Arrival)
    (h : ∀ a ∈ as, ∃ frame, a.read = .ok frame) :
    e.dispatchLoop (as ++ bs) = e.dispatchLoop as ++ e.dispatchLoop bs := by
  induction as with
  | nil => rfl
  | cons a as ih =>
    obtain ⟨frame, hframe⟩ := h a List.mem_cons_self
    have hrest := ih fun b hb => h b (List.mem_cons_of_mem _ hb)
    simp only [List.cons_append, dispatchLoop, hframe, hrest, List.append_assoc]

/-- `outboundLoop` with one packet more. -/
theorem Endpoint.outboundLoop_concat (e : Endpoint) (sink : PacketSink) (pkts : List (List Byte))
    (pkt : List Byte) :
    e.outboundLoop sink (pkts ++ [pkt]) = (e.writePacket (e.outboundLoop sink pkts) pkt).2 := by
  rw [outboundLoop, List.foldl_append]
  rfl

namespace Link

variable {σ : Type} {C : Channel σ}

/-- The packets on their way, the oldest first. -/
def pending (C : Channel σ) (s : Link σ) : List (List Byte) :=
  s.sent ++ s.outbound.inHand ++ C.contents s.channel

/-- What holds at any time. -/
structure Inv (C : Channel σ) (e : Endpoint) (sink : PacketSink) (s : Link σ) : Prop where
  writes : s.sink = e.outboundLoop sink s.sent
  injects : s.injected = e.dispatchLoop s.arrivals
  reads : s.inbound.isLive = true → ∀ a ∈ s.arrivals, ∃ frame, a.read = .ok frame
  order : (s.pending C).Sublist s.accepted
  /-- only `Close` loses packets of the queue -/
  complete : C.closed s.channel = false → s.pending C = s.accepted
  inbound_idle : s.inbound = .idle ↔ s.once = false
  outbound_idle : s.outbound = .idle ↔ s.once = false
  waits : s.wg = s.inbound.running + s.outbound.running

variable {e : Endpoint} {sink : PacketSink} {s : Link σ}

theorem inv_start (hC : C.Lawful) : Inv C e sink (start C sink) := by
  have hpending : (start C sink).pending C = [] := by
    simp [pending, start, hC.new_contents, Outbound.inHand]
  exact ⟨rfl, rfl, fun _ => nofun, hpending ▸ List.nil_sublist _, fun _ => hpending,
    ⟨fun _ => rfl, fun _ => rfl⟩, ⟨fun _ => rfl, fun _ => rfl⟩, rfl⟩

/-- The queue loses something, if it is closed, and nothing else moves. -/
theorem Inv.shrink (h : Inv C e sink s) {c : σ}
    (hsub : (C.contents c).Sublist (C.contents s.channel))
    (hopen : C.closed c = false → C.closed s.channel = false ∧
      C.contents c = C.contents s.channel) : Inv C e sink { s with channel := c } := by
  refine ⟨h.writes, h.injects, h.reads, ?_, fun hc => ?_, h.inbound_idle, h.outbound_idle, h.waits⟩
  · exact (List.Sublist.append (List.Sublist.refl _) hsub).trans h.order
  · obtain ⟨hc', heq⟩ := hopen hc
    rw [pending, heq]
    exact h.complete hc'

theorem Inv.attach (hC : C.Lawful) (h : Inv C e sink s) (dispatcher : Bool) :
    Inv C e sink (s.attach C dispatcher) := by
  have hkeep : Inv C e sink { s with channel := C.attach s.channel dispatcher } := by
    refine h.shrink (by rw [hC.attach_contents]) fun hc => ?_
    rw [hC.attach_closed] at hc
    exact ⟨hc, hC.attach_contents _ _⟩
  unfold Link.attach
  split
  · exact hkeep
  · rename_i honce
    have hnot : s.once = false := Bool.eq_false_iff.mpr honce
    have hin := h.inbound_idle.mpr hnot
    have hout := h.outbound_idle.mpr hnot
    have hwg := h.waits
    rw [hin, hout] at hwg
    have hpending : pending C { s with channel := C.attach s.channel dispatcher } =
        s.sent ++ [] ++ C.contents (C.attach s.channel dispatcher) := by
      rw [pending, hout]
      rfl
    refine ⟨h.writes, h.injects, fun _ => h.reads (by rw [hin]; rfl), ?_, fun hc => ?_,
      ⟨nofun, nofun⟩, ⟨nofun, nofun⟩, ?_⟩
    · have horder := hkeep.order
      rw [hpending] at horder
      exact horder
    · exact hpending.symm.trans (hkeep.complete hc)
    · simpa [Inbound.running, Outbound.running] using hwg

theorem Inv.write (hC : C.Lawful) (h : Inv C e sink s) (pkt : List Byte) :
    Inv C e sink (s.write C pkt) := by
  cases htaken : (C.write s.channel pkt).1 with
  | true =>
    obtain ⟨hopen, hcontents⟩ := hC.write_taken _ _ htaken
    have hpending : s.sent ++ s.outbound.inHand ++ (C.contents s.channel ++ [pkt]) =
        s.pending C ++ [pkt] := by
      rw [pending, List.append_assoc _ (C.contents s.channel)]
    simp only [Link.write, htaken, if_true]
    refine ⟨h.writes, h.injects, h.reads, ?_, fun _ => ?_, h.inbound_idle, h.outbound_idle,
      h.waits⟩
    · rw [pending, hcontents, hpending]
      exact h.order.append (List.Sublist.refl _)
    · rw [pending, hcontents, hpending, h.complete hopen]
  | false =>
    have hcontents := hC.write_dropped _ _ htaken
    simp only [Link.write, htaken, Bool.false_eq_true, if_false]
    refine h.shrink (by rw [hcontents]) fun hc => ?_
    rw [hC.write_closed] at hc
    exact ⟨hc, hcontents⟩

/-- A round of `dispatchLoop` ends. -/
theorem Inv.dispatched (h : Inv C e sink s) (hlive : s.inbound.isLive = true)
    (hrun : s.inbound.running = 1) (frame : List Byte) (attached : Bool) :
    Inv C e sink (s.dispatched e frame attached) := by
  have hreads := h.reads hlive
  have honce : ¬ s.once = false := fun hnot => by
    rw [h.inbound_idle.mpr hnot] at hrun
    cases hrun
  refine ⟨h.writes, ?_, fun _ => ?_, h.order, h.complete, ⟨nofun, fun hnot => ?_⟩,
    h.outbound_idle, ?_⟩
  · rw [Link.dispatched, h.injects, e.dispatchLoop_append _ hreads]
    simp [Endpoint.dispatchLoop]
  · intro a ha
    obtain ha | ha := List.mem_append.mp ha
    · exact hreads a ha
    · obtain rfl := List.mem_singleton.mp ha
      exact ⟨frame, rfl⟩
  · exact absurd hnot honce
  · have hwg := h.waits
    rw [hrun] at hwg
    exact hwg

/-- `dispatchLoop` moves on, without an arrival. -/
theorem Inv.moveInbound (h : Inv C e sink s) {i : Inbound} {cancelled : Bool} {wg : Nat}
    (hlive : i.isLive = true → s.inbound.isLive = true) (hs : s.inbound ≠ .idle) (hi : i ≠ .idle)
    (hwg : wg + s.inbound.running = s.wg + i.running) :
    Inv C e sink { s with inbound := i, cancelled := cancelled, wg := wg } := by
  have honce : ¬ s.once = false := fun hnot => hs (h.inbound_idle.mpr hnot)
  refine ⟨h.writes, h.injects, fun hl => h.reads (hlive hl), h.order, h.complete,
    ⟨fun heq => absurd heq hi, fun hnot => absurd hnot honce⟩, h.outbound_idle, ?_⟩
  have hwaits := h.waits
  dsimp only
  omega

theorem Inv.fail (h : Inv C e sink s) (hs : s.inbound = .reading) (err : Error)
    (attached : Bool) :
    Inv C e sink
      { s with inbound := .failed, arrivals := s.arrivals ++ [⟨.error err, attached⟩] } := by
  have hreads := h.reads (by rw [hs]; rfl)
  have honce : ¬ s.once = false := fun hnot => by
    have hidle := h.inbound_idle.mpr hnot
    rw [hs] at hidle
    cases hidle
  have hwaits := h.waits
  rw [hs] at hwaits
  refine ⟨h.writes, ?_, nofun, h.order, h.complete,
    ⟨nofun, fun hnot => absurd hnot honce⟩, h.outbound_idle, hwaits⟩
  rw [e.dispatchLoop_append _ hreads, ← h.injects]
  exact (List.append_nil _).symm

theorem Inv.receive (h : Inv C e sink s) (answer : Except Error (List Byte)) :
    Inv C e sink (s.receive C e answer) := by
  unfold Link.receive
  split
  · rename_i hs
    split
    · exact h.moveInbound (fun _ => by rw [hs]; rfl) (by rw [hs]; nofun) nofun (by rw [hs]; rfl)
    · exact h.fail hs _ _
  · rename_i frame hs
    split
    · exact h.moveInbound (fun _ => by rw [hs]; rfl) (by rw [hs]; nofun) nofun (by rw [hs]; rfl)
    · exact h.dispatched (by rw [hs]; rfl) (by rw [hs]; rfl) frame false
  · rename_i frame hs
    exact h.dispatched (by rw [hs]; rfl) (by rw [hs]; rfl) frame _
  · rename_i hs
    exact h.moveInbound nofun (by rw [hs]; nofun) nofun (by rw [hs]; rfl)
  · rename_i hs
    have hwaits := h.waits
    refine h.moveInbound nofun (by rw [hs]; nofun) nofun ?_
    rw [hs] at hwaits ⊢
    simp only [Inbound.running] at hwaits ⊢
    omega
  · exact h
  · exact h

/-- `outboundLoop` moves on. -/
theorem Inv.moveOutbound (h : Inv C e sink s) {t : Link σ} {o : Outbound}
    (ht : t = { s with
      outbound := o
      wg := t.wg
      channel := t.channel
      sink := t.sink
      sent := t.sent })
    (hwrites : t.sink = e.outboundLoop sink t.sent)
    (hpending : t.pending C = s.pending C) (hclosed : C.closed t.channel = C.closed s.channel)
    (hs : s.outbound ≠ .idle) (ho : o ≠ .idle)
    (hwg : t.wg + s.outbound.running = s.wg + o.running) : Inv C e sink t := by
  have honce : ¬ s.once = false := fun hnot => hs (h.outbound_idle.mpr hnot)
  have hwaits := h.waits
  obtain ⟨sink', channel, once, wg, inbound, outbound, cancelled, accepted, sent, arrivals,
    injected⟩ := t
  simp only [Link.mk.injEq, true_and] at ht
  obtain ⟨rfl, rfl, rfl, rfl, rfl, rfl, rfl⟩ := ht
  refine ⟨hwrites, h.injects, h.reads, hpending ▸ h.order,
    fun hc => hpending.trans (h.complete (hclosed.symm.trans hc)), h.inbound_idle,
    ⟨fun heq => absurd heq ho, fun hnot => absurd hnot honce⟩, ?_⟩
  dsimp only at hwg ⊢
  omega

theorem Inv.send (hC : C.Lawful) (h : Inv C e sink s) (choice : Bool) :
    Inv C e sink (s.send C e choice) := by
  unfold Link.send
  split
  · rename_i hs
    split
    · exact h
    · rename_i pkt c hread
      obtain ⟨hcontents, hclosed⟩ := hC.read_packet hread
      refine h.moveOutbound rfl h.writes ?_ hclosed (by rw [hs]; nofun) nofun (by rw [hs]; rfl)
      rw [pending, pending, hs, hcontents]
      simp [Outbound.inHand]
    · rename_i c hread
      obtain ⟨hcontents, hclosed⟩ := hC.read_nil hread
      refine h.moveOutbound rfl h.writes ?_ hclosed (by rw [hs]; nofun) nofun (by rw [hs]; rfl)
      rw [pending, pending, hs, hcontents]
      rfl
  · rename_i pkt hs
    refine h.moveOutbound rfl ?_ ?_ rfl (by rw [hs]; nofun) nofun (by rw [hs]; rfl)
    · rw [e.outboundLoop_concat, ← h.writes]
    · rw [pending, pending, hs]
      simp [Outbound.inHand]
  · rename_i hs
    have hwaits := h.waits
    refine h.moveOutbound rfl h.writes ?_ rfl (by rw [hs]; nofun) nofun ?_
    · rw [pending, pending, hs]
      rfl
    · rw [hs] at hwaits ⊢
      simp only [Outbound.running] at hwaits ⊢
      omega
  · exact h
  · exact h

theorem Inv.step (hC : C.Lawful) (h : Inv C e sink s) (a : Action) :
    Inv C e sink (s.step C e a) := by
  cases a with
  | attach dispatcher => exact h.attach hC dispatcher
  | write pkt => exact h.write hC pkt
  | close =>
    refine h.shrink (hC.close_contents _) fun hopen => ?_
    rw [hC.close_closed] at hopen
    cases hopen
  | drain =>
    simp only [Link.step]
    split
    · rename_i hclosed
      refine h.shrink (hC.drain_contents _) fun hopen => ?_
      rw [hC.drain_closed, hclosed] at hopen
      cases hopen
    · exact h
  | inbound answer => exact h.receive answer
  | outbound choice => exact h.send hC choice

theorem inv_run (hC : C.Lawful) (e : Endpoint) (sink : PacketSink) (acts : List Action) :
    Inv C e sink ((start C sink).run C e acts) :=
  List.foldlRecOn (motive := Inv C e sink) acts (Link.step C e) (inv_start hC)
    fun _ h a _ => h.step hC a

/-! ### The end -/

/-- The endpoint is closed, and `Read` has failed. -/
structure Ending (C : Channel σ) (s : Link σ) : Prop where
  closed : C.closed s.channel = true
  failed : s.inbound.isLive = false

end Link

/-- The steps that `dispatchLoop` has left after an error. -/
def Inbound.left : Inbound → Nat
  | failed => 2
  | cancelled => 1
  | idle | reading | got _ | attached _ | done => 0

/-- The steps that `outboundLoop` has left at most, if the queue is closed with `n` packets. -/
def Outbound.left (n : Nat) : Outbound → Nat
  | got _ => 2 * n + 3
  | waiting => 2 * n + 2
  | stopped => 1
  | idle | done => 0

theorem Outbound.left_mono {m n : Nat} (h : m ≤ n) (o : Outbound) : o.left m ≤ o.left n := by
  cases o with
  | got pkt | waiting =>
    simp only [left]
    omega
  | idle | stopped | done => exact le_rfl

namespace Link

variable {σ : Type} {C : Channel σ} {e : Endpoint} {sink : PacketSink} {s : Link σ}

/-- The steps that `outboundLoop` has left at most. -/
def outboundLeft (C : Channel σ) (s : Link σ) : Nat :=
  s.outbound.left (C.contents s.channel).length

/-- `Attach` has been called before. -/
theorem Inv.once_of_failed (h : Inv C e sink s) (hf : s.inbound.isLive = false) :
    s.once = true := by
  by_contra hnot
  rw [h.inbound_idle.mpr (Bool.eq_false_iff.mpr hnot)] at hf
  cases hf

/-- What the stack does to the queue. -/
theorem Ending.shrink (h : s.Ending C) {c : σ} (hclosed : C.closed c = true)
    (hsub : (C.contents c).Sublist (C.contents s.channel)) :
    Ending C { s with channel := c } ∧
      outboundLeft C { s with channel := c } ≤ s.outboundLeft C :=
  ⟨⟨hclosed, h.failed⟩, s.outbound.left_mono hsub.length_le⟩

theorem Ending.receive (h : s.Ending C) (answer : Except Error (List Byte)) :
    (s.receive C e answer).Ending C ∧
      (s.receive C e answer).inbound.left = s.inbound.left - 1 ∧
      (s.receive C e answer).outboundLeft C = s.outboundLeft C := by
  have hfailed := h.failed
  unfold Link.receive
  cases hs : s.inbound with
  | idle | reading | got frame | attached frame =>
    rw [hs] at hfailed
    cases hfailed
  | failed => exact ⟨⟨h.closed, rfl⟩, rfl, rfl⟩
  | cancelled => exact ⟨⟨h.closed, rfl⟩, rfl, rfl⟩
  | done => exact ⟨h, by rw [hs]; rfl, rfl⟩

/-- With a closed queue there is always something to receive. -/
theorem Ending.send (hC : C.Lawful) (h : s.Ending C) (choice : Bool) :
    (s.send C e choice).Ending C ∧ (s.send C e choice).inbound = s.inbound ∧
      (s.send C e choice).outboundLeft C ≤ s.outboundLeft C - 1 := by
  unfold Link.send outboundLeft
  cases hs : s.outbound with
  | waiting =>
    dsimp only
    split
    · rename_i hread
      have hopen := (hC.read_waits hread).2
      rw [h.closed] at hopen
      cases hopen
    · rename_i pkt c hread
      obtain ⟨hcontents, hclosed⟩ := hC.read_packet hread
      refine ⟨⟨hclosed.trans h.closed, h.failed⟩, rfl, ?_⟩
      rw [hcontents]
      simp only [Outbound.left, List.length_cons]
      omega
    · rename_i c hread
      obtain ⟨-, hclosed⟩ := hC.read_nil hread
      exact ⟨⟨hclosed.trans h.closed, h.failed⟩, rfl, by simp [Outbound.left]⟩
  | got pkt => exact ⟨⟨h.closed, h.failed⟩, rfl, le_rfl⟩
  | stopped => exact ⟨⟨h.closed, h.failed⟩, rfl, le_rfl⟩
  | idle | done =>
    refine ⟨h, rfl, ?_⟩
    dsimp only
    rw [hs]
    exact Nat.zero_le _

/-- Every step of a loop is one step less for it, and no other step is one more. -/
theorem Ending.step (hC : C.Lawful) (h : s.Ending C) (hinv : Inv C e sink s) (a : Action) :
    (s.step C e a).Ending C ∧
      (s.step C e a).inbound.left ≤ s.inbound.left - (if a.isInbound then 1 else 0) ∧
      (s.step C e a).outboundLeft C ≤ s.outboundLeft C - (if a.isOutbound then 1 else 0) := by
  cases a with
  | attach dispatcher =>
    simp only [Link.step, Link.attach, hinv.once_of_failed h.failed, if_true]
    obtain ⟨hend, hleft⟩ := h.shrink (c := C.attach s.channel dispatcher)
      ((hC.attach_closed _ _).trans h.closed) (by rw [hC.attach_contents])
    exact ⟨⟨hend.closed, h.failed⟩, le_rfl, hleft⟩
  | write pkt =>
    have hdropped : (C.write s.channel pkt).1 = false := by
      by_contra htaken
      have hopen := (hC.write_taken _ _ (Bool.not_eq_false _ ▸ htaken)).1
      rw [h.closed] at hopen
      cases hopen
    simp only [Link.step, Link.write, hdropped, Bool.false_eq_true, if_false]
    obtain ⟨hend, hleft⟩ := h.shrink ((hC.write_closed s.channel pkt).trans h.closed)
      (by rw [hC.write_dropped _ _ hdropped])
    exact ⟨hend, le_rfl, hleft⟩
  | close =>
    obtain ⟨hend, hleft⟩ := h.shrink (hC.close_closed s.channel) (hC.close_contents _)
    exact ⟨hend, le_rfl, hleft⟩
  | drain =>
    simp only [Link.step, h.closed, if_true]
    obtain ⟨hend, hleft⟩ := h.shrink ((hC.drain_closed s.channel).trans h.closed)
      (hC.drain_contents _)
    exact ⟨hend, le_rfl, hleft⟩
  | inbound answer =>
    obtain ⟨hend, hleft, hout⟩ := h.receive (e := e) answer
    exact ⟨hend, hleft.le, hout.le⟩
  | outbound choice =>
    obtain ⟨hend, hin, hleft⟩ := h.send (e := e) hC choice
    refine ⟨hend, ?_, hleft⟩
    rw [Link.step, hin]
    exact le_rfl

theorem Ending.run (hC : C.Lawful) (h : s.Ending C) (hinv : Inv C e sink s)
    (acts : List Action) :
    (s.run C e acts).Ending C ∧
      (s.run C e acts).inbound.left ≤ s.inbound.left - acts.countP Action.isInbound ∧
      (s.run C e acts).outboundLeft C ≤ s.outboundLeft C - acts.countP Action.isOutbound := by
  induction acts generalizing s with
  | nil => exact ⟨h, le_rfl, le_rfl⟩
  | cons a acts ih =>
    obtain ⟨hend, hin, hout⟩ := h.step hC hinv a
    obtain ⟨hend', hin', hout'⟩ := ih hend (hinv.step hC a)
    rw [List.countP_cons, List.countP_cons]
    refine ⟨hend', hin'.trans ?_, hout'.trans ?_⟩
    · omega
    · omega

/-- Both loops have returned. -/
structure Ended (s : Link σ) : Prop where
  once : s.once = true
  inbound : s.inbound = .done
  outbound : s.outbound = .done

theorem Ended.step (h : s.Ended) (a : Action) :
    (s.step C e a).Ended ∧ (s.step C e a).sink = s.sink ∧
      (s.step C e a).injected = s.injected := by
  cases a with
  | attach dispatcher =>
    rw [Link.step, Link.attach, if_pos h.once]
    exact ⟨⟨h.once, h.inbound, h.outbound⟩, rfl, rfl⟩
  | write pkt | close => exact ⟨⟨h.once, h.inbound, h.outbound⟩, rfl, rfl⟩
  | drain =>
    simp only [Link.step]
    split
    · exact ⟨⟨h.once, h.inbound, h.outbound⟩, rfl, rfl⟩
    · exact ⟨h, rfl, rfl⟩
  | inbound answer =>
    have hstay : s.receive C e answer = s := by simp only [Link.receive, h.inbound]
    rw [Link.step, hstay]
    exact ⟨h, rfl, rfl⟩
  | outbound choice =>
    have hstay : s.send C e choice = s := by simp only [Link.send, h.outbound]
    rw [Link.step, hstay]
    exact ⟨h, rfl, rfl⟩

theorem Ended.run (h : s.Ended) (acts : List Action) :
    (s.run C e acts).sink = s.sink ∧ (s.run C e acts).injected = s.injected := by
  induction acts generalizing s with
  | nil => exact ⟨rfl, rfl⟩
  | cons a acts ih =>
    obtain ⟨hend, hsink, hinj⟩ := h.step (C := C) (e := e) a
    obtain ⟨hsink', hinj'⟩ := ih hend
    exact ⟨hsink'.trans hsink, hinj'.trans hinj⟩

/-- No step is left. -/
theorem Inv.ended (hinv : Inv C e sink s) (h : s.Ending C) (hin : s.inbound.left = 0)
    (hout : s.outboundLeft C = 0) : s.Ended := by
  have honce := hinv.once_of_failed h.failed
  have hfailed := h.failed
  refine ⟨honce, ?_, ?_⟩
  · cases hs : s.inbound with
    | done => rfl
    | failed | cancelled =>
      rw [hs] at hin
      cases hin
    | idle | reading | got frame | attached frame =>
      rw [hs] at hfailed
      cases hfailed
  · rw [outboundLeft] at hout
    cases hs : s.outbound with
    | done => rfl
    | idle =>
      rw [hinv.outbound_idle.mp hs] at honce
      cases honce
    | waiting | got pkt | stopped =>
      rw [hs] at hout
      cases hout

end Link

/-! ### Runs -/

section Runs

variable {σ : Type} {C : Channel σ} (hC : C.Lawful) (e : Endpoint) (sink : PacketSink)
include hC

/-- **The endpoint shuts down.** After `Close` and an error of `Read` each loop returns within a
number of its own steps, in whatever order these come, so that `Wait` returns. Nothing is written
or injected any more, not even if the endpoint is attached again. -/
theorem link_shuts_down (acts more later : List Link.Action) :
    let s := (Link.start C sink).run C e acts
    C.closed s.channel = true → s.inbound.isLive = false →
    2 ≤ more.countP Link.Action.isInbound →
    2 * (C.contents s.channel).length + 3 ≤ more.countP Link.Action.isOutbound →
    let t := s.run C e more
    t.wg = 0 ∧ (t.run C e later).sink = t.sink ∧ (t.run C e later).injected = t.injected := by
  intro s hclosed hfailed hin hout t
  have hinv : s.Inv C e sink := Link.inv_run hC e sink acts
  have hinv' : t.Inv C e sink := by
    have := Link.inv_run hC e sink (acts ++ more)
    rwa [Link.run, List.foldl_append] at this
  obtain ⟨hend, hleft, hleft'⟩ := Link.Ending.run hC ⟨hclosed, hfailed⟩ hinv more
  have hinbound : s.inbound.left ≤ 2 := by cases s.inbound <;> simp [Inbound.left]
  have houtbound : s.outboundLeft C ≤ 2 * (C.contents s.channel).length + 3 := by
    unfold Link.outboundLeft
    cases s.outbound <;> simp [Outbound.left]
  have hended : t.Ended :=
    hinv'.ended hend (Nat.le_zero.mp (hleft.trans (by omega)))
      (Nat.le_zero.mp (hleft'.trans (by omega)))
  refine ⟨?_, hended.run later⟩
  rw [hinv'.waits, hended.inbound, hended.outbound]
  rfl

end Runs

/-! ### A channel -/

/-- A bounded queue with a flag, and the dispatcher. -/
structure Buffered where
  size : Nat
  attached : Bool
  queue : List (List Byte)
  closed : Bool

/-- The `channel.Endpoint` of the documentation: a Go channel of packets, and `ReadContext` a
`select` on it and on the context. -/
def buffered : Channel Buffered where
  new size := ⟨size, false, [], false⟩
  attach c dispatcher := { c with attached := dispatcher }
  isAttached := Buffered.attached
  delivers := Buffered.attached
  write c pkt :=
    if c.closed = false ∧ c.queue.length < c.size then (true, { c with queue := c.queue ++ [pkt] })
    else (false, c)
  close c := { c with closed := true }
  drain c := { c with queue := c.queue.tail }
  readContext c cancelled choice :=
    if cancelled ∧ choice then some (none, c)
    else
      match c.queue with
      | pkt :: queue => some (some pkt, { c with queue := queue })
      -- a closed channel delivers `nil`
      | [] => if c.closed ∨ cancelled then some (none, c) else none
  contents := Buffered.queue
  closed := Buffered.closed

theorem buffered_lawful : buffered.Lawful where
  new_contents _ := rfl
  attach_contents _ _ := rfl
  attach_closed _ _ := rfl
  write_taken c pkt h := by
    by_cases hroom : c.closed = false ∧ c.queue.length < c.size
    · exact ⟨hroom.1, by simp only [buffered, if_pos hroom]⟩
    · simp only [buffered, if_neg hroom] at h
      cases h
  write_dropped c pkt h := by
    by_cases hroom : c.closed = false ∧ c.queue.length < c.size
    · simp only [buffered, if_pos hroom] at h
      cases h
    · simp only [buffered, if_neg hroom]
  write_closed c pkt := by
    dsimp only [buffered]
    split <;> rfl
  close_contents _ := List.Sublist.refl _
  close_closed _ := rfl
  drain_contents _ := List.tail_sublist _
  drain_closed _ := rfl
  read_packet {c cancelled choice pkt c'} h := by
    dsimp only [buffered] at h ⊢
    split at h
    · cases h
    · split at h
      · rename_i hq
        cases h
        exact ⟨hq, rfl⟩
      · split at h <;> cases h
  read_nil {c cancelled choice c'} h := by
    dsimp only [buffered] at h ⊢
    split at h
    · cases h
      exact ⟨rfl, rfl⟩
    · split at h
      · cases h
      · split at h
        · cases h
          exact ⟨rfl, rfl⟩
        · cases h
  read_waits {c cancelled choice} h := by
    dsimp only [buffered] at h ⊢
    split at h
    · cases h
    · split at h
      · cases h
      · split at h
        · cases h
        · rename_i hneither
          simpa [and_comm] using hneither

/-- Two packets are waiting when the device fails and the endpoint is closed. The first one is
written, the second one thrown away. -/
theorem link_shuts_down_two :
    let e : Endpoint := ⟨osFile, 8, 0, by decide⟩
    let s := (Link.start buffered .fresh).run buffered e [.attach true, .write [0x45, 1],
      .write [0x45, 2], .outbound false, .inbound (.error .eof), .close]
    let t := s.run buffered e [.outbound false, .drain, .inbound (.ok []), .outbound false,
      .outbound true, .inbound (.ok []), .outbound false, .outbound false]
    t.wg = 0 ∧ t.sink.written = [[0x45, 1]] ∧
      (t.run buffered e [.attach true, .inbound (.ok [0x45])]).injected = [] := by
  intro e s t
  have h := link_shuts_down buffered_lawful e .fresh [.attach true, .write [0x45, 1],
    .write [0x45, 2], .outbound false, .inbound (.error .eof), .close] [.outbound false, .drain,
      .inbound (.ok []), .outbound false, .outbound true, .inbound (.ok []), .outbound false,
      .outbound false]
    [.attach true, .inbound (.ok [0x45])] (by decide +kernel) (by decide +kernel)
    (by decide +kernel) (by decide +kernel)
  have hnone : t.injected = [] := by decide +kernel
  exact ⟨h.1, by decide +kernel, h.2.2.trans hnone⟩

end Tun2socks.Iobased
