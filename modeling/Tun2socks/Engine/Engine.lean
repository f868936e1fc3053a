import Tun2socks.Go.Basic

/-!
# Tun2socks.Engine.Engine

Model of `engine/engine.go`, with the two devices of `core/device/tun/tun_netstack.go` and
`core/device/fdbased/fd_unix.go`: what `start` and `stop` do to the globals
`_defaultDevice` and `_defaultStack`.

The result of every fallible step of a `start` is given from outside (`Outcomes`). A device
is named by its position in the list of all devices opened so far. Its descriptor is part of
the outcome too: the kernel gives a `TUN` one of its own, but `fdbased.Open` takes the number out
of the URL, so that two devices may share a descriptor. A descriptor is named by a number that is
not used again for another one after it has been closed. `_defaultProxy`, the logger, the dialer
and the REST server are set on the way and have no part in this.

`Stack.Wait` is gVisor's. Whether it also closes the link endpoint of the NIC it removes
depends on gVisor's version, and is the parameter `closesLink`.
-/

namespace Tun2socks.Engine

open Tun2socks.Go

/-! ### Devices -/

/-- The two kinds of device: `tun.TUN` and `fdbased.FD`. -/
inductive Driver
  | tun
  | fd
  deriving DecidableEq, Repr

/-- A `TUN` or an `FD`. -/
structure Device where
  driver : Driver
  /-- the descriptor, which another device may have too -/
  fd : Nat
  /-- `FD.closed`; a `TUN` has no such field -/
  closed : Bool
  /-- history: how often this device called `unix.Close` -/
  closes : Nat
  deriving DecidableEq, Repr

namespace Device

/-- `TUN` and `FD` as their `Open` returns them. -/
def new (driver : Driver) (fd : Nat) : Device := ⟨driver, fd, false, 0⟩

/-- `TUN.Close` and `FD.Close`. Only the second looks whether it has run before. -/
def close (d : Device) : Device :=
  match d.driver with
  | .tun => { d with closes := d.closes + 1 }
  | .fd => if d.closed then d else { d with closes := d.closes + 1, closed := true }

end Device

/-! ### The engine -/

/-- The fields of a `Key` that decide which steps `start` takes. -/
structure Key where
  proxy : String
  restAPI : String
  device : String
  interface : String
  tcpSendBufferSize : String
  tcpReceiveBufferSize : String
  /-- in nanoseconds -/
  udpTimeout : Int

/-- What the fallible steps of one `start` give. -/
structure Outcomes where
  /-- `log.ParseLevel` -/
  parseLevel : Except Error Unit
  /-- `net.InterfaceByName` -/
  interfaceByName : Except Error Unit
  parseRestAPI : Except Error Unit
  parseMulticastGroups : Except Error Unit
  parseProxy : Except Error Unit
  /-- `parseDevice`: the driver and the descriptor -/
  parseDevice : Except Error (Driver × Nat)
  /-- `units.RAMInBytes(k.TCPSendBufferSize)` -/
  sendBufferSize : Except Error Unit
  /-- `units.RAMInBytes(k.TCPReceiveBufferSize)` -/
  receiveBufferSize : Except Error Unit
  /-- `core.CreateStack` -/
  createStack : Except Error Unit

/-- Every step succeeds. -/
def Outcomes.success (driver : Driver) (fd : Nat) : Outcomes :=
  ⟨.ok (), .ok (), .ok (), .ok (), .ok (), .ok (driver, fd), .ok (), .ok (), .ok ()⟩

/-- A `*stack.Stack`: the link endpoint of its NIC, until the NIC is removed. -/
structure Stack where
  link : Option Nat

/-- The globals that `start` assigns. -/
structure State where
  /-- `_defaultDevice` -/
  device : Option Nat
  /-- `_defaultStack` -/
  stack : Option Stack
  /-- history: the devices opened so far -/
  devices : List Device

namespace State

/-- The globals of a new process. -/
def new : State := ⟨none, none, []⟩

/-- A device has been opened and assigned to `_defaultDevice`. -/
def openDevice (s : State) (driver : Driver) (fd : Nat) : State :=
  { s with device := some s.devices.length, devices := s.devices ++ [.new driver fd] }

/-- The `Close` method of a device that may be `nil`. -/
def closeDevice (s : State) : Option Nat → State
  | none => s
  | some i => { s with devices := s.devices.modify i Device.close }

/-- The endpoint that `_defaultStack` holds. -/
def link (s : State) : Option Nat := s.stack.bind Stack.link

/-- How often `unix.Close` was called on a descriptor, by whatever device. -/
def closes (s : State) (fd : Nat) : Nat :=
  ((s.devices.filter fun d => d.fd = fd).map Device.closes).sum

end State

/-- A function of the engine. The assignments it has made before an error stay. -/
abbrev EngineM := EStateM Error State

/-- `if err != nil { return err }`. -/
def check : Except Error Unit → EngineM Unit
  | .ok _ => pure ()
  | .error err => throw err

/-- `time.Second`. -/
def second : Int := 1000000000

/-- The checks of `general`. -/
def general (k : Key) (o : Outcomes) : Except Error Unit := do
  o.parseLevel
  if k.interface ≠ "" then o.interfaceByName
  if 0 < k.udpTimeout then
    if k.udpTimeout < second then throw (.new "invalid udp timeout value")

/-- The check of `restAPI`. -/
def restAPI (k : Key) (o : Outcomes) : Except Error Unit := do
  if k.restAPI ≠ "" then o.parseRestAPI

/-- `_defaultDevice, err = parseDevice(…)`. -/
def assignDevice (o : Outcomes) : EngineM Unit :=
  match o.parseDevice with
  | .ok (driver, fd) => modify fun s => s.openDevice driver fd
  | .error err => do
    modify fun s => { s with device := none }
    throw err

/-- The buffer sizes among the options of the stack. -/
def bufferSizes (k : Key) (o : Outcomes) : Except Error Unit := do
  if k.tcpSendBufferSize ≠ "" then o.sendBufferSize
  if k.tcpReceiveBufferSize ≠ "" then o.receiveBufferSize

/-- `_defaultStack, err = core.CreateStack(…)`. -/
def assignStack (o : Outcomes) : EngineM Unit :=
  match o.createStack with
  | .ok _ => modify fun s => { s with stack := some ⟨s.device⟩ }
  | .error err => do
    modify fun s => { s with stack := none }
    throw err

/-- The checks of `netstack` before it opens the device. -/
def netstackChecks (k : Key) (o : Outcomes) : Except Error Unit := do
  if k.proxy = "" then throw (.new "empty proxy")
  if k.device = "" then throw (.new "empty device")
  o.parseMulticastGroups
  o.parseProxy

/-- `netstack(k)`. -/
def netstack (k : Key) (o : Outcomes) : EngineM Unit := do
  check (netstackChecks k o)
  assignDevice o
  check (bufferSizes k o)
  assignStack o

/-- `start()`, with the `_defaultKey` it reads. -/
def start (key : Option Key) (o : Outcomes) : EngineM Unit := do
  match key with
  | none => throw (.new "empty key")
  | some k =>
    check (general k o)
    check (restAPI k o)
    netstack k o

/-- `_defaultStack.Wait()`. -/
def State.wait (closesLink : Bool) (s : State) : State :=
  match s.stack with
  | none => s
  | some stack =>
    if closesLink then { s.closeDevice stack.link with stack := some ⟨none⟩ } else s

/-- `stop()`, which has no error to return. The globals keep their values. -/
def stop (closesLink : Bool) (s : State) : State :=
  (s.closeDevice s.device).wait closesLink

/-- A call of a function of the package. -/
inductive Call
  /-- `Insert(k)` -/
  | insert (k : Option Key)
  | start (o : Outcomes)
  | stop

/-- The globals after a `start`, whether it succeeds or not. -/
def State.started (s : State) (key : Option Key) (o : Outcomes) : State :=
  match (start key o).run s with
  | .ok _ s => s
  | .error _ s => s

/-- The globals after a sequence of calls that begins with `_defaultKey = key`. -/
def run (closesLink : Bool) (key : Option Key) (s : State) : List Call → State
  | [] => s
  | .insert k :: calls => run closesLink k s calls
  | .start o :: calls => run closesLink key (s.started key o) calls
  | .stop :: calls => run closesLink key (stop closesLink s) calls

/-! ### What a call does to the devices -/

/-- How far a `start` gets once its device is open. -/
inductive Setup
  /-- the options of the stack are in error -/
  | options
  /-- `core.CreateStack` fails -/
  | stack
  | running
  deriving DecidableEq, Repr

/-- What a call amounts to for the devices. -/
inductive Event
  /-- an `Insert`, or a `start` that fails before it comes to the device -/
  | idle
  /-- a `start` whose device cannot be opened -/
  | failed
  | opened (driver : Driver) (fd : Nat) (setup : Setup)
  | stop
  deriving DecidableEq, Repr

/-- The checks of `start` before it opens the device. -/
def startChecks (k : Key) (o : Outcomes) : Except Error Unit := do
  general k o
  restAPI k o
  netstackChecks k o

/-- What a `start` with this key and these outcomes amounts to. -/
def startEvent (key : Option Key) (o : Outcomes) : Event :=
  match key with
  | none => .idle
  | some k =>
    match startChecks k o, o.parseDevice, bufferSizes k o, o.createStack with
    | .error _, _, _, _ => .idle
    | .ok _, .error _, _, _ => .failed
    | .ok _, .ok (driver, fd), .error _, _ => .opened driver fd .options
    | .ok _, .ok (driver, fd), .ok _, .error _ => .opened driver fd .stack
    | .ok _, .ok (driver, fd), .ok _, .ok _ => .opened driver fd .running

/-- The stack that a `start` leaves in the globals. -/
def Setup.assign (setup : Setup) (s : State) : State :=
  match setup with
  | options => s
  | stack => { s with stack := none }
  | running => { s with stack := some ⟨s.device⟩ }

/-- The devices and the stack after an event. -/
def State.apply (closesLink : Bool) (s : State) : Event → State
  | .idle => s
  | .failed => { s with device := none }
  | .opened driver fd setup => setup.assign (s.openDevice driver fd)
  | .stop => Engine.stop closesLink s

/-- `check` in a run. -/
theorem run_check_bind {α : Type} (x : Except Error Unit) (f : Unit → EngineM α) (s : State) :
    (check x >>= f).run s =
      match x with
      | .ok _ => (f ()).run s
      | .error err => .error err s := by
  cases x <;> rfl

/-- A `start` is its event. -/
theorem started_eq (closesLink : Bool) (s : State) (key : Option Key) (o : Outcomes) :
    s.started key o = s.apply closesLink (startEvent key o) := by
  cases key with
  | none => rfl
  | some k =>
    have hrun : start (some k) o =
        check (general k o) >>= fun _ => check (restAPI k o) >>= fun _ => netstack k o := rfl
    rw [State.started, hrun, startEvent, startChecks, netstack, assignDevice, assignStack]
    simp only [run_check_bind]
    cases general k o with
    | error err => rfl
    | ok _ =>
      cases restAPI k o with
      | error err => rfl
      | ok _ =>
        cases netstackChecks k o with
        | error err => rfl
        | ok _ =>
          cases o.parseDevice with
          | error err => rfl
          | ok driver =>
            cases bufferSizes k o with
            | error err => rfl
            | ok _ => cases o.createStack <;> rfl

/-- The events of a run that begins with `_defaultKey = key`. -/
def events (key : Option Key) : List Call → List Event
  | [] => []
  | .insert k :: calls => .idle :: events k calls
  | .start o :: calls => startEvent key o :: events key calls
  | .stop :: calls => .stop :: events key calls

/-- A run is the run of its events. -/
theorem run_eq (closesLink : Bool) (key : Option Key) (s : State) (calls : List Call) :
    run closesLink key s calls = (events key calls).foldl (State.apply closesLink) s := by
  induction calls generalizing key s with
  | nil => rfl
  | cons c calls ih =>
    cases c with
    | insert k => exact ih k s
    | start o => rw [run, events, List.foldl_cons, started_eq closesLink, ih]
    | stop => exact ih key _

/-- `startEvent` is no `stop`. -/
theorem startEvent_ne_stop (key : Option Key) (o : Outcomes) : startEvent key o ≠ .stop := by
  unfold startEvent
  split
  · exact fun h => nomatch h
  · split <;> exact fun h => nomatch h

/-- `_defaultKey` after a sequence of calls. -/
def keyAfter (key : Option Key) : List Call → Option Key
  | [] => key
  | .insert k :: calls => keyAfter k calls
  | .start _ :: calls => keyAfter key calls
  | .stop :: calls => keyAfter key calls

theorem events_append (key : Option Key) (cs cs' : List Call) :
    events key (cs ++ cs') = events key cs ++ events (keyAfter key cs) cs' := by
  induction cs generalizing key with
  | nil => rfl
  | cons c cs ih =>
    cases c with
    | insert k => exact congrArg (Event.idle :: ·) (ih k)
    | start o => exact congrArg (startEvent key o :: ·) (ih key)
    | stop => exact congrArg (Event.stop :: ·) (ih key)

/-- A `stop` among the events is a call of `stop`. -/
theorem exists_call_of_events {key : Option Key} {calls : List Call} {before after : List Event}
    (h : events key calls = before ++ .stop :: after) :
    ∃ cs cs', calls = cs ++ .stop :: cs' ∧ events key cs = before := by
  induction before generalizing key calls with
  | nil =>
    cases calls with
    | nil => cases h
    | cons c calls =>
      cases c with
      | insert k => cases h
      | start o => exact absurd (List.cons.inj h).1 (startEvent_ne_stop key o)
      | stop => exact ⟨[], calls, rfl, rfl⟩
  | cons e before ih =>
    cases calls with
    | nil => cases h
    | cons c calls =>
      cases c with
      | insert k =>
        obtain ⟨he, htail⟩ := List.cons.inj h
        obtain ⟨cs, cs', rfl, hcs⟩ := ih htail
        exact ⟨.insert k :: cs, cs', rfl, congrArg₂ List.cons he hcs⟩
      | start o =>
        obtain ⟨he, htail⟩ := List.cons.inj h
        obtain ⟨cs, cs', rfl, hcs⟩ := ih htail
        exact ⟨.start o :: cs, cs', rfl, congrArg₂ List.cons he hcs⟩
      | stop =>
        obtain ⟨he, htail⟩ := List.cons.inj h
        obtain ⟨cs, cs', rfl, hcs⟩ := ih htail
        exact ⟨.stop :: cs, cs', rfl, congrArg₂ List.cons he hcs⟩

end Tun2socks.Engine
