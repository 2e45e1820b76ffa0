import Grbl.Lib.Placement
import Grbl.Lib.Run

/-!
# Auxiliary ports

* `Driver` : a port driver and its pins; `Cfg` : the map and the claims of a kind and direction;
* `getPinInfo`, `digitalOut`, `analogOut`, `waitOnInput` : what a port number leads to;
* `getInfo`, `claim` : `ioport_claim`; `remap`, `setFunction`, `enumerate`, `add` : the other calls;
* `Action`, `exec`, `step` : one of them; `Action.Safe` : the condition.

Descriptions, capabilities, and the counts kept for other calls, are left out.
-/

namespace Grbl.Ports
open Lib

/-- `io_port_type_t` -/
inductive Kind
  | analog | digital
  deriving DecidableEq, Repr

/-- `io_port_direction_t` -/
inductive Direction
  | input | output
  deriving DecidableEq, Repr

def maxPorts : ℕ := 24

/-- `IOPORT_UNASSIGNED`, and an empty slot of a map -/
def unassigned : ℕ := 255

def nMax : Kind → ℕ
  | .analog => 8
  | .digital => 24

/-- `pin_function_t`: the auxiliary function `min_fn + n` of the kind and direction of the pin, or another one. -/
inductive PinFunction
  | aux (n : ℕ)
  | other (n : ℕ)
  deriving DecidableEq, Repr

/-- `io_ports_detail_t` -/
structure Detail where
  nPorts : ℕ
  nStart : ℕ
  idxLast : ℕ
  deriving DecidableEq, Repr

/-- An entry of the list `ports`; `pin` is what `hal.get_pin_info` of the driver gives, and the flags tell which handlers it
has. -/
structure Driver where
  portsId : ℕ
  kind : Kind
  cfg : Direction → Detail
  pin : Direction → ℕ → Option PinFunction
  hasOut : Bool
  hasWait : Bool

def Driver.isMatch (dv : Driver) (k : Kind) (d : Direction) (port : ℕ) : Bool :=
  dv.kind = k ∧ (dv.cfg d).nStart ≤ port ∧ port ≤ (dv.cfg d).idxLast

/-- `xbar_t`, with `n_start` of its `ports_id`. -/
structure Pin where
  portsId : ℕ
  start : ℕ
  id : ℕ
  function : PinFunction
  claimable : Bool
  claimed : Bool
  deriving DecidableEq, Repr

/-- The number of the physical port. -/
def Pin.port (pin : Pin) : ℕ := pin.start + pin.id

/-- `io_ports_private_t`; `granted` are the pins that `ioport_claim` has returned, with the port numbers. -/
structure Cfg where
  map : ℕ → ℕ
  claimed : ℕ → Bool
  lastClaimed : ℕ
  nPorts : ℕ
  ports : Bool
  pnum : Bool
  granted : List (Pin × ℕ)

/-- `hal` tells whether `claim_hal` has set the functions of `hal.port`, and a write behind a map sets `fault`. -/
structure Machine where
  drivers : List Driver := []
  cfg : Kind → Direction → Cfg := fun k _ =>
    { map := fun _ => 0, claimed := fun _ => false, lastClaimed := nMax k - 1, nPorts := 0, ports := false, pnum := false
      granted := [] }
  hal : Bool := false
  fault : Bool := false

def isAux (k : Kind) : PinFunction → Bool
  | .aux n => n < nMax k
  | .other _ => false

def mapReverse (k : Kind) (map : ℕ → ℕ) (port : ℕ) : ℕ := ((List.range (nMax k)).reverse.find? fun idx => map idx = port).getD port

def resolvePortnum (k : Kind) (map : ℕ → ℕ) (pin : Pin) : ℕ :=
  match pin.function with
  | .aux n => if n < nMax k then n else mapReverse k map pin.id
  | .other _ => mapReverse k map pin.id

namespace Machine

def setCfg (m : Machine) (k : Kind) (d : Direction) (c : Cfg) : Machine :=
  { m with cfg := fun k' d' => if k' = k ∧ d' = d then c else m.cfg k' d' }

@[simp] theorem setCfg_self (m : Machine) (k : Kind) (d : Direction) (c : Cfg) : (m.setCfg k d c).cfg k d = c := if_pos ⟨rfl, rfl⟩

theorem setCfg_of_ne (m : Machine) {k k' : Kind} {d d' : Direction} (c : Cfg) (h : ¬ (k' = k ∧ d' = d)) :
    (m.setCfg k d c).cfg k' d' = m.cfg k' d' := if_neg h

@[simp] theorem setCfg_setCfg (m : Machine) (k : Kind) (d : Direction) (c c' : Cfg) :
    (m.setCfg k d c).setCfg k d c' = m.setCfg k d c' := by
  rw [setCfg, setCfg, setCfg, Machine.mk.injEq]
  refine ⟨rfl, ?_, rfl, rfl⟩
  funext k' d'
  by_cases h : k' = k ∧ d' = d
  · rw [if_pos h, if_pos h]
  · rw [if_neg h, if_neg h]
    exact if_neg h

/-- `io_get_pin_info`; `mode.claimed` has one bit, and is given the masked bits. -/
def getPinInfo (m : Machine) (k : Kind) (d : Direction) (port : ℕ) : Option Pin :=
  let c := m.cfg k d
  m.drivers.findSome? fun dv =>
    if dv.isMatch k d (c.map port) then
      let id := c.map port - (dv.cfg d).nStart
      (dv.pin d id).map fun f =>
        { portsId := dv.portsId
          start := (dv.cfg d).nStart
          id := id
          function := f
          claimable := isAux k f
          claimed := c.claimed (id + (dv.cfg d).nStart) && id + (dv.cfg d).nStart = 0 }
    else none

/-- The driver and the port of it that `io_digital_out` and `io_analog_out` set. -/
def portOut (m : Machine) (k : Kind) (port : ℕ) : Option (ℕ × ℕ) :=
  let pn := (m.cfg k .output).map port
  (m.drivers.find? fun dv => dv.hasOut && dv.isMatch k .output pn).map fun dv => (dv.portsId, pn - (dv.cfg .output).nStart)

def digitalOut (m : Machine) (port : ℕ) : Option (ℕ × ℕ) := m.portOut .digital port

def analogOut (m : Machine) (port : ℕ) : Option (ℕ × ℕ) := m.portOut .analog port

/-- The driver and the port of it that `io_wait_on_input` reads. -/
def waitOnInput (m : Machine) (k : Kind) (port : ℕ) : Option (ℕ × ℕ) :=
  let pn := (m.cfg k .input).map port
  (m.drivers.find? fun dv => dv.hasWait && dv.isMatch k .input pn).map fun dv => (dv.portsId, pn - (dv.cfg .input).nStart)

/-! ## Claiming -/

/-- `get_info`, called with `claim` -/
def getInfo (m : Machine) (k : Kind) (d : Direction) (port : ℕ) : Option Pin :=
  let c := m.cfg k d
  if m.hal ∧ c.ports then
    (List.range c.nPorts).reverse.findSome? fun n =>
      (m.getPinInfo k d n).filter fun pin => !pin.claimed ∧ resolvePortnum k c.map pin = port
  else none

/-- The loop that moves the ports behind slot `idx` one slot down. -/
def shiftDown (map : ℕ → ℕ) : ℕ → ℕ → ℕ → ℕ
  | _, 0 => map
  | idx, left + 1 => shiftDown (Function.update map idx (map (idx + 1))) (idx + 1) left

/-- The loop of `io_claim` over the drivers: the result, and whether a driver was found that lets the port be claimed. -/
def claimLoop (k : Kind) (d : Direction) (port : ℕ) (claimable : Bool) : List Driver → Bool → Bool × Bool
  | [], ok => (ok, false)
  | dv :: drivers, ok =>
      if dv.isMatch k d port then
        let ok := (dv.pin d (port - (dv.cfg d).nStart)).isSome
        if ok && claimable then (true, true) else claimLoop k d port claimable drivers ok
      else claimLoop k d port claimable drivers ok

def slotOf (map : ℕ → ℕ) (port : ℕ) : ℕ := ((List.range maxPorts).find? fun idx => map idx = port).getD maxPorts

/-- The port is marked as claimed and goes to the slot `last_claimed`. -/
def claimSlot (c : Cfg) (port : ℕ) : Cfg :=
  let idx := slotOf c.map port
  let map := shiftDown c.map idx (c.lastClaimed - idx)
  { c with
    claimed := Function.update c.claimed port true
    map := Function.update map c.lastClaimed port
    lastClaimed := (c.lastClaimed + 255) % 256 }

/-- `io_claim`: whether it succeeds, and the port number; `claimable` is the capability the driver gives. -/
def ioClaim (m : Machine) (k : Kind) (d : Direction) (port : ℕ) (claimable : Bool) : Machine × Bool × ℕ :=
  let c := m.cfg k d
  if c.claimed port then (m, false, port)
  else
    match claimLoop k d port claimable m.drivers false with
    | (ok, false) => (m, ok, port)
    | (ok, true) =>
        ({ m with fault := m.fault || maxPorts ≤ slotOf c.map port }.setCfg k d (claimSlot c port), ok, c.lastClaimed)

/-- `ioport_claim` -/
def claim (m : Machine) (k : Kind) (d : Direction) (port : ℕ) (claimable : Bool) : Machine × Option (Pin × ℕ) :=
  if m.hal then
    match m.getInfo k d port with
    | none => (m, none)
    | some pin =>
        match m.ioClaim k d port claimable with
        | (m, true, number) =>
            let c := m.cfg k d
            (m.setCfg k d { c with granted := c.granted ++ [(pin, number)] }, some (pin, number))
        | (m, false, _) => (m, none)
  else (m, none)

/-! ## The other calls -/

/-- `ioport_remap` -/
def remap (m : Machine) (k : Kind) (d : Direction) (portFrom portTo : ℕ) : Machine × Bool :=
  let c := m.cfg k d
  if c.claimed (c.map portTo) then (m, false)
  else
    let orgPort := mapReverse k c.map portFrom
    let map := if orgPort ≠ portTo then Function.update c.map orgPort (c.map portTo) else c.map
    ({ m with fault := m.fault || maxPorts ≤ portTo || (orgPort ≠ portTo && maxPorts ≤ orgPort) }.setCfg k d
      { c with map := Function.update map portTo portFrom }, true)

/-- `ioport_set_function`, for a pin of a driver; `ok` is the answer of the driver. -/
def setFunction (m : Machine) (portsId : ℕ) (d : Direction) (id : ℕ) (function : PinFunction) (ok : Bool) : Machine :=
  { m with drivers := m.drivers.map fun dv =>
      if dv.portsId = portsId ∧ ok then
        { dv with pin := fun d' j => if d' = d ∧ j = id then (dv.pin d' j).map fun _ => function else dv.pin d' j }
      else dv }

/-- `ioports_enumerate`: the pin and the port number for which the callback returns `true`; with a filter the search starts
from the last port. -/
def enumerate (m : Machine) (k : Kind) (d : Direction) (filter : Option (Pin → Bool)) (callback : Pin → ℕ → Bool) :
    Option (Pin × ℕ) :=
  let c := m.cfg k d
  let visit := fun (filter : Pin → Bool) (n : ℕ) =>
    ((m.getPinInfo k d (mapReverse k c.map n)).map fun pin => (pin, resolvePortnum k c.map pin)).filter fun x =>
      filter x.1 && callback x.1 x.2
  if c.ports ∧ m.hal then
    match filter with
    | some filter => (List.range c.nPorts).reverse.findSome? (visit filter)
    | none => (List.range c.nPorts).findSome? (visit fun _ => true)
  else none

def addPorts (k : Kind) (c : Cfg) (n : ℕ) : Detail × Cfg :=
  if n = 0 then ({ nPorts := 0, nStart := 255, idxLast := 0 }, c)
  else
    let n := if nMax k < c.nPorts + n then nMax k - c.nPorts else n
    ({ nPorts := n, nStart := c.nPorts, idxLast := c.nPorts + n - 1 }, { c with ports := true, nPorts := c.nPorts + n })

def firstFree (map : ℕ → ℕ) : ℕ := slotOf map unassigned

/-- A turn of the loop of `_ioports_add`. -/
def fillTurn (dt : Detail) (s : (ℕ → ℕ) × ℕ) (i : ℕ) : (ℕ → ℕ) × ℕ :=
  if dt.nPorts ≠ 0 ∧ dt.nStart ≤ i ∧ i ≤ dt.idxLast then (Function.update s.1 s.2 i, s.2 + 1) else s

/-- The map of a direction after `_ioports_add`; `total` is the larger number of ports of the two directions. -/
def mapPorts (c : Cfg) (dt : Detail) (total : ℕ) : Cfg :=
  let start := if c.pnum then (c.map, firstFree c.map) else ((fun _ => unassigned), 0)
  { c with map := ((List.range (total + 1)).foldl (fillTurn dt) start).1, pnum := true }

/-- `ioports_add_digital` and `ioports_add_analog`: the number of ports, and what the driver knows of its pins. -/
def add (m : Machine) (k : Kind) (n : Direction → ℕ) (pin : Direction → ℕ → Option PinFunction) (hasOut hasWait : Bool) : Machine :=
  if n .input + n .output = 0 then m
  else
    let added := fun d => addPorts k (m.cfg k d) (n d)
    let total := max (added .input).2.nPorts (added .output).2.nPorts
    if total = 0 then { m with hal := true }
    else
      { m with
        hal := true
        cfg := fun k' d => if k' = k then mapPorts (added d).2 (added d).1 total else m.cfg k' d
        drivers := m.drivers ++
          [{ portsId := m.drivers.length
             kind := k
             cfg := fun d => (added d).1
             pin := pin
             hasOut := hasOut && n .output ≠ 0
             hasWait := hasWait && n .input ≠ 0 }] }

end Machine

inductive Action
  | add (k : Kind) (n : Direction → ℕ) (pin : Direction → ℕ → Option PinFunction) (hasOut hasWait : Bool)
  | claim (k : Kind) (d : Direction) (port : ℕ) (claimable : Bool)
  | remap (k : Kind) (d : Direction) (portFrom portTo : ℕ)
  | setFunction (portsId : ℕ) (d : Direction) (id : ℕ) (function : PinFunction) (ok : Bool)
  | enumerate (k : Kind) (d : Direction)

/-- An enumeration only reads; what its callback does is an action of its own. -/
def Machine.exec (m : Machine) : Action → Machine
  | .add k n pin hasOut hasWait => m.add k n pin hasOut hasWait
  | .claim k d port claimable => (m.claim k d port claimable).1
  | .remap k d portFrom portTo => (m.remap k d portFrom portTo).1
  | .setFunction portsId d id function ok => m.setFunction portsId d id function ok
  | .enumerate _ _ => m

def step (m : Machine) (a : Action) : Option Machine := some (m.exec a)

/-- As many slots as are needed from the first empty one on are empty. -/
def Cfg.Fits (k : Kind) (c : Cfg) (n : ℕ) : Prop :=
  c.nPorts + n ≤ nMax k ∧
    (c.pnum = true → ∀ j < n, Machine.firstFree c.map + j < nMax k ∧ c.map (Machine.firstFree c.map + j) = unassigned)

instance (k : Kind) (c : Cfg) (n : ℕ) : Decidable (c.Fits k n) := inferInstanceAs (Decidable (_ ∧ (_ → _)))

/-- Ports are added within `n_max`, next to each other; the port that `get_info` finds is the physical port of that number and
claimable; and only an unclaimed port is remapped, to a slot of the kind. -/
def Action.Safe (m : Machine) : Action → Prop
  | .add k n _ _ _ => (m.cfg k .input).Fits k (n .input) ∧ (m.cfg k .output).Fits k (n .output)
  | .claim k d port claimable => ∀ pin ∈ m.getInfo k d port, pin.port = port ∧ claimable = true
  | .remap k d portFrom portTo =>
      (m.cfg k d).claimed ((m.cfg k d).map portTo) = true ∨
        portFrom < (m.cfg k d).nPorts ∧ (m.cfg k d).claimed portFrom = false ∧ portTo < nMax k
  | .setFunction _ _ _ _ _ | .enumerate _ _ => True

instance (m : Machine) (a : Action) : Decidable (a.Safe m) :=
  match a with
  | .add _ _ _ _ _ => inferInstanceAs (Decidable (_ ∧ _))
  | .claim k d port claimable => inferInstanceAs (Decidable (∀ pin ∈ m.getInfo k d port, pin.port = port ∧ claimable = true))
  | .remap _ _ _ _ => inferInstanceAs (Decidable (_ ∨ _ ∧ _ ∧ _))
  | .setFunction _ _ _ _ _ | .enumerate _ _ => isTrue trivial

end Grbl.Ports
