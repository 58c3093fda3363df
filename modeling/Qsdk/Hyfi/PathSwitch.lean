/-
**Seamless path switching.**

A sender moves a flow from one interface to another: behind its last data packet on the old
interface it sends an end marker (packet type 3), and ahead of the data on the new one a begin
marker (packet type 4) with the same id. Every interface delivers in order (`Path.arrive`), but one
may be ahead of another. The receiver's `struct psw_flow_info` has room for one switch: after a
begin marker without its end marker it buffers what comes on the new interface; the buffer is
emptied bit by bit as more data comes.
-/

import Qsdk.Lib.First

namespace Qsdk.PathSwitch

/-- A reading of `jiffies`. -/
abbrev Jiffies := BitVec 64

/-- `time_before`. -/
def timeBefore (a b : Jiffies) : Bool := (a - b).msb

/-- `time_after`. -/
def timeAfter (a b : Jiffies) : Bool := timeBefore b a

/-- `HYFI_PSW_REORD_FLUSH_QUOTA` and `HYFI_PSW_MAX_REORD_BUF`. -/
def reordFlushQuota : Nat := 2

def maxReordBuf : Nat := 3072

/-- `struct __path_switch_param`, the times. -/
structure PathSwitchParam where
  mseTimeoutVal : Jiffies
  oldIfQuietTimeout : Jiffies

/-- `struct psw_flow_info`. The interface that is buffered is `none` for index 0. -/
structure FlowInfo (Iface Packet : Type) where
  pktCnt : Nat
  dupPkt : Nat
  waitIdx : Int
  msbRcv : Bool
  mseRcv : Bool
  bufPkt : Nat
  bufDevIdx : Option Iface
  lastMrkId : Nat
  lastJiffies : Jiffies
  mseTimeout : Bool
  oldIfJiffies : Jiffies
  skbBufQ : List Packet
deriving DecidableEq

variable {Iface Packet : Type} [DecidableEq Iface] [DecidableEq Packet]

namespace FlowInfo

/-- `hyfi_psw_init_entry`. -/
def init : FlowInfo Iface Packet := ⟨0, 0, -1, false, false, 0, none, 0xFFFF, 0, false, 0, []⟩

/-- `hyfi_psw_forward_and_queue`: what is forwarded from the buffer, and whether the packet is put
behind the rest. -/
def forwardAndQueue (info : FlowInfo Iface Packet) (skb : Packet) :
    FlowInfo Iface Packet × List Packet × Bool :=
  let out := info.skbBufQ.take reordFlushQuota
  let rest := info.skbBufQ.drop reordFlushQuota
  let info := { info with
    skbBufQ := rest
    pktCnt := info.pktCnt + out.length
    bufPkt := info.bufPkt - out.length }
  if rest ≠ [] then ({ info with skbBufQ := rest ++ [skb], bufPkt := info.bufPkt + 1 }, out, true)
  else
    ({ info with
        mseRcv := false
        msbRcv := false
        mseTimeout := false
        bufDevIdx := none
        oldIfJiffies := 0 }, out, false)

/-- `hyfi_psw_handle_pkt3`, behind the time stamp. -/
def endMarked (mrkId : Nat) (info : FlowInfo Iface Packet) : FlowInfo Iface Packet :=
  if info.msbRcv = true ∧ info.lastMrkId = mrkId then
    if info.mseTimeout then info else
      { info with msbRcv := false, mseRcv := false, oldIfJiffies := 0 }
  else if mrkId ≠ info.lastMrkId then
    let info := { info with lastMrkId := mrkId }
    if ¬ (info.dupPkt ≠ 0 ∨ info.waitIdx ≥ 0) then
      { info with mseRcv := true, mseTimeout := false } else info
  else info

/-- `hyfi_psw_handle_pkt3`. -/
def handlePkt3 (now : Jiffies) (mrkId : Nat) (info : FlowInfo Iface Packet) :
    FlowInfo Iface Packet :=
  endMarked mrkId { info with lastJiffies := now }

/-- `hyfi_psw_handle_pkt4`, behind the time stamp. -/
def beginMarked (now : Jiffies) (mrkId : Nat) (dev : Iface) (info : FlowInfo Iface Packet) :
    FlowInfo Iface Packet :=
  if info.mseRcv = true ∧ info.lastMrkId = mrkId then
    { info with
      mseRcv := false
      msbRcv := false
      bufDevIdx := none
      mseTimeout := false
      oldIfJiffies := 0 }
  else
    let info := { info with lastMrkId := mrkId }
    if ¬ (info.dupPkt ≠ 0 ∨ info.waitIdx ≥ 0) then
      { info with
        msbRcv := true
        bufDevIdx := some dev
        dupPkt := 0
        mseTimeout := false
        oldIfJiffies := now }
    else { info with msbRcv := false }

/-- `hyfi_psw_handle_pkt4`. -/
def handlePkt4 (now : Jiffies) (mrkId : Nat) (dev : Iface) (info : FlowInfo Iface Packet) :
    FlowInfo Iface Packet :=
  beginMarked now mrkId dev { info with lastJiffies := now }

/-- The packet is forwarded by the caller, unless it is consumed. -/
def passOn (forwarded : FlowInfo Iface Packet × List Packet × Bool) (skb : Packet) :
    FlowInfo Iface Packet × List Packet :=
  if forwarded.2.2 then (forwarded.1, forwarded.2.1)
  else ({ forwarded.1 with pktCnt := forwarded.1.pktCnt + 1 }, forwarded.2.1 ++ [skb])

/-- `hyfi_psw_process_pkt`, with the packets that are forwarded. -/
def processPkt (param : PathSwitchParam) (now : Jiffies) (dev : Iface) (skb : Packet)
    (info : FlowInfo Iface Packet) :
    FlowInfo Iface Packet × List Packet :=
  if info.dupPkt ≠ 0 ∨ info.waitIdx ≥ 0 then
    (if info.waitIdx < 0 then
      { info with dupPkt := info.dupPkt - 1, pktCnt := info.pktCnt + 1 } else info, [])
  else if info.mseTimeout = true ∧ info.bufDevIdx ≠ some dev then (info, [])
  else if info.msbRcv = true ∧ info.mseRcv = false ∧ info.mseTimeout = false then
    if info.bufDevIdx = some dev then
      if timeBefore now (info.lastJiffies + param.mseTimeoutVal) = true ∧
          info.bufPkt < maxReordBuf then
        let info := { info with skbBufQ := info.skbBufQ ++ [skb], bufPkt := info.bufPkt + 1 }
        (if timeAfter now (info.oldIfJiffies + param.oldIfQuietTimeout) then
            { info with mseTimeout := true, oldIfJiffies := 0 }
          else info, [])
      else passOn (forwardAndQueue { info with mseTimeout := true } skb) skb
    else passOn ({ info with oldIfJiffies := now }, [], false) skb
  else if info.mseRcv = false ∧ info.bufPkt ≠ 0 then passOn (forwardAndQueue info skb) skb
  else passOn (info, [], false) skb

end FlowInfo

/-! ### Sender and interfaces -/

/-- What is sent on an interface. -/
inductive Frame (Packet : Type)
  | data (skb : Packet)
  /-- `HYFI_PSW_PKT_3`. -/
  | endMarker (mrkId : Nat)
  /-- `HYFI_PSW_PKT_4`. -/
  | beginMarker (mrkId : Nat)
deriving DecidableEq

/-- What the sender does. -/
inductive Send (Iface Packet : Type)
  | data (skb : Packet)
  | switch (target : Iface) (mrkId : Nat)

/-- The frames that the sender sends, in the order of sending, from an interface on. -/
def emit : Iface → List (Send Iface Packet) → List (Iface × Frame Packet)
  | _, [] => []
  | dev, .data skb :: sends => (dev, .data skb) :: emit dev sends
  | dev, .switch target mrkId :: sends =>
    (dev, .endMarker mrkId) :: (target, .beginMarker mrkId) :: emit target sends

/-- Each switch goes to another interface, with an id that is not the last one. -/
def Fresh : Iface → Nat → List (Send Iface Packet) → Prop
  | _, _, [] => True
  | dev, last, .data _ :: sends => Fresh dev last sends
  | dev, last, .switch target mrkId :: sends => target ≠ dev ∧ mrkId ≠ last ∧
    Fresh target mrkId sends

/-- The data packets, in the order of sending. -/
def dataOf (wire : List (Iface × Frame Packet)) : List Packet :=
  wire.filterMap fun place =>
    match place.2 with
    | .data skb => some skb
    | _ => none

/-- The frames on their way, in the order of sending, the receiver, and what it has forwarded. -/
structure Path (Iface Packet : Type) where
  wire : List (Iface × Frame Packet)
  info : FlowInfo Iface Packet
  forwarded : List Packet
deriving DecidableEq

/-- A frame of an interface arrives. -/
structure Arrival (Iface : Type) where
  dev : Iface
  now : Jiffies

namespace Path

def start (dev : Iface) (sends : List (Send Iface Packet)) : Path Iface Packet :=
    ⟨emit dev sends, .init, []⟩

/-- The receiver on a frame. -/
def receive (param : PathSwitchParam) (path : Path Iface Packet) (dev : Iface) (now : Jiffies) :
    Frame Packet → Path Iface Packet
  | .data skb =>
    let processed := path.info.processPkt param now dev skb
    { path with info := processed.1, forwarded := path.forwarded ++ processed.2 }
  | .endMarker mrkId => { path with info := path.info.handlePkt3 now mrkId }
  | .beginMarker mrkId => { path with info := path.info.handlePkt4 now mrkId dev }

/-- The frame of an interface that arrives next. -/
def first (path : Path Iface Packet) (dev : Iface) : Option (Iface × Frame Packet) :=
  path.wire.find? fun place => decide (place.1 = dev)

/-- The first frame of the interface arrives. -/
def arrive (param : PathSwitchParam) (path : Path Iface Packet) (arrival : Arrival Iface) :
    Option (Path Iface Packet) :=
  match path.first arrival.dev with
  | none => none
  | some place => some (receive param { path with
      wire := path.wire.eraseP fun place => decide (place.1 = arrival.dev) } arrival.dev
        arrival.now place.2)

def run (param : PathSwitchParam) (path : Path Iface Packet) : List (Arrival Iface) →
    Option (Path Iface Packet)
  | [] => some path
  | arrival :: arrivals => (path.arrive param arrival).bind fun path => path.run param arrivals

/-- What every arrival of a run meets. -/
def Along (param : PathSwitchParam) (meets : Path Iface Packet → Arrival Iface → Prop)
    (path : Path Iface Packet) :
    List (Arrival Iface) → Prop
  | [] => True
  | arrival :: arrivals =>
    meets path arrival ∧ ∀ next, path.arrive param arrival = some next →
      next.Along param meets arrivals

/-- No timeout, and no overflow: a packet that is to be buffered comes in time and finds room. -/
def Timely (param : PathSwitchParam) (path : Path Iface Packet) (arrival : Arrival Iface) : Prop :=
  path.info.msbRcv = true → path.info.bufDevIdx = some arrival.dev →
    timeBefore arrival.now (path.info.lastJiffies + param.mseTimeoutVal) = true ∧
    path.info.bufPkt < maxReordBuf ∧
      timeAfter arrival.now (path.info.oldIfJiffies + param.oldIfQuietTimeout) = false

instance (param : PathSwitchParam) (path : Path Iface Packet) (arrival : Arrival Iface) :
    Decidable (path.Timely param arrival) :=
  inferInstanceAs (Decidable (_ → _ → _))

/-- The frames sent before the one that arrives, and not yet there. -/
def before (path : Path Iface Packet) (dev : Iface) : List (Iface × Frame Packet) :=
  path.wire.takeWhile fun place => !decide (place.1 = dev)

/-- A marker arrives only after both markers of every switch before; and a begin marker that arrives
before its end marker finds nothing in the buffer, or no data left on the way there. -/
def Separate (path : Path Iface Packet) (arrival : Arrival Iface) : Prop :=
  match path.first arrival.dev with
  | some (_, .endMarker _) => ∀ place ∈ path.before arrival.dev, ∃ skb, place.2 = .data skb
  | some (_, .beginMarker mrkId) =>
    (∀ place ∈ path.before arrival.dev, place.2 = .endMarker mrkId ∨ ∃ skb, place.2 = .data skb) ∧
      (path.info.skbBufQ = [] ∨ dataOf (path.before arrival.dev) = [])
  | _ => True

/-- The receiver has forwarded the data in order, and has the rest that has come in its buffer. -/
structure InOrder (sent : List Packet) (path : Path Iface Packet) : Prop where
  order : path.forwarded <+: sent
  once : (path.forwarded ++ (path.info.skbBufQ ++ dataOf path.wire)).Perm sent
  bufPkt : path.info.bufPkt = path.info.skbBufQ.length

end Path

end Qsdk.PathSwitch
