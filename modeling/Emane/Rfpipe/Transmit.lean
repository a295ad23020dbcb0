import Mathlib
import Emane.Lib.Lifecycle
import Emane.Lib.Saturating
import Emane.Lib.Wakeup
import Emane.PluginApi.Properties
import Emane.Rfpipe.FlowControl

set_option autoImplicit false

/-! # The transmit side of the RFPipe MAC

The MAC with its times as the code computes them, its sequence numbers and its wakeups; the tokens and
the queue are those of `Emane.Rfpipe.FlowControl`. `processDownstream` puts a packet into the queue with
the time at which it is ready, and `driveTransmit` sends the packet in front when it is ready and the
last transmission is over. The jitter is random; it is given together with the clock and the answer of
the timer service (`Env`).
-/

namespace Emane.Rfpipe.Transmit

open Emane.Lib
open Emane.PluginApi (ModelHeader)

/-! ## Packets -/

structure OwnedPacket where
  source : UInt16
  destination : UInt16
  payload : Bytes
  payload_le : payload.length ≤ 64 * 2 ^ 20

instance : DecidableEq OwnedPacket := fun a b =>
  decidable_of_iff (a.source = b.source ∧ a.destination = b.destination ∧ a.payload = b.payload) (by
    cases a
    cases b
    simp)

/-- `own_packet`: a payload of more than 64 MiB is refused. -/
def ownPacket (source destination : UInt16) (payload : Bytes) : Option OwnedPacket :=
  if h : payload.length ≤ 64 * 2 ^ 20 then some ⟨source, destination, payload, h⟩ else none

/-- An entry of the queue. Its duration is positive and fits in a signed number. -/
structure PendingTx where
  packet : OwnedPacket
  acquiredAt : ℤ
  readyAt : ℤ
  duration : ℕ
  dataRate : ℕ
  duration_pos : 0 < duration
  duration_lt : duration < 2 ^ 63
  deriving DecidableEq

/-- `MAC_REGISTRATION_RFPIPE` -/
def macRegistrationRfpipe : UInt16 := 4

/-- A packet that is handed to the PHY. -/
structure Transmission where
  header : ModelHeader
  start : ℤ
  duration : ℕ
  deriving DecidableEq

/-- How a packet leaves the queue. -/
inductive Fate
  | sent (t : Transmission)
  /-- it made room; `arrived` packets were accepted before the one for which it did -/
  | overflowed (arrived : ℕ)
  deriving DecidableEq

structure Departure where
  pending : PendingTx
  fate : Fate
  deriving DecidableEq

/-! ## State -/

/-- The parameters of the MAC that the transmit side uses. -/
structure Config where
  dataRateBps : ℕ
  delayMicroseconds : ℤ
  flowControlEnable : Bool
  flowControlTokens : UInt16
  deriving DecidableEq

/-- What became of the packets since the last start. The source does not keep this. -/
structure Life where
  /-- the packets that were accepted, as they were queued -/
  accepted : List PendingTx
  /-- the packets that left the queue, in that order -/
  departed : List Departure
  /-- the numbers of tokens that were sent upwards -/
  flowUpdates : List ℕ
  deriving DecidableEq

/-- The part of the state of the MAC that the transmit side uses. -/
structure Mac where
  config : Config
  started : Bool
  availableTokens : ℕ
  sequence : UInt64
  queue : List PendingTx
  currentEndOfTransmission : ℤ
  queueDiscards : ℕ
  /-- `next_transmit_wakeup` and the timers of the framework -/
  wakeup : Wakeup ℤ
  life : Life
  deriving DecidableEq

/-- What a callback finds: the clock, the jitter and whether the framework accepts a timer. -/
structure Env where
  now : ℤ
  jitter : ℤ
  timerAccepted : Bool
  deriving DecidableEq

/-! ## The operations -/

/-- The duration of a packet of the MAC is a signed number. -/
theorem durationMicroseconds_lt {length : ℕ} (hlength : length ≤ 64 * 2 ^ 20) (dataRate : ℕ) :
    max (durationMicroseconds length dataRate) 1 < 2 ^ 63 := by
  have hle : durationMicroseconds length dataRate ≤ length * 8 * 1000000 := by
    unfold durationMicroseconds
    split
    · exact Nat.zero_le _
    next hrate =>
    have hpos : 0 < dataRate := Nat.pos_of_ne_zero hrate
    have hbits : min (min (length * 8) (2 ^ 64 - 1) * 1000000) (2 ^ 64 - 1) ≤
        length * 8 * 1000000 :=
      (min_le_left ..).trans (Nat.mul_le_mul_right _ (min_le_left ..))
    refine Nat.lt_succ_iff.mp ((Nat.div_lt_iff_lt_mul hpos).mpr ?_)
    calc min (min (length * 8) (2 ^ 64 - 1) * 1000000) (2 ^ 64 - 1) + (dataRate - 1)
        ≤ length * 8 * 1000000 + (dataRate - 1) := Nat.add_le_add_right hbits _
      _ < length * 8 * 1000000 + dataRate := by omega
      _ ≤ length * 8 * 1000000 * dataRate + dataRate :=
          Nat.add_le_add_right (Nat.le_mul_of_pos_right _ hpos) _
      _ = (length * 8 * 1000000).succ * dataRate := (Nat.succ_mul ..).symm
  omega

namespace Mac

variable (mac : Mac)

/-- A token comes back; the 16-bit addition saturates. -/
def returnToken : Mac :=
  if mac.config.flowControlEnable then
    { mac with
      availableTokens :=
        min (min (mac.availableTokens + 1) 65535) mac.config.flowControlTokens.toNat }
  else mac

/-- A token is taken, `none` if the subtraction underflows. -/
def takeToken : Option Mac :=
  if mac.config.flowControlEnable then
    if mac.availableTokens = 0 then none
    else some { mac with availableTokens := mac.availableTokens - 1 }
  else some mac

/-- `send_flow_update`, if there is an update to send. -/
def sendFlowUpdate (update : Option ℕ) : Mac :=
  { mac with life := { mac.life with flowUpdates := mac.life.flowUpdates ++ update.toList } }

/-- `schedule_transmit` -/
def scheduleTransmit (time : ℤ) (accepted : Bool) : Mac :=
  { mac with wakeup := if mac.started then mac.wakeup.schedule time accepted else mac.wakeup }

/-- The packet in front of the queue is sent. -/
def send (pending : PendingTx) (queue : List PendingTx) (now : ℤ) : Mac :=
  let mac := { mac with queue }.returnToken
  let header : ModelHeader :=
    { registrationId := macRegistrationRfpipe
      sequence := mac.sequence
      dataRateBps := UInt64.ofNat pending.dataRate
      category := 0
      messageType := 0
      flags := 0 }
  let departure : Departure :=
    { pending, fate := .sent { header, start := now, duration := pending.duration } }
  { mac with
    sequence := mac.sequence + 1
    currentEndOfTransmission := I64.saturatingAdd now (I64.cast pending.duration)
    life := { mac.life with departed := mac.life.departed ++ [departure] } }

/-- The section of `drive_transmit` under the lock: the state, and the update that will be sent. -/
def sendFront (now : ℤ) : Mac × Option ℕ :=
  match mac.queue with
  | [] => (mac, none)
  | pending :: queue =>
      if mac.currentEndOfTransmission ≤ now ∧ pending.readyAt ≤ now then
        let mac := mac.send pending queue now
        (mac, if mac.config.flowControlEnable then some mac.availableTokens else none)
      else (mac, none)

/-- `drive_transmit` -/
def driveTransmit (env : Env) : Mac :=
  if ¬ mac.started then mac
  else
    let (mac, update) := mac.sendFront env.now
    match mac.queue with
    | [] => mac.sendFlowUpdate update
    | front :: _ =>
        (mac.sendFlowUpdate update).scheduleTransmit
          (max (max front.readyAt mac.currentEndOfTransmission) env.now) env.timerAccepted

/-- The packet in front of the queue makes room. -/
def overflow (front : PendingTx) (queue : List PendingTx) : Mac :=
  let departure : Departure := { pending := front, fate := .overflowed mac.life.accepted.length }
  { mac with
    queue
    queueDiscards := min (mac.queueDiscards + 1) (2 ^ 32 - 1)
    life := { mac.life with departed := mac.life.departed ++ [departure] }
  }.returnToken

/-- The loop of `process_downstream` that makes room in the queue. -/
def makeRoom : List PendingTx → Mac → Mac
  | [], mac => mac
  | front :: queue, mac =>
      if queueCapacity ≤ (front :: queue).length then makeRoom queue (mac.overflow front queue)
      else mac

/-- The entry of a packet. -/
def newEntry (packet : OwnedPacket) (env : Env) : PendingTx where
  packet
  acquiredAt := env.now
  readyAt := max (I64.saturatingAdd (I64.saturatingAdd env.now mac.config.delayMicroseconds) env.jitter)
    env.now
  duration := max (durationMicroseconds packet.payload.length mac.config.dataRateBps) 1
  dataRate := mac.config.dataRateBps
  duration_pos := lt_max_of_lt_right Nat.one_pos
  duration_lt := durationMicroseconds_lt packet.payload_le _

def pushBack (entry : PendingTx) : Mac :=
  { mac with
    queue := mac.queue ++ [entry]
    life := { mac.life with accepted := mac.life.accepted ++ [entry] } }

/-- `process_downstream` for a packet -/
def processDownstream (packet : OwnedPacket) (env : Env) : Option Mac :=
  if ¬ mac.started ∨ mac.config.flowControlEnable ∧ mac.availableTokens = 0 then some mac
  else
    mac.takeToken.map fun mac =>
      let entry := mac.newEntry packet env
      let mac := (makeRoom mac.queue mac).pushBack entry
      let readyAt := max (max entry.readyAt mac.currentEndOfTransmission) env.now
      if readyAt ≤ env.now then mac.driveTransmit env
      else mac.scheduleTransmit readyAt env.timerAccepted

/-- `process_timed_event` for `EVENT_TRANSMIT` -/
def processTimedEvent (value : ℤ) (env : Env) : Mac :=
  let (wakeup, due) := mac.wakeup.fire value
  if due then { mac with wakeup }.driveTransmit env else { mac with wakeup }

/-- `start`, as far as the transmit side goes; `loaded` says whether the curve could be loaded. -/
def start (loaded : Bool) : Mac :=
  if loaded then
    { mac with
      availableTokens := mac.config.flowControlTokens.toNat
      started := true
      life :=
        { accepted := []
          departed := []
          flowUpdates :=
            if mac.config.flowControlEnable then [mac.config.flowControlTokens.toNat] else [] } }
  else mac

/-- `stop`; the timers are cancelled. -/
def stop : Mac := { mac with started := false, queue := [], wakeup := Wakeup.idle }

/-- A MAC that was configured and never started. -/
def fresh (config : Config) : Mac where
  config
  started := false
  availableTokens := config.flowControlTokens.toNat
  sequence := 0
  queue := []
  currentEndOfTransmission := 0
  queueDiscards := 0
  wakeup := Wakeup.idle
  life := { accepted := [], departed := [], flowUpdates := [] }

end Mac

/-- A callback of the transmit side. -/
inductive Callback
  | downstream (source destination : UInt16) (payload : Bytes) (env : Env)
  | timed (value : ℤ) (env : Env)
  deriving DecidableEq

def Callback.env : Callback → Env
  | .downstream _ _ _ env => env
  | .timed _ env => env

def Callback.now (callback : Callback) : ℤ := callback.env.now

/-- A callback, `none` if a subtraction underflows. -/
def Mac.callback (mac : Mac) : Callback → Option Mac
  | .downstream source destination payload env =>
      match ownPacket source destination payload with
      | none => some mac
      | some packet => mac.processDownstream packet env
  | .timed value env => some (mac.processTimedEvent value env)

/-- The transmit side as the `NemManager` calls it. -/
def transmitSide : Component Mac Callback where
  start := Mac.start
  stop := Mac.stop
  callback := Mac.callback

end Emane.Rfpipe.Transmit
