import Mathlib
import Emane.Ieee80211.Timing
import Emane.Lib.Lifecycle
import Emane.Lib.Loop
import Emane.Lib.Wakeup
import Emane.PluginApi.Properties

set_option autoImplicit false

/-! # The transmit side of the IEEE 802.11 layer

`processDownstream` puts a packet into one of four queues, and `drive` takes the packets out: one at a
time is active, waits for its backoff (`pre`), is sent, waits for the end of its transmission (`post`),
and is tried again after a collision. `timed` drives the layer when the wakeup comes that it waits for.

What the estimates of the channel and the random numbers contribute to a backoff is given from outside,
together with the clock and the answer of the timer service (`Env`).
-/

namespace Emane.Ieee80211

open Emane.Lib
open Emane.PluginApi (FfiPacketInfo ModelHeader)

/-! ## Packets -/

/-- `BROADCAST_NEM` -/
def broadcastNem : UInt16 := 65535

/-- The packet information the layer uses. -/
structure OwnedPacket where
  info : FfiPacketInfo
  payload : Bytes
  payload_le : payload.length ≤ 64 * 2 ^ 20
  deriving DecidableEq

/-- `own_packet`: a payload of more than 64 MiB is refused. -/
def ownPacket (info : FfiPacketInfo) (payload : Bytes) : Option OwnedPacket :=
  if h : payload.length ≤ 64 * 2 ^ 20 then some ⟨info, payload, h⟩ else none

def OwnedPacket.broadcast (packet : OwnedPacket) : Bool := packet.info.destination = broadcastNem

inductive TxPhase
  | idle
  | pre
  | post
  deriving DecidableEq

structure PendingTx where
  /-- how many packets were accepted before it; the source does not number them -/
  id : ℕ
  packet : OwnedPacket
  category : Fin 4
  acquiredAt : ℤ
  txopMicroseconds : ℕ
  readyAt : ℤ
  postDelayMicroseconds : ℕ
  collision : Bool
  retries : ℕ
  maxRetries : UInt8
  rtsCts : Bool
  sequence : Option UInt64
  phase : TxPhase
  deriving DecidableEq

/-- `MAC_REGISTRATION_IEEE80211ABG` -/
def macRegistrationIeee80211abg : UInt16 := 3

/-- `MSG_TYPE_BROADCAST_DATA` -/
def msgTypeBroadcastData : UInt8 := 1
/-- `MSG_TYPE_UNICAST_DATA` -/
def msgTypeUnicastData : UInt8 := 2
/-- `MSG_TYPE_UNICAST_RTS_CTS_DATA` -/
def msgTypeUnicastRtsCtsData : UInt8 := 4

/-- `encode_flags` -/
def encodeFlags (rate : RateIndex) (retries : UInt8) : UInt16 :=
  UInt16.ofNat rate.index ||| (retries.toUInt16 <<< 8)

/-- A packet that is handed to the PHY. -/
structure Transmission where
  pending : PendingTx
  header : ModelHeader
  start : ℤ
  duration : ℕ
  deriving DecidableEq

/-! ## State -/

structure CategoryConfig where
  queueSize : ℕ
  maxEntrySize : ℕ
  aifsUs : ℕ
  retryLimit : UInt8
  txopMicroseconds : ℕ
  deriving DecidableEq

/-- The parameters of the layer that the transmit side uses. -/
structure Config where
  wmm : Bool
  mode : UInt8
  unicastRateIndex : RateIndex
  multicastRateIndex : RateIndex
  rtsThreshold : UInt16
  maxDistanceMeters : UInt32
  flowControl : Bool
  flowTokens : UInt16
  categories : Fin 4 → CategoryConfig
  deriving DecidableEq

/-- Why a packet that was accepted is not sent. -/
inductive DiscardReason
  | overflow
  | txop
  | retries
  deriving DecidableEq

/-- What became of the packets since the last start. The source does not keep this. -/
structure Life where
  /-- the entries of the packets that were accepted, as they were queued -/
  accepted : List PendingTx
  transmissions : List Transmission
  finished : List ℕ
  discarded : List (ℕ × DiscardReason)
  /-- the numbers of tokens that were sent upwards -/
  flowUpdates : List ℕ
  deriving DecidableEq

/-- The part of the layer's state that the transmit side uses. -/
structure Mac where
  config : Config
  started : Bool
  availableTokens : ℕ
  queues : Fin 4 → List PendingTx
  activeTx : Option PendingTx
  sequence : UInt64
  currentEot : ℤ
  queueDiscards : Fin 4 → ℕ
  /-- `next_wakeup` and the timers of the framework -/
  wakeup : Wakeup ℤ
  life : Life
  deriving DecidableEq

/-- What a callback finds: the clock, what the estimates and the random numbers give for a backoff, and
whether the framework accepts a timer. -/
structure Env where
  now : ℤ
  preDelay : ℕ
  postDelay : ℕ
  collision : Bool
  timerAccepted : Bool
  deriving DecidableEq

/-! ## Tokens and queues -/

namespace Mac

variable (mac : Mac)

/-- A token comes back; the 16-bit addition saturates. -/
def returnToken : Mac :=
  if mac.config.flowControl then
    { mac with
      availableTokens := min (min (mac.availableTokens + 1) 65535) mac.config.flowTokens.toNat }
  else mac

/-- A token is taken, `none` if the subtraction underflows. -/
def takeToken : Option Mac :=
  if mac.config.flowControl then
    if mac.availableTokens = 0 then none
    else some { mac with availableTokens := mac.availableTokens - 1 }
  else some mac

/-- `send_flow_update`, if there is an update to send. -/
def sendFlowUpdate (update : Option ℕ) : Mac :=
  { mac with life := { mac.life with flowUpdates := mac.life.flowUpdates ++ update.toList } }

def countDiscard (category : Fin 4) : Mac :=
  { mac with
    queueDiscards := Function.update mac.queueDiscards category
      (min (mac.queueDiscards category + 1) (2 ^ 32 - 1)) }

/-- The packet in front of a queue is dropped and its token comes back. -/
def dropFront (category : Fin 4) (front : PendingTx) (queue : List PendingTx) (reason : DiscardReason) :
    Mac :=
  ({ mac with
    queues := Function.update mac.queues category queue
    life := { mac.life with discarded := mac.life.discarded ++ [(front.id, reason)] }
  }.countDiscard category).returnToken

/-- What becomes of the active packet when it leaves: it is discarded, or it was sent. -/
def settle (pending : PendingTx) : Option DiscardReason → Mac
  | some reason =>
      { mac with life := { mac.life with discarded := mac.life.discarded ++ [(pending.id, reason)] } }
  | none => { mac with life := { mac.life with finished := mac.life.finished ++ [pending.id] } }

/-- `schedule_transmit` -/
def scheduleTransmit (time : ℤ) (accepted : Bool) : Mac :=
  { mac with wakeup := if mac.started then mac.wakeup.schedule time accepted else mac.wakeup }

/-! ## `drive` -/

/-- `calculate_tx_delay`: when the packet is ready, the delay after it, and whether it collides. -/
def calculateTxDelay (pending : PendingTx) (env : Env) : ℤ × ℕ × Bool :=
  let config := mac.config.categories pending.category
  let slot := slotSizeMicroseconds mac.config.mode mac.config.maxDistanceMeters
  let (_, sifs, _) := modeParameters mac.config.mode
  let preDelay := U64.saturatingAdd
    (U64.saturatingAdd env.preDelay (U64.saturatingMul config.aifsUs slot)) sifs
  (I64.saturatingAdd env.now (I64.clamp preDelay), env.postDelay, env.collision)

/-- The packet that `drive` looks at, taken out of the state: the active one, or the front of the last
queue that is not empty. -/
def takeActive : Option (PendingTx × Mac) :=
  match mac.activeTx with
  | some pending => some (pending, { mac with activeTx := none })
  | none =>
      (List.finRange 4).reverse.findSome? fun category =>
        match mac.queues category with
        | [] => none
        | front :: queue =>
            some (front, { mac with
              activeTx := none
              queues := Function.update mac.queues category queue })

/-- A packet whose backoff is over is sent. -/
def transmit (pending : PendingTx) (now : ℤ) : Mac :=
  let broadcast := pending.packet.broadcast
  let rateIndex :=
    if broadcast then mac.config.multicastRateIndex else mac.config.unicastRateIndex
  let (sequence, nextSequence) :=
    match pending.sequence with
    | some sequence => (sequence, mac.sequence)
    | none => (mac.sequence, mac.sequence + 1)
  let duration := packetDuration mac.config.mode pending.packet.payload.length rateIndex broadcast
    pending.rtsCts
  let header : ModelHeader :=
    { registrationId := macRegistrationIeee80211abg
      sequence
      dataRateBps := UInt64.ofNat (rateIndex.kbps * 1000)
      category := UInt8.ofNat pending.category
      messageType :=
        if broadcast then msgTypeBroadcastData
        else if pending.rtsCts then msgTypeUnicastRtsCtsData
        else msgTypeUnicastData
      flags := encodeFlags rateIndex (if broadcast then 0 else pending.maxRetries) }
  let currentEot := I64.saturatingAdd now (I64.cast duration)
  let pending :=
    { pending with
      sequence := some sequence
      readyAt := I64.saturatingAdd currentEot (I64.clamp pending.postDelayMicroseconds)
      phase := .post }
  { mac with
    sequence := nextSequence
    currentEot
    activeTx := some pending
    life := { mac.life with
      transmissions := mac.life.transmissions ++ [{ pending, header, start := now, duration }] } }

end Mac

/-- `drive` at work: the state, and the update that will be sent. -/
structure Driving where
  mac : Mac
  flowUpdate : Option ℕ

namespace Driving

/-- What is sent upwards after a token came back. -/
def updated (d : Driving) : Driving :=
  if d.mac.config.flowControl then { d with flowUpdate := some d.mac.availableTokens } else d

/-- The loop over one queue that drops packets whose opportunity has passed. -/
def expireQueue (now : ℤ) (category : Fin 4) : List PendingTx → Driving → Driving
  | [], d => d
  | front :: queue, d =>
      if txopExpired front.acquiredAt front.txopMicroseconds now then
        expireQueue now category queue
          { d with mac := d.mac.dropFront category front queue .txop }.updated
      else d

def expire (now : ℤ) (d : Driving) : Driving :=
  (List.finRange 4).foldl (fun d category => d.expireQueue now category (d.mac.queues category)) d

/-- One turn of the loop over the phases. -/
def turn (env : Env) (d : Driving) : Turn Driving :=
  match d.mac.takeActive with
  | none => .done d
  | some (pending, mac) =>
      match pending.phase with
      | .idle =>
          if txopExpired pending.acquiredAt pending.txopMicroseconds env.now then
            .again { d with
              mac := ((mac.countDiscard pending.category).settle pending (some .txop)).returnToken
            }.updated
          else
            let (readyAt, postDelay, collision) := mac.calculateTxDelay pending env
            .again { d with mac := { mac with
              activeTx := some { pending with
                readyAt
                postDelayMicroseconds := postDelay
                collision := collision && !pending.packet.broadcast
                phase := .pre } } }
      | .pre =>
          if env.now < pending.readyAt then
            .done { d with mac := { mac with activeTx := some pending } }
          else .done { d with mac := mac.transmit pending env.now }
      | .post =>
          if env.now < pending.readyAt then
            .done { d with mac := { mac with activeTx := some pending } }
          else if pending.collision && !pending.packet.broadcast then
            if pending.maxRetries.toNat ≤ pending.retries then
              .again { d with mac := (mac.settle pending (some .retries)).returnToken }.updated
            else
              .again { d with mac := { mac with
                activeTx := some { pending with
                  retries := min (pending.retries + 1) 255
                  phase := .idle } } }
          else .again { d with mac := (mac.settle pending none).returnToken }.updated

end Driving

/-! ## The callbacks -/

/-- How far a packet is from its end, by its phase. -/
def TxPhase.distance : TxPhase → ℕ
  | .idle => 2
  | .pre => 1
  | .post => 3

namespace Mac

variable (mac : Mac)

/-- The number of queued packets. -/
def queued : ℕ := ∑ category, (mac.queues category).length

/-- A bound for the turns of the loop of `drive`. -/
def turns : ℕ := 4 * mac.queued + (mac.activeTx.map fun pending => pending.phase.distance).getD 0

/-- The time at which `drive` wants to be called again. -/
def nextTransmit (now : ℤ) : Option ℤ :=
  match mac.activeTx with
  | some pending => some pending.readyAt
  | none => if ∃ category, mac.queues category ≠ [] then some now else none

/-- `drive`, `none` if its loop does not end within the turns. -/
def drive (env : Env) : Option Mac :=
  if ¬ mac.started then some mac
  else
    let d := Driving.expire env.now { mac, flowUpdate := none }
    (loop (Driving.turn env) (d.mac.turns + 1) d).map fun d =>
      let mac := d.mac.sendFlowUpdate d.flowUpdate
      match mac.nextTransmit env.now with
      | some next => mac.scheduleTransmit next env.timerAccepted
      | none => mac

/-- The loop of `processDownstream` that makes room in a queue. -/
def makeRoom (queueSize : ℕ) (category : Fin 4) : List PendingTx → Mac → Mac
  | [], mac => mac
  | front :: queue, mac =>
      if queueSize ≤ (front :: queue).length then
        makeRoom queueSize category queue (mac.dropFront category front queue .overflow)
      else mac

/-- The entry of a packet. -/
def newEntry (category : Fin 4) (packet : OwnedPacket) (now : ℤ) : PendingTx :=
  let config := mac.config.categories category
  let broadcast := packet.broadcast
  { id := mac.life.accepted.length
    packet
    category
    acquiredAt := now
    txopMicroseconds := config.txopMicroseconds
    readyAt := now
    postDelayMicroseconds := 0
    collision := false
    retries := 0
    maxRetries := if broadcast then 0 else config.retryLimit
    rtsCts := !broadcast && mac.config.rtsThreshold ≠ 0 &&
      mac.config.rtsThreshold.toNat ≤ packet.payload.length
    sequence := none
    phase := .idle }

def pushBack (category : Fin 4) (entry : PendingTx) : Mac :=
  { mac with
    queues := Function.update mac.queues category (mac.queues category ++ [entry])
    life := { mac.life with accepted := mac.life.accepted ++ [entry] } }

/-- The update that is sent when a packet is refused for its size. -/
def refusalUpdate : Option ℕ := if mac.config.flowControl then some mac.availableTokens else none

/-- `process_downstream` for a packet -/
def processDownstream (packet : OwnedPacket) (env : Env) : Option Mac :=
  let category := dscpToCategory packet.info.priority mac.config.wmm
  if ¬ mac.started ∨ mac.config.flowControl ∧ mac.availableTokens = 0 then some mac
  else
    let config := mac.config.categories category
    if config.maxEntrySize < packet.payload.length then some (mac.sendFlowUpdate mac.refusalUpdate)
    else if config.queueSize = 0 then
      some ((mac.countDiscard category).sendFlowUpdate mac.refusalUpdate)
    else
      mac.takeToken.bind fun mac =>
        let mac := mac.makeRoom config.queueSize category (mac.queues category)
        (mac.pushBack category (mac.newEntry category packet env.now)).drive env

/-- `process_timed_event` for `EVENT_TRANSMIT` -/
def processTimedEvent (value : ℤ) (env : Env) : Option Mac :=
  let (wakeup, due) := mac.wakeup.fire value
  if due then { mac with wakeup }.drive env else some { mac with wakeup }

/-- `start`, as far as the transmit side goes; `loaded` says whether the curves could be loaded. -/
def start (loaded : Bool) : Mac :=
  if loaded then
    { mac with
      availableTokens := mac.config.flowTokens.toNat
      started := true
      life :=
        { accepted := []
          transmissions := []
          finished := []
          discarded := []
          flowUpdates := if mac.config.flowControl then [mac.config.flowTokens.toNat] else [] } }
  else mac

/-- `stop`; the timers are cancelled. -/
def stop : Mac :=
  { mac with
    started := false
    queues := fun _ => []
    activeTx := none
    wakeup := Wakeup.idle }

end Mac

/-- A callback of the transmit side. -/
inductive Callback
  | downstream (info : FfiPacketInfo) (payload : Bytes) (env : Env)
  | timed (value : ℤ) (env : Env)
  deriving DecidableEq

def Callback.env : Callback → Env
  | .downstream _ _ env => env
  | .timed _ env => env

def Callback.now (callback : Callback) : ℤ := callback.env.now

/-- A callback, `none` if a loop does not end or a subtraction underflows. -/
def Mac.callback (mac : Mac) : Callback → Option Mac
  | .downstream info payload env =>
      match ownPacket info payload with
      | none => some mac
      | some packet => mac.processDownstream packet env
  | .timed value env => mac.processTimedEvent value env

/-- A layer that was configured and never started. -/
def Mac.fresh (config : Config) : Mac where
  config
  started := false
  availableTokens := config.flowTokens.toNat
  queues := fun _ => []
  activeTx := none
  sequence := 0
  currentEot := 0
  queueDiscards := fun _ => 0
  wakeup := Wakeup.idle
  life :=
    { accepted := []
      transmissions := []
      finished := []
      discarded := []
      flowUpdates := [] }

/-- The transmit side as the `NemManager` calls it. -/
def transmitSide : Component Mac Callback where
  start := Mac.start
  stop := Mac.stop
  callback := Mac.callback

end Emane.Ieee80211
