import DmrBridge.Bridge
import DmrBridge.DmrdCodec
import DmrBridge.Keepalive
import DmrBridge.UsrpRx

/-!
# The Homebrew client

`homebrew_client::run`: one attempt after the other, each with its handshake and its session. The
clock, the results of the socket calls and the datagrams come with the actions.
-/

open Endian Run

namespace DmrBridge

/-! ## Packets -/

def tagRptl : List UInt8 := [0x52, 0x50, 0x54, 0x4C]
def tagRptk : List UInt8 := [0x52, 0x50, 0x54, 0x4B]
def tagRptping : List UInt8 := [0x52, 0x50, 0x54, 0x50, 0x49, 0x4E, 0x47]
def tagRptcl : List UInt8 := [0x52, 0x50, 0x54, 0x43, 0x4C]
def tagRptack : List UInt8 := [0x52, 0x50, 0x54, 0x41, 0x43, 0x4B]
def tagMstnak : List UInt8 := [0x4D, 0x53, 0x54, 0x4E, 0x41, 0x4B]
def tagMstpong : List UInt8 := [0x4D, 0x53, 0x54, 0x50, 0x4F, 0x4E, 0x47]
def tagMstcl : List UInt8 := [0x4D, 0x53, 0x54, 0x43, 0x4C]
def tagRptsbkn : List UInt8 := [0x52, 0x50, 0x54, 0x53, 0x42, 0x4B, 0x4E]

def nonceLen : Nat := 4
def maxRecv : Nat := 512
def authTimeout : Duration := 10000
def backoffInitial : Duration := 1000
def backoffMax : Duration := 60000

structure ClientConfig where
  host : String
  port : UInt16
  dmrId : DmrId
  password : List UInt8
  keepaliveInterval : Duration
  keepaliveMissedLimit : UInt32
  /-- `profile.config_packet` -/
  configPacket : List UInt8
  /-- The `sha2` crate -/
  sha256 : List UInt8 → Bytes 32

def buildTagged (tag : List UInt8) (dmrId : DmrId) : List UInt8 := tag ++ beBytes 4 dmrId.asU32.toNat

def buildRptk (C : ClientConfig) (nonce : List UInt8) : List UInt8 :=
  tagRptk ++ beBytes 4 C.dmrId.asU32.toNat ++ (C.sha256 (nonce ++ C.password)).toList

/-- `NetworkError`; what the tracker returns has its own type. -/
inductive ConnectFailure where
  | resolve (host : String) (port : UInt16)
  | noAddress (host : String) (port : UInt16)
  | io
  | authCancelled
  | authTimeout (after : Duration)
  | masterNak (stage : String)
  | masterDisconnect
  | unexpectedResponse (stage : String) (preview : List UInt8)
  | keepalive (e : NetworkError)
  deriving DecidableEq

inductive InboundEvent where
  | pong
  | dmrd (pkt : Dmrd)
  | dmrdParseError (e : DmrdError)
  | masterNak
  | masterDisconnect
  | rptAck
  | rptSbkn
  | unknown
  deriving DecidableEq

def classify (data : List UInt8) : InboundEvent :=
  if tagMstpong.isPrefixOf data then .pong
  else if dmrdMagic.isPrefixOf data then
    match Dmrd.parse data with
    | .ok pkt => .dmrd pkt
    | .error e => .dmrdParseError e
  else if tagMstnak.isPrefixOf data then .masterNak
  else if tagMstcl.isPrefixOf data then .masterDisconnect
  else if tagRptack.isPrefixOf data then .rptAck
  else if tagRptsbkn.isPrefixOf data then .rptSbkn
  else .unknown

/-! ## Backoff -/

structure ReconnectBackoff where
  current : Duration
  deriving DecidableEq

namespace ReconnectBackoff

def new : ReconnectBackoff := ⟨backoffInitial⟩

def double (b : ReconnectBackoff) : ReconnectBackoff := ⟨min (b.current * 2) backoffMax⟩

def reset (_ : ReconnectBackoff) : ReconnectBackoff := ⟨backoffInitial⟩

end ReconnectBackoff

/-! ## The client -/

inductive Outgoing where
  | rptl
  | rptk (nonce : List UInt8)
  | rptc
  | ping
  | dmrd (pkt : DmrdPacket)
  | rptcl
  deriving DecidableEq

def Outgoing.wire (C : ClientConfig) : Outgoing → List UInt8
  | .rptl => buildTagged tagRptl C.dmrId
  | .rptk nonce => buildRptk C nonce
  | .rptc => C.configPacket
  | .ping => buildTagged tagRptping C.dmrId
  | .dmrd pkt => pkt.toList
  | .rptcl => buildTagged tagRptcl C.dmrId

/-- What an attempt does, in order. -/
inductive ClientEvent where
  | sent (pkt : Outgoing) (ok : Bool)
  | received (data : List UInt8)
  | reset
  | forwarded (pkt : Dmrd)
  deriving DecidableEq

inductive ClientPhase where
  | connecting
  | login (deadline : Instant)
  | auth (deadline : Instant)
  | configuring (deadline : Instant)
  | draining
  | notifying
  | session (tracker : KeepaliveTracker) (nextTick : Instant)
  /-- In `dmrd_tx.send`, deaf to all else. -/
  | forwarding (tracker : KeepaliveTracker) (nextTick : Instant) (pkt : Dmrd)
  | backoff (wake : Instant)
  | returned
  deriving DecidableEq

def ClientPhase.handshaking : ClientPhase → Bool
  | .connecting | .login _ | .auth _ | .configuring _ => true
  | _ => false

def ClientPhase.inSession : ClientPhase → Bool
  | .session .. | .forwarding .. => true
  | _ => false

/-- A `ConnectError` with the delay it leads to. `opened` and `pulse` are the session's: when its tracker was made,
and what the tracker was told. -/
structure Attempt where
  events : List ClientEvent
  opened : Option Instant
  pulse : List KeepaliveEvent
  authed : Bool
  source : ConnectFailure
  delay : Duration
  deriving DecidableEq

structure Client where
  phase : ClientPhase
  backoff : ReconnectBackoff
  /-- The two outbound queues; `sent` has what this session took from them. -/
  lanes : Lanes DmrdPacket
  control : List ControlEvent
  dmrdIn : List Dmrd
  cancelled : Bool
  /-- `voice_task` has dropped its ends of the channels. -/
  voiceGone : Bool
  history : List Attempt
  events : List ClientEvent
  opened : Option Instant
  pulse : List KeepaliveEvent
  /-- What `voice_task` has taken. -/
  taken : List Dmrd

/-- The clock, and whether the next packet and the RPTCL after it go out. -/
structure Os where
  now : Instant
  sends : Bool
  closes : Bool
  deriving DecidableEq

inductive ClientAction where
  | connected
  | setupFailed (e : ConnectFailure)
  | recv (datagram : List UInt8)
  | recvFailed
  | timeout
  | drained
  | notify
  | tick
  | deliver
  | send
  | wake
  /-- The token, or a channel whose other end is gone. -/
  | stop
  -- The other tasks.
  | pushControl (pkt : DmrdPacket)
  | pushVoice (pkt : DmrdPacket)
  | takeControl
  | takeDmrd
  | dropVoice
  | cancel

/-- Steps of the client itself. -/
def ClientAction.isOwn : ClientAction → Bool
  | .pushControl _ | .pushVoice _ | .takeControl | .takeDmrd | .dropVoice | .cancel => false
  | _ => true

/-- Steps in which a tracker can get a reading of the clock: when it is made, and for a ping and a pong. -/
def ClientAction.beats : ClientAction → Bool
  | .notify | .tick => true
  | .recv datagram =>
    match classify (datagram.take maxRecv) with
    | .pong => true
    | _ => false
  | _ => false

namespace Client

def start : Client where
  phase := .connecting
  backoff := .new
  lanes := .empty
  control := []
  dmrdIn := []
  cancelled := false
  voiceGone := false
  history := []
  events := []
  opened := none
  pulse := []
  taken := []

/-! ## Steps -/

def log (c : Client) (e : ClientEvent) : Client := { c with events := c.events ++ [e] }

def beat (c : Client) (e : KeepaliveEvent) : Client := { c with pulse := c.pulse ++ [e] }

/-- `run`, on an error of `connect_once`. -/
def failed (c : Client) (os : Os) (authed : Bool) (source : ConnectFailure) : Client :=
  if c.cancelled then { c with phase := .returned }
  else
    let backoff := if authed then c.backoff.reset else c.backoff
    { c with
      phase := .backoff (os.now + backoff.current)
      backoff
      history := c.history ++ [⟨c.events, c.opened, c.pulse, authed, source, backoff.current⟩]
      events := []
      opened := none
      pulse := [] }

/-- The end of `keepalive_loop`: RPTCL, whatever the result. -/
def leave (c : Client) (os : Os) (result : Except ConnectFailure Unit) : Client :=
  let c := c.log (.sent .rptcl os.closes)
  match result with
  | .ok () => { c with phase := .returned }
  | .error source => c.failed os true source

/-- `socket.send(..).await?` during the handshake -/
def request (c : Client) (os : Os) (pkt : Outgoing) (next : ClientPhase) : Client :=
  let c := c.log (.sent pkt os.sends)
  if os.sends then { c with phase := next } else c.failed os false .io

/-- `authenticate_inner`, on a datagram. -/
def onLogin (c : Client) (os : Os) (deadline : Instant) (data : List UInt8) : Client :=
  let c := c.log (.received data)
  if tagMstnak.isPrefixOf data then c.failed os false (.masterNak "login")
  else if tagRptack.isPrefixOf data ∧ tagRptack.length + nonceLen ≤ data.length then
    c.request os (.rptk ((data.drop tagRptack.length).take nonceLen)) (.auth deadline)
  else c

def onAuth (c : Client) (os : Os) (deadline : Instant) (data : List UInt8) : Client :=
  let c := c.log (.received data)
  if tagMstnak.isPrefixOf data then c.failed os false (.masterNak "auth (incorrect password)")
  else if ¬ tagRptack.isPrefixOf data then c.failed os false (.unexpectedResponse "RPTK" (data.take 10))
  else c.request os .rptc (.configuring deadline)

/-- The drain of the voice queue follows at once. -/
def onConfig (c : Client) (os : Os) (data : List UInt8) : Client :=
  let c := c.log (.received data)
  if tagMstnak.isPrefixOf data then c.failed os false (.masterNak "config")
  else if ¬ tagRptack.isPrefixOf data then c.failed os false (.unexpectedResponse "RPTC" (data.take 10))
  else { c with phase := .draining, lanes := { c.lanes with low := [] } }

/-- tokio's `Interval` with `MissedTickBehavior::Delay` -/
def nextTimeout (C : ClientConfig) (timeout now : Instant) : Instant :=
  if timeout + 5 < now then now + C.keepaliveInterval else timeout + C.keepaliveInterval

def onTick (C : ClientConfig) (c : Client) (os : Os) (tracker : KeepaliveTracker) (nextTick : Instant) : Client :=
  let c := c.beat (.tick os.now)
  match tracker.checkMissed with
  | (_, .error e) => c.leave os (.error (.keepalive e))
  | (tracker, .ok ()) =>
    let c := c.log (.sent .ping os.sends)
    if os.sends then { c with phase := .session (tracker.recordPing os.now) (nextTimeout C nextTick os.now) }
    else c.leave os (.error .io)

def onRecv (c : Client) (os : Os) (tracker : KeepaliveTracker) (nextTick : Instant) (data : List UInt8) : Client :=
  let c := c.log (.received data)
  match classify data with
  | .pong => { c.beat (.pong os.now) with phase := .session (tracker.recordPong os.now) nextTick }
  | .dmrd pkt => { c with phase := .forwarding tracker nextTick pkt }
  | .masterNak => c.leave os (.error (.masterNak "keepalive"))
  | .masterDisconnect => c.leave os (.error .masterDisconnect)
  | .dmrdParseError _ | .rptAck | .rptSbkn | .unknown => c

/-- The error of the phase in which the socket or the deadline fails. -/
def recvFailed (c : Client) (os : Os) : Option Client :=
  match c.phase with
  | .login _ | .auth _ | .configuring _ => some (c.failed os false .io)
  | .session .. => some (c.leave os (.error .io))
  | _ => none

def timeout (c : Client) (os : Os) : Option Client :=
  match c.phase with
  | .login deadline | .auth deadline | .configuring deadline =>
    if deadline ≤ os.now then some (c.failed os false (.authTimeout authTimeout)) else none
  | _ => none

def recv (c : Client) (os : Os) (datagram : List UInt8) : Option Client :=
  let data := datagram.take maxRecv
  match c.phase with
  | .login deadline => some (c.onLogin os deadline data)
  | .auth deadline => some (c.onAuth os deadline data)
  | .configuring _ => some (c.onConfig os data)
  | .session tracker nextTick => some (c.onRecv os tracker nextTick data)
  | _ => none

/-- `interval` ticks at once; `keepalive_loop` skips that tick. -/
def openSession (C : ClientConfig) (c : Client) (os : Os) : Client :=
  { c.log .reset with
    phase := .session (.new C.keepaliveMissedLimit os.now) (os.now + C.keepaliveInterval)
    control := c.control ++ [.networkReset]
    opened := some os.now }

def deliver (c : Client) : Option Client :=
  match c.phase with
  | .forwarding tracker nextTick pkt =>
    if c.voiceGone = false ∧ c.dmrdIn.length < voiceInDepth then
      some { c.log (.forwarded pkt) with phase := .session tracker nextTick, dmrdIn := c.dmrdIn ++ [pkt] }
    else none
  | _ => none

/-- An error of this send is logged and no more. -/
def send (c : Client) (os : Os) : Option Client :=
  match c.phase with
  | .session .. =>
    match c.lanes.high, c.lanes.low with
    | pkt :: high, _ =>
      some { c.log (.sent (.dmrd pkt) os.sends) with lanes := { c.lanes with high, sent := c.lanes.sent ++ [pkt] } }
    | [], pkt :: low =>
      if c.voiceGone then none
      else some { c.log (.sent (.dmrd pkt) os.sends) with lanes := { c.lanes with low, sent := c.lanes.sent ++ [pkt] } }
    | [], [] => none
  | _ => none

def stop (c : Client) (os : Os) : Option Client :=
  match c.phase with
  | .connecting | .login _ | .auth _ | .configuring _ =>
    if c.cancelled then some (c.failed os false .authCancelled) else none
  | .notifying => if c.voiceGone then some { c with phase := .returned } else none
  | .session .. => if c.cancelled ∨ c.voiceGone ∧ c.lanes.high = [] then some (c.leave os (.ok ())) else none
  | .forwarding .. => if c.voiceGone then some (c.leave os (.ok ())) else none
  | .backoff _ => if c.cancelled then some { c with phase := .returned } else none
  | .draining | .returned => none

/-- Each select looks at the token first. -/
def unlessCancelled (c : Client) (t : Option Client) : Option Client := if c.cancelled then none else t

def step (C : ClientConfig) (c : Client) : Os × ClientAction → Option Client
  | (os, .connected) =>
    match c.phase with
    | .connecting => c.unlessCancelled (some (c.request os .rptl (.login (os.now + authTimeout))))
    | _ => none
  | (os, .setupFailed e) =>
    match c.phase with
    | .connecting => c.unlessCancelled (some (c.failed os false e))
    | _ => none
  | (os, .recv datagram) => c.unlessCancelled (c.recv os datagram)
  | (os, .recvFailed) => c.unlessCancelled (c.recvFailed os)
  | (os, .timeout) => c.unlessCancelled (c.timeout os)
  | (_, .drained) =>
    match c.phase with
    | .draining => some { c with phase := .notifying, lanes := { c.lanes with high := [], sent := [] } }
    | _ => none
  | (os, .notify) =>
    match c.phase with
    | .notifying =>
      if c.voiceGone = false ∧ c.control.length < voiceCtlDepth then some (c.openSession C os) else none
    | _ => none
  | (os, .tick) =>
    match c.phase with
    | .session tracker nextTick =>
      if nextTick ≤ os.now then c.unlessCancelled (some (c.onTick C os tracker nextTick)) else none
    | _ => none
  | (_, .deliver) => c.deliver
  | (os, .send) => c.unlessCancelled (c.send os)
  | (os, .wake) =>
    match c.phase with
    | .backoff wake =>
      if wake ≤ os.now then c.unlessCancelled (some { c with phase := .connecting, backoff := c.backoff.double })
      else none
    | _ => none
  | (os, .stop) => c.stop os
  | (_, .pushControl pkt) => if c.voiceGone then none else some { c with lanes := c.lanes.pushHigh pkt }
  | (_, .pushVoice pkt) =>
    if c.voiceGone = false ∧ c.phase ≠ .returned ∧ c.lanes.low.length < dmrdOutDepth then
      some { c with lanes := c.lanes.pushLow pkt }
    else none
  | (_, .takeControl) =>
    match c.control with
    | [] => none
    | _ :: control => if c.voiceGone then none else some { c with control }
  | (_, .takeDmrd) =>
    match c.dmrdIn with
    | [] => none
    | pkt :: dmrdIn => if c.voiceGone then none else some { c with dmrdIn, taken := c.taken ++ [pkt] }
  | (_, .dropVoice) => some { c with voiceGone := true }
  | (_, .cancel) => some { c with cancelled := true }

/-! ## A small instance -/

def sampleConfig : ClientConfig where
  host := "master"
  port := 62031
  dmrId := ⟨1, by decide⟩
  password := []
  keepaliveInterval := 10
  keepaliveMissedLimit := 1
  configPacket := []
  sha256 := fun _ => .replicate 32 0

def onTime (now : Instant) : Os := ⟨now, true, true⟩

def login : List (Os × ClientAction) :=
  [(onTime 0, .connected), (onTime 1, .recv (tagRptack ++ [1, 2, 3, 4])), (onTime 2, .recv tagRptack),
    (onTime 3, .recv tagRptack), (onTime 4, .drained), (onTime 5, .notify)]

/-- One ping is answered, the next one is not. -/
def unanswered : List (Os × ClientAction) :=
  [(onTime 15, .tick), (onTime 16, .recv tagMstpong), (onTime 25, .tick), (onTime 35, .tick)]

end Client

end DmrBridge
