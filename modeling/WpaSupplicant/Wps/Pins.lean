import WpaSupplicant.Wps.Registrar
import WpaSupplicant.Lib.FirstMatch
import Mathlib.Logic.Function.Basic

namespace WpaSupplicant.Wps

open Lib.FirstMatch

-- `struct wps_uuid_pin`; `id` is its address. `wildcard` counts the uses of a PIN for any UUID.
structure Pin where
  id : ℕ
  uuid : BitVec 128 := 0
  wildcard : ℕ := 0
  pin : Octets
  locked : Bool := false
  expiration : Option OsTime := none
  deriving DecidableEq, Repr

namespace Pin

def lock (p : Pin) : Pin := { p with locked := true }
def unlock (p : Pin) : Pin := { p with locked := false }

def assign (uuid : BitVec 128) (p : Pin) : Pin := { p with wildcard := p.wildcard + 1, uuid := uuid }

def expired (now : OsTime) (p : Pin) : Bool := p.expiration.any fun t => osTimeBefore t now

def isFor (uuid : BitVec 128) (p : Pin) : Bool := p.uuid = uuid
def isSpecific (uuid : BitVec 128) (p : Pin) : Bool := p.wildcard = 0 && p.uuid = uuid
def isWildcard (p : Pin) : Bool := p.wildcard = 1 || p.wildcard = 2

end Pin

-- The PIN of `wps_registrar_add_pin`
def newPin (id : ℕ) (now : OsTime) (uuid : Option (BitVec 128)) (pin : Octets) (timeout : ℤ) : Pin where
  id := id
  uuid := uuid.getD 0
  wildcard := if uuid = none then 1 else 0
  pin := pin
  expiration := if timeout = 0 then none else some { now with sec := now.sec + timeout }

-- `wps_registrar_expire_pins`
def expirePins (now : OsTime) (pins : List Pin) : List Pin := pins.filter fun p => !p.expired now

-- `wps_registrar_invalidate_wildcard_pin`
def invalidateWildcardPin (pins : List Pin) : List Pin := pins.eraseP fun p => p.wildcard ≠ 0

-- `wps_registrar_invalidate_pin`
def invalidatePin (pins : List Pin) (uuid : BitVec 128) : List Pin := pins.eraseP (Pin.isFor uuid)

-- `wps_registrar_unlock_pin`
def unlockPin (pins : List Pin) (uuid : BitVec 128) : List Pin :=
  match pins.find? (Pin.isFor uuid) with
  | none => pins
  | some p =>
    if p.wildcard = 3 then invalidatePin pins uuid
    else modifyFirst (Pin.isFor uuid) Pin.unlock pins

-- `wps_registrar_get_pin`, with the PINs that are left
def getPin (now : OsTime) (pins : List Pin) (uuid : BitVec 128) : List Pin × Option Pin :=
  let pins := expirePins now pins
  match pins.find? (Pin.isSpecific uuid) with
  | some p =>
    if p.locked then (pins, none)
    else (modifyFirst (Pin.isSpecific uuid) Pin.lock pins, some p)
  | none =>
    match pins.find? Pin.isWildcard with
    | none => (pins, none)
    | some p =>
      if p.locked then (modifyFirst Pin.isWildcard (Pin.assign uuid) pins, none)
      else (modifyFirst Pin.isWildcard (fun p => (p.assign uuid).lock) pins, some p)

def applyEvent (pins : List Pin) : Event → List Pin
  | .invalidatePin uuid => invalidatePin pins uuid
  | .unlockPin uuid => unlockPin pins uuid
  | _ => pins

-- A session, with the PIN that its device password is a copy of
structure PinSession where
  data : WpsData
  pin : Option ℕ := none

-- The Registrar with its sessions. The rest is history: the PINs that were handed out, with the session,
-- the PINs whose second half was revealed, and the PINs that were configured for any UUID.
structure World where
  now : OsTime
  pins : List Pin := []
  sessions : ℕ → Option PinSession := fun _ => none
  next : ℕ := 0
  handed : List (ℕ × ℕ) := []
  revealed : List ℕ := []
  wild : List ℕ := []

inductive PinOp where
  | addPin (uuid : Option (BitVec 128)) (pin : Octets) (timeout : ℤ)
  | cancel
  | tick (now : OsTime)
  | start (sid : ℕ) (ctx : Context) (cfg : Config)
  | call (sid : ℕ) (step : Step)
  | deinit (sid : ℕ)

variable (c : Crypto)

-- The call comes to `wps_get_dev_password`, and there to `wps_registrar_get_pin`.
def asksPassword (wps : WpsData) (step : Step) : Bool := step.op = .getMsg && wps.state = .sendM2
def asksPin (wps : WpsData) (step : Step) : Bool := asksPassword wps step && !wps.pbc

-- What M7 holds proves the second half of the device password, which `wps_process_e_snonce2` looks at.
def provesM7 (env : Env) (wps : WpsData) (attr : ParseAttr) : Bool :=
  (Enrollee.openSettings c env wps attr).any fun r =>
    r.2.eSnonce2.any fun n => wps.peerHash2 = commitment2 c wps.toSecrets n

def provesPin (wps : WpsData) (step : Step) : Bool :=
  match step.op with
  | .processMsg .msg msg => (parseMsg msg).any fun attr => attr.msgType = some m7 && provesM7 c step.env wps attr
  | _ => false

def stepEvents (wps : WpsData) (step : Step) : List Event :=
  match step.op with
  | .processMsg opCode msg => (processMsg c step.env step.ctx wps opCode msg).2.2
  | .getMsg => (getMsg c step.env step.ctx wps).2.2

def pinFor (w : World) (wps : WpsData) (step : Step) : List Pin × Option Pin :=
  if asksPin wps step then getPin w.now w.pins wps.uuidE else (w.pins, none)

def withPin (step : Step) (pin : Option Pin) : Step :=
  { step with env := { step.env with pin := pin.map Pin.pin } }

def heldAfter (h : PinSession) (step : Step) (pin : Option Pin) : Option ℕ :=
  if asksPassword h.data step then if step.env.alloc .devPassword then pin.map Pin.id else none
  else h.pin

def callSession (w : World) (sid : ℕ) (h : PinSession) (step : Step) : World :=
  let p := pinFor w h.data step
  let data := stepData c h.data (withPin step p.2)
  let held := heldAfter h step p.2
  { w with
    pins := (stepEvents c h.data (withPin step p.2)).foldl applyEvent p.1
    sessions := Function.update w.sessions sid (some ⟨data, held⟩)
    handed := (p.2.map fun q => (q.id, sid)).toList ++ w.handed
    revealed := (if data.pinRevealed then held.toList else []) ++ w.revealed }

-- `wps_deinit`
def deinitSession (w : World) (sid : ℕ) (h : PinSession) : World :=
  { w with
    pins :=
      if h.data.pinRevealed then invalidatePin w.pins h.data.uuidE
      else unlockPin w.pins h.data.uuidE
    sessions := Function.update w.sessions sid none }

def pinExec (w : World) : PinOp → World
  | .addPin uuid pin timeout =>
    { w with
      pins := newPin w.next w.now uuid pin timeout :: w.pins
      next := w.next + 1
      wild := if uuid = none then w.next :: w.wild else w.wild }
  | .cancel => { w with pins := invalidateWildcardPin w.pins }
  | .tick now => { w with now := now }
  | .start sid ctx cfg =>
    match w.sessions sid with
    | some _ => w
    | none =>
      { w with
        sessions := Function.update w.sessions sid
          (some ⟨init ctx { cfg with registrar := true }, none⟩) }
  | .call sid step =>
    match w.sessions sid with
    | none => w
    | some h => callSession c w sid h step
  | .deinit sid =>
    match w.sessions sid with
    | none => w
    | some h => deinitSession w sid h

end WpaSupplicant.Wps
