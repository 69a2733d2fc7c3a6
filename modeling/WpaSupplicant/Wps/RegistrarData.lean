import WpaSupplicant.Wps.Pins
import WpaSupplicant.Lib.Recency

namespace WpaSupplicant.Wps

open Lib.FirstMatch Lib.Recency

def maxAuthorizedMacs : ℕ := 5

-- `authorized_macs`: a fixed number of slots, where all zeros is a free one
structure AuthMacs where
  slots : List Addr
  length_slots : slots.length = maxAuthorizedMacs
  deriving DecidableEq

namespace AuthMacs

def empty : AuthMacs := ⟨List.replicate maxAuthorizedMacs 0, List.length_replicate⟩

def shiftFrom (m : AuthMacs) (i : Fin maxAuthorizedMacs) : AuthMacs where
  slots := m.slots.take i ++ m.slots.drop (i + 1) ++ [0]
  length_slots := by
    have hlen := m.length_slots
    have hi := i.isLt
    simp only [List.length_append, List.length_take, List.length_drop, List.length_singleton, hlen]
    omega

-- `wps_registrar_add_authorized_mac`
def add (m : AuthMacs) (addr : Addr) : AuthMacs :=
  if addr ∈ m.slots then m
  else
    { slots := addr :: m.slots.take (maxAuthorizedMacs - 1)
      length_slots := by simp [List.length_take, m.length_slots, maxAuthorizedMacs] }

-- `wps_registrar_remove_authorized_mac`: every round of the search looks at the first slot.
def remove (m : AuthMacs) (addr : Addr) : AuthMacs :=
  match (List.finRange maxAuthorizedMacs).find? fun _ => m.slots.head? = some addr with
  | none => m
  | some i => m.shiftFrom i

def edit (m : AuthMacs) : Edit Addr → AuthMacs
  | .add addr => m.add addr
  | .remove addr => m.remove addr

-- `wps_authorized_macs`: the addresses in front of the first free slot
def advertised (m : AuthMacs) : List Addr := m.slots.takeWhile (· ≠ 0)

end AuthMacs

-- `struct wps_pbc_session`
structure PbcSession where
  addr : Addr
  uuidE : BitVec 128
  timestamp : OsTime
  deriving DecidableEq, Repr

-- `WPS_PBC_WALK_TIME`
def pbcWalkTime : ℤ := 120

def PbcSession.key (s : PbcSession) : Addr × BitVec 128 := (s.addr, s.uuidE)
def PbcSession.timedOut (now : OsTime) (s : PbcSession) : Bool := s.timestamp.sec + pbcWalkTime < now.sec

-- `wps_registrar_add_pbc_session`. Only a session that is new is allocated.
def addPbcSession (alloc : Bool) (now : OsTime) (sessions : List PbcSession) (addr : Addr)
    (uuidE : BitVec 128) : List PbcSession :=
  if alloc ∨ (addr, uuidE) ∈ sessions.map PbcSession.key then
    touch PbcSession.key (PbcSession.timedOut now) ⟨addr, uuidE, now⟩ sessions
  else sessions

-- `wps_registrar_remove_pbc_session`
def removePbcSession (sessions : List PbcSession) (uuidE : BitVec 128) : List PbcSession :=
  sessions.filter fun s => s.uuidE ≠ uuidE

-- The loop of `wps_registrar_pbc_overlap`, with the UUID-E of `first`
def pbcCount (now : OsTime) (uuidE : Option (BitVec 128)) :
    ℕ → Option (BitVec 128) → List PbcSession → ℕ
  | count, _, [] => count
  | count, first, s :: rest =>
    if s.timedOut now then count
    else if first = some s.uuidE then pbcCount now uuidE count first rest
    else
      pbcCount now uuidE (if uuidE = some s.uuidE then count else count + 1)
        (first.or (some s.uuidE)) rest

-- `wps_registrar_pbc_overlap`
def pbcOverlap (now : OsTime) (sessions : List PbcSession) (uuidE : Option (BitVec 128)) : Bool :=
  1 < pbcCount now uuidE (if uuidE.isSome then 1 else 0) none sessions

-- `struct wps_uuid_pin`, with the address of its Enrollee
structure RegPin extends Pin where
  enrolleeAddr : Addr := 0
  deriving DecidableEq, Repr

def RegPin.authorizes (p : RegPin) : Addr :=
  if p.enrolleeAddr = 0 then broadcastEtherAddr else p.enrolleeAddr

-- `struct wps_registrar`
structure RegistrarData where
  pbc : Bool := false
  selectedRegistrar : Bool := false
  pins : List RegPin := []
  pbcSessions : List PbcSession := []
  forcePbcOverlap : Bool := false
  authorizedMacs : AuthMacs := .empty
  authorizedMacsUnion : AuthMacs := .empty
  p2pDevAddr : Addr := 0
  deriving DecidableEq

namespace RegistrarData

variable (reg : RegistrarData)

-- `wps_registrar_selected_registrar_changed`, without subscriptions of external Registrars
def selectedRegistrarChanged : RegistrarData := { reg with authorizedMacsUnion := reg.authorizedMacs }

def removeAuthorizedMac (addr : Addr) : RegistrarData :=
  { reg with authorizedMacs := reg.authorizedMacs.remove addr }

def addAuthorizedMac (addr : Addr) : RegistrarData :=
  { reg with authorizedMacs := reg.authorizedMacs.add addr }

-- `wps_registrar_add_pin`; `id` is the address of the entry.
def addPin (id : ℕ) (now : OsTime) (addr : Option Addr) (uuid : Option (BitVec 128)) (pin : Octets)
    (timeout : ℤ) : RegistrarData :=
  let reg := { reg with
    pins := ⟨newPin id now uuid pin timeout, addr.getD 0⟩ :: reg.pins
    selectedRegistrar := true
    pbc := false }
  (reg.addAuthorizedMac (addr.getD broadcastEtherAddr)).selectedRegistrarChanged

-- `wps_registrar_remove_pin`, but for the list of the PINs
def removePin (p : RegPin) : RegistrarData :=
  (reg.removeAuthorizedMac p.authorizes).selectedRegistrarChanged

def removeFirst (P : Pin → Bool) : RegistrarData :=
  match reg.pins.find? fun p => P p.toPin with
  | none => reg
  | some p => { reg with pins := reg.pins.eraseP fun p => P p.toPin }.removePin p

-- `wps_registrar_expire_pins`
def expirePins (now : OsTime) : RegistrarData :=
  let expired := reg.pins.filter fun p => p.expired now
  { expired.foldl removePin reg with pins := reg.pins.filter fun p => !p.expired now }

-- `wps_registrar_invalidate_wildcard_pin`
def invalidateWildcardPin : RegistrarData := reg.removeFirst fun p => p.wildcard ≠ 0

-- `wps_registrar_invalidate_pin`
def invalidatePin (uuid : BitVec 128) : RegistrarData := reg.removeFirst (Pin.isFor uuid)

def modifyPin (P : Pin → Bool) (f : Pin → Pin) : RegistrarData :=
  { reg with pins := modifyFirst (fun p => P p.toPin) (fun p => { p with toPin := f p.toPin }) reg.pins }

-- `wps_registrar_unlock_pin`
def unlockPin (uuid : BitVec 128) : RegistrarData :=
  match reg.pins.find? fun p => p.isFor uuid with
  | none => reg
  | some p => if p.wildcard = 3 then reg.invalidatePin uuid else reg.modifyPin (Pin.isFor uuid) Pin.unlock

-- `wps_registrar_get_pin`, with the PIN
def getPin (now : OsTime) (uuid : BitVec 128) : RegistrarData × Option RegPin :=
  let reg := reg.expirePins now
  match reg.pins.find? fun p => p.isSpecific uuid with
  | some p => if p.locked then (reg, none) else (reg.modifyPin (Pin.isSpecific uuid) Pin.lock, some p)
  | none =>
    match reg.pins.find? fun p => p.isWildcard with
    | none => (reg, none)
    | some p =>
      if p.locked then (reg.modifyPin Pin.isWildcard (Pin.assign uuid), none)
      else (reg.modifyPin Pin.isWildcard fun p => (p.assign uuid).lock, some p)

-- `wps_registrar_stop_pbc`, which `wps_registrar_pbc_timeout` and `wps_registrar_pbc_completed` end with
def stopPbc : RegistrarData :=
  let reg := { reg with selectedRegistrar := false, pbc := false, p2pDevAddr := 0 }
  (reg.removeAuthorizedMac broadcastEtherAddr).selectedRegistrarChanged

-- `wps_registrar_button_pushed`
def buttonPushed (now : OsTime) (p2pDevAddr : Option Addr) : RegistrarData :=
  if p2pDevAddr = none ∧ pbcOverlap now reg.pbcSessions none then reg
  else
    let reg := { reg with
      forcePbcOverlap := false
      selectedRegistrar := true
      pbc := true
      p2pDevAddr := p2pDevAddr.getD 0 }
    (reg.addAuthorizedMac broadcastEtherAddr).selectedRegistrarChanged

-- `wps_registrar_pin_completed`
def pinCompleted : RegistrarData := { reg with selectedRegistrar := false }.selectedRegistrarChanged

-- The end of a registration, of a session that did PBC or with the mode of the Registrar: of
-- `wps_process_wsc_done` and `wps_registrar_complete`
def complete (pbc : Bool) (uuidE : BitVec 128) : RegistrarData :=
  if pbc then { reg with pbcSessions := removePbcSession reg.pbcSessions uuidE }.stopPbc
  else reg.pinCompleted

-- `wps_registrar_wps_cancel`
def cancel : RegistrarData :=
  if reg.pbc then reg.stopPbc
  else if reg.selectedRegistrar then reg.pinCompleted.invalidateWildcardPin
  else reg

-- `wps_registrar_set_selected_timeout`
def selectedTimeout : RegistrarData :=
  { reg with selectedRegistrar := false, pbc := false }.selectedRegistrarChanged

def probePbc (msg : Octets) : Option (BitVec 128) :=
  match parseMsg msg with
  | none => none
  | some attr =>
    if attr.configMethods.isSome ∧ attr.devPasswordId = some devPwPushbutton then attr.uuidE else none

-- `wps_registrar_probe_req_rx`
def probeReqRx (alloc : Bool) (now : OsTime) (addr : Addr) (msg : Octets) : RegistrarData :=
  match probePbc msg with
  | none => reg
  | some uuidE =>
    let sessions := addPbcSession alloc now reg.pbcSessions addr uuidE
    { reg with
      pbcSessions := sessions
      forcePbcOverlap := reg.forcePbcOverlap || pbcOverlap now sessions (some uuidE) }

-- `wps_registrar_p2p_dev_addr_match`
def p2pDevAddrMatch (p2pDevAddr : Addr) : Bool := reg.p2pDevAddr = 0 || reg.p2pDevAddr = p2pDevAddr

-- `wps_registrar_skip_overlap`
def skipOverlap (p2pDevAddr : Addr) : Bool := reg.p2pDevAddr ≠ 0 && reg.p2pDevAddr = p2pDevAddr

def m1Denied (now : OsTime) (p2pDevAddr : Addr) (uuidE : BitVec 128) : Bool :=
  (reg.forcePbcOverlap || pbcOverlap now reg.pbcSessions (some uuidE) || !reg.p2pDevAddrMatch p2pDevAddr) &&
    !reg.skipOverlap p2pDevAddr

-- What `wps_process_m1` has of the Registrar
def m1Context (ctx : Context) : Context :=
  { ctx with registrarPbc := reg.pbc, forcePbcOverlap := reg.forcePbcOverlap }

def m1Pbc (env : Env) (ctx : Context) (wps : WpsData) (attr : ParseAttr) : Option WpsData :=
  if wps.state ≠ .recvM1 then none
  else
    match Registrar.readM1 env ctx wps attr with
    | (_, false) => none
    | (wps, true) =>
      if Registrar.devPwIdSupported (reg.m1Context ctx) wps.devPwId ∧ wps.devPwId = devPwPushbutton then
        some wps
      else none

-- What `wps_process_m1` does to the Registrar
def processM1 (alloc : Bool) (now : OsTime) (p2pDevAddr : Addr) (env : Env) (ctx : Context) (wps : WpsData)
    (attr : ParseAttr) : RegistrarData :=
  match reg.m1Pbc env ctx wps attr with
  | none => reg
  | some wps =>
    if reg.m1Denied now p2pDevAddr wps.uuidE then { reg with forcePbcOverlap := true }
    else
      { reg with
        pbcSessions := addPbcSession alloc now reg.pbcSessions wps.macAddrE wps.uuidE }

end RegistrarData

inductive RegOp where
  | addPin (addr : Option Addr) (uuid : Option (BitVec 128)) (pin : Octets) (timeout : ℤ)
  | getPin (uuid : BitVec 128)
  | invalidatePin (uuid : BitVec 128)
  | unlockPin (uuid : BitVec 128)
  | buttonPushed (p2pDevAddr : Option Addr)
  | pbcTimeout
  | selectedTimeout
  | complete (pbc : Bool) (uuidE : BitVec 128)
  | cancel
  | probeReq (addr : Addr) (msg : Octets)
  | m1 (p2pDevAddr : Addr) (env : Env) (ctx : Context) (wps : WpsData) (attr : ParseAttr)

structure RegCall where
  now : OsTime
  alloc : Bool := true
  op : RegOp

-- The Registrar after a call; `id` is the address of an entry that is allocated.
def RegistrarData.exec (reg : RegistrarData) (id : ℕ) (call : RegCall) : RegistrarData :=
  match call.op with
  | .addPin addr uuid pin timeout => if call.alloc then reg.addPin id call.now addr uuid pin timeout else reg
  | .getPin uuid => (reg.getPin call.now uuid).1
  | .invalidatePin uuid => reg.invalidatePin uuid
  | .unlockPin uuid => reg.unlockPin uuid
  | .buttonPushed p2pDevAddr => reg.buttonPushed call.now p2pDevAddr
  | .pbcTimeout => reg.stopPbc
  | .selectedTimeout => reg.selectedTimeout
  | .complete pbc uuidE => reg.complete pbc uuidE
  | .cancel => reg.cancel
  | .probeReq addr msg => reg.probeReqRx call.alloc call.now addr msg
  | .m1 p2pDevAddr env ctx wps attr => reg.processM1 call.alloc call.now p2pDevAddr env ctx wps attr

section Pins

variable {reg : RegistrarData}

def RegistrarData.plainPins (reg : RegistrarData) : List Pin := reg.pins.map RegPin.toPin

theorem find?_plainPins (P : Pin → Bool) (pins : List RegPin) :
    (pins.map RegPin.toPin).find? P = (pins.find? fun p => P p.toPin).map RegPin.toPin := by
  rw [List.find?_map]
  rfl

namespace RegistrarData

theorem plainPins_removeFirst (P : Pin → Bool) : (reg.removeFirst P).plainPins = reg.plainPins.eraseP P := by
  have herase : ∀ pins : List RegPin,
      (pins.map RegPin.toPin).eraseP P = (pins.eraseP fun p => P p.toPin).map RegPin.toPin := by
    intro pins
    rw [List.eraseP_map]
    rfl
  rw [removeFirst]
  cases hfind : reg.pins.find? fun p => P p.toPin with
  | none =>
    have hnone : ∀ p ∈ reg.pins, ¬P p.toPin = true := by simpa using hfind
    rw [plainPins, herase, List.eraseP_of_forall_not hnone]
  | some p => exact (herase reg.pins).symm

theorem plainPins_modifyPin (P : Pin → Bool) (f : Pin → Pin) :
    (reg.modifyPin P f).plainPins = modifyFirst P f reg.plainPins := by
  rw [plainPins, plainPins, modifyPin]
  induction reg.pins with
  | nil => rfl
  | cons p pins ih =>
    rw [List.map_cons, modifyFirst, modifyFirst]
    split
    · rfl
    · rw [List.map_cons, ih]

theorem plainPins_expirePins (now : OsTime) : (reg.expirePins now).plainPins = Wps.expirePins now reg.plainPins := by
  rw [plainPins, plainPins, Wps.expirePins, List.filter_map]
  rfl

theorem plainPins_unlockPin (uuid : BitVec 128) :
    (reg.unlockPin uuid).plainPins = Wps.unlockPin reg.plainPins uuid := by
  rw [unlockPin, Wps.unlockPin]
  have hfind := find?_plainPins (Pin.isFor uuid) reg.pins
  rw [← plainPins] at hfind
  rw [hfind]
  cases reg.pins.find? fun p => p.isFor uuid with
  | none => rfl
  | some p =>
    simp only [Option.map_some]
    split
    · exact plainPins_removeFirst _
    · exact plainPins_modifyPin _ _

-- The Registrar hands out the same PINs as without the addresses.
theorem plainPins_getPin (now : OsTime) (uuid : BitVec 128) :
    ((reg.getPin now uuid).1.plainPins, (reg.getPin now uuid).2.map RegPin.toPin) =
      Wps.getPin now reg.plainPins uuid := by
  have hspecific := find?_plainPins (Pin.isSpecific uuid) (reg.expirePins now).pins
  have hwildcard := find?_plainPins Pin.isWildcard (reg.expirePins now).pins
  rw [← plainPins] at hspecific hwildcard
  rw [getPin, Wps.getPin, ← plainPins_expirePins]
  simp only [hspecific, hwildcard]
  cases (reg.expirePins now).pins.find? fun p => p.isSpecific uuid with
  | some p =>
    simp only [Option.map_some]
    split
    · rfl
    · rw [plainPins_modifyPin, Option.map_some]
  | none =>
    simp only [Option.map_none]
    cases (reg.expirePins now).pins.find? fun p => p.isWildcard with
    | none => rfl
    | some p =>
      simp only [Option.map_some]
      split
      · rw [plainPins_modifyPin, Option.map_none]
      · rw [plainPins_modifyPin, Option.map_some]

end RegistrarData

end Pins

section History

inductive Sight where
  | seen (s : PbcSession)
  | removed (uuidE : BitVec 128)
  deriving DecidableEq, Repr

variable (reg : RegistrarData) (call : RegCall)

def RegistrarData.sighting (addr : Addr) (uuidE : BitVec 128) : Option Sight :=
  if call.alloc ∨ (addr, uuidE) ∈ reg.pbcSessions.map PbcSession.key then
    some (.seen ⟨addr, uuidE, call.now⟩)
  else none

def RegistrarData.sight : Option Sight :=
  match call.op with
  | .complete pbc uuidE => if pbc then some (.removed uuidE) else none
  | .probeReq addr msg => (probePbc msg).bind (reg.sighting call addr)
  | .m1 p2pDevAddr env ctx wps attr =>
    match reg.m1Pbc env ctx wps attr with
    | none => none
    | some wps =>
      if reg.m1Denied call.now p2pDevAddr wps.uuidE then none
      else reg.sighting call wps.macAddrE wps.uuidE
  | _ => none

def RegistrarData.firstAuthorizes (P : Pin → Bool) : List (Edit Addr) :=
  ((reg.pins.find? fun p => P p.toPin).map fun p => Edit.remove p.authorizes).toList

def RegistrarData.edits : List (Edit Addr) :=
  match call.op with
  | .addPin addr _ _ _ => if call.alloc then [.add (addr.getD broadcastEtherAddr)] else []
  | .getPin _ => (reg.pins.filter fun p => p.expired call.now).map fun p => .remove p.authorizes
  | .invalidatePin uuid => reg.firstAuthorizes (Pin.isFor uuid)
  | .unlockPin uuid =>
    if (reg.pins.find? fun p => p.isFor uuid).any fun p => p.wildcard = 3 then
      reg.firstAuthorizes (Pin.isFor uuid)
    else []
  | .buttonPushed p2pDevAddr =>
    if p2pDevAddr = none ∧ pbcOverlap call.now reg.pbcSessions none then []
    else [.add broadcastEtherAddr]
  | .pbcTimeout => [.remove broadcastEtherAddr]
  | .selectedTimeout => []
  | .complete pbc _ => if pbc then [.remove broadcastEtherAddr] else []
  | .cancel =>
    if reg.pbc then [.remove broadcastEtherAddr]
    else if reg.selectedRegistrar then reg.firstAuthorizes fun p => p.wildcard ≠ 0
    else []
  | .probeReq _ _ => []
  | .m1 _ _ _ _ _ => []

end History

-- The Registrar with the time, and with what happened to its PBC sessions and to its list of authorized
-- addresses, the last entry first. The all-zero address is none.
structure RegWorld where
  reg : RegistrarData := {}
  now : OsTime
  next : ℕ := 0
  sights : List Sight := []
  history : List (Edit Addr) := []

-- `wps_registrar_init`
def RegWorld.start (now : OsTime) : RegWorld := { now := now }

def RegWorld.exec (w : RegWorld) (call : RegCall) : RegWorld where
  reg := w.reg.exec w.next call
  now := call.now
  next := w.next + 1
  sights := (w.reg.sight call).toList ++ w.sights
  history := ((w.reg.edits call).filter (· ≠ .add 0)).reverse ++ w.history

section Pool

def RegistrarData.poolExec (reg : RegistrarData) (id : ℕ) (call : RegCall) (pins : List Pin) : List Pin :=
  match call.op with
  | .addPin _ uuid pin timeout => if call.alloc then newPin id call.now uuid pin timeout :: pins else pins
  | .getPin uuid => (Wps.getPin call.now pins uuid).1
  | .invalidatePin uuid => Wps.invalidatePin pins uuid
  | .unlockPin uuid => Wps.unlockPin pins uuid
  | .cancel => if !reg.pbc && reg.selectedRegistrar then Wps.invalidateWildcardPin pins else pins
  | _ => pins

def RegWorld.pool : RegWorld → List RegCall → List Pin → List Pin
  | _, [], pins => pins
  | w, call :: calls, pins => pool (w.exec call) calls (w.reg.poolExec w.next call pins)

theorem RegistrarData.plainPins_exec (reg : RegistrarData) (id : ℕ) (call : RegCall) :
    (reg.exec id call).plainPins = reg.poolExec id call reg.plainPins := by
  unfold exec poolExec
  cases call.op with
  | addPin addr uuid pin timeout =>
    dsimp only
    split
    · rfl
    · rfl
  | getPin uuid => exact congrArg Prod.fst (plainPins_getPin call.now uuid)
  | invalidatePin uuid => exact plainPins_removeFirst _
  | unlockPin uuid => exact plainPins_unlockPin uuid
  | buttonPushed p2pDevAddr =>
    dsimp only
    rw [buttonPushed]
    split
    · rfl
    · rfl
  | complete pbc uuidE =>
    cases pbc with
    | true => rfl
    | false => rfl
  | cancel =>
    have hwildcard : reg.pinCompleted.invalidateWildcardPin.plainPins = Wps.invalidateWildcardPin reg.plainPins :=
      plainPins_removeFirst _
    dsimp only
    rw [cancel]
    cases reg.pbc with
    | true => rfl
    | false =>
      cases reg.selectedRegistrar with
      | true => exact hwildcard
      | false => rfl
  | probeReq addr msg =>
    dsimp only
    rw [probeReqRx]
    split
    · rfl
    · rfl
  | m1 p2pDevAddr env ctx wps attr =>
    dsimp only
    rw [processM1]
    split
    · rfl
    · split
      · rfl
      · rfl
  | pbcTimeout => rfl
  | selectedTimeout => rfl

-- Over a run, the Registrar holds the PINs of the pool and hands out the same ones.
theorem registrar_refines_pool (w : RegWorld) (calls : List RegCall) :
    (calls.foldl RegWorld.exec w).reg.plainPins = w.pool calls w.reg.plainPins ∧
      ∀ now uuid, ((calls.foldl RegWorld.exec w).reg.getPin now uuid).2.map RegPin.toPin =
        (Wps.getPin now (w.pool calls w.reg.plainPins) uuid).2 := by
  have hrun : (calls.foldl RegWorld.exec w).reg.plainPins = w.pool calls w.reg.plainPins := by
    induction calls generalizing w with
    | nil => rfl
    | cons call calls ih =>
      rw [List.foldl_cons, ih, RegWorld.pool]
      exact congrArg _ (RegistrarData.plainPins_exec w.reg w.next call)
  refine ⟨hrun, fun now uuid => ?_⟩
  rw [← hrun]
  exact congrArg Prod.snd (RegistrarData.plainPins_getPin now uuid)

end Pool

end WpaSupplicant.Wps
