import WpaSupplicant.Radius

namespace WpaSupplicant.Radius

-- `RadiusType`
inductive MsgType where
  | auth
  | acct
  | acctInterim
  deriving DecidableEq, Repr

def MsgType.isAuth (t : MsgType) : Bool := t = .auth

inductive AddrFamily where
  | inet
  | inet6
  | other
  deriving DecidableEq, Repr

-- `struct hostapd_radius_server`
structure Server where
  addr : ℕ
  af : AddrFamily := .inet
  sharedSecret : Octets
  deriving DecidableEq, Repr

-- `struct radius_msg_list`; `ref` is the allocation.
structure Entry where
  ref : ℕ
  addr : Octets
  msg : Msg
  type : MsgType
  firstTry : ℕ
  nextTry : ℕ
  attempts : ℕ
  nextWait : ℕ
  sharedSecret : Octets
  deriving DecidableEq, Repr

structure Side where
  servers : List Server
  current : Option ℕ
  servSock : Option ℕ := none
  servSock6 : Option ℕ := none
  sock : Option ℕ := none
  deriving DecidableEq, Repr

def Side.server (s : Side) : Option Server := s.current.bind fun i => s.servers[i]?

-- A message that a server gets: the socket, the server that it is connected to, and the secret that is
-- recorded with the message
structure Transmission where
  sock : ℕ
  server : Server
  type : MsgType
  msg : Msg
  sharedSecret : Octets
  deriving DecidableEq, Repr

-- `struct radius_client_data` with `struct hostapd_radius_servers`, the open sockets with the servers that
-- they are connected to, and the registered timeouts of `radius_client_timer`. What was sent, how many
-- entries there were when the oldest was dropped, and whether an entry was used after it was freed are noted.
structure Client where
  auth : Side
  acct : Side
  socks : List (ℕ × Option Server) := []
  msgs : List Entry := []
  numMsgs : ℕ := 0
  nextRadiusIdentifier : UInt8 := 0
  timers : List ℕ := []
  forceClientAddr : Bool := false
  nextRef : ℕ := 0
  usedFreed : Bool := false
  drops : List ℕ := []
  sent : List Transmission := []
  deriving DecidableEq, Repr

-- `RADIUS_CLIENT_*`
def firstWait : ℕ := 3
def maxWait : ℕ := 120
def maxRetries : ℕ := 10
def maxEntries : ℕ := 30
def numFailover : ℕ := 4

-- What `bind` and `connect` answer
structure ConnectEnv where
  bind : Bool := true
  connect : Bool := true
  deriving DecidableEq, Repr

-- What `socket` answers for the two families
structure SockEnv extends ConnectEnv where
  sock : Option ℕ := none
  sock6 : Option ℕ := none
  deriving DecidableEq, Repr

-- What `send` answers: an error may be one of those after which the sockets are opened again.
structure SendEnv extends SockEnv where
  ok : Bool := true
  reconnect : Bool := false
  deriving DecidableEq, Repr

namespace Client

def side (s : Client) (auth : Bool) : Side := if auth then s.auth else s.acct

def setSide (s : Client) (auth : Bool) (side : Side) : Client :=
  if auth then { s with auth := side } else { s with acct := side }

def peer (s : Client) (fd : ℕ) : Option Server := (s.socks.find? fun x => x.1 = fd).bind Prod.snd

def unlink (s : Client) (p : Entry → Bool) : Client :=
  { s with
    msgs := s.msgs.filter fun e => !p e
    numMsgs := s.numMsgs - s.msgs.countP p }

-- `radius_client_flush`
def flush (s : Client) (onlyAuth : Bool) : Client :=
  let s := s.unlink fun e => !onlyAuth || e.type.isAuth
  if s.msgs.isEmpty then { s with timers := [] } else s

-- `radius_client_update_acct_msgs`
def updateAcctMsgs (c : Crypto) (s : Client) (secret : Octets) : Client :=
  { s with msgs := s.msgs.map fun e =>
      if e.type = .acct then { e with sharedSecret := secret, msg := e.msg.finishAcct c secret } else e }

def secretChanges (n : Server) (o : Option Server) : Bool :=
  o.elim true fun o => n.sharedSecret != o.sharedSecret

def Side.select (side : Side) (n : Server) : Option ℕ :=
  match n.af with
  | .inet => side.servSock
  | .inet6 => side.servSock6
  | .other => none

-- The part of `radius_change_server` that connects
def connectServer (s : Client) (auth : Bool) (n : Server) (env : ConnectEnv) : Client :=
  match Side.select (s.side auth) n with
  | none => s
  | some fd =>
    if (s.forceClientAddr && !env.bind) || !env.connect then s
    else
      { s.setSide auth { s.side auth with sock := some fd } with
        socks := s.socks.map fun x => if x.1 = fd then (fd, some n) else x }

def prepareMsgs (c : Crypto) (s : Client) (auth : Bool) (n : Server) (o : Option Server) : Client :=
  if !secretChanges n o then s
  else if auth then s.flush true
  else s.updateAcctMsgs c n.sharedSecret

def resetRetries (s : Client) (auth : Bool) : Client :=
  { s with msgs := s.msgs.map fun e =>
      if e.type = if auth then .auth else .acct then
        { e with nextTry := e.firstTry + firstWait, attempts := 0, nextWait := firstWait * 2 }
      else e }

def rearm (s : Client) (now : ℕ) : Client :=
  if s.msgs.isEmpty then s else { s with timers := [now + firstWait] }

-- `radius_change_server`
def changeServer (c : Crypto) (s : Client) (now : ℕ) (auth : Bool) (n : Server) (o : Option Server)
    (env : ConnectEnv) : Client :=
  connectServer (((s.prepareMsgs c auth n o).resetRetries auth).rearm now) auth n env

def freeFd (s : Client) : ℕ :=
  (s.socks.map Prod.fst).sum + s.auth.sock.getD 0 + s.acct.sock.getD 0 + 1

-- `socket` gives a number that is not in use: that of the environment, or another where it is.
def openSock (s : Client) (fd : Option ℕ) : Client × Option ℕ :=
  match fd with
  | none => (s, none)
  | some fd =>
    let fd := if fd ∈ s.socks.map Prod.fst then s.freeFd else fd
    ({ s with socks := (fd, none) :: s.socks }, some fd)

def openSocks (s : Client) (auth : Bool) (env : SockEnv) : Client :=
  let a := s.openSock env.sock
  let b := a.1.openSock env.sock6
  b.1.setSide auth { b.1.side auth with servSock := a.2, servSock6 := b.2 }

-- `radius_client_init_auth` and `radius_client_init_acct`
def initSide (c : Crypto) (s : Client) (now : ℕ) (auth : Bool) (env : SockEnv) : Client :=
  let s := s.openSocks auth env
  if (s.side auth).servSock.isNone && (s.side auth).servSock6.isNone then s
  else
    match (s.side auth).server with
    | none => s
    | some n => s.changeServer c now auth n none env.toConnectEnv

-- `radius_client_handle_send_error`
def handleSendError (c : Crypto) (s : Client) (now : ℕ) (fd : Option ℕ) (type : MsgType) (env : SendEnv) :
    Client :=
  if !env.reconnect then s
  else
    { s with socks := s.socks.filter fun x => some x.1 ≠ fd }.initSide c now type.isAuth env.toSockEnv

-- What a server gets from `send` on the socket of a side
def transmission (s : Client) (type : MsgType) (msg : Msg) (secret : Octets) : Option Transmission :=
  (s.side type.isAuth).sock.bind fun fd => (s.peer fd).map fun n => ⟨fd, n, type, msg, secret⟩

-- `send` and what follows an error
def transmit (c : Crypto) (s : Client) (now : ℕ) (type : MsgType) (msg : Msg) (secret : Octets)
    (env : SendEnv) : Client × Bool :=
  if env.ok then ({ s with sent := (s.transmission type msg secret).toList ++ s.sent }, true)
  else (s.handleSendError c now (s.side type.isAuth).sock type env, false)

def modifyEntry (s : Client) (ref : ℕ) (f : Entry → Entry) : Client :=
  { s with msgs := s.msgs.map fun e => if e.ref = ref then f e else e }

def entry (s : Client) (ref : ℕ) : Option Entry := s.msgs.find? fun e => e.ref = ref

-- The end of `radius_client_retransmit`
def backOff (now : ℕ) (e : Entry) : Entry :=
  { e with nextTry := now + e.nextWait, nextWait := min (e.nextWait * 2) maxWait }

-- `radius_client_retransmit`: an entry that is flushed meanwhile is used after it was freed.
def retransmit (c : Crypto) (s : Client) (now : ℕ) (e : Entry) (env : SendEnv) : Client :=
  let s := s.modifyEntry e.ref fun e => { e with attempts := e.attempts + 1 }
  let s := (s.transmit c now e.type e.msg e.sharedSecret env).1
  if (s.entry e.ref).isNone then { s with usedFreed := true } else s.modifyEntry e.ref (backOff now)

-- What the traversal of `radius_client_timer` has found
structure Found where
  authFailover : Bool := false
  acctFailover : Bool := false
  first : ℕ := 0
  deriving DecidableEq, Repr

def Found.note (f : Found) (e : Entry) : Found :=
  { authFailover := f.authFailover || (decide (numFailover < e.attempts) && e.type.isAuth)
    acctFailover := f.acctFailover || (decide (numFailover < e.attempts) && !e.type.isAuth)
    first := if f.first = 0 ∨ e.nextTry < f.first then e.nextTry else f.first }

def visit (c : Crypto) (now : ℕ) (env : SendEnv) (s : Client) (f : Found) (ref : ℕ) : Client × Found :=
  match s.entry ref with
  | none => (s, f)
  | some e =>
    if now < e.nextTry then (s, f.note e)
    else
      let s := s.retransmit c now e env
      match s.entry ref with
      | none => (s, f)
      | some e =>
        if maxRetries ≤ e.attempts then (s.unlink fun x => decide (x.ref = ref), f)
        else (s, f.note e)

def visitAll (c : Crypto) (now : ℕ) : (ℕ → SendEnv) → Client → Found → List ℕ → Client × Found
  | _, s, f, [] => (s, f)
  | env, s, f, ref :: refs =>
    let r := visit c now (env 0) s f ref
    if r.1.usedFreed then r else visitAll c now (fun k => env (k + 1)) r.1 r.2 refs

def failover (c : Crypto) (s : Client) (now : ℕ) (auth : Bool) (env : ConnectEnv) : Client :=
  match (s.side auth).current with
  | none => s
  | some i =>
    let next := if i + 1 < (s.side auth).servers.length then i + 1 else 0
    let old := (s.side auth).server
    match (s.side auth).servers[next]? with
    | none => s
    | some n =>
      (s.setSide auth { s.side auth with current := some next }).changeServer c now auth n old env

structure TimerEnv where
  sends : ℕ → SendEnv
  auth : ConnectEnv := {}
  acct : ConnectEnv := {}

-- The end of `radius_client_timer`
def timerEnd (c : Crypto) (s : Client) (now : ℕ) (f : Found) (env : TimerEnv) : Client :=
  let s := if s.msgs.isEmpty then s else { s with timers := max f.first now :: s.timers }
  let s := if f.authFailover && decide (1 < s.auth.servers.length) then s.failover c now true env.auth else s
  if f.acctFailover && decide (1 < s.acct.servers.length) then s.failover c now false env.acct else s

-- `radius_client_timer`, at the timeout of a time
def clientTimer (c : Crypto) (s : Client) (now timeout : ℕ) (env : TimerEnv) : Client :=
  let s := { s with timers := s.timers.erase timeout }
  if s.msgs.isEmpty then s
  else
    let r := visitAll c now env.sends s {} (s.msgs.map Entry.ref)
    if r.1.usedFreed then r.1 else r.1.timerEnd c now r.2 env

-- `radius_client_update_timeout`
def updateTimeout (s : Client) (now : ℕ) : Client :=
  if s.msgs.isEmpty then { s with timers := [] }
  else
    let first := s.msgs.foldl (fun f e => if f = 0 ∨ e.nextTry < f then e.nextTry else f) 0
    { s with timers := [max first now] }

-- `radius_client_list_add`
def listAdd (s : Client) (now : ℕ) (alloc : Bool) (msg : Msg) (type : MsgType) (secret : Octets)
    (addr : Option Octets) : Client :=
  if !alloc then s
  else
    let e : Entry := ⟨s.nextRef, addr.getD (List.replicate 6 0), msg, type, now, now + firstWait, 1,
      firstWait * 2, secret⟩
    let s := { s with msgs := e :: s.msgs, nextRef := s.nextRef + 1 }.updateTimeout now
    if maxEntries ≤ s.numMsgs then
      if s.msgs.length < 2 then s
      else { s with msgs := s.msgs.dropLast, drops := (s.msgs.length - 1) :: s.drops }
    else { s with numMsgs := s.numMsgs + 1 }

-- `radius_client_list_del`
def listDel (s : Client) (type : MsgType) (addr : Option Octets) : Client :=
  match addr with
  | none => s
  | some addr => s.unlink fun e => e.type = type && e.addr = addr

-- The environment of `radius_client_send`
structure MsgEnv extends SendEnv where
  alloc : Alloc := {}
  allocEntry : Bool := true

-- `radius_client_send`: the client, and whether the message was sent
def send (c : Crypto) (s : Client) (now : ℕ) (msg : Msg) (type : MsgType) (addr : Option Octets)
    (env : MsgEnv) : Client × Bool :=
  let s := if type = .acctInterim then s.listDel type addr else s
  match (s.side type.isAuth).server with
  | none => (s, false)
  | some n =>
    let msg := if type.isAuth then (msg.finish c env.alloc (some n.sharedSecret)).1
      else msg.finishAcct c n.sharedSecret
    let r := s.transmit c now type msg n.sharedSecret env.toSendEnv
    (r.1.listAdd now env.allocEntry msg type n.sharedSecret addr, r.2)

-- `radius_client_get_id`
def getId (s : Client) : Client × UInt8 :=
  let id := s.nextRadiusIdentifier
  ({ s with
      nextRadiusIdentifier := id + 1
      msgs := s.msgs.filter fun e => e.msg.identifier ≠ id }, id)

-- A pending request that a message from the socket of a kind answers
def Entry.answered (e : Entry) (auth : Bool) (id : UInt8) : Bool :=
  (e.type.isAuth == auth) && e.msg.identifier = id

-- The part of `radius_client_receive` that finds the request and removes it: the message and the request
-- that are given to the handlers
def receive (s : Client) (auth : Bool) (buf : Octets) : Client × Option (Msg × Entry) :=
  if 3000 ≤ buf.length then (s, none)
  else
    match Msg.parse buf with
    | none => (s, none)
    | some msg =>
      match s.msgs.find? fun e => Entry.answered e auth msg.identifier with
      | none => (s, none)
      | some req => (s.unlink fun e => e.ref = req.ref, some (msg, req))

-- `radius_client_flush_auth`
def flushAuth (s : Client) (addr : Octets) : Client :=
  s.unlink fun e => e.type.isAuth && e.addr = addr

-- One side of `radius_retry_primary_timer`
def retryPrimarySide (c : Crypto) (s : Client) (now : ℕ) (auth : Bool) (env : ConnectEnv) : Client :=
  match (s.side auth).sock, (s.side auth).servers[0]? with
  | some _, some n =>
    if (s.side auth).current = some 0 then s
    else
      (s.setSide auth { s.side auth with current := some 0 }).changeServer c now auth n
        (s.side auth).server env
  | _, _ => s

-- `radius_retry_primary_timer`
def retryPrimary (c : Crypto) (s : Client) (now : ℕ) (authEnv acctEnv : ConnectEnv) : Client :=
  (s.retryPrimarySide c now true authEnv).retryPrimarySide c now false acctEnv

def Side.ofServers (servers : List Server) : Side :=
  { servers := servers, current := if servers.isEmpty then none else some 0 }

-- `radius_client_init`
def init (c : Crypto) (now : ℕ) (auth acct : List Server) (forceClientAddr : Bool)
    (authEnv acctEnv : SockEnv) : Client :=
  let s : Client :=
    { auth := Side.ofServers auth, acct := Side.ofServers acct, forceClientAddr := forceClientAddr }
  let s := if auth.isEmpty then s else s.initSide c now true authEnv
  if acct.isEmpty then s else s.initSide c now false acctEnv

inductive Op where
  | getId
  | send (now : ℕ) (msg : Msg) (type : MsgType) (addr : Option Octets) (env : MsgEnv)
  | receive (auth : Bool) (buf : Octets)
  | timer (now timeout : ℕ) (env : TimerEnv)
  | retryPrimary (now : ℕ) (auth acct : ConnectEnv)
  | flush (onlyAuth : Bool)
  | flushAuth (addr : Octets)

-- The client, and the identifiers that no message was sent with since they were obtained
structure World where
  client : Client
  fresh : List UInt8 := []

def exec (c : Crypto) (w : World) : Op → World
  | .getId =>
    let r := w.client.getId
    ⟨r.1, r.2 :: w.fresh.filter fun id => id ≠ r.2⟩
  | .send now msg type addr env =>
    ⟨(w.client.send c now msg type addr env).1, w.fresh.filter fun id => id ≠ msg.identifier⟩
  | .receive auth buf => { w with client := (w.client.receive auth buf).1 }
  | .timer now timeout env => { w with client := w.client.clientTimer c now timeout env }
  | .retryPrimary now auth acct => { w with client := w.client.retryPrimary c now auth acct }
  | .flush onlyAuth => { w with client := w.client.flush onlyAuth }
  | .flushAuth addr => { w with client := w.client.flushAuth addr }

-- The steps that can be taken: a message has a header and an identifier that was just obtained, a timeout is
-- registered, and nothing is said about what follows the use of memory that was freed.
def Real (w : World) (op : Op) : Prop :=
  w.client.usedFreed = false ∧
    match op with
    | .send _ msg _ _ _ => hdrSize ≤ msg.buf.length ∧ msg.identifier ∈ w.fresh
    | .timer _ timeout _ => timeout ∈ w.client.timers
    | _ => True

end Client

end WpaSupplicant.Radius
